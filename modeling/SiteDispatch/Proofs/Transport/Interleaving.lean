/-
  SiteDispatch.Proofs.Transport.Interleaving

  Schedules fetched side by side are those fetched one device after the other.

  A call that keeps to its device finds it the same whatever has been asked of the others
  meanwhile, and to read an object changes nothing. All answers of a device are therefore those
  that it gives when it is asked alone (`Tracks`), and so is its schedule, in whatever order the
  calls are answered and however many devices are asked at the same time.
-/

import SiteDispatch.Proofs.Transport.Fanout
import SiteDispatch.Transport.Recorded

namespace SiteDispatch

/-! ## Calls that keep to their device -/

section Calls

variable {σ ν α : Type}

/-- A call to `device` depends on what `view` shows of that device, and changes nothing of what it
    shows of the others. -/
structure KeepsTo (view : σ → DeviceId → ν) (device : DeviceId) (call : DeviceCall σ α) :
    Prop where
  own : ∀ {s t s' : σ} {reply : Reply α}, view t device = view s device →
    call s = .ok (reply, s') → ∃ t', call t = .ok (reply, t') ∧ view t' device = view s' device
  others : ∀ {s s' : σ} {reply : Reply α}, call s = .ok (reply, s') →
    ∀ d, d ≠ device → view s' d = view s d

/-- A call that changes nothing, and depends on what is shown of its device. -/
structure Reads (view : σ → DeviceId → ν) (device : DeviceId) (call : DeviceCall σ α) :
    Prop where
  own : ∀ {s t s' : σ} {reply : Reply α}, view t device = view s device →
    call s = .ok (reply, s') → ∃ t', call t = .ok (reply, t')
  same : ∀ {s s' : σ} {reply : Reply α}, call s = .ok (reply, s') → ∀ d, view s' d = view s d

/-- The calls to a device affect that device only, and objects are read. -/
structure ScheduleSource.Isolates (source : ScheduleSource σ) (view : σ → DeviceId → ν) :
    Prop where
  schedule : ∀ d start stop, KeepsTo view d (source.getSchedule d start stop)
  flexibility : ∀ d id, Reads view d (source.getFlexibility d id)
  task : ∀ d id, Reads view d (source.getTask d id)

/-- Every call has an answer. -/
structure ScheduleSource.Answers (source : ScheduleSource σ) (start stop : Int) : Prop where
  schedule : ∀ d s, ∃ r, source.getSchedule d start stop s = .ok r
  flexibility : ∀ d id s, ∃ r, source.getFlexibility d id s = .ok r
  task : ∀ d id s, ∃ r, source.getTask d id s = .ok r

/-- A call is answered with `a`, be it because it has not been waited for any longer. -/
def RepliesWith (limit : Nat) (device : DeviceId) (call : DeviceCall σ α)
    (a : Except TransportError α) (s s' : σ) : Prop :=
  ∃ reply, call s = .ok (reply, s') ∧ a = (reply.within limit device).answer

/-- The answer of an event comes from the source. -/
def Serves (source : ScheduleSource σ) (limit : Nat) (start stop : Int) :
    FetchEvent → σ → σ → Prop
  | (d, .summary a) => RepliesWith limit d (source.getSchedule d start stop) a
  | (d, .flexibility _ id a) => RepliesWith limit d (source.getFlexibility d id) a
  | (d, .task _ id a) => RepliesWith limit d (source.getTask d id) a

/-- All answers of a trace come from the source, one after the other. -/
def Served (source : ScheduleSource σ) (limit : Nat) (start stop : Int) :
    List FetchEvent → σ → σ → Prop
  | [], s, s' => s = s'
  | e :: rest, s, s' =>
      ∃ t, Serves source limit start stop e s t ∧ Served source limit start stop rest t s'

variable {source : ScheduleSource σ} {view : σ → DeviceId → ν} {limit : Nat} {start stop : Int}
  {device : DeviceId} {s s' s'' t : σ} {trace : List FetchEvent}

theorem served_append {events : List FetchEvent} :
    Served source limit start stop (trace ++ events) s s'' ↔
      ∃ s', Served source limit start stop trace s s' ∧
        Served source limit start stop events s' s'' := by
  induction trace generalizing s with
  | nil => simp [Served]
  | cons e rest ih =>
      simp only [List.cons_append, Served, ih]
      constructor
      · rintro ⟨t, hserves, s', hrest, hevents⟩
        exact ⟨s', ⟨t, hserves, hrest⟩, hevents⟩
      · rintro ⟨s', ⟨t, hserves, hrest⟩, hevents⟩
        exact ⟨t, hserves, s', hrest, hevents⟩

/-! ## The answers of one device -/

/-- An answer that a device gives when its summary has been answered with `a` and has left `t`. -/
def OwnAnswer (source : ScheduleSource σ) (limit : Nat) (device : DeviceId)
    (a : Except TransportError ScheduleSummary) (t : σ) : FetchAnswer → Prop
  | .summary b => b = a
  | .flexibility _ id b => ∃ t', RepliesWith limit device (source.getFlexibility device id) b t t'
  | .task _ id b => ∃ t', RepliesWith limit device (source.getTask device id) b t t'

/-- A device has not been asked along `trace` and is shown as at the beginning, or it has given
    its own answers and is shown as its summary has left it. -/
inductive Tracks (source : ScheduleSource σ) (limit : Nat) (start stop : Int)
    (view : σ → DeviceId → ν) (s : σ) (trace : List FetchEvent) (s' : σ) (device : DeviceId) : Prop
  | silent (hnone : ∀ b, (device, b) ∉ trace) (hview : view s' device = view s device)
  | asked {a : Except TransportError ScheduleSummary} {t : σ}
      (hasked : (device, .summary a) ∈ trace)
      (hreplies : RepliesWith limit device (source.getSchedule device start stop) a s t)
      (hview : view s' device = view t device)
      (hown : ∀ b, (device, b) ∈ trace → OwnAnswer source limit device a t b)

/-- What a call answers it answers wherever the view of its device is the same. -/
theorem Reads.repliesWith {call : DeviceCall σ α} (h : Reads view device call)
    {a : Except TransportError α} (hview : view t device = view s device)
    (hreplies : RepliesWith limit device call a s s') :
    ∃ t', RepliesWith limit device call a t t' := by
  obtain ⟨reply, hcall, ha⟩ := hreplies
  obtain ⟨t', ht'⟩ := h.own hview hcall
  exact ⟨t', reply, ht', ha⟩

/-- What only reads keeps to its device. -/
theorem Reads.keepsTo {call : DeviceCall σ α} (h : Reads view device call) :
    KeepsTo view device call where
  own hview hcall := by
    obtain ⟨t', ht'⟩ := h.own hview hcall
    exact ⟨t', ht', ((h.same ht' device).trans hview).trans (h.same hcall device).symm⟩
  others hcall d _ := h.same hcall d

/-- Whatever is answered leaves the view of all other devices alone. -/
theorem Serves.others (hisolates : source.Isolates view) {answer : FetchAnswer}
    (h : Serves source limit start stop (device, answer) s s') :
    ∀ d, d ≠ device → view s' d = view s d := by
  cases answer with
  | summary a =>
      obtain ⟨reply, hcall, -⟩ := h
      exact (hisolates.schedule device start stop).others hcall
  | flexibility i id a =>
      obtain ⟨reply, hcall, -⟩ := h
      exact fun d _ => (hisolates.flexibility device id).same hcall d
  | task i id a =>
      obtain ⟨reply, hcall, -⟩ := h
      exact fun d _ => (hisolates.task device id).same hcall d

/-- An object is answered as the summary has left it. -/
theorem Tracks.object (h : Tracks source limit start stop view s trace s' device)
    (hasked : ∃ a, (device, .summary a) ∈ trace) {answer : FetchAnswer}
    (hview : view s'' device = view s' device)
    (hanswer : ∀ t, view t device = view s' device →
      ∀ a, OwnAnswer source limit device a t answer) :
    Tracks source limit start stop view s (trace ++ [(device, answer)]) s'' device := by
  cases h with
  | silent hnone _ =>
      obtain ⟨a, hmem⟩ := hasked
      exact absurd hmem (hnone _)
  | @asked a t hasked hreplies hshown hown =>
      refine .asked (List.mem_append_left _ hasked) hreplies (hview.trans hshown) fun b hmem => ?_
      rcases List.mem_append.1 hmem with hold | hnew
      · exact hown b hold
      · obtain rfl := (Prod.mk.inj (List.mem_singleton.1 hnew)).2
        exact hanswer t hshown.symm a

/-- An answer of a device keeps it tracked, -/
theorem Tracks.takes (hisolates : source.Isolates view)
    (h : Tracks source limit start stop view s trace s' device) {x x' : Fetch}
    {answer : FetchAnswer} (hrecords : x.Records device trace) (htakes : x.Takes answer x')
    (hserves : Serves source limit start stop (device, answer) s' s'') :
    Tracks source limit start stop view s (trace ++ [(device, answer)]) s'' device := by
  cases htakes with
  | summary hunasked a =>
      have hnone := hrecords.none_of_unasked hunasked
      cases h with
      | asked hmem => exact absurd hmem (hnone _)
      | silent _ hview =>
          obtain ⟨reply, hcall, ha⟩ := hserves
          obtain ⟨t, ht, hshown⟩ := (hisolates.schedule device start stop).own hview.symm hcall
          refine .asked (by simp) ⟨reply, ht, ha⟩ hshown.symm fun b hmem => ?_
          rcases List.mem_append.1 hmem with hold | hnew
          · exact absurd hold (hnone b)
          · obtain rfl := (Prod.mk.inj (List.mem_singleton.1 hnew)).2
            rfl
  | @flexibility i id hid hopen a =>
      obtain ⟨reply, hcall, ha⟩ := hserves
      refine h.object (hrecords.exists_summary _ hid)
        ((hisolates.flexibility device id).same hcall _) fun t ht b => ?_
      exact (hisolates.flexibility device id).repliesWith ht ⟨reply, hcall, ha⟩
  | @task i id hdone hid hopen a =>
      obtain ⟨reply, hcall, ha⟩ := hserves
      refine h.object (hrecords.exists_summary _ hid)
        ((hisolates.task device id).same hcall _) fun t ht b => ?_
      exact (hisolates.task device id).repliesWith ht ⟨reply, hcall, ha⟩

/-- and so does one of another device. -/
theorem Tracks.takes_other (hisolates : source.Isolates view)
    (h : Tracks source limit start stop view s trace s' device) {other : DeviceId}
    (hother : device ≠ other) {answer : FetchAnswer}
    (hserves : Serves source limit start stop (other, answer) s' s'') :
    Tracks source limit start stop view s (trace ++ [(other, answer)]) s'' device := by
  have hview := hserves.others hisolates device hother
  have hmem : ∀ b, (device, b) ∈ trace ++ [(other, answer)] ↔ (device, b) ∈ trace := by
    simp [hother]
  cases h with
  | silent hnone hshown =>
      exact .silent (fun b hb => hnone b ((hmem b).1 hb)) (hview.trans hshown)
  | asked hasked hreplies hshown hown =>
      exact .asked ((hmem _).2 hasked) hreplies (hview.trans hshown)
        fun b hb => hown b ((hmem b).1 hb)

/-- All devices are tracked, whatever the order of the answers. -/
theorem Fanout.Reached.tracks {lanes : Nat} {devices : List DeviceId} {f : Fanout}
    (hisolates : source.Isolates view) (hdistinct : devices.Nodup)
    (h : Reached lanes devices trace f) :
    ∀ s', Served source limit start stop trace s s' → ∀ d,
      Tracks source limit start stop view s trace s' d := by
  induction h with
  | begun =>
      rintro s' rfl d
      exact .silent (fun b => List.not_mem_nil) rfl
  | @step trace events f f' hreached hstep ih =>
      intro s'' hserved d
      obtain ⟨s', htrace, hevents⟩ := served_append.1 hserved
      have htracks := ih s' htrace d
      cases hstep with
      | begins hlane =>
          obtain rfl : s' = s'' := hevents
          rwa [List.append_nil]
      | collects hgives =>
          obtain rfl : s' = s'' := hevents
          rwa [List.append_nil]
      | @takes device x x' answer waiting front back collected htakes =>
          obtain ⟨t, hserves, rfl⟩ := hevents
          by_cases hd : d = device
          · subst hd
            have hrecords := (hreached.orderly hdistinct).active d x (by simp)
            exact htracks.takes hisolates hrecords htakes hserves
          · exact htracks.takes_other hisolates hd hserves

/-! ## Asked alone -/

/-- Objects that are asked for one after the other come with the same answers. -/
theorem fetchObjects_of_answers (limit : Nat) {call : Int → DeviceCall σ α}
    (hreads : ∀ id, Reads view device (call id)) (t : σ) :
    ∀ {ids : List Int} {answers : List (Except TransportError α)}, answers.length = ids.length →
      (∀ (i : Nat) (id : Int) (a : Except TransportError α), ids[i]? = some id →
        answers[i]? = some a → ∃ t', RepliesWith limit device (call id) a t t') →
      ∀ u, view u device = view t device →
        ∃ delay u', fetchObjects limit device call ids u
            = .ok ((answers.filterMap Except.toOption, delay), u') ∧ ∀ d, view u' d = view u d
  | [], [], _, _, u, _ => ⟨0, u, rfl, fun _ => rfl⟩
  | id :: ids, a :: answers, hlength, hanswers, u, hview => by
      obtain ⟨t', hreplies⟩ := hanswers 0 id a rfl rfl
      obtain ⟨u₁, reply, hcall, rfl⟩ := (hreads id).repliesWith hview hreplies
      have hsame := (hreads id).same hcall
      obtain ⟨delay, u', hrest, hsame'⟩ := fetchObjects_of_answers limit hreads t
        (Nat.succ.inj hlength) (fun i k b hk hb => hanswers (i + 1) k b hk hb) u₁
        ((hsame device).trans hview)
      refine ⟨max (reply.within limit device).delay delay, u', ?_,
        fun d => (hsame' d).trans (hsame d)⟩
      rw [fetchObjects]
      refine bind_eq_ok_iff.2 ⟨_, hcall, bind_eq_ok_iff.2 ⟨_, hrest, ?_⟩⟩
      rw [List.filterMap_cons]
      cases (reply.within limit device).answer <;> rfl

/-- The schedule of a device comes to `result` when the device is asked alone, at any time at
    which it is shown as in `s`; other devices are left alone. -/
def ComesTo (source : ScheduleSource σ) (limit : Nat) (start stop : Int) (view : σ → DeviceId → ν)
    (s : σ) (device : DeviceId) (result : Except TransportError ScheduleData) : Prop :=
  ∀ u, view u device = view s device →
    ∃ delay u', fetchSchedule source limit device start stop u = .ok (⟨result, delay⟩, u') ∧
      ∀ d, d ≠ device → view u' d = view u d

/-- What a device has answered among others is what it answers alone. -/
theorem Tracks.comesTo (hisolates : source.Isolates view)
    (h : Tracks source limit start stop view s trace s' device) {x : Fetch}
    (hrecords : x.Records device trace) {result : Except TransportError ScheduleData}
    (hgives : x.Gives result) : ComesTo source limit start stop view s device result := by
  intro u hu
  obtain ⟨b, hsummary⟩ := hgives.exists_summary
  cases h with
  | silent hnone _ => exact absurd ((hrecords.summary b).2 hsummary) (hnone _)
  | @asked a t hasked hreplies hshown hown =>
      obtain ⟨reply, hcall, rfl⟩ := hreplies
      obtain ⟨u₁, hu₁, hview⟩ := (hisolates.schedule device start stop).own hu hcall
      have hothers := (hisolates.schedule device start stop).others hu₁
      have hheld := (hrecords.summary _).1 hasked
      cases hgives with
      | @failed e hfailed =>
          have herror : (reply.within limit device).answer = .error e :=
            Option.some.inj (hheld.symm.trans hfailed)
          refine ⟨(reply.within limit device).delay, u₁, ?_, hothers⟩
          refine bind_eq_ok_iff.2 ⟨_, hu₁, ?_⟩
          simp only [herror]
          rfl
      | @fetched summary flexibilities tasks hfetched hflexibilities htasks =>
          have hok : (reply.within limit device).answer = .ok summary :=
            Option.some.inj (hheld.symm.trans hfetched)
          have hknown : x.known = some summary := by rw [Fetch.known, hfetched]; rfl
          have hf := hrecords.flexibilities
          have ht := hrecords.tasks
          rw [Fetch.flexibilityIds, hknown, hflexibilities] at hf
          rw [Fetch.taskIds, hknown, htasks] at ht
          -- The objects are asked for where the summary has left the device.
          obtain ⟨wait, u₂, hu₂, hsame₂⟩ := fetchObjects_of_answers limit
            (hisolates.flexibility device) t ((List.length_map _).symm.trans hf.length)
            (fun i id a hid ha => hown (.flexibility i id a)
              ((hf.answers i id a).2 ⟨hid, by rw [List.getElem?_map, ha]; rfl⟩)) u₁ hview
          obtain ⟨wait', u₃, hu₃, hsame₃⟩ := fetchObjects_of_answers limit
            (hisolates.task device) t ((List.length_map _).symm.trans ht.length)
            (fun i id a hid ha => hown (.task i id a)
              ((ht.answers i id a).2 ⟨hid, by rw [List.getElem?_map, ha]; rfl⟩)) u₂
            ((hsame₂ device).trans hview)
          refine ⟨(reply.within limit device).delay + wait + wait', u₃, ?_, fun d hd => ?_⟩
          · refine bind_eq_ok_iff.2 ⟨_, hu₁, ?_⟩
            simp only [hok]
            exact bind_eq_ok_iff.2 ⟨_, hu₂, bind_eq_ok_iff.2 ⟨_, hu₃, rfl⟩⟩
          · rw [hsame₃, hsame₂, hothers d hd]

/-- Devices that are asked one after the other come to what they come to alone. -/
theorem fetchReplies_of_comesTo (P : DeviceId → Except TransportError ScheduleData → Prop) :
    ∀ {ids : List DeviceId}, ids.Nodup →
      (∀ d ∈ ids, ∃ result, P d result ∧ ComesTo source limit start stop view s d result) →
      ∀ u, (∀ d ∈ ids, view u d = view s d) →
        ∃ replies u', fetchReplies source limit start stop ids u = .ok (replies, u') ∧
          replies.map (·.1) = ids ∧ ∀ d reply, (d, reply) ∈ replies → P d reply.answer
  | [], _, _, u, _ => ⟨[], u, rfl, rfl, fun _ _ h => absurd h List.not_mem_nil⟩
  | d :: ids, hdistinct, hresults, u, hviews => by
      obtain ⟨hnew, hrest⟩ := List.nodup_cons.1 hdistinct
      obtain ⟨result, hP, hcomes⟩ := hresults d List.mem_cons_self
      obtain ⟨delay, u₁, hfetched, hothers⟩ := hcomes u (hviews d List.mem_cons_self)
      obtain ⟨replies, u', hreplies, hnames, hall⟩ := fetchReplies_of_comesTo P hrest
        (fun e he => hresults e (List.mem_cons_of_mem _ he)) u₁ fun e he => by
          rw [hothers e (fun heq => hnew (heq ▸ he)), hviews e (List.mem_cons_of_mem _ he)]
      refine ⟨(d, ⟨result, delay⟩) :: replies, u', ?_, by rw [List.map_cons, hnames], ?_⟩
      · exact bind_eq_ok_iff.2 ⟨_, hfetched, bind_eq_ok_iff.2 ⟨_, hreplies, rfl⟩⟩
      · intro e reply hmem
        rcases List.mem_cons.1 hmem with heq | hmem
        · obtain ⟨rfl, rfl⟩ := Prod.mk.inj heq
          exact hP
        · exact hall e reply hmem

end Calls

/-! ## Devices that keep to themselves -/

namespace RecordedDevices

theorem reads_ask {α : Type} (device : DeviceId) (reply : RecordedDevice → Reply α) :
    Reads (fun s d => OrderedMap.get? s d) device (ask device reply) where
  own {s t s' answer} hview hcall := by
    refine ⟨t, ?_⟩
    rw [ask, hview]
    rw [ask] at hcall
    cases hget : OrderedMap.get? s device with
    | none => rw [hget] at hcall; cases hcall; rfl
    | some recorded => rw [hget] at hcall; cases hcall; rfl
  same {s s' answer} hcall d := by
    rw [ask] at hcall
    cases hget : OrderedMap.get? s device with
    | none => rw [hget] at hcall; cases hcall; rfl
    | some recorded => rw [hget] at hcall; cases hcall; rfl

theorem isolates : source.Isolates (fun s d => OrderedMap.get? s d) where
  schedule d _ _ := (reads_ask d _).keepsTo
  flexibility d _ := reads_ask d _
  task d _ := reads_ask d _

end RecordedDevices

namespace StorageDevices

/-- Reading an object of a device changes nothing. -/
theorem reads_ask {α : Type} (device : DeviceId)
    (read : StorageDevice → Except TransportError α) :
    Reads (fun s d => OrderedMap.get? s d) device (ask device fun d => (read d, d)) where
  own {s t s' reply} hview hcall := by
    cases hget : OrderedMap.get? s device with
    | none =>
        rw [ask, hget] at hcall
        cases hcall
        exact ⟨t, by rw [ask, hview, hget]⟩
    | some d =>
        simp only [ask, hget] at hcall
        cases hcall
        exact ⟨_, by simp only [ask, hview, hget]; rfl⟩
  same {s s' reply} hcall d := by
    cases hget : OrderedMap.get? s device with
    | none =>
        rw [ask, hget] at hcall
        cases hcall
        rfl
    | some found =>
        simp only [ask, hget, OrderedMap.insert_eq_self hget] at hcall
        cases hcall
        rfl

/-- A request to a store finds and changes its own device only. -/
theorem keepsTo_askStore {α : Type} (device : DeviceId)
    (request : StorageDevice → Except StoreError (α × StorageDevice)) :
    KeepsTo (fun s d => OrderedMap.get? s d) device (askStore device request) where
  own {s t s' reply} hview hcall := by
    cases hget : OrderedMap.get? s device with
    | none =>
        rw [askStore, hget] at hcall
        cases hcall
        exact ⟨t, by rw [askStore, hview, hget], hview⟩
    | some d =>
        rw [hget] at hview
        cases hrequest : request d with
        | error e =>
            simp only [askStore, hget, hrequest] at hcall
            obtain ⟨error, herror, heq⟩ := bind_eq_ok_iff.1 hcall
            cases heq
            refine ⟨t, ?_, by rw [hget]; exact hview⟩
            simp only [askStore, hview, hrequest]
            exact bind_eq_ok_iff.2 ⟨error, herror, rfl⟩
        | ok answer =>
            simp only [askStore, hget, hrequest] at hcall
            cases hcall
            refine ⟨OrderedMap.insert t device answer.2, ?_, ?_⟩
            · simp only [askStore, hview, hrequest]
            · exact (OrderedMap.get?_insert_self _ _ _).trans
                (OrderedMap.get?_insert_self _ _ _).symm
  others {s s' reply} hcall d hd := by
    cases hget : OrderedMap.get? s device with
    | none =>
        rw [askStore, hget] at hcall
        cases hcall
        rfl
    | some found =>
        cases hrequest : request found with
        | error e =>
            simp only [askStore, hget, hrequest] at hcall
            obtain ⟨error, -, heq⟩ := bind_eq_ok_iff.1 hcall
            cases heq
            rfl
        | ok answer =>
            simp only [askStore, hget, hrequest] at hcall
            cases hcall
            exact OrderedMap.get?_insert_of_ne hd

theorem isolates (now : Int) :
    (transport now).toScheduleSource.Isolates (fun s d => OrderedMap.get? s d) where
  schedule d _ _ := keepsTo_askStore d _
  flexibility d _ := reads_ask d _
  task d _ := reads_ask d _

end StorageDevices

/-! ## All devices -/

namespace Fanout

variable {σ ν : Type} {source : ScheduleSource σ} {view : σ → DeviceId → ν} {limit : Nat}
  {start stop : Int} {s s' : σ} {trace : List FetchEvent} {lanes : Nat} {devices : List DeviceId}
  {f : Fanout}

/-- What has come in in any order comes in one device after the other, too. -/
theorem Reached.retrieve_eq (hisolates : source.Isolates view) (hdistinct : devices.Nodup)
    (h : Reached lanes devices trace f) (hfinished : f.Finished)
    (hserved : Served source limit start stop trace s s') (lanes' : Nat) :
    ∃ retrieval u, retrieve source limit lanes' devices start stop s = .ok (retrieval, u) ∧
      retrieval.schedules = f.schedules := by
  have horderly := h.orderly hdistinct
  have hcollected := horderly.nodup_collected hdistinct
  have hcomes : ∀ d ∈ devices, ∃ result,
      (∃ reply, (d, reply) ∈ f.collected ∧ reply.answer = result) ∧
        ComesTo source limit start stop view s d result := by
    intro d hd
    obtain ⟨reply, hmem, x, hrecords, hgives⟩ := horderly.exists_fetch hfinished hd
    exact ⟨_, ⟨reply, hmem, rfl⟩,
      (h.tracks hisolates hdistinct s' hserved _).comesTo hisolates hrecords hgives⟩
  obtain ⟨replies, u, hreplies, hnames, hall⟩ :=
    fetchReplies_of_comesTo _ hdistinct hcomes s fun _ _ => rfl
  refine ⟨_, u, bind_eq_ok_iff.2 ⟨_, hreplies, rfl⟩, OrderedMap.ext_get? fun d => ?_⟩
  refine Option.ext fun data => ?_
  show (Schedules.ofReplies replies).get? d = some data ↔ f.schedules.get? d = some data
  rw [Schedules.get?_ofReplies_eq_some_iff (hnames ▸ hdistinct), schedules,
    Schedules.get?_ofReplies_eq_some_iff hcollected]
  constructor
  · rintro ⟨reply, hmem, hok⟩
    obtain ⟨reply', hmem', hsame⟩ := hall d reply hmem
    exact ⟨reply', hmem', hsame.trans hok⟩
  · rintro ⟨reply', hmem', hok⟩
    -- The one reply of the device is the one that has been collected.
    have hd : d ∈ replies.map (·.1) := by
      rw [hnames, ← horderly.mem_collected hfinished]
      exact List.mem_map_of_mem hmem'
    obtain ⟨⟨_, reply⟩, hmem, rfl⟩ := List.mem_map.1 hd
    obtain ⟨reply'', hmem'', hsame⟩ := hall _ reply hmem
    have heq := List.inj_on_of_nodup_map hcollected hmem' hmem'' rfl
    exact ⟨reply, hmem, hsame.symm.trans ((congrArg (·.2.answer) heq).symm.trans hok)⟩

/-- With a source that answers every call the fetches can always be brought to their end. -/
theorem Reached.finishes {trace : List FetchEvent} {f : Fanout} {s' : σ}
    (hanswers : source.Answers start stop) (hdistinct : devices.Nodup)
    (h : Reached lanes devices trace f) (hserved : Served source limit start stop trace s s') :
    ∃ trace' f' s'', Reached lanes devices (trace ++ trace') f' ∧
      Served source limit start stop (trace ++ trace') s s'' ∧ f'.Finished := by
  by_cases hfinished : f.Finished
  · exact ⟨[], f, s', by rwa [List.append_nil], by rwa [List.append_nil], hfinished⟩
  · -- There is a step whose answer comes from the source, and it brings the end nearer.
    obtain ⟨events, f₁, t, hstep, hevents⟩ : ∃ events f₁ t, Step lanes f events f₁ ∧
        Served source limit start stop events s' t := by
      rcases (h.orderly hdistinct).steps hfinished lanes with
        ⟨f₁, hstep⟩ | ⟨d, hsummary | ⟨i, id, hflexibility⟩ | ⟨i, id, htask⟩⟩
      · exact ⟨[], f₁, s', hstep, rfl⟩
      · obtain ⟨⟨reply, t⟩, hcall⟩ := hanswers.schedule d s'
        obtain ⟨f₁, hstep⟩ := hsummary (reply.within limit d).answer
        exact ⟨_, f₁, t, hstep, t, ⟨reply, hcall, rfl⟩, rfl⟩
      · obtain ⟨⟨reply, t⟩, hcall⟩ := hanswers.flexibility d id s'
        obtain ⟨f₁, hstep⟩ := hflexibility (reply.within limit d).answer
        exact ⟨_, f₁, t, hstep, t, ⟨reply, hcall, rfl⟩, rfl⟩
      · obtain ⟨⟨reply, t⟩, hcall⟩ := hanswers.task d id s'
        obtain ⟨f₁, hstep⟩ := htask (reply.within limit d).answer
        exact ⟨_, f₁, t, hstep, t, ⟨reply, hcall, rfl⟩, rfl⟩
    have hnearer := hstep.nearer
    obtain ⟨trace', f', s'', hreached, hserved', hend⟩ :=
      Reached.finishes hanswers hdistinct (h.step hstep) (served_append.2 ⟨s', hserved, hevents⟩)
    rw [List.append_assoc] at hreached hserved'
    exact ⟨events ++ trace', f', s'', hreached, hserved', hend⟩
termination_by (f.unasked, f.openCalls)
decreasing_by
  rcases hnearer with hless | ⟨hsame, hless⟩
  · exact .left _ _ hless
  · rw [hsame]
    exact .right _ hless

/-- The schedules of distinct devices, however many are asked at the same time and whatever they
    answer in whatever order, are those of the devices that have answered with a summary: with its
    fields and those objects, in its order, whose own calls have been answered with one. What
    another device answers makes no difference. If calls affect their own device only, that is what
    `retrieve` brings; and every retrieval can be brought to its end as long as all calls have
    an answer. -/
theorem retrieval_isolates_devices {lanes : Nat} {devices : List DeviceId}
    {trace : List FetchEvent} {f : Fanout} (hdistinct : devices.Nodup)
    (hreached : Reached lanes devices trace f) :
    (f.Finished →
      (∀ d, d ∈ devices ↔ ∃ a, (d, .summary a) ∈ trace) ∧
      (∀ d, d ∈ f.schedules.keys ↔ ∃ s, (d, .summary (.ok s)) ∈ trace) ∧
      (∀ d data, f.schedules.get? d = some data ↔ ∃ s, Fetch.Answered s d trace data) ∧
      ∀ {lanes' : Nat} {devices' : List DeviceId} {trace' : List FetchEvent} {f' : Fanout},
        devices'.Nodup → Reached lanes' devices' trace' f' → f'.Finished →
        ∀ d, (∀ a, (d, a) ∈ trace' ↔ (d, a) ∈ trace) →
          f'.schedules.get? d = f.schedules.get? d) ∧
    ∀ {σ ν : Type} {source : ScheduleSource σ} {view : σ → DeviceId → ν} {limit : Nat}
      {start stop : Int} {s s' : σ}, Served source limit start stop trace s s' →
      (source.Isolates view → f.Finished → ∀ lanes', ∃ retrieval u,
        retrieve source limit lanes' devices start stop s = .ok (retrieval, u) ∧
          retrieval.schedules = f.schedules) ∧
      (source.Answers start stop → ∃ trace' f' s'', Reached lanes devices (trace ++ trace') f' ∧
        Served source limit start stop (trace ++ trace') s s'' ∧ f'.Finished) := by
  have horderly := hreached.orderly hdistinct
  refine ⟨fun hfinished => ⟨fun d => horderly.mem_devices_iff hfinished,
    horderly.mem_keys_schedules hdistinct hfinished,
    horderly.get?_schedules hdistinct hfinished, ?_⟩, ?_⟩
  · intro lanes' devices' trace' f' hdistinct' hreached' hfinished' d hsame
    have horderly' := hreached'.orderly hdistinct'
    refine Option.ext fun data => ?_
    rw [horderly.get?_schedules hdistinct hfinished,
      horderly'.get?_schedules hdistinct' hfinished']
    constructor
    · rintro ⟨s, hs⟩
      exact ⟨s, hs.of_same fun a => (hsame a).symm⟩
    · rintro ⟨s, hs⟩
      exact ⟨s, hs.of_same hsame⟩
  · intro σ ν source view limit start stop s s' hserved
    exact ⟨fun hisolates hfinished lanes' =>
      hreached.retrieve_eq hisolates hdistinct hfinished hserved lanes',
      fun hanswers => hreached.finishes hanswers hdistinct hserved⟩

/-- The first device takes half a minute, and of the second one a flexibility is gone. -/
def slowAndPartial : RecordedDevices :=
  OrderedMap.ofList
    [(⟨1⟩, { schedule := ⟨.ok ⟨⟨1⟩, 0, 60, [], [], []⟩, 30⟩
             flexibilities := .empty
             tasks := .empty }),
     (⟨2⟩, { schedule := .immediate (.ok ⟨⟨2⟩, 0, 60, [4], [4, 5], []⟩)
             flexibilities :=
               .singleton 4 (.immediate (.ok { (default : Flexibility) with id := 4 }))
             tasks := .singleton 4 (.immediate (.ok (.idle 4 4 true 0 60))) })]

/-- Side by side the answers of the second device come first, that for the missing flexibility
    before the other one; then the first device is given up. One after the other, the schedules
    are the same. -/
theorem retrieval_isolates_devices_slowAndPartial :
    ∃ retrieval u,
      retrieve RecordedDevices.source 5 4 [⟨1⟩, ⟨2⟩] 0 60 slowAndPartial = .ok (retrieval, u) ∧
      retrieval.schedules.get? ⟨1⟩ = none ∧
      retrieval.schedules.get? ⟨2⟩ = some
        { device := ⟨2⟩
          start := 0
          stop := 60
          tasks := [.idle 4 4 true 0 60]
          flexibilities := [{ (default : Flexibility) with id := 4 }]
          constraints := [] } := by
  let summary : ScheduleSummary := ⟨⟨2⟩, 0, 60, [4], [4, 5], []⟩
  let found : Except TransportError Flexibility := .ok { (default : Flexibility) with id := 4 }
  let missing : Except TransportError Flexibility := .error (.notFound ⟨2⟩ .flexibility 5)
  let late : Except TransportError ScheduleSummary := .error (.timeout ⟨1⟩ 5)
  let task : Except TransportError Task := .ok (.idle 4 4 true 0 60)
  have hbegun : Reached 2 [⟨1⟩, ⟨2⟩] [] ⟨[], [(⟨1⟩, .fresh), (⟨2⟩, .fresh)], []⟩ :=
    (Reached.begun.step (.begins (by decide))).step (.begins (by decide))
  -- The second device answers for its summary and its flexibilities, the last one first.
  have hsecond : Reached 2 [⟨1⟩, ⟨2⟩]
      [(⟨2⟩, .summary (.ok summary)), (⟨2⟩, .flexibility 1 5 missing),
        (⟨2⟩, .flexibility 0 4 found)]
      ⟨[], [(⟨1⟩, .fresh), (⟨2⟩, ⟨some (.ok summary), [some found, some missing], [none]⟩)], []⟩ :=
    ((hbegun.step
      (@Step.takes 2 ⟨2⟩ _ _ _ [] [(⟨1⟩, .fresh)] [] [] (.summary rfl (.ok summary)))).step
      (.takes (.flexibility rfl rfl missing))).step
      (.takes (.flexibility rfl rfl found))
  -- The first device is given up and leaves its lane, and the task is the last to come.
  have hlast : Reached 2 [⟨1⟩, ⟨2⟩]
      [(⟨2⟩, .summary (.ok summary)), (⟨2⟩, .flexibility 1 5 missing),
        (⟨2⟩, .flexibility 0 4 found), (⟨1⟩, .summary late), (⟨2⟩, .task 0 4 task)]
      ⟨[], [(⟨2⟩, ⟨some (.ok summary), [some found, some missing], [some task]⟩)],
        [(⟨1⟩, .immediate (.error (.timeout ⟨1⟩ 5)))]⟩ :=
    ((hsecond.step (@Step.takes 2 ⟨1⟩ _ _ _ [] [] _ [] (.summary rfl late))).step
      (@Step.collects 2 ⟨1⟩ _ _ [] [] _ [] (.failed rfl))).step
      (@Step.takes 2 ⟨2⟩ _ _ _ [] [] [] _ (.task (by decide) rfl rfl task))
  have hreached := hlast.step (@Step.collects 2 ⟨2⟩ _ _ [] [] [] _
    (@Fetch.Gives.fetched _ summary [found, missing] [task] rfl rfl rfl))
  have hserved : Served RecordedDevices.source 5 0 60
      [(⟨2⟩, .summary (.ok summary)), (⟨2⟩, .flexibility 1 5 missing),
        (⟨2⟩, .flexibility 0 4 found), (⟨1⟩, .summary late), (⟨2⟩, .task 0 4 task)]
      slowAndPartial slowAndPartial :=
    ⟨_, ⟨_, rfl, rfl⟩, _, ⟨_, rfl, rfl⟩, _, ⟨_, rfl, rfl⟩, _, ⟨_, rfl, rfl⟩, _, ⟨_, rfl, rfl⟩, rfl⟩
  obtain ⟨-, hretrieved⟩ := retrieval_isolates_devices (by decide) hreached
  obtain ⟨retrieval, u, hretrieve, hsame⟩ :=
    (hretrieved hserved).1 RecordedDevices.isolates ⟨rfl, rfl⟩ 4
  refine ⟨retrieval, u, hretrieve, ?_, ?_⟩
  · rw [hsame]
    rfl
  · rw [hsame]
    rfl

end Fanout

end SiteDispatch
