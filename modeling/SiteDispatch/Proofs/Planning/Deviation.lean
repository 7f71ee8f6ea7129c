/-
  SiteDispatch.Proofs.Planning.Deviation

  Planning never takes a slot past its goal.

  The power desired for a slot would bring it to its goal if it ran through the whole
  slot. As long as a task may rest at any time, what is chosen for a piece lies between
  0 W and the desired power, so what a task delivers in a slot lies between nothing and
  what the slot lacks. Truncation, the limits of a corridor, a slot that is entered
  late or left early and the rounding of what is booked all err towards 0. Tasks and
  devices in a row each start from what the ones before have left.
-/

import SiteDispatch.Proofs.Planning.Delivery

namespace SiteDispatch

/-! ## Falling short -/

/-- `y` lies between 0 and `x`: it has the same sign, or is 0, and no larger magnitude. -/
def Undershoots (x y : Int) : Prop := 0 ≤ y ∧ y ≤ x ∨ x ≤ y ∧ y ≤ 0

namespace Undershoots

variable {x y z : Int}

theorem refl (x : Int) : Undershoots x x := by
  simp only [Undershoots]
  omega

/-- Nothing falls short of everything. -/
theorem zero (x : Int) : Undershoots x 0 := by
  simp only [Undershoots]
  omega

theorem trans (hxy : Undershoots x y) (hyz : Undershoots y z) : Undershoots x z := by
  simp only [Undershoots] at *
  omega

/-- What falls short of 0 is 0. -/
theorem eq_zero (h : Undershoots 0 y) : y = 0 := by
  simp only [Undershoots] at h
  omega

/-- What is left falls short as well. -/
theorem sub (h : Undershoots x y) : Undershoots x (x - y) := by
  simp only [Undershoots] at *
  omega

/-- Rounding to the nearest Wh does not reach past a whole number of them. -/
theorem nearestWattHours (h : Undershoots (x * 3600) y) :
    Undershoots x (Quantity.nearestWattHours y) := by
  rcases Int.lt_trichotomy y 0 with hy | rfl | hy
  · rw [Quantity.nearestWattHours, if_neg (by omega), show y + -1800 = -(-y + 1800) by omega,
      Int.neg_tdiv, Int.tdiv_eq_ediv_of_nonneg (by omega)]
    simp only [Undershoots] at *
    omega
  · rw [Quantity.nearestWattHours_zero]
    simp only [Undershoots] at *
    omega
  · rw [Quantity.nearestWattHours, if_pos hy.le, Int.tdiv_eq_ediv_of_nonneg (by omega)]
    simp only [Undershoots] at *
    omega

/-- Two powers of the desired direction add up over the time they take. -/
theorem add_mul {e v m n : Int} (he : Undershoots (x * m) e) (hv : Undershoots x v)
    (hm : 0 ≤ m) (hn : 0 ≤ n) : Undershoots (x * (m + n)) (e + v * n) := by
  rw [Int.mul_add]
  rcases hv with ⟨h0, hx⟩ | ⟨hx, h0⟩
  · have hlow := Int.mul_nonneg h0 hn
    have hhigh := Int.mul_le_mul_of_nonneg_right hx hn
    have hfull := Int.mul_nonneg (h0.trans hx) hm
    simp only [Undershoots] at he ⊢
    omega
  · have hhigh := Int.mul_nonpos_of_nonpos_of_nonneg h0 hn
    have hlow := Int.mul_le_mul_of_nonneg_right hx hn
    have hfull := Int.mul_nonpos_of_nonpos_of_nonneg (hx.trans h0) hm
    simp only [Undershoots] at he ⊢
    omega

/-- An equal share of `x` for each of `length` seconds, in no more seconds than that. -/
theorem tdiv_mul {length n : Int} (x : Int) (hn : 0 ≤ n) (hle : n ≤ length) :
    Undershoots x (x.tdiv length * n) := by
  -- What holds of one direction holds of the other.
  have hforth : ∀ y : Int, 0 ≤ y → 0 ≤ y.tdiv length * n ∧ y.tdiv length * n ≤ y := by
    intro y hy
    have hshare : 0 ≤ y.tdiv length := Int.tdiv_nonneg hy (by omega)
    have hwhole : y.tdiv length * length ≤ y := by
      rw [Int.tdiv_eq_ediv_of_nonneg hy]
      by_cases h0 : length = 0
      · simpa [h0] using hy
      · exact Int.ediv_mul_le y h0
    exact ⟨Int.mul_nonneg hshare hn, (Int.mul_le_mul_of_nonneg_left hle hshare).trans hwhole⟩
  rcases Int.le_total 0 x with hx | hx
  · exact .inl (hforth x hx)
  · have hback := hforth (-x) (by omega)
    rw [Int.neg_tdiv, Int.neg_mul] at hback
    right
    omega

end Undershoots

/-! ## Ledgers on the way to their goals -/

/-- Every slot with a goal has come closer to it from the same side, or has not moved;
    the others have not changed. -/
structure Approaches (goals : List (Option Int)) (ledger left : List Int) : Prop where
  slots : left.length = ledger.length
  closer : ∀ i g old new, goals.getD i none = some g → ledger[i]? = some old →
    left[i]? = some new → Undershoots (g - old) (g - new)
  kept : ∀ i, goals.getD i none = none → left[i]? = ledger[i]?

namespace Approaches

variable {goals : List (Option Int)} {ledger mid left : List Int}

theorem refl (goals : List (Option Int)) (ledger : List Int) : Approaches goals ledger ledger where
  slots := rfl
  closer i g old new _ hold hnew := by
    obtain rfl : old = new := Option.some.inj (hold.symm.trans hnew)
    exact Undershoots.refl _
  kept _ _ := rfl

theorem trans (hfirst : Approaches goals ledger mid) (hsecond : Approaches goals mid left) :
    Approaches goals ledger left where
  slots := hsecond.slots.trans hfirst.slots
  closer i g old new hgoal hold hnew := by
    have hi : i < mid.length := hsecond.slots ▸ (List.getElem?_eq_some_iff.1 hnew).1
    have hmid := List.getElem?_eq_getElem hi
    exact (hfirst.closer i g old _ hgoal hold hmid).trans
      (hsecond.closer i g _ new hgoal hmid hnew)
  kept i hgoal := (hsecond.kept i hgoal).trans (hfirst.kept i hgoal)

/-- What runs for part of a slot with no more than the desired power takes the slot
    towards its goal. -/
theorem book {slot : Nat} {slotLength n energy : Int} (hn : 0 ≤ n) (hle : n ≤ slotLength)
    (henergy : Undershoots
      (desiredPower (goals.getD slot none) (ledger.getD slot 0) slotLength * n) energy) :
    Approaches goals ledger
      (SiteDispatch.book ledger slot (Quantity.nearestWattHours energy)) where
  slots := List.length_modify ..
  closer i g old new hgoal hold hnew := by
    rw [SiteDispatch.book, List.getElem?_modify, hold] at hnew
    by_cases hi : slot = i
    · subst hi
      have hpower : desiredPower (goals.getD slot none) (ledger.getD slot 0) slotLength
          = ((g - old) * 3600).tdiv slotLength := by
        rw [hgoal, List.getD_eq_getElem?_getD, hold]
        rfl
      rw [hpower] at henergy
      have hbooked := (((Undershoots.tdiv_mul _ hn hle).trans henergy).nearestWattHours).sub
      obtain rfl : old + Quantity.nearestWattHours energy = new := by simpa using hnew
      rwa [Int.sub_sub] at hbooked
    · obtain rfl : old = new := by simpa [hi] using hnew
      exact Undershoots.refl _
  kept i hgoal := by
    rw [SiteDispatch.book, List.getElem?_modify]
    by_cases hi : slot = i
    · -- Without a goal nothing has been delivered.
      subst hi
      rw [hgoal, desiredPower, Int.zero_mul] at henergy
      rw [henergy.eq_zero, Quantity.nearestWattHours_zero]
      simp
    · simp [hi]

end Approaches

/-! ## The power of one piece -/

namespace Interval

/-- Within a range that holds 0 and a bound that is kept, 0 W is admissible. -/
theorem exists_admissible {corridor bound : Interval} {energy length : Int}
    (hcorridor : corridor.contains 0) (hbound : bound.Keeps energy) (hlength : 0 < length) :
    ∃ range, admissible corridor bound energy length = some range ∧ range.contains 0 := by
  obtain ⟨hlow, hhigh⟩ := contains_iff.1 hcorridor
  obtain ⟨hleast, hgreatest⟩ := hbound
  have hleft : (if bound.low = Quantity.least then corridor.low
      else max corridor.low (-(Int.fdiv (-(bound.low - energy)) length))) ≤ 0 := by
    split
    · exact hlow
    · have hroom := Int.fdiv_nonneg (show 0 ≤ -(bound.low - energy) by omega) hlength.le
      omega
  have hright : 0 ≤ (if bound.high = Quantity.greatest then corridor.high
      else min corridor.high (Int.fdiv (bound.high - energy) length)) := by
    split
    · exact hhigh
    · have hroom := Int.fdiv_nonneg (show 0 ≤ bound.high - energy by omega) hlength.le
      omega
  exact ⟨_, admissible_eq_some_iff.2 ⟨hleft.trans hright, rfl⟩, contains_iff.2 ⟨hleft, hright⟩⟩

/-- A wider bound is kept by whatever keeps this one. -/
theorem Keeps.widen {bound wider : Interval} {total : Int} (hkeeps : bound.Keeps total)
    (hlow : wider.low ≤ bound.low) (hhigh : bound.high ≤ wider.high)
    (hleast : Quantity.least ≤ wider.low) (hgreatest : wider.high ≤ Quantity.greatest) :
    wider.Keeps total := by
  obtain ⟨hbelow, habove⟩ := hkeeps
  simp only [Keeps]
  omega

theorem keeps_zero {bound : Interval} (h : bound.contains 0) : bound.Keeps 0 :=
  have ⟨hlow, hhigh⟩ := contains_iff.1 h
  ⟨.inr hlow, .inr hhigh⟩

end Interval

/-- The bound on the energy delivered by `t` that planning works with. -/
def Flexibility.bufferedBound (f : Flexibility) (buffer t : Int) : Interval :=
  ((f.energyConstraint? t).getD Interval.unbounded).buffered buffer

/-- An envelope in which a task that is planned from the offset `entry` to `stop` may
    always rest: every power range holds 0 W, and the energy bounds that are left by the
    buffer hold 0 Ws and do not tighten. Their ends are in the narrow range, at the edges
    of which an end is open. -/
structure Flexibility.RestsBetween (f : Flexibility) (buffer entry stop : Int) : Prop where
  rests : ∀ i ∈ f.powerCorridor.values, i.contains 0
  narrow : ∀ t, entry ≤ t → t ≤ stop → Quantity.least ≤ (f.bufferedBound buffer t).low ∧
    (f.bufferedBound buffer t).high ≤ Quantity.greatest
  idles : ∀ t, entry ≤ t → t ≤ stop → (f.bufferedBound buffer t).contains 0
  widens : ∀ t u, entry ≤ t → t ≤ u → u ≤ stop →
    (f.bufferedBound buffer u).low ≤ (f.bufferedBound buffer t).low ∧
      (f.bufferedBound buffer t).high ≤ (f.bufferedBound buffer u).high

section Piece

variable {w : PlanningWindow} {f : Flexibility} {goals : List (Option Int)} {d : Draft} {p : Piece}
  {entry stop : Int} {ledger : List Int} {begins : Nat → Int}

/-- The corridor in force holds 0 W, also where none has been given. -/
theorem Flexibility.RestsBetween.contains_floorValue? {buffer : Int}
    (h : f.RestsBetween buffer entry stop) (t : Int) :
    ((f.powerCorridor.floorValue? t).getD Interval.zero).contains 0 := by
  cases hfloor : f.powerCorridor.floorValue? t with
  | none => rfl
  | some i =>
      obtain ⟨k, -, hget⟩ := OrderedMap.exists_key_of_floorValue? hfloor
      exact h.rests i (OrderedMap.mem_values_iff_get?.2 ⟨k, hget⟩)

/-- What keeps a bound keeps all later ones. -/
theorem Flexibility.RestsBetween.keeps {buffer t u total : Int}
    (h : f.RestsBetween buffer entry stop) (ht : entry ≤ t) (htu : t ≤ u) (hu : u ≤ stop)
    (hkeeps : (f.bufferedBound buffer t).Keeps total) :
    (f.bufferedBound buffer u).Keeps total :=
  have ⟨hlow, hhigh⟩ := h.widens t u ht htu hu
  have ⟨hleast, hgreatest⟩ := h.narrow u (ht.trans htu) hu
  hkeeps.widen hlow hhigh hleast hgreatest

/-- Where 0 W is admissible the chosen power falls short of the desired one, and the
    bound at the end of the piece is kept. -/
theorem choosePower_undershoots (goals : List (Option Int))
    (hcorridor : ((f.powerCorridor.floorValue? p.start).getD Interval.zero).contains 0)
    (hbound : (f.bufferedBound w.buffer p.stop).Keeps d.energy) (hforward : p.start < p.stop)
    (hkeep : Quantity.low32 p.stop = p.stop) :
    Undershoots (desiredPower (goals.getD p.slot none) (d.ledger.getD p.slot 0) w.slotLength)
        (choosePower f w goals d p) ∧
      (f.bufferedBound w.buffer p.stop).Keeps
        (d.energy + choosePower f w goals d p * p.length) := by
  have hlength : 0 < p.length := by
    simp only [Piece.length]
    omega
  obtain ⟨range, hrange, hzero⟩ := Interval.exists_admissible hcorridor hbound hlength
  obtain ⟨hlow, hhigh⟩ := Interval.contains_iff.1 hzero
  have hchosen : choosePower f w goals d p
      = max range.low (min (desiredPower (goals.getD p.slot none) (d.ledger.getD p.slot 0)
          w.slotLength) range.high) := by
    rw [choosePower, hkeep]
    change admissible _ (f.bufferedBound w.buffer p.stop) _ _ = _ at hrange
    rw [← Flexibility.bufferedBound, hrange]
  rw [hchosen]
  generalize desiredPower _ _ _ = desired
  constructor
  · simp only [Undershoots]
    omega
  · exact (keeps_of_admissible hlength hrange (Interval.contains_iff.2 (by omega))).2

/-! ## Along the way -/

/-- A draft by the offset `here` in `slot` that has not passed a goal: the energy
    delivered keeps all bounds to come, what is pending falls short of what the slot
    would take by now, and what is booked has come closer. -/
structure Draft.Steered (f : Flexibility) (w : PlanningWindow) (goals : List (Option Int))
    (ledger : List Int) (begins : Nat → Int) (stop here : Int) (slot : Nat) (d : Draft) :
    Prop where
  kept : ∀ t, here ≤ t → t ≤ stop → (f.bufferedBound w.buffer t).Keeps d.energy
  pending : Undershoots
    (desiredPower (goals.getD slot none) (d.ledger.getD slot 0) w.slotLength
      * (here - begins slot)) d.slotEnergy
  booked : Approaches goals ledger d.ledger

/-- Every piece of a way keeps a draft from passing a goal. -/
theorem Draft.Steered.extend (h : f.RestsBetween w.buffer entry stop)
    (hgrid : ∀ i, begins (i + 1) = begins i + w.slotLength) (h0 : 0 ≤ p.start)
    (hentry : entry ≤ p.start) (hstop : p.stop ≤ stop) (hshort : stop ≤ Quantity.greatest)
    (hp : p.InSlot begins) (hd : d.Steered f w goals ledger begins stop p.start p.slot) :
    (d.extend f w goals p).Steered f w goals ledger begins stop p.stop p.nextSlot := by
  have hforward := hp.forward
  have hopens := hp.opens
  have hlow32 : Quantity.low32 p.stop = p.stop :=
    Quantity.low32_eq_self (by simp only [Quantity.least]; omega) (by omega)
  obtain ⟨hpower, hkeeps⟩ := choosePower_undershoots goals
    (h.contains_floorValue? p.start) (hd.kept p.stop hforward.le hstop) hforward hlow32
  have hkept : ∀ t, p.stop ≤ t → t ≤ stop →
      (f.bufferedBound w.buffer t).Keeps (d.extend f w goals p).energy := fun t ht hle =>
    h.keeps (by omega) ht hle hkeeps
  -- The piece adds its share to what is pending.
  have hpending := hd.pending.add_mul hpower (show 0 ≤ p.start - begins p.slot by omega)
    (show 0 ≤ p.length by simp only [Piece.length]; omega)
  rw [show p.start - begins p.slot + p.length = p.stop - begins p.slot by
    simp only [Piece.length]; omega] at hpending
  cases hclose : p.closesSlot with
  | false =>
      obtain ⟨hslotEnergy, hledger⟩ := extend_of_open f w goals d hclose
      have hslot : p.nextSlot = p.slot := by simp [Piece.nextSlot, hclose]
      exact ⟨hkept, by rw [hslotEnergy, hledger, hslot]; exact hpending,
        by rw [hledger]; exact hd.booked⟩
  | true =>
      obtain ⟨hslotEnergy, hledger⟩ := extend_of_closed f w goals d hclose
      have hend := hp.closes.1 hclose
      have hwhole := hgrid p.slot
      -- The next slot has just begun.
      exact ⟨hkept, by rw [hslotEnergy]; exact Undershoots.zero _,
        by rw [hledger]; exact hd.booked.trans (Approaches.book (by omega) (by omega) hpending)⟩

end Piece

/-! ## Tasks and devices -/

section Plan

variable {w : PlanningWindow} {f : Flexibility} {task : Task}

/-- No task that is planned takes a slot past its goal. -/
theorem planTask_approaches (hgrid : 1 ≤ w.slotLength) (horigin : w.origin ≤ w.start)
    (hspans : w.Spans task)
    (hrests : f.RestsBetween w.buffer (w.entry task) task.runningTime)
    (goals : List (Option Int)) (ledger : List Int) :
    Approaches goals ledger (planTask w goals f task ledger).2 := by
  have hentry := w.entry_nonneg task
  have hstart : Draft.Steered f w goals ledger (w.slotOffset task) task.runningTime
      (w.entry task) (w.walk task).slot ⟨[], 0, 0, ledger⟩ :=
    { kept := fun t ht hle => Interval.keeps_zero (hrests.idles t ht hle)
      pending := Undershoots.zero _
      booked := Approaches.refl goals ledger }
  have hsteered := finishedDraft_along hgrid horigin hspans goals f ledger hstart
    fun p d hp hle hslot hd => hd.extend hrests (w.slotOffset_succ task) (hentry.trans hp) hp hle
      hspans.short hslot
  have hbooks := books_finishedDraft hgrid horigin hspans goals f ledger
  have hopens := hbooks.opens
  have hwithin := hbooks.within
  rw [w.slotOffset_succ] at hwithin
  rw [planTask_eq hgrid hspans]
  -- The slot in which the way is over has not been left.
  exact hsteered.booked.trans (Approaches.book (by omega) (by omega) hsteered.pending)

/-- Tasks one after the other, each from where the one before has led. -/
theorem planTasks_approaches (hgrid : 1 ≤ w.slotLength) (horigin : w.origin ≤ w.start)
    (goals : List (Option Int)) {l : List (Flexibility × Task)}
    (hall : ∀ e ∈ l, w.Spans e.2 ∧ e.1.RestsBetween w.buffer (w.entry e.2) e.2.runningTime)
    (ledger : List Int) : Approaches goals ledger (planTasks w goals l ledger).2 := by
  induction l generalizing ledger with
  | nil => exact Approaches.refl goals ledger
  | cons e rest ih =>
      obtain ⟨f, task⟩ := e
      obtain ⟨hspans, hrests⟩ := hall (f, task) List.mem_cons_self
      have hone := planTask_approaches hgrid horigin hspans hrests goals ledger
      have hrest := ih (fun e he => hall e (List.mem_cons_of_mem _ he))
        (planTask w goals f task ledger).2
      exact hone.trans hrest

/-- An allocation never overshoots: whatever is planned, all devices together take every
    slot with a goal closer to it, or leave it where it was, but never past it, and they
    leave every slot without a goal as it was. It is enough that each planned task may
    rest as long as it is planned. -/
theorem allocation_never_overshoots (w : PlanningWindow) (goals : List (Option Int))
    (ledger : List Int) (schedules : Schedules) (hgrid : 1 ≤ w.slotLength)
    (horigin : w.origin ≤ w.start)
    (hrests : ∀ device data, schedules.get? device = some data →
      ∀ id f task, (data.plannable w).get? id = some (f, task) →
        w.Spans task ∧ f.RestsBetween w.buffer (w.entry task) task.runningTime) :
    ∃ plan left, allocate w goals ledger schedules = .ok (plan, left) ∧
      left.length = ledger.length ∧
      ∀ i before after, ledger[i]? = some before → left[i]? = some after →
        (∀ goal, goals.getD i none = some goal → Undershoots (goal - before) (goal - after)) ∧
        (goals.getD i none = none → after = before) := by
  have hagenda : ∀ e ∈ schedules.agenda w,
      w.Spans e.2 ∧ e.1.RestsBetween w.buffer (w.entry e.2) e.2.runningTime := by
    rintro ⟨f, task⟩ he
    obtain ⟨device, data, id, hdata, hpair⟩ := exists_plannable_of_mem_agenda he
    exact hrests device data hdata id f task hpair
  have happroaches := planTasks_approaches hgrid horigin goals hagenda ledger
  rw [← congrArg Prod.snd (allocation_eq_planTasks w goals ledger schedules)] at happroaches
  refine ⟨_, _, allocate_eq_ok hgrid goals ledger schedules, happroaches.slots, ?_⟩
  intro i before after hbefore hafter
  refine ⟨fun goal hgoal => happroaches.closer i goal before after hgoal hbefore hafter,
    fun hnone => ?_⟩
  have hkept := happroaches.kept i hnone
  exact Option.some.inj (hafter.symm.trans (hkept.trans hbefore))

end Plan

/-- The battery that is at hand for half an hour may rest all the time. -/
theorem restsBetween_halfHour : halfHour.RestsBetween 0 0 1800 := by
  have hbound : ∀ t, 0 ≤ t → halfHour.bufferedBound 0 t = ⟨-3600000, 3600000⟩ := by
    intro t ht
    rw [Flexibility.bufferedBound, Flexibility.energyConstraint?_of_lastEntry? (k := 0) rfl ht]
    rfl
  exact
    { rests := by decide
      narrow := fun t ht _ => by rw [hbound t ht]; decide
      idles := fun t ht _ => by rw [hbound t ht]; decide
      widens := fun t u ht htu _ => by rw [hbound t ht, hbound u (ht.trans htu)]; decide }

theorem allocation_never_overshoots_secondHalf :
    1 ≤ secondHalf.window.slotLength ∧ secondHalf.window.origin ≤ secondHalf.window.start ∧
      halfHour.RestsBetween secondHalf.window.buffer 0 1800 ∧
      ∃ plan left, allocate secondHalf.window [some 0] [800] secondHalf.schedules
          = .ok (plan, left) ∧ left[0]? = some 500 ∧ Undershoots (0 - 800) (0 - 500) := by
  obtain ⟨plan, left, hok, -, hslots⟩ := allocation_never_overshoots secondHalf.window [some 0]
    [800] secondHalf.schedules (by decide) (by decide) fun device data hdata id f task hpair => by
      have hspans := spansAll_secondHalf device data hdata id f task hpair
      obtain ⟨rfl, rfl⟩ := plannable_secondHalf hdata hpair
      exact ⟨hspans, restsBetween_halfHour⟩
  obtain ⟨rfl, rfl⟩ := Prod.mk.inj (Except.ok.inj (allocate_secondHalf.symm.trans hok))
  exact ⟨by decide, by decide, restsBetween_halfHour, _, _, hok, rfl,
    (hslots 0 800 500 rfl rfl).1 0 rfl⟩

end SiteDispatch
