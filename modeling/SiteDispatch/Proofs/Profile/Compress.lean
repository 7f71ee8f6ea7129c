/-
  SiteDispatch.Proofs.Profile.Compress

  The shortest form of a profile denotes the same step function.

  Compression drops entries that repeat the value before them in the full profile.
  The list is followed entry by entry with the value in force so far: dropping an
  entry that repeats it leaves that value in force. What is kept depends on the step
  function and on which of three keys are there, so the shortest form is a normal form.
-/

import SiteDispatch.Proofs.Profile.Integral

namespace SiteDispatch
namespace PowerProfile

variable {p : PowerProfile} {runningTime : Int}

/-- The value in force at `t` after the entries of an ascending list, `before`
    having been in force until then. -/
def valueAfter (before : Option Int) : List (Int × Int) → Int → Option Int
  | [], _ => before
  | e :: rest, t => if e.1 ≤ t then valueAfter (some e.2) rest t else before

theorem valueAfter_eq_before {before : Option Int} {l : List (Int × Int)} {t : Int}
    (h : ∀ e ∈ l, t < e.1) : valueAfter before l t = before := by
  cases l with
  | nil => rfl
  | cons e rest =>
      have := h e (by simp)
      rw [valueAfter, if_neg (by omega)]

theorem valueAfter_eq_getLast? (before : Option Int) (l : List (Int × Int)) (t : Int) :
    valueAfter before l t
      = ((l.takeWhile (fun e => ¬ t < e.1)).getLast?.map (·.2)).or before := by
  induction l generalizing before with
  | nil => simp [valueAfter]
  | cons e rest ih =>
      by_cases h : e.1 ≤ t
      · have hnot : ¬ t < e.1 := by omega
        rw [valueAfter, if_pos h, ih, List.takeWhile_cons_of_pos (by simpa using h),
          List.getLast?_cons]
        cases (rest.takeWhile (fun e => ¬ t < e.1)).getLast? <;> simp
      · rw [valueAfter, if_neg h, List.takeWhile_cons_of_neg (by simpa using h)]
        simp

theorem floorValue?_eq_valueAfter (p : PowerProfile) (t : Int) :
    p.floorValue? t = valueAfter none p.entries t := by
  rw [valueAfter_eq_getLast?, OrderedMap.floorValue?, OrderedMap.floorEntry?, Option.or_none]

/-- Dropping repeated values changes nothing, whatever keys are pinned. -/
theorem valueAfter_changes (pinned : Int → Bool) (t : Int) :
    ∀ (before : Option Int) (l : List (Int × Int)), l.Pairwise (fun a b => a.1 < b.1) →
      valueAfter before (changes pinned before l) t = valueAfter before l t
  | _, [], _ => rfl
  | before, e :: rest, h => by
      obtain ⟨he, hrest⟩ := List.pairwise_cons.1 h
      have ih := valueAfter_changes pinned t (some e.2) rest hrest
      unfold changes
      split
      · rw [valueAfter, valueAfter, ih]
      · -- A dropped entry repeats the value before it.
        rename_i hdrop
        have hsame : before = some e.2 := by
          simp only [Bool.or_eq_true, decide_eq_true_eq, not_or, ne_eq, not_not] at hdrop
          exact hdrop.2
        by_cases het : e.1 ≤ t
        · rw [valueAfter, if_pos het, hsame, ih]
        · -- Whatever stays of the rest is later still.
          rw [valueAfter, if_neg het, valueAfter_eq_before]
          intro x hx
          have := he x ((changes_sublist pinned (some e.2) rest).subset hx)
          omega

theorem floorValue?_compress (p : PowerProfile) (runningTime t : Int) :
    (compress p runningTime).floorValue? t = p.floorValue? t := by
  rw [floorValue?_eq_valueAfter, floorValue?_eq_valueAfter]
  exact valueAfter_changes _ t none p.entries p.ascending

@[simp] theorem powerAt_compress (p : PowerProfile) (runningTime t : Int) :
    powerAt (compress p runningTime) t = powerAt p t := by
  rw [powerAt, powerAt, floorValue?_compress]

/-! ## The keys that stay -/

theorem get?_of_get?_compress {k v : Int} (h : (compress p runningTime).get? k = some v) :
    p.get? k = some v := by
  rw [OrderedMap.get?_eq_some_iff] at h ⊢
  exact (changes_sublist _ _ _).subset h

theorem mem_keys_of_compress {k : Int} (h : k ∈ (compress p runningTime).keys) : k ∈ p.keys := by
  obtain ⟨v, hv⟩ := OrderedMap.mem_keys_iff_get?.1 h
  exact OrderedMap.mem_keys_iff_get?.2 ⟨v, get?_of_get?_compress hv⟩

theorem mem_changes_of_pinned {pinned : Int → Bool} {e : Int × Int} (he : pinned e.1 = true) :
    ∀ {previous : Option Int} {l : List (Int × Int)}, e ∈ l → e ∈ changes pinned previous l
  | previous, x :: rest, hmem => by
      unfold changes
      rcases List.mem_cons.1 hmem with rfl | hmem
      · simp [he]
      · have ih : e ∈ changes pinned (some x.2) rest := mem_changes_of_pinned he hmem
        split
        · exact List.mem_cons_of_mem _ ih
        · exact ih

theorem get?_compress_of_pinned {k v : Int} (h : p.get? k = some v)
    (hk : k = 0 ∨ k = runningTime ∨ p.lastKey? = some k) :
    (compress p runningTime).get? k = some v := by
  rw [OrderedMap.get?_eq_some_iff] at h ⊢
  refine mem_changes_of_pinned ?_ h
  simp only [Bool.or_eq_true, decide_eq_true_eq, or_assoc]
  exact hk.imp_right (Or.imp_right Eq.symm)

theorem zero_mem_keys_compress (h : 0 ∈ p.keys) : 0 ∈ (compress p runningTime).keys := by
  obtain ⟨v, hv⟩ := OrderedMap.mem_keys_iff_get?.1 h
  exact OrderedMap.mem_keys_iff_get?.2 ⟨v, get?_compress_of_pinned hv (.inl rfl)⟩

theorem lastEntry?_compress {k v : Int} (h : p.lastEntry? = some (k, v)) :
    OrderedMap.lastEntry? (compress p runningTime) = some (k, v) := by
  have hlast : p.lastKey? = some k := OrderedMap.lastKey?_eq_of_lastEntry h
  obtain ⟨hget, hmax⟩ := OrderedMap.lastEntry?_eq_some_iff.1 h
  exact OrderedMap.lastEntry?_eq_some_iff.2
    ⟨get?_compress_of_pinned hget (.inr (.inr hlast)), fun j hj => hmax j (mem_keys_of_compress hj)⟩

theorem lastKey?_compress {k : Int} (h : p.lastKey? = some k) :
    (compress p runningTime).lastKey? = some k := by
  rw [OrderedMap.lastKey?_eq_map, Option.map_eq_some_iff] at h ⊢
  obtain ⟨⟨k', v⟩, he, rfl⟩ := h
  exact ⟨(k', v), lastEntry?_compress he, rfl⟩

/-! ## The shortest form -/

/-- Where repeated values have been dropped, none is left to drop. -/
theorem changes_changes (pinned : Int → Bool) (previous : Option Int) (l : List (Int × Int)) :
    changes pinned previous (changes pinned previous l) = changes pinned previous l := by
  induction l generalizing previous with
  | nil => rfl
  | cons e rest ih =>
      by_cases hkeep : (pinned e.1 || previous ≠ some e.2) = true
      · simp only [changes, if_pos hkeep, ih]
      · -- What has been dropped repeats the value before it.
        have hsame : previous = some e.2 := by
          simp only [Bool.or_eq_true, decide_eq_true_eq, not_or, ne_eq, not_not] at hkeep
          exact hkeep.2
        simp only [changes, if_neg hkeep]
        rw [hsame, ih]

theorem lastKey?_compress_eq (p : PowerProfile) (runningTime : Int) :
    (compress p runningTime).lastKey? = p.lastKey? := by
  cases hp : p.lastKey? with
  | some k => exact lastKey?_compress hp
  | none =>
      have hnil : p.entries = [] := List.map_eq_nil_iff.1 (List.getLast?_eq_none_iff.1 hp)
      rw [OrderedMap.lastKey?_eq_map, Option.map_eq_none_iff]
      show (changes _ none p.entries).getLast? = none
      rw [hnil]
      rfl

theorem compress_compress (p : PowerProfile) (runningTime : Int) :
    compress (compress p runningTime) runningTime = compress p runningTime := by
  apply OrderedMap.ext
  show changes (fun k => k = 0 || k = runningTime || some k = (compress p runningTime).lastKey?)
    none (compress p runningTime).entries = _
  rw [lastKey?_compress_eq]
  exact changes_changes _ none p.entries

/-! ## A normal form -/

/-- An entry is dropped exactly if its key is not pinned and it repeats the value in force just
    before it. -/
theorem mem_changes_iff (pinned : Int → Bool) {e : Int × Int} :
    ∀ (before : Option Int) (l : List (Int × Int)), l.Pairwise (fun a b => a.1 < b.1) →
      (e ∈ changes pinned before l ↔
        e ∈ l ∧ (pinned e.1 = true ∨ valueAfter before l (e.1 - 1) ≠ some e.2))
  | _, [], _ => by simp [changes]
  | before, x :: rest, h => by
      obtain ⟨hx, hrest⟩ := List.pairwise_cons.1 h
      have ih := mem_changes_iff pinned (e := e) (some x.2) rest hrest
      -- Before the first entry `before` is in force, behind it the value of the first entry.
      have hfirst : valueAfter before (x :: rest) (x.1 - 1) = before := by
        rw [valueAfter, if_neg (by omega)]
      have hlater : e ∈ rest →
          valueAfter before (x :: rest) (e.1 - 1) = valueAfter (some x.2) rest (e.1 - 1) := by
        intro he
        have := hx e he
        rw [valueAfter, if_pos (by omega)]
      have hself : x ∉ rest := fun hmem => absurd (hx x hmem) (Int.lt_irrefl _)
      have hkept : x ∈ changes pinned before (x :: rest) ↔
          (pinned x.1 = true ∨ before ≠ some x.2) := by
        have hnot : x ∉ changes pinned (some x.2) rest :=
          fun hmem => hself ((changes_sublist _ _ _).subset hmem)
        unfold changes
        split <;> simp_all
      by_cases hex : e = x
      · subst hex
        rw [hkept, hfirst]
        exact ⟨fun hkeep => ⟨List.mem_cons_self, hkeep⟩, fun hkeep => hkeep.2⟩
      · have hstep : e ∈ changes pinned before (x :: rest) ↔ e ∈ changes pinned (some x.2) rest := by
          rw [changes]
          split
          · rw [List.mem_cons, or_iff_right hex]
          · rfl
        rw [hstep, ih, List.mem_cons, or_iff_right hex]
        exact and_congr_right fun he => by rw [hlater he]

/-- What is kept: the pinned keys, and the keys at which the step function changes. -/
theorem get?_compress_eq_some_iff {k v : Int} :
    (compress p runningTime).get? k = some v ↔
      p.get? k = some v ∧ (k = 0 ∨ k = runningTime ∨ p.lastKey? = some k ∨
        p.floorValue? (k - 1) ≠ some v) := by
  rw [OrderedMap.get?_eq_some_iff, OrderedMap.get?_eq_some_iff, floorValue?_eq_valueAfter]
  show (k, v) ∈ changes _ none p.entries ↔ _
  rw [mem_changes_iff _ none p.entries p.ascending]
  simp only [Bool.or_eq_true, decide_eq_true_eq, or_assoc, eq_comm (a := some k)]

/-- Two profiles are the same run: they denote the same step function, end at the same key, and
    each of the keys 0 and `runningTime` is a key of both or of neither. -/
structure SameRun (runningTime : Int) (p q : PowerProfile) : Prop where
  value : ∀ t, q.floorValue? t = p.floorValue? t
  last : q.lastKey? = p.lastKey?
  zero : 0 ∈ q.keys ↔ 0 ∈ p.keys
  running : runningTime ∈ q.keys ↔ runningTime ∈ p.keys

variable {q : PowerProfile}

theorem SameRun.symm (h : SameRun runningTime p q) : SameRun runningTime q p :=
  ⟨fun t => (h.value t).symm, h.last.symm, h.zero.symm, h.running.symm⟩

theorem SameRun.trans {r : PowerProfile} (h : SameRun runningTime p q)
    (h' : SameRun runningTime q r) : SameRun runningTime p r :=
  ⟨fun t => (h'.value t).trans (h.value t), h'.last.trans h.last, h'.zero.trans h.zero,
    h'.running.trans h.running⟩

/-- Compressing a profile leaves it the same run. -/
theorem sameRun_compress (p : PowerProfile) (runningTime : Int) :
    SameRun runningTime p (compress p runningTime) where
  value := floorValue?_compress p runningTime
  last := lastKey?_compress_eq p runningTime
  zero := ⟨mem_keys_of_compress, zero_mem_keys_compress⟩
  running := by
    refine ⟨mem_keys_of_compress, fun h => ?_⟩
    obtain ⟨v, hv⟩ := OrderedMap.mem_keys_iff_get?.1 h
    exact OrderedMap.mem_keys_iff_get?.2 ⟨v, get?_compress_of_pinned hv (.inr (.inl rfl))⟩

/-- What one profile keeps is an entry of every profile that is the same run, and is kept there. -/
theorem SameRun.get?_compress (h : SameRun runningTime p q) {k v : Int}
    (hk : (compress p runningTime).get? k = some v) :
    (compress q runningTime).get? k = some v := by
  rw [get?_compress_eq_some_iff] at hk ⊢
  obtain ⟨hget, hkept⟩ := hk
  have hvalue : q.floorValue? k = some v := by rw [h.value, OrderedMap.floorValue?_of_get? hget]
  -- A pinned key is one of `q` by agreement, the others because its value changes there.
  have hmem : k ∈ q.keys := by
    have hp : k ∈ p.keys := OrderedMap.mem_keys_iff_get?.2 ⟨v, hget⟩
    rcases hkept with rfl | rfl | hlast | hchange
    · exact h.zero.2 hp
    · exact h.running.2 hp
    · exact (OrderedMap.lastKey?_eq_some_iff.1 (h.last.trans hlast)).1
    · by_contra hnone
      apply hchange
      rw [← h.value, ← hvalue]
      refine (OrderedMap.floorValue?_eq_of_no_key (by omega) fun j hj hjk => ?_).symm
      have hj : j = k := by omega
      rw [hj, OrderedMap.get?_eq_none_iff]
      exact hnone
  obtain ⟨w, hw⟩ := OrderedMap.mem_keys_iff_get?.1 hmem
  have hwv : w = v := by
    rw [OrderedMap.floorValue?_of_get? hw] at hvalue
    exact Option.some.inj hvalue
  refine ⟨hwv ▸ hw, ?_⟩
  rw [h.last, h.value]
  exact hkept

/-- Profiles have the same shortest form exactly if they are the same run. -/
theorem compress_eq_compress_iff :
    compress p runningTime = compress q runningTime ↔ SameRun runningTime p q := by
  constructor
  · intro heq
    have hp := sameRun_compress p runningTime
    rw [heq] at hp
    exact hp.trans (sameRun_compress q runningTime).symm
  · intro h
    apply OrderedMap.ext_get?
    intro k
    apply Option.ext
    exact fun v => ⟨h.get?_compress, h.symm.get?_compress⟩

/-- The shortest form is a normal form: a profile and its shortest form are the same run, nothing
    is left to drop, and profiles that are the same run have one shortest form. -/
theorem compress_normal_form (p : PowerProfile) (runningTime : Int) :
    SameRun runningTime p (compress p runningTime) ∧
      compress (compress p runningTime) runningTime = compress p runningTime ∧
      ∀ q, compress p runningTime = compress q runningTime ↔ SameRun runningTime p q :=
  ⟨sameRun_compress p runningTime, compress_compress p runningTime,
    fun _ => compress_eq_compress_iff⟩

-- Rest throughout. Besides the first entry three are kept, for the sake of their keys.
example : (compress (.ofList [(-5, 0), (0, 0), (10, 0), (50, 0), (60, 0)]) 50).keys
    = [-5, 0, 50, 60] := by decide

end PowerProfile
end SiteDispatch
