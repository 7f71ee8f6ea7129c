/-
  SiteDispatch.Proofs.Planning.Rounds

  The loops along a walk, round by round.

  Planning a task and summing up its slack both walk through the slots of a window. Each
  round of such a loop stands at an offset in a slot, takes the piece up to the next boundary
  and goes on behind it, at an offset kept in 32 bits. `Walk.Sound` is what each round keeps:
  the offset is in the narrow range and before the end of its slot, so that the next boundary
  lies ahead of it. From that the rounds make progress, none of them leaves the slots that
  there are, and the loop is over after the pieces of `pieces`, whatever it does with them.
-/

import Mathlib.Computability.StateTransition
import SiteDispatch.Planning.Slack
import SiteDispatch.Proofs.Planning.Choice
import SiteDispatch.Proofs.Planning.Delivery

namespace SiteDispatch

open StateTransition

/-! ## One round -/

namespace Walk

variable {power energy : Corridor} {slotLength : Int} {slots : Nat} {pos : Walk} {p : Piece}

/-- The piece at which a walk stands, none if it is over. -/
def piece? (power energy : Corridor) (slots : Nat) (pos : Walk) : Option Piece :=
  if pos.start < pos.last ∧ pos.slot < slots then
    let next := nextOffset power energy pos.last pos.slotStop pos.start
    some ⟨pos.start, next, pos.slot, next = pos.slotStop⟩
  else none

/-- Where a walk goes on behind a piece. -/
def behind (slotLength : Int) (pos : Walk) (p : Piece) : Walk where
  start := Quantity.low32 p.stop
  slot := p.nextSlot
  slotStop := if p.closesSlot then pos.slotStop + slotLength else pos.slotStop
  last := pos.last

/-- One round of a loop along a walk that does `take` with each piece. -/
def round {α : Type} (power energy : Corridor) (slotLength : Int) (slots : Nat)
    (take : α → Piece → α) : Walk × α → Option (Walk × α)
  | (pos, a) => (pos.piece? power energy slots).map fun p => (pos.behind slotLength p, take a p)

/-- A walk that stands inside its slot, at an offset of the narrow range. -/
structure Sound (pos : Walk) : Prop where
  nonneg : 0 ≤ pos.start
  inSlot : pos.start < pos.slotStop
  short : pos.last ≤ Quantity.greatest

theorem piece?_eq_some_iff :
    pos.piece? power energy slots = some p ↔ (pos.start < pos.last ∧ pos.slot < slots) ∧
      p = ⟨pos.start, nextOffset power energy pos.last pos.slotStop pos.start, pos.slot,
        nextOffset power energy pos.last pos.slotStop pos.start = pos.slotStop⟩ := by
  simp only [piece?, Option.ite_none_right_eq_some, Option.some.injEq, eq_comm (a := p)]

theorem round_eq_some_iff {α : Type} {take : α → Piece → α} {next : Walk} {a b : α} :
    round power energy slotLength slots take (pos, a) = some (next, b) ↔
      ∃ p, pos.piece? power energy slots = some p ∧ pos.behind slotLength p = next ∧
        take a p = b := by
  simp only [round, Option.map_eq_some_iff, Prod.mk.injEq]

/-- A loop that stands at a piece runs on behind it. -/
theorem eval_round_of_piece {α : Type} (slotLength : Int) (take : α → Piece → α) (a : α)
    (hp : pos.piece? power energy slots = some p) :
    eval (round power energy slotLength slots take) (pos, a)
      = eval (round power energy slotLength slots take) (pos.behind slotLength p, take a p) :=
  reaches_eval (.single (round_eq_some_iff.2 ⟨p, hp, rfl, rfl⟩))

/-- A round goes forward in a slot that there is, and its offset loses no bits. -/
theorem Sound.piece (h : pos.Sound) (hp : pos.piece? power energy slots = some p) :
    p.start < p.stop ∧ p.slot < slots ∧ Quantity.low32 p.stop = p.stop := by
  obtain ⟨⟨hgo, hslot⟩, rfl⟩ := piece?_eq_some_iff.1 hp
  exact ⟨here_lt_nextOffset hgo h.inSlot, hslot,
    low32_nextOffset h.short h.nonneg hgo h.inSlot⟩

theorem Sound.behind_eq (h : pos.Sound) (slotLength : Int)
    (hp : pos.piece? power energy slots = some p) :
    pos.behind slotLength p = ⟨p.stop, p.nextSlot,
      if p.closesSlot then pos.slotStop + slotLength else pos.slotStop, pos.last⟩ := by
  rw [Walk.behind, (h.piece hp).2.2]

/-- Behind a piece the walk stands inside the slot in which it goes on. -/
theorem Sound.behind (h : pos.Sound) (hlength : 1 ≤ slotLength)
    (hp : pos.piece? power energy slots = some p) : (pos.behind slotLength p).Sound := by
  have hforward := (h.piece hp).1
  have hnonneg := h.nonneg
  rw [h.behind_eq slotLength hp]
  obtain ⟨-, rfl⟩ := piece?_eq_some_iff.1 hp
  have hle := nextOffset_le_min power energy pos.last pos.slotStop pos.start
  dsimp only at hforward ⊢
  refine ⟨by dsimp only; omega, ?_, h.short⟩
  -- Short of the boundary the slot is the same, and at it the next one begins.
  simp only [decide_eq_true_eq]
  split <;> omega

end Walk

/-! ## All rounds -/

section Loop

variable {α : Type} {power energy : Corridor} {slotLength : Int} {slots : Nat}
  {take : α → Piece → α}

/-- Wherever the loop comes its walk is sound, and what no piece undoes holds. -/
theorem Walk.reaches_keeps (Inv : α → Prop) (hlength : 1 ≤ slotLength)
    (htake : ∀ a p, Inv a → Inv (take a p)) {pos next : Walk} {a b : α}
    (hreach : Reaches (Walk.round power energy slotLength slots take) (pos, a) (next, b))
    (hpos : pos.Sound) (ha : Inv a) : next.Sound ∧ Inv b := by
  have hall : ∀ s t, Reaches (Walk.round power energy slotLength slots take) s t →
      s.1.Sound ∧ Inv s.2 → t.1.Sound ∧ Inv t.2 := by
    intro s t hst hs
    induction hst with
    | refl => exact hs
    | tail _ hlast ih =>
        obtain ⟨p, hp, hnext, htaken⟩ := Walk.round_eq_some_iff.1 hlast
        rw [← hnext, ← htaken]
        exact ⟨ih.1.behind hlength hp, htake _ _ ih.2⟩
  exact hall _ _ hreach ⟨hpos, ha⟩

/-- The loop ends, and its rounds have taken the pieces of the walk. -/
theorem mem_eval_round_pieces (hlength : 1 ≤ slotLength) (last here : Int) (slot : Nat)
    (slotStop : Int) (a : α) (hsound : (Walk.mk here slot slotStop last).Sound) :
    ∃ stands, (⟨arrival here (pieces power energy slotLength last slots here slot slotStop),
          slotAfter slot (pieces power energy slotLength last slots here slot slotStop),
          stands, last⟩,
        (pieces power energy slotLength last slots here slot slotStop).foldl take a)
      ∈ eval (Walk.round power energy slotLength slots take) (⟨here, slot, slotStop, last⟩, a) := by
  fun_induction pieces power energy slotLength last slots here slot slotStop generalizing a with
  | case1 here slot slotStop hgo next hclose ih =>
      have hp : (Walk.mk here slot slotStop last).piece? power energy slots
          = some ⟨here, next, slot, true⟩ :=
        Walk.piece?_eq_some_iff.2 ⟨hgo, by rw [decide_eq_true hclose]⟩
      have hkeep : Quantity.low32 next = next := (hsound.piece hp).2.2
      have hbehind : (Walk.mk here slot slotStop last).behind slotLength ⟨here, next, slot, true⟩
          = ⟨next, slot + 1, slotStop + slotLength, last⟩ := hsound.behind_eq slotLength hp
      have hsound' := hsound.behind hlength hp
      rw [hbehind] at hsound'
      rw [hkeep] at ih ⊢
      obtain ⟨stands, hends⟩ := ih (take a ⟨here, next, slot, true⟩) hsound'
      refine ⟨stands, ?_⟩
      rw [Walk.eval_round_of_piece slotLength take a hp, hbehind]
      exact hends
  | case2 here slot slotStop hgo next hclose ih =>
      have hp : (Walk.mk here slot slotStop last).piece? power energy slots
          = some ⟨here, next, slot, false⟩ :=
        Walk.piece?_eq_some_iff.2 ⟨hgo, by rw [decide_eq_false hclose]⟩
      have hbehind : (Walk.mk here slot slotStop last).behind slotLength ⟨here, next, slot, false⟩
          = ⟨next, slot, slotStop, last⟩ := hsound.behind_eq slotLength hp
      have hsound' := hsound.behind hlength hp
      rw [hbehind] at hsound'
      obtain ⟨stands, hends⟩ := ih (take a ⟨here, next, slot, false⟩) hsound'
      refine ⟨stands, ?_⟩
      rw [Walk.eval_round_of_piece slotLength take a hp, hbehind]
      exact hends
  | case3 here slot slotStop hover =>
      have hnone : (Walk.mk here slot slotStop last).piece? power energy slots = none :=
        if_neg hover
      have hround : Walk.round power energy slotLength slots take (⟨here, slot, slotStop, last⟩, a)
          = none := by
        rw [Walk.round, hnone, Option.map_none]
      exact ⟨slotStop, mem_eval.2 ⟨.refl, hround⟩⟩

end Loop

namespace PlanningWindow

variable {w : PlanningWindow} {task : Task}

/-- A walk begins inside its first slot, also before the origin of the slots. -/
theorem sound_walk (hlength : 1 ≤ w.slotLength) (hspans : w.Spans task) :
    (w.walk task).Sound := by
  have hstart := walk_start hspans.reach
  refine ⟨?_, ?_, (walk_last_le w task).trans hspans.short⟩
  · rw [hstart]
    exact entry_nonneg w task
  · rw [hstart]
    exact entry_lt_slotStop hlength

theorem mem_eval_round_piecesOf {α : Type} (hlength : 1 ≤ w.slotLength) (hspans : w.Spans task)
    (power energy : Corridor) (slots : Nat) (take : α → Piece → α) (a : α) :
    ∃ stands, (⟨arrival (w.entry task) (w.piecesOf power energy slots task),
          slotAfter (w.walk task).slot (w.piecesOf power energy slots task),
          stands, (w.walk task).last⟩,
        (w.piecesOf power energy slots task).foldl take a)
      ∈ eval (Walk.round power energy w.slotLength slots take) (w.walk task, a) := by
  rw [← walk_start hspans.reach]
  exact mem_eval_round_pieces hlength _ _ _ _ a (sound_walk hlength hspans)

end PlanningWindow

/-! ## Planning and slack -/

section Choice

variable {f : Flexibility} {w : PlanningWindow} {p : Piece}

theorem length_ledger_extend (goals : List (Option Int)) (draft : Draft) (p : Piece) :
    (draft.extend f w goals p).ledger.length = draft.ledger.length := by
  simp only [Draft.extend, book]
  split
  · exact List.length_modify ..
  · rfl

/-- A power that the corridor of a flexibility admits loses no bits. -/
theorem low32_choosePower
    (hcorridor : ∀ b ∈ f.powerCorridor.values, Quantity.least ≤ b.low ∧ b.high ≤ Quantity.greatest)
    (goals : List (Option Int)) (draft : Draft) (hp : p.start < p.stop) :
    Quantity.low32 (choosePower f w goals draft p) = choosePower f w goals draft p := by
  have hnarrow : ∀ b, (f.powerCorridor.floorValue? p.start).getD Interval.zero = b →
      Quantity.least ≤ b.low ∧ b.high ≤ Quantity.greatest := by
    rintro b rfl
    cases hfloor : f.powerCorridor.floorValue? p.start with
    | none => decide
    | some b =>
        obtain ⟨k, -, hk⟩ := OrderedMap.exists_key_of_floorValue? hfloor
        exact hcorridor b (OrderedMap.mem_values_iff_get?.2 ⟨k, hk⟩)
  rcases choosePower_spec f w goals draft hp with hzero | ⟨hin, -⟩
  · rw [hzero]
    rfl
  · obtain ⟨hlow, hhigh⟩ := Interval.contains_iff.1 hin
    obtain ⟨hleast, hgreatest⟩ := hnarrow _ rfl
    exact Quantity.low32_eq_self (hleast.trans hlow) (hhigh.trans hgreatest)

end Choice

/-- One round of planning a task. -/
def planningRound (w : PlanningWindow) (goals : List (Option Int)) (f : Flexibility)
    (slots : Nat) : Walk × Draft → Option (Walk × Draft) :=
  Walk.round f.powerCorridor f.energyCorridor w.slotLength slots (Draft.extend f w goals)

/-- One round of summing up what a planned task leaves of its flexibility, latest share first. -/
def slackRound (w : PlanningWindow) (slots : Nat) (residual : Flexibility) :
    Walk × List SlackShare → Option (Walk × List SlackShare) :=
  Walk.round residual.powerCorridor residual.energyCorridor w.slotLength slots
    fun shares p => SlackShare.ofPiece w.slotLength residual p :: shares

/-- Every round of planning a task takes at least a second in a slot of the ledger and chooses
    0 W or a power that the corridor in force admits, which loses no bits; the loop ends, and the
    plan is what it ends with. Every round of summing up slack takes at least a second in a slot
    that there is; the loop ends with the shares of the task. -/
theorem slot_walks_advance_and_end {w : PlanningWindow} {task : Task}
    (hlength : 1 ≤ w.slotLength) (hspans : w.Spans task) (f : Flexibility)
    (hcorridor : ∀ b ∈ f.powerCorridor.values, Quantity.least ≤ b.low ∧ b.high ≤ Quantity.greatest)
    (goals : List (Option Int)) (ledger : List Int) (slots : Nat) :
    (∀ pos draft p,
      Reaches (planningRound w goals f ledger.length) (w.walk task, ⟨[], 0, 0, ledger⟩)
        (pos, draft) →
      pos.piece? f.powerCorridor f.energyCorridor ledger.length = some p →
      1 ≤ p.length ∧ p.slot < draft.ledger.length ∧
        (choosePower f w goals draft p = 0 ∨
          ((f.powerCorridor.floorValue? p.start).getD Interval.zero).contains
            (choosePower f w goals draft p)) ∧
        Quantity.low32 (choosePower f w goals draft p) = choosePower f w goals draft p) ∧
    (∃ pos draft,
      (pos, draft) ∈ eval (planningRound w goals f ledger.length)
        (w.walk task, ⟨[], 0, 0, ledger⟩) ∧
      planTask w goals f task ledger =
        ({ task with power := draft.profile pos.start task.runningTime },
          if draft.slotEnergy = 0 then draft.ledger
          else book draft.ledger pos.slot (Quantity.nearestWattHours draft.slotEnergy))) ∧
    (∀ pos shares p,
      Reaches (slackRound w slots (f.residual task)) (w.walk task, []) (pos, shares) →
      pos.piece? (f.residual task).powerCorridor (f.residual task).energyCorridor slots = some p →
      1 ≤ p.length ∧ p.slot < slots) ∧
    ∃ pos, (pos, (SlackShare.ofTask w slots f task).reverse) ∈
      eval (slackRound w slots (f.residual task)) (w.walk task, []) := by
  have hsound := PlanningWindow.sound_walk hlength hspans
  refine ⟨?_, ?_, ?_, ?_⟩
  · intro pos draft p hreach hp
    obtain ⟨hpos, hledger⟩ := Walk.reaches_keeps
      (fun d : Draft => d.ledger.length = ledger.length) hlength
      (fun d p hd => (length_ledger_extend goals d p).trans hd) hreach hsound rfl
    obtain ⟨hforward, hslot, -⟩ := hpos.piece hp
    refine ⟨by rw [Piece.length]; omega, hledger ▸ hslot, ?_,
      low32_choosePower hcorridor goals draft hforward⟩
    exact (choosePower_spec f w goals draft hforward).imp_right And.left
  · obtain ⟨stands, hends⟩ := PlanningWindow.mem_eval_round_piecesOf hlength hspans
      f.powerCorridor f.energyCorridor ledger.length (Draft.extend f w goals) ⟨[], 0, 0, ledger⟩
    refine ⟨_, _, hends, ?_⟩
    have hway := PlanningWindow.consecutive_piecesOf hlength hspans.reach hspans.short
      f.powerCorridor f.energyCorridor ledger.length
    have hresume := resumesAt_eq_arrival hsound.short (w.entry_nonneg task) hway
    rw [← hresume, ← nextSlot_eq_slotAfter, ← PlanningWindow.walk_start hspans.reach]
    rfl
  · intro pos shares p hreach hp
    obtain ⟨hpos, -⟩ := Walk.reaches_keeps (fun _ : List SlackShare => True) hlength
      (fun _ _ _ => trivial) hreach hsound trivial
    obtain ⟨hforward, hslot, -⟩ := hpos.piece hp
    exact ⟨by rw [Piece.length]; omega, hslot⟩
  · obtain ⟨stands, hends⟩ := PlanningWindow.mem_eval_round_piecesOf hlength hspans
      (f.residual task).powerCorridor (f.residual task).energyCorridor slots
      (fun shares p => SlackShare.ofPiece w.slotLength (f.residual task) p :: shares) []
    rw [List.foldl_flip_cons_eq_append, List.append_nil] at hends
    exact ⟨_, hends⟩

/-- A window that begins before the origin of its slots and ends inside one of them. -/
def beforeOrigin : PlanningWindow where
  origin := 1000
  start := 400
  stop := 3000
  slotLength := 900
  earliestModifiable := 400
  buffer := 0

/-- An envelope with keys before the task, at the end of a slot and behind the window. -/
def keysAtEnds : Flexibility where
  id := 1
  taskId := 1
  adaptable := true
  stoppingTime := ⟨3500, 3500⟩
  runningTime := ⟨3000, 3000⟩
  powerCorridor := .ofList [(-5, ⟨-2000, 2000⟩), (1400, ⟨-500, 1000⟩), (2800, ⟨0, 0⟩)]
  energyCorridor := .singleton 0 ⟨-3600000, 3600000⟩

theorem slot_walks_advance_and_end_beforeOrigin :
    (1 ≤ beforeOrigin.slotLength ∧ beforeOrigin.Spans (Task.idle 1 1 true 500 3000) ∧
      ∀ b ∈ keysAtEnds.powerCorridor.values,
        Quantity.least ≤ b.low ∧ b.high ≤ Quantity.greatest) ∧
    (beforeOrigin.walk (Task.idle 1 1 true 500 3000)).piece? keysAtEnds.powerCorridor
        keysAtEnds.energyCorridor 3 = some ⟨0, 1400, 0, true⟩ ∧
    choosePower keysAtEnds beforeOrigin [some 800] ⟨[], 0, 0, [100, 0, 0]⟩ ⟨0, 1400, 0, true⟩
      = 2000 ∧
    (Interval.mk (-2000) 2000).contains (choosePower keysAtEnds beforeOrigin [some 800]
      ⟨[], 0, 0, [100, 0, 0]⟩ ⟨0, 1400, 0, true⟩) ∧
    ∃ pos draft, (pos, draft) ∈ eval (planningRound beforeOrigin [some 800] keysAtEnds 3)
      (beforeOrigin.walk (Task.idle 1 1 true 500 3000), ⟨[], 0, 0, [100, 0, 0]⟩) := by
  have hspans : beforeOrigin.Spans (Task.idle 1 1 true 500 3000) := ⟨by decide, by decide⟩
  have hcorridor : ∀ b ∈ keysAtEnds.powerCorridor.values,
      Quantity.least ≤ b.low ∧ b.high ≤ Quantity.greatest := by
    decide
  have hfirst : (beforeOrigin.walk (Task.idle 1 1 true 500 3000)).piece?
      keysAtEnds.powerCorridor keysAtEnds.energyCorridor 3 = some ⟨0, 1400, 0, true⟩ := by
    decide +kernel
  have hpower : choosePower keysAtEnds beforeOrigin [some 800] ⟨[], 0, 0, [100, 0, 0]⟩
      ⟨0, 1400, 0, true⟩ = 2000 := by
    decide +kernel
  obtain ⟨hrounds, ⟨pos, draft, hends, -⟩, -, -⟩ := slot_walks_advance_and_end (by decide) hspans
    keysAtEnds hcorridor [some 800] [100, 0, 0] 3
  obtain ⟨-, -, hchoice, -⟩ := hrounds _ _ _ .refl hfirst
  refine ⟨⟨by decide, hspans, hcorridor⟩, hfirst, hpower, ?_, pos, draft, hends⟩
  exact hchoice.resolve_left (by rw [hpower]; decide)

end SiteDispatch
