/-
  SiteDispatch.Adaptation.Index

  The adaptable tasks that are known to be committed, each with the flexibility it
  was planned in, by device and flexibility.
-/

import SiteDispatch.Device.Id
import SiteDispatch.Flexibility.Basic

namespace SiteDispatch

/-- Names a flexibility of a device. -/
structure AdaptableKey where
  device : DeviceId
  flexibilityId : Int
deriving DecidableEq

namespace AdaptableKey

/-- By device, then by flexibility. -/
instance : LT AdaptableKey := ⟨fun a b =>
  a.device < b.device ∨ (a.device = b.device ∧ a.flexibilityId < b.flexibilityId)⟩

instance (a b : AdaptableKey) : Decidable (a < b) :=
  inferInstanceAs (Decidable
    (a.device < b.device ∨ (a.device = b.device ∧ a.flexibilityId < b.flexibilityId)))

theorem lt_iff {a b : AdaptableKey} : a < b ↔
    a.device < b.device ∨ (a.device = b.device ∧ a.flexibilityId < b.flexibilityId) := Iff.rfl

instance : KeyOrder AdaptableKey where
  irrefl a h := by
    rcases lt_iff.1 h with h | ⟨-, h⟩
    · exact KeyOrder.irrefl _ h
    · exact Int.lt_irrefl _ h
  trans {a b c} h₁ h₂ := by
    rw [lt_iff] at *
    rcases h₁ with h₁ | ⟨e₁, h₁⟩ <;> rcases h₂ with h₂ | ⟨e₂, h₂⟩
    · exact .inl (KeyOrder.trans h₁ h₂)
    · exact .inl (e₂ ▸ h₁)
    · exact .inl (e₁ ▸ h₂)
    · exact .inr ⟨e₁.trans e₂, Int.lt_trans h₁ h₂⟩
  connex a b := by
    rw [lt_iff, lt_iff]
    rcases KeyOrder.connex a.device b.device with h | h | h
    · exact .inl (.inl h)
    · rcases Int.lt_trichotomy a.flexibilityId b.flexibilityId with h' | h' | h'
      · exact .inl (.inr ⟨h, h'⟩)
      · exact .inr (.inl (by cases a; cases b; simp_all))
      · exact .inr (.inr (.inr ⟨h.symm, h'⟩))
    · exact .inr (.inr (.inl h))

end AdaptableKey

/-- A committed adaptable task and the flexibility it was planned in. -/
structure AdaptableEntry where
  task : Task
  flexibility : Flexibility
deriving DecidableEq

/-- The known adaptable tasks, by device and flexibility. -/
abbrev AdaptableIndex := OrderedMap AdaptableKey AdaptableEntry

namespace AdaptableIndex

/-- Notes a task under its device and flexibility. -/
def record (index : AdaptableIndex) (device : DeviceId) (task : Task) (flexibility : Flexibility) :
    AdaptableIndex :=
  index.insert ⟨device, task.flexibilityId⟩ ⟨task, flexibility⟩

/-- Forgets tasks that have ended and counts them. -/
def prune (index : AdaptableIndex) (now : Int) : Nat × AdaptableIndex :=
  let left := index.filter fun _ entry => now < entry.task.stop
  (index.size - left.size, left)

/-- Keys of the adaptable tasks that run at `now`, ascending. -/
def running (index : AdaptableIndex) (now : Int) : List AdaptableKey :=
  (index.entries.filter fun e => e.2.task.adaptable && e.2.task.isRunning now).map (·.1)

end AdaptableIndex
end SiteDispatch
