/-
  SiteDispatch.Device.Id

  Devices are named by 128-bit numbers, written as 32 hexadecimal digits in
  groups of 8, 4, 4, 4 and 12. The order of the numbers is the order of the
  texts.
-/

import SiteDispatch.OrderedMap.Basic

namespace SiteDispatch

/-- The name of a device, as a number. -/
structure DeviceId where
  number : Nat
deriving DecidableEq, Repr, Inhabited

namespace DeviceId

instance : LT DeviceId := ⟨fun a b => a.number < b.number⟩

instance (a b : DeviceId) : Decidable (a < b) :=
  inferInstanceAs (Decidable (a.number < b.number))

instance : KeyOrder DeviceId where
  irrefl a := Nat.lt_irrefl a.number
  trans := Nat.lt_trans
  connex a b := by
    rcases Nat.lt_trichotomy a.number b.number with h | h | h
    · exact .inl h
    · exact .inr (.inl (by cases a; cases b; simp_all))
    · exact .inr (.inr h)

/-- The lowest `count` hexadecimal digits of `n`, most significant first. -/
def hexDigits (n : Nat) : Nat → List Char
  | 0 => []
  | count + 1 => hexDigits (n / 16) count ++ [Nat.digitChar (n % 16)]

/-- Lengths of the groups of digits. -/
def groups : List Nat := [8, 4, 4, 4, 12]

/-- Cuts `digits` into groups of the given lengths, with a hyphen between two. -/
def hyphenate : List Nat → List Char → List Char
  | [], digits => digits
  | [_], digits => digits
  | n :: rest, digits => digits.take n ++ '-' :: hyphenate rest (digits.drop n)

/-- The written form, with hyphens between the groups. -/
def text (d : DeviceId) : String := String.ofList (hyphenate groups (hexDigits d.number 32))

/-- The value of a lower-case hexadecimal digit. -/
def digitValue? (c : Char) : Option Nat :=
  if '0' ≤ c ∧ c ≤ '9' then some (c.toNat - '0'.toNat)
  else if 'a' ≤ c ∧ c ≤ 'f' then some (c.toNat - 'a'.toNat + 10)
  else none

/-- Reads the hyphenated lower-case form. -/
def ofText? (s : String) : Option DeviceId := do
  let digits ← (s.toList.filter (· ≠ '-')).mapM digitValue?
  let id : DeviceId := ⟨digits.foldl (fun n d => 16 * n + d) 0⟩
  if id.text = s then some id else none

end DeviceId
end SiteDispatch
