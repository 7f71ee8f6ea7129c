/-
  SiteDispatch.Json.Basic

  JSON values as the snapshot format needs them. Text is kept the way it stands
  between its quotes, because the format distinguishes `1` from `\u0031` in the
  keys of numbered tables and looks into escapes only where a text is used.
  Members keep their order and their repetitions. Of numbers only integers have
  a value.
-/

namespace SiteDispatch

/-- JSON values. -/
inductive Json
  | null
  | bool (value : Bool)
  | integer (value : Int)
  /-- A number written with a fraction or an exponent, or as negative zero. -/
  | fraction
  | text (literal : List Char)
  | list (items : List Json)
  | object (members : List (List Char × Json))
deriving Inhabited

namespace Json

/-- An integer in plain decimal notation. -/
def decimal (i : Int) : List Char :=
  if i < 0 then '-' :: Nat.toDigits 10 i.natAbs else Nat.toDigits 10 i.natAbs

/-! ## Text literals -/

/-- The value of a hexadecimal digit of either case. -/
def hexValue? (c : Char) : Option Nat :=
  if '0' ≤ c ∧ c ≤ '9' then some (c.toNat - '0'.toNat)
  else if 'a' ≤ c ∧ c ≤ 'f' then some (c.toNat - 'a'.toNat + 10)
  else if 'A' ≤ c ∧ c ≤ 'F' then some (c.toNat - 'A'.toNat + 10)
  else none

/-- The 16-bit unit written by four hexadecimal digits. -/
def unit? (a b c d : Char) : Option Nat := do
  return ((← hexValue? a) * 16 + (← hexValue? b)) * 256 + (← hexValue? c) * 16 + (← hexValue? d)

/-- Whether the code unit is the first of a surrogate pair. -/
def isHighSurrogate (u : Nat) : Bool := 0xD800 ≤ u && u < 0xDC00

/-- Whether the code unit is the second of a surrogate pair. -/
def isLowSurrogate (u : Nat) : Bool := 0xDC00 ≤ u && u < 0xE000

/-- The character of a surrogate pair. -/
def pairedChar (high low : Nat) : Char :=
  Char.ofNat (0x10000 + (high - 0xD800) * 0x400 + (low - 0xDC00))

/-- The character that a one-letter escape stands for. -/
def shortEscape? (c : Char) : Option Char :=
  if c = '"' ∨ c = '\\' ∨ c = '/' then some c
  else if c = 'b' then some (Char.ofNat 8)
  else if c = 'f' then some (Char.ofNat 12)
  else if c = 'n' then some '\n'
  else if c = 'r' then some '\r'
  else if c = 't' then some '\t'
  else none

/-- The characters a literal stands for; none if an escape is malformed or a
    surrogate stands alone. `pending` is a high surrogate that waits for its low
    one. -/
def unescape (pending : Option Nat) : List Char → Option (List Char)
  | '\\' :: 'u' :: a :: b :: c :: d :: rest =>
    match unit? a b c d, pending with
    | none, _ => none
    | some u, some high =>
      if isLowSurrogate u then (unescape none rest).map (pairedChar high u :: ·) else none
    | some u, none =>
      if isHighSurrogate u then unescape (some u) rest
      else if isLowSurrogate u then none
      else (unescape none rest).map (Char.ofNat u :: ·)
  | '\\' :: c :: rest =>
    match shortEscape? c, pending with
    | some x, none => (unescape none rest).map (x :: ·)
    | _, _ => none
  | c :: rest =>
    match pending with
    | none => if c = '\\' then none else (unescape none rest).map (c :: ·)
    | some _ => none
  | [] =>
    match pending with
    | none => some []
    | some _ => none

/-- The text a literal stands for. -/
def content? (literal : List Char) : Option (List Char) := unescape none literal

end Json
end SiteDispatch
