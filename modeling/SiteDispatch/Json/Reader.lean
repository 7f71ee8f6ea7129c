/-
  SiteDispatch.Json.Reader

  Reads a JSON text. Only what the grammar allows is accepted, and nothing but
  blanks may follow the value.
-/

import SiteDispatch.Json.Basic

namespace SiteDispatch
namespace Json

/-- The blanks that may stand between tokens. -/
def isBlank (c : Char) : Bool := c = ' ' || c = '\n' || c = '\t' || c = '\r'

/-- What follows the leading blanks. -/
def skipBlanks (cs : List Char) : List Char := cs.dropWhile isBlank

/-! ## Texts -/

/-- Whether the character is a hexadecimal digit. -/
def isHexDigit (c : Char) : Bool := (hexValue? c).isSome

/-- Whether the character may follow a backslash alone. -/
def isShortEscape (c : Char) : Bool := (shortEscape? c).isSome

/-- The characters up to the closing quote, and what follows it. Escapes have to
    be well formed; control characters have to be escaped. -/
def scanText : List Char → Option (List Char × List Char)
  | '"' :: rest => some ([], rest)
  | '\\' :: 'u' :: a :: b :: c :: d :: rest =>
    if isHexDigit a && isHexDigit b && isHexDigit c && isHexDigit d then
      (scanText rest).map fun (t, r) => ('\\' :: 'u' :: a :: b :: c :: d :: t, r)
    else none
  | '\\' :: c :: rest =>
    if isShortEscape c then (scanText rest).map fun (t, r) => ('\\' :: c :: t, r) else none
  | c :: rest =>
    if c.toNat < 32 || c = '\\' then none
    else (scanText rest).map fun (t, r) => (c :: t, r)
  | [] => none

/-! ## Numbers -/

/-- The leading digits. -/
def digits (cs : List Char) : List Char := cs.takeWhile Char.isDigit

/-- What follows the leading digits. -/
def afterDigits (cs : List Char) : List Char := cs.dropWhile Char.isDigit

/-- An optional fraction: whether there is one, and what follows. -/
def scanFraction : List Char → Option (Bool × List Char)
  | '.' :: rest => if digits rest = [] then none else some (true, afterDigits rest)
  | rest => some (false, rest)

/-- What follows an optional sign. -/
def skipSign : List Char → List Char
  | '+' :: rest => rest
  | '-' :: rest => rest
  | rest => rest

/-- An optional exponent: whether there is one, and what follows. -/
def scanExponent : List Char → Option (Bool × List Char)
  | c :: rest =>
    if c = 'e' ∨ c = 'E' then
      if digits (skipSign rest) = [] then none else some (true, afterDigits (skipSign rest))
    else some (false, c :: rest)
  | [] => some (false, [])

/-- A number without its sign. -/
def scanUnsigned (negative : Bool) (cs : List Char) : Option (Json × List Char) :=
  match digits cs with
  | [] => none
  | d :: ds =>
    if d = '0' ∧ ds ≠ [] then none
    else match scanFraction (afterDigits cs) with
      | none => none
      | some (hasFraction, rest) =>
        match scanExponent rest with
        | none => none
        | some (hasExponent, rest) =>
          let n := Nat.ofDigitChars 10 (d :: ds) 0
          if hasFraction || hasExponent || (negative && n = 0) then some (.fraction, rest)
          else some (.integer (if negative then -(n : Int) else n), rest)

/-- A number and what follows it. -/
def scanNumber : List Char → Option (Json × List Char)
  | '-' :: rest => scanUnsigned true rest
  | rest => scanUnsigned false rest

/-! ## Values -/

mutual

/-- Reads one value. The first argument bounds the nesting and the number of
    elements together; a text never needs more than its length. -/
def readValue : Nat → List Char → Option (Json × List Char)
  | 0, _ => none
  | n + 1, cs =>
    match skipBlanks cs with
    | 'n' :: 'u' :: 'l' :: 'l' :: rest => some (.null, rest)
    | 't' :: 'r' :: 'u' :: 'e' :: rest => some (.bool true, rest)
    | 'f' :: 'a' :: 'l' :: 's' :: 'e' :: rest => some (.bool false, rest)
    | '"' :: rest => (scanText rest).map fun (t, r) => (.text t, r)
    | '[' :: rest =>
      match skipBlanks rest with
      | ']' :: rest => some (.list [], rest)
      | rest => (readItems n rest).map fun (items, r) => (.list items, r)
    | '{' :: rest =>
      match skipBlanks rest with
      | '}' :: rest => some (.object [], rest)
      | rest => (readMembers n rest).map fun (members, r) => (.object members, r)
    | rest => scanNumber rest

/-- Reads the items of a list up to the closing bracket. -/
def readItems : Nat → List Char → Option (List Json × List Char)
  | 0, _ => none
  | n + 1, cs =>
    match readValue n cs with
    | none => none
    | some (item, rest) =>
      match skipBlanks rest with
      | ',' :: rest => (readItems n rest).map fun (items, r) => (item :: items, r)
      | ']' :: rest => some ([item], rest)
      | _ => none

/-- Reads the members of an object up to the closing brace. -/
def readMembers : Nat → List Char → Option (List (List Char × Json) × List Char)
  | 0, _ => none
  | n + 1, cs =>
    match skipBlanks cs with
    | '"' :: rest =>
      match scanText rest with
      | none => none
      | some (key, rest) =>
        match skipBlanks rest with
        | ':' :: rest =>
          match readValue n rest with
          | none => none
          | some (value, rest) =>
            match skipBlanks rest with
            | ',' :: rest =>
              (readMembers n rest).map fun (members, r) => ((key, value) :: members, r)
            | '}' :: rest => some ([(key, value)], rest)
            | _ => none
        | _ => none
    | _ => none

end

/-- The value a text stands for. -/
def parse (text : List Char) : Option Json :=
  match readValue (text.length + 1) text with
  | some (value, rest) => if skipBlanks rest = [] then some value else none
  | none => none

end Json
end SiteDispatch
