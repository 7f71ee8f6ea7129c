/-
  SiteDispatch.Json.Decoder

  Readings of a JSON value as data: numbers of a fixed width, lists, tables with
  numbered entries, records.

  A record is an object with each of its fields exactly once, in any order and
  among others that are ignored, or the list of all its fields in order. A table
  is an object whose keys are written as plain decimal integers; a later entry
  replaces an earlier one with the same key.
-/

import SiteDispatch.Json.Reader
import SiteDispatch.OrderedMap.Basic
import SiteDispatch.Quantity

namespace SiteDispatch
namespace Json

/-- Integers between `low` and `high`. -/
def within? (low high : Int) : Json → Option Int
  | .integer i => if low ≤ i ∧ i ≤ high then some i else none
  | _ => none

/-- A signed 32-bit number. -/
def int32? : Json → Option Int := within? Quantity.least Quantity.greatest

/-- A signed 64-bit number. -/
def int64? : Json → Option Int := within? (-9223372036854775808) 9223372036854775807

/-- A truth value. -/
def bool? : Json → Option Bool
  | .bool b => some b
  | _ => none

/-- Results of `f` on all elements, none if one has none. -/
def all? {α β : Type} (f : α → Option β) : List α → Option (List β)
  | [] => some []
  | a :: rest =>
    match f a, all? f rest with
    | some b, some bs => some (b :: bs)
    | _, _ => none

/-- A list of which every item can be read. -/
def list? {α : Type} (item? : Json → Option α) : Json → Option (List α)
  | .list items => all? item? items
  | _ => none

/-- A key of a table: an integer in plain decimal notation, without escapes. -/
def key? (number? : Json → Option Int) (literal : List Char) : Option Int :=
  match scanNumber literal with
  | some (number, []) => number? number
  | _ => none

/-- An object of which every key is a number and every value can be read. -/
def table? {α : Type} (number? : Json → Option Int) (value? : Json → Option α) :
    Json → Option (OrderedMap Int α)
  | .object members =>
    (all? (fun m => match key? number? m.1, value? m.2 with
      | some k, some v => some (k, v)
      | _, _ => none) members).map OrderedMap.ofList
  | _ => none

/-- The one value stored under a name. -/
def only? (members : List (List Char × Json)) (name : List Char) : Option Json :=
  match members.filter (fun m => m.1 = name) with
  | [(_, value)] => some value
  | _ => none

/-- The values of a record's fields, in the order of `names`. -/
def record? (names : List (List Char)) : Json → Option (List Json)
  | .list values => if values.length = names.length then some values else none
  | .object members =>
    match all? (fun m => (content? m.1).map (·, m.2)) members with
    | none => none
    | some members => all? (only? members) names
  | _ => none

/-- The name of a case without data: the name itself or an object that gives it
    nothing. -/
def case? : Json → Option (List Char)
  | .text literal => content? literal
  | .object [(name, .null)] => content? name
  | _ => none

/-! ## Building values -/

/-- A table as an object, its keys written in decimal. -/
def ofTable {α : Type} (value : α → Json) (m : OrderedMap Int α) : Json :=
  .object (m.entries.map fun e => (decimal e.1, value e.2))

end Json
end SiteDispatch
