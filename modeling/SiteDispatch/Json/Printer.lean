/-
  SiteDispatch.Json.Printer

  The written form of a JSON value: one element per line, two blanks of
  indentation per level, a blank after each colon, empty lists and objects
  closed at once, no line break at the end.
-/

import SiteDispatch.Json.Basic

namespace SiteDispatch
namespace Json

/-- A new line at the given depth. -/
def lineBreak (depth : Nat) : List Char := '\n' :: List.replicate (2 * depth) ' '

/-- A text between its quotes. -/
def quoted (literal : List Char) : List Char := '"' :: literal ++ ['"']

mutual

/-- The value as it stands at the given depth. -/
def render (depth : Nat) : Json → List Char
  | .null => ['n', 'u', 'l', 'l']
  | .bool true => ['t', 'r', 'u', 'e']
  | .bool false => ['f', 'a', 'l', 's', 'e']
  | .integer i => decimal i
  | .fraction => ['0', '.', '0']
  | .text literal => quoted literal
  | .list [] => ['[', ']']
  | .list (item :: items) =>
    '[' :: lineBreak (depth + 1) ++ render (depth + 1) item ++ renderItems (depth + 1) items
      ++ lineBreak depth ++ [']']
  | .object [] => ['{', '}']
  | .object ((key, value) :: members) =>
    '{' :: lineBreak (depth + 1) ++ quoted key ++ [':', ' '] ++ render (depth + 1) value
      ++ renderMembers (depth + 1) members ++ lineBreak depth ++ ['}']

/-- Further items of a list. -/
def renderItems (depth : Nat) : List Json → List Char
  | [] => []
  | item :: items => ',' :: lineBreak depth ++ render depth item ++ renderItems depth items

/-- Further members of an object. -/
def renderMembers (depth : Nat) : List (List Char × Json) → List Char
  | [] => []
  | (key, value) :: members =>
    ',' :: lineBreak depth ++ quoted key ++ [':', ' '] ++ render depth value
      ++ renderMembers depth members

end

/-- The written form of a document. -/
def pretty (value : Json) : List Char := render 0 value

end Json
end SiteDispatch
