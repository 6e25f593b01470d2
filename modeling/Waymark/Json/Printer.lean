import Waymark.Json

/-!
# Writing JSON texts

A value as a JSON text without spaces. The members of an object are written in their
order. Only quotes, backslashes and control characters are escaped.

## Main definitions

* `Json.render` — the text of a value
-/

namespace Waymark.Json

/-- How one character is written inside a string. -/
def renderChar (c : Char) : List Char :=
  match c with
  | '"' => ['\\', '"']
  | '\\' => ['\\', '\\']
  | '\n' => ['\\', 'n']
  | '\r' => ['\\', 'r']
  | '\t' => ['\\', 't']
  | c =>
    if c.toNat < 0x20 then
      let digits := Nat.toDigits 16 c.toNat
      ['\\', 'u'] ++ List.replicate (4 - digits.length) '0' ++ digits
    else [c]

/-- The text of a string. -/
def renderString (value : String) : String :=
  .ofList ('"' :: value.toList.flatMap renderChar ++ ['"'])

mutual

/-- The text of a value. -/
def render : Json → String
  | .null => "null"
  | .boolean value => toString value
  | .number value => value.text
  | .string value => renderString value
  | .array items => "[" ++ ",".intercalate (renderItems items) ++ "]"
  | .object members => "\x7b" ++ ",".intercalate (renderMembers members) ++ "\x7d"

/-- The texts of the items of an array. -/
def renderItems : List Json → List String
  | [] => []
  | item :: items => item.render :: renderItems items

/-- The texts of the members of an object. -/
def renderMembers : List (String × Json) → List String
  | [] => []
  | (name, value) :: members =>
    (renderString name ++ ":" ++ value.render) :: renderMembers members

end

end Waymark.Json
