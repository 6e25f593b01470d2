import Waymark.Number
import Waymark.Text.Quoted

/-!
# JSON values

Values as they are read from options and settings. The members of an object keep their
order and their repeats, since both can be seen in what is reported about a settings
text. A number written as an integer of 64 bits is told apart from every other number.

A value that is well formed can still be of the wrong kind or out of range, an object may
have a member twice, an array too many items, and a value may spell no levels. Each of these
has one message.

## Main definitions

* `Json.Number`, `Json` — numbers and values
* `Json.lookup?` — the last member of a name
* `inInt64`, `inUInt64` — the two ranges of integers
* `Found`, `Expected` — what stood in a place, and what should have
* `Mismatch` — what is wrong with a value
* `Mismatch.message` — the message for it
-/

namespace Waymark

/-! ### Values -/

/-- An integer between `-2 ^ 63` and `2 ^ 63 - 1`. -/
def inInt64 (n : Int) : Bool :=
  -9223372036854775808 ≤ n && n < 9223372036854775808

/-- An integer between `0` and `2 ^ 64 - 1`. -/
def inUInt64 (n : Int) : Bool :=
  0 ≤ n && n < 18446744073709551616

/-- A number of a JSON text. -/
inductive Json.Number where
  /-- A number written as an integer, in one of the two 64-bit ranges. -/
  | integer (value : Int)
  /-- Any other number: its sign and its magnitude. -/
  | real (negative : Bool) (magnitude : Binary64)
  deriving DecidableEq, Repr

/-- A JSON value. -/
inductive Json where
  | null
  | boolean (value : Bool)
  | number (value : Json.Number)
  | string (value : String)
  | array (items : List Json)
  | object (members : List (String × Json))
  deriving Repr

namespace Json

/-- The text of a number. -/
def Number.text : Number → String
  | .integer value => toString value
  | .real negative magnitude => (if negative then "-" else "") ++ magnitude.text

/-- The value of the last member of the given name. -/
def lookup? (members : List (String × Json)) (name : String) : Option Json :=
  (members.reverse.find? fun member => member.1 == name).map (·.2)

end Json

/-! ### Values of the wrong kind -/

/-- What stood where something else was expected. -/
inductive Found where
  | null
  | boolean (value : Bool)
  | number (value : Json.Number)
  | string (value : String)
  | sequence
  | mapping
  deriving DecidableEq, Repr

namespace Found

/-- The kind of a value, with the value itself where it is a single one. -/
def ofJson : Json → Found
  | .null => .null
  | .boolean value => .boolean value
  | .number value => .number value
  | .string value => .string value
  | .array _ => .sequence
  | .object _ => .mapping

/-- How it is called in a message. -/
def message : Found → String
  | .null => "null"
  | .boolean value => "boolean `" ++ toString value ++ "`"
  | .number (.integer value) => "integer `" ++ toString value ++ "`"
  | .number value => "floating point `" ++ value.text ++ "`"
  | .string value => "string " ++ quoted value
  | .sequence => "sequence"
  | .mapping => "map"

end Found

/-- What was expected in a place. -/
inductive Expected where
  /-- A signed integer of 64 bits. -/
  | signed
  /-- An unsigned integer of 64 bits. -/
  | unsigned
  | boolean
  | string
  | sequence
  /-- A record of options. -/
  | options
  /-- A record of settings. -/
  | settings
  deriving DecidableEq, Repr

/-- How it is called in a message. -/
def Expected.message : Expected → String
  | .signed => "i64"
  | .unsigned => "u64"
  | .boolean => "a boolean"
  | .string => "a string"
  | .sequence => "a sequence"
  | .options => "struct TransformConfig"
  | .settings => "struct Settings"

/-- What is wrong with a value. -/
inductive Mismatch where
  /-- A value of another kind was expected. -/
  | wrongType (found : Found) (expected : Expected)
  /-- The kind is right, but the value is out of range. -/
  | wrongValue (found : Found) (expected : Expected)
  /-- A member occurs twice. -/
  | duplicateField (name : String)
  /-- An array has more items than there are fields. -/
  | tooManyItems (count : Nat)
  /-- The value spells no list of levels. -/
  | noLevels
  deriving DecidableEq, Repr

/-- The message for a mismatch. -/
def Mismatch.message : Mismatch → String
  | .wrongType found expected =>
    "invalid type: " ++ found.message ++ ", expected " ++ expected.message
  | .wrongValue found expected =>
    "invalid value: " ++ found.message ++ ", expected " ++ expected.message
  | .duplicateField name => "duplicate field `" ++ name ++ "`"
  | .tooManyItems count =>
    "invalid length " ++ toString count ++ ", expected fewer elements in array"
  | .noLevels => "data did not match any variant of untagged enum FooterLevelsInput"

end Waymark
