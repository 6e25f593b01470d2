import Waymark.Json
import Waymark.Text

/-!
# Reading JSON texts

A reader takes a value off the front of a text and returns it with the rest. The loops
over the items of an array and the members of an object take the reader of one item or
member as an argument. So a record can be read member by member, with a reader of its
own for each, and it then reports what is wrong with a member before it looks at what
follows.

At most 127 containers may stand inside one another. The members of an object are kept
as they stand.

## Main definitions

* `ReadError`, `Reader` — readers and how they fail
* `readNumber`, `readString`, `readItems`, `readMembers` — the parts of a value
* `readValue` — a value nested at most to a given depth
* `readFound` — the value in a place where another one was expected
* `Json.parse?` — the value that a whole text spells
-/

namespace Waymark

/-- Why a text could not be read. -/
inductive ReadError where
  /-- The text is no JSON text. -/
  | malformed
  /-- A value is well formed but not what its place asks for. -/
  | mismatch (cause : Mismatch)
  deriving DecidableEq, Repr

/-- A reader takes a value off the front of a text and returns it with the rest. -/
abbrev Reader (α : Type) := List Char → Except ReadError (α × List Char)

/-- The characters that may stand between the tokens of a JSON text. -/
def isJsonSpace (c : Char) : Bool :=
  c == ' ' || c == '\n' || c == '\t' || c == '\r'

/-- The text from its next token. -/
def skipSpace (text : List Char) : List Char :=
  text.dropWhile isJsonSpace

/-- The text is at its end, spaces apart. -/
def isAtEnd (text : List Char) : Bool :=
  text.all isJsonSpace

/-! ### Numbers -/

/-- The value of a decimal digit. -/
def digitValue (c : Char) : Nat :=
  c.toNat - '0'.toNat

/-- The leading digits that continue `start` to a number below `2 ^ 64`, as that number, and the
digits that do not fit. -/
def leadingDigits (start : Nat) : List Char → Nat × List Char
  | [] => (start, [])
  | c :: rest =>
    let next := 10 * start + digitValue c
    if next < 18446744073709551616 then leadingDigits next rest else (start, c :: rest)

/-- The value of a string of digits. -/
def digitsValue (digits : List Char) : Nat :=
  digits.foldl (fun n c => 10 * n + digitValue c) 0

/-- An integer as it is written, if it stands for one: a negative zero does not, nor does an
integer outside the 64-bit ranges. -/
def integerOfDigits? (negative : Bool) (digits : List Char) : Option Int :=
  let magnitude : Int := digitsValue digits
  if negative then
    if 0 < magnitude && inInt64 (-magnitude) then some (-magnitude) else none
  else if inUInt64 magnitude then some magnitude else none

/-- The magnitude of a number with the given digits before and behind the point, and the given
exponent. Only the digits that fit into 64 bits count; it fails where the number is too large. -/
def magnitudeOfDigits? (whole fraction : List Char) (exponent : Int) : Option Binary64 :=
  -- Digits of the whole part that are dropped each count for a power of ten.
  let (significand, dropped) := leadingDigits 0 whole
  let (significand, unread) := leadingDigits significand fraction
  let scale : Int := dropped.length - (fraction.length - unread.length : Nat) + exponent
  (Binary64.ofNat significand).scale? scale

/-- The sign and the digits of an exponent, and the rest. -/
def splitExponent (text : List Char) : Bool × List Char × List Char :=
  let (negative, text) :=
    match text with
    | '-' :: rest => (true, rest)
    | '+' :: rest => (false, rest)
    | _ => (false, text)
  (negative, text.takeWhile Char.isDigit, text.dropWhile Char.isDigit)

/-- Reads the exponent of a number, if one follows. -/
def readExponent : Reader (Option Int)
  | c :: text =>
    if c == 'e' || c == 'E' then
      let (negative, digits, rest) := splitExponent text
      if digits.isEmpty then .error .malformed
      else .ok (some (if negative then -(digitsValue digits) else digitsValue digits), rest)
    else .ok (none, c :: text)
  | [] => .ok (none, [])

/-- Reads the digits behind a decimal point, if one follows. -/
def readFraction : Reader (Option (List Char))
  | '.' :: text =>
    let digits := text.takeWhile Char.isDigit
    if digits.isEmpty then .error .malformed
    else .ok (some digits, text.dropWhile Char.isDigit)
  | text => .ok (none, text)

/-- Reads a number. -/
def readNumber : Reader Json.Number := fun text => do
  let (negative, text) :=
    match text with
    | '-' :: rest => (true, rest)
    | _ => (false, text)
  let whole := text.takeWhile Char.isDigit
  if whole.isEmpty || (1 < whole.length && whole.head? == some '0') then .error .malformed
  else
    let (fraction?, rest) ← readFraction (text.dropWhile Char.isDigit)
    let (exponent?, rest) ← readExponent rest
    match integerOfDigits? negative whole, fraction?, exponent? with
    | some value, none, none => .ok (.integer value, rest)
    | _, _, _ =>
      match magnitudeOfDigits? whole (fraction?.getD []) (exponent?.getD 0) with
      | some magnitude => .ok (.real negative magnitude, rest)
      | none => .error .malformed

/-! ### Strings -/

/-- The value of a hexadecimal digit. -/
def hexDigit? (c : Char) : Option Nat :=
  if c.isDigit then some (c.toNat - '0'.toNat)
  else if 'a' ≤ c && c ≤ 'f' then some (c.toNat - 'a'.toNat + 10)
  else if 'A' ≤ c && c ≤ 'F' then some (c.toNat - 'A'.toNat + 10)
  else none

/-- Four hexadecimal digits as a number, and the rest. -/
def hexUnit? : List Char → Option (Nat × List Char)
  | a :: b :: c :: d :: rest => do
    let value := ((← hexDigit? a) * 16 + (← hexDigit? b)) * 16 + (← hexDigit? c)
    return (value * 16 + (← hexDigit? d), rest)
  | _ => none

/-- The character that follows `\u`: one unit of four digits, or two that form a surrogate pair. A
surrogate without its partner is refused. -/
def unicodeEscape? (text : List Char) : Option (Char × List Char) := do
  let (high, rest) ← hexUnit? text
  if 0xD800 ≤ high && high < 0xDC00 then
    let rest ← after? ['\\', 'u'] rest
    let (low, rest) ← hexUnit? rest
    if 0xDC00 ≤ low && low < 0xE000 then
      some (.ofNat (0x10000 + (high - 0xD800) * 0x400 + (low - 0xDC00)), rest)
    else none
  else if 0xDC00 ≤ high && high < 0xE000 then none
  else some (.ofNat high, rest)

/-- The character that follows a backslash. -/
def escape? : List Char → Option (Char × List Char)
  | '"' :: rest => some ('"', rest)
  | '\\' :: rest => some ('\\', rest)
  | '/' :: rest => some ('/', rest)
  | 'b' :: rest => some ('\x08', rest)
  | 'f' :: rest => some ('\x0c', rest)
  | 'n' :: rest => some ('\n', rest)
  | 'r' :: rest => some ('\r', rest)
  | 't' :: rest => some ('\t', rest)
  | 'u' :: rest => unicodeEscape? rest
  | _ => none

/-- The characters of a string up to its closing quote, and the rest; at most `count` of them. -/
def stringChars? : Nat → List Char → Option (List Char × List Char)
  | 0, _ => none
  | _ + 1, [] => none
  | count + 1, c :: rest => do
    if c == '"' then return ([], rest)
    else
      let (c, rest) ←
        if c == '\\' then escape? rest else if c.toNat < 0x20 then none else some (c, rest)
      let (chars, rest) ← stringChars? count rest
      return (c :: chars, rest)

/-- Reads a string from behind its opening quote. -/
def readString : Reader String := fun text =>
  match stringChars? text.length text with
  | some (chars, rest) => .ok (.ofList chars, rest)
  | none => .error .malformed

/-! ### Containers -/

/-- Reads the items of an array that follow its first one, through the closing bracket. -/
def readMoreItems {α : Type} (item : Reader α) : Nat → Reader (List α)
  | 0 => fun _ => .error .malformed
  | count + 1 => fun text =>
    match skipSpace text with
    | ']' :: rest => .ok ([], rest)
    | ',' :: rest => do
      let (first, rest) ← item rest
      let (items, rest) ← readMoreItems item count rest
      return (first :: items, rest)
    | _ => .error .malformed

/-- Reads the items of an array from behind its opening bracket. -/
def readItems {α : Type} (item : Reader α) : Reader (List α) := fun text =>
  match skipSpace text with
  | ']' :: rest => .ok ([], rest)
  | text => do
    let (first, rest) ← item text
    let (items, rest) ← readMoreItems item rest.length rest
    return (first :: items, rest)

/-- Reads the rest of a member behind its name, given what the members before it came to. -/
abbrev MemberReader (σ : Type) := σ → String → Reader σ

/-- Reads one member. -/
def readMember {σ : Type} (member : MemberReader σ) (state : σ) : Reader σ := fun text =>
  match skipSpace text with
  | '"' :: rest => do
    let (name, rest) ← readString rest
    member state name rest
  | _ => .error .malformed

/-- Reads the members of an object that follow its first one, through the closing brace. -/
def readMoreMembers {σ : Type} (member : MemberReader σ) : Nat → σ → Reader σ
  | 0, _ => fun _ => .error .malformed
  | count + 1, state => fun text =>
    match skipSpace text with
    | '\x7d' :: rest => .ok (state, rest)
    | ',' :: rest => do
      let (state, rest) ← readMember member state rest
      readMoreMembers member count state rest
    | _ => .error .malformed

/-- Reads the members of an object from behind its opening brace. -/
def readMembers {σ : Type} (member : MemberReader σ) (state : σ) : Reader σ := fun text =>
  match skipSpace text with
  | '\x7d' :: rest => .ok (state, rest)
  | text => do
    let (state, rest) ← readMember member state text
    readMoreMembers member rest.length state rest

/-- Reads the colon behind a member's name, and then its value. -/
def readAfterColon {α : Type} (value : Reader α) : Reader α := fun text =>
  match skipSpace text with
  | ':' :: rest => value (skipSpace rest)
  | _ => .error .malformed

/-! ### Values -/

/-- Reads a fixed word. -/
def readWord {α : Type} (word : List Char) (value : α) : Reader α := fun text =>
  match after? word text with
  | some rest => .ok (value, rest)
  | none => .error .malformed

/-- Adds a member to those before it. -/
def collectMember (value : Reader Json) : MemberReader (List (String × Json)) :=
  fun members name text => do
    let (value, rest) ← readAfterColon value text
    return (members ++ [(name, value)], rest)

/-- Reads a value that holds at most `depth` containers inside one another. -/
def readValue (depth : Nat) : Reader Json := fun text =>
  let text := skipSpace text
  match text with
  | 'n' :: _ => readWord "null".toList .null text
  | 't' :: _ => readWord "true".toList (.boolean true) text
  | 'f' :: _ => readWord "false".toList (.boolean false) text
  | '"' :: rest => do
    let (value, rest) ← readString rest
    return (.string value, rest)
  | '[' :: rest =>
    match depth with
    | 0 => .error .malformed
    | depth + 1 => do
      let (items, rest) ← readItems (readValue depth) rest
      return (.array items, rest)
  | '\x7b' :: rest =>
    match depth with
    | 0 => .error .malformed
    | depth + 1 => do
      let (members, rest) ← readMembers (collectMember (readValue depth)) [] rest
      return (.object members, rest)
  | _ => do
    let (value, rest) ← readNumber text
    return (.number value, rest)

/-- How many containers of a text may stand inside one another. -/
def nestingLimit : Nat := 127

/-- Reads what stands in a place where something else was expected, as far as it is told: a
container is known by its opening bracket. -/
def readFound : Reader Found := fun text =>
  match skipSpace text with
  | '[' :: rest => .ok (.sequence, rest)
  | '\x7b' :: rest => .ok (.mapping, rest)
  | text => do
    let (value, rest) ← readValue 0 text
    return (.ofJson value, rest)

/-- Reports what stands in a place where something else was expected. -/
def readUnexpected {α : Type} (expected : Expected) : Reader α := fun text => do
  let (found, _) ← readFound text
  .error (.mismatch (.wrongType found expected))

/-- The value that a text spells. -/
def Json.parse? (text : String) : Option Json :=
  match readValue nestingLimit text.toList with
  | .ok (value, rest) => if isAtEnd rest then some value else none
  | .error _ => none

end Waymark
