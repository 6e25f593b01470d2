/-!
# Texts

Which characters count as blank, and trimming by that class. A line that holds
nothing else is a blank line. The class is the Unicode property `White_Space`; it
holds line feed and carriage return, so a carriage return left at the end of a
line is trimmed like a space.

The line recognisers are built from two steps: reading a fixed text off the front of
another, and looking for a pattern at every position.

Integers are read as people write them, with an optional sign and decimal digits. A sign
alone is no integer, and blanks inside or around it are refused here. Bytes are read as
UTF-8, where each longest piece that begins a character but does not complete one is shown
as a replacement character.

## Main definitions

* `isBlankChar` — the 25 characters with the property `White_Space`
* `trimStart`, `trimEnd`, `trim` — drop blank characters at one or both ends
* `isBlank` — every character of the text is blank
* `after?` — what follows a literal at the front of a text
* `anySuffix` — some suffix of a text satisfies a test
* `naturalOfText?`, `integerOfText?` — the number or integer that a text spells
* `leadByte?` — how many bytes follow a first byte, and what the next one may be
* `lossyText` — the text of some bytes

## Main results

* `after?_eq_some_iff` — `after?` splits off exactly the literal
* `anySuffix_eq_true_iff` — `anySuffix` quantifies over the ways to cut a text in two
-/

namespace Waymark

/-! ### Blank characters -/

/-- The characters with the Unicode property `White_Space`. -/
def isBlankChar (c : Char) : Bool :=
  let n := c.toNat
  (9 ≤ n && n ≤ 13) || n == 32 || n == 0x85 || n == 0xA0 || n == 0x1680 ||
    (0x2000 ≤ n && n ≤ 0x200A) || n == 0x2028 || n == 0x2029 || n == 0x202F ||
    n == 0x205F || n == 0x3000

/-- The text from its first character that is not blank. -/
def trimStart (text : List Char) : List Char :=
  text.dropWhile isBlankChar

/-- The text through its last character that is not blank. -/
def trimEnd (text : List Char) : List Char :=
  (text.reverse.dropWhile isBlankChar).reverse

/-- The text without the blank characters at its two ends. -/
def trim (text : List Char) : List Char :=
  trimEnd (trimStart text)

/-- No character of the text is visible. The empty text is blank. -/
def isBlank (text : List Char) : Bool :=
  text.all isBlankChar

/-! ### Literal text -/

/-- What follows `literal` at the front of a text, if the text starts with it. -/
def after? : List Char → List Char → Option (List Char)
  | [], text => some text
  | _ :: _, [] => none
  | c :: literal, d :: text => if c = d then after? literal text else none

theorem after?_eq_some_iff {literal text rest : List Char} :
    after? literal text = some rest ↔ text = literal ++ rest := by
  induction literal generalizing text with
  | nil => simp [after?]
  | cons c literal ih =>
    cases text with
    | nil => simp [after?]
    | cons d text =>
      by_cases h : c = d
      · simp [after?, h, ih]
      · simp [after?, h, Ne.symm h]

/-- Some suffix of the text, the empty one included, satisfies the test. -/
def anySuffix (test : List Char → Bool) : List Char → Bool
  | [] => test []
  | c :: rest => test (c :: rest) || anySuffix test rest

theorem anySuffix_eq_true_iff {test : List Char → Bool} {text : List Char} :
    anySuffix test text = true ↔ ∃ before rest, text = before ++ rest ∧ test rest = true := by
  induction text with
  | nil =>
    constructor
    · exact fun h => ⟨[], [], rfl, h⟩
    · rintro ⟨before, rest, heq, h⟩
      obtain ⟨-, rfl⟩ := List.append_eq_nil_iff.mp heq.symm
      exact h
  | cons c text ih =>
    rw [anySuffix, Bool.or_eq_true, ih]
    constructor
    · rintro (h | ⟨before, rest, rfl, h⟩)
      · exact ⟨[], c :: text, rfl, h⟩
      · exact ⟨c :: before, rest, rfl, h⟩
    · rintro ⟨before, rest, heq, h⟩
      cases before with
      | nil => exact Or.inl (heq ▸ h)
      | cons d before =>
        simp only [List.cons_append, List.cons.injEq] at heq
        exact Or.inr ⟨before, rest, heq.2, h⟩

/-! ### Integers -/

/-- The number that a string of one or more digits spells. -/
def naturalOfText? (text : List Char) : Option Nat :=
  if text.isEmpty || !text.all Char.isDigit then none
  else some (text.foldl (fun n c => 10 * n + (c.toNat - '0'.toNat)) 0)

/-- The integer that a text spells: digits, after at most one sign. -/
def integerOfText? : List Char → Option Int
  | '-' :: digits => (naturalOfText? digits).map fun n => -(n : Int)
  | '+' :: digits => (naturalOfText? digits).map Int.ofNat
  | digits => (naturalOfText? digits).map Int.ofNat

/-! ### Bytes -/

/-- The replacement character. -/
def replacementChar : Char := '\uFFFD'

/-- For the first byte of a character of several bytes: how many bytes follow, the payload of the
first byte, and the bounds of the second byte. -/
def leadByte? (b : Nat) : Option (Nat × Nat × Nat × Nat) :=
  if 0xC2 ≤ b && b ≤ 0xDF then some (1, b - 0xC0, 0x80, 0xBF)
  else if b = 0xE0 then some (2, 0, 0xA0, 0xBF)
  else if b = 0xED then some (2, 0xD, 0x80, 0x9F)
  else if 0xE1 ≤ b && b ≤ 0xEF then some (2, b - 0xE0, 0x80, 0xBF)
  else if b = 0xF0 then some (3, 0, 0x90, 0xBF)
  else if 0xF1 ≤ b && b ≤ 0xF3 then some (3, b - 0xF0, 0x80, 0xBF)
  else if b = 0xF4 then some (3, 4, 0x80, 0x8F)
  else none

/-- The characters of some bytes. Within a character, `owed` bytes are to come, the next of which
lies between `low` and `high`, and `payload` is what the bytes so far stand for. -/
def lossyChars (owed payload low high : Nat) : List Nat → List Char
  | [] => if owed = 0 then [] else [replacementChar]
  | b :: rest =>
    -- A byte that does not continue a character is tried as the start of one.
    let start (before : List Char) : List Char :=
      if b < 0x80 then before ++ .ofNat b :: lossyChars 0 0 0 0 rest
      else
        match leadByte? b with
        | some (owed, payload, low, high) => before ++ lossyChars owed payload low high rest
        | none => before ++ replacementChar :: lossyChars 0 0 0 0 rest
    match owed with
    | 0 => start []
    | owed + 1 =>
      if low ≤ b && b ≤ high then
        let payload := payload * 64 + (b - 0x80)
        if owed = 0 then .ofNat payload :: lossyChars 0 0 0 0 rest
        else lossyChars owed payload 0x80 0xBF rest
      else start [replacementChar]

/-- The text of some bytes, with replacement characters for what is not in UTF-8. -/
def lossyText (bytes : ByteArray) : String :=
  .ofList (lossyChars 0 0 0 0 (bytes.toList.map UInt8.toNat))

end Waymark
