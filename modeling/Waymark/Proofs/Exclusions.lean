import Waymark.Proofs.Pieces
import Waymark.Vault.Path

/-!
# Exclusion by whole segments

The exclusion test compares the front of a text and looks for a slash behind it. Told by segments
it is simpler: a path is excluded if the segments of a folder stand in front of its own. The two
agree for every folder and path, whatever empty segments, dots or blanks they hold.

A path and a folder are compared in their plain form, which is told here by what is cut away and
where the cutting stops.

## Main definitions

* `IsTrimmed` — all characters of a kind are cut away at both ends
* `IsBehindHeres` — all `./` are cut away at the front
* `IsPlainForm` — the plain form of a folder or path

## Main results

* `isTrimmed_iff`, `isBehindHeres_iff`, `plainFolder_eq_iff` — the cuts are the ones that are made
* `liesIn_iff` — a path lies in a folder whose segments stand in front of its own
* `isExcludedPath_iff_segments` — exclusion is by whole segments of the plain forms
-/

namespace Waymark

/-! ### Plain forms -/

section PlainForms

variable {p : Char → Bool} {text inner rest raw plain : List Char}

/-- All characters of the kind `p` at the two ends of the text are cut away, and no others. -/
structure IsTrimmed (p : Char → Bool) (text inner : List Char) : Prop where
  /-- Nothing else is cut away. -/
  cut : ∃ front back, text = front ++ inner ++ back ∧
    (∀ c ∈ front, p c = true) ∧ ∀ c ∈ back, p c = true
  /-- What is left starts with a character of another kind. -/
  head : ∀ c ∈ inner.head?, p c = false
  /-- What is left ends with a character of another kind. -/
  last : ∀ c ∈ inner.getLast?, p c = false

/-- The text is some `./` and then the rest, which does not start with another one. -/
def IsBehindHeres (text rest : List Char) : Prop :=
  (∃ count, text = (List.replicate count ['.', '/']).flatten ++ rest) ∧ ¬ ['.', '/'] <+: rest

/-- The plain form: blanks are trimmed, backslashes become slashes, all leading `./` are dropped
and then all slashes at the ends. -/
def IsPlainForm (raw plain : List Char) : Prop :=
  ∃ body rest, IsTrimmed isBlankChar raw body ∧
    IsBehindHeres (body.map fun c => if c = '\\' then '/' else c) rest ∧
    IsTrimmed (· == '/') rest plain

/-- Trimming at the front and then at the end leaves what is between the two cuts. -/
theorem isTrimmed_iff : IsTrimmed p text inner ↔ (text.dropWhile p).rdropWhile p = inner := by
  constructor
  · rintro ⟨⟨front, back, rfl, hfront, hback⟩, hhead, hlast⟩
    by_cases hnone : inner = []
    · -- Nothing is left, so the whole text is cut away at the front.
      have hall : ∀ c ∈ front ++ inner ++ back, p c = true := by
        simpa [hnone, or_imp, forall_and] using ⟨hfront, hback⟩
      rw [List.dropWhile_eq_nil_iff.mpr hall, hnone]
      rfl
    · have hdrop : (front ++ inner ++ back).dropWhile p = inner ++ back :=
        dropWhile_eq_iff.mpr ⟨⟨front, List.append_assoc .., hfront⟩,
          by rwa [List.head?_append_of_ne_nil _ hnone]⟩
      rw [hdrop]
      exact rdropWhile_eq_iff.mpr ⟨⟨back, rfl, hback⟩, hlast⟩
  · intro h
    obtain ⟨⟨front, hfront, hkind⟩, hhead⟩ := dropWhile_eq_iff.mp (rfl : text.dropWhile p = _)
    obtain ⟨⟨back, hback, hkind'⟩, hlast⟩ := rdropWhile_eq_iff.mp h
    refine ⟨⟨front, back, by rw [List.append_assoc, ← hback, ← hfront], hkind, hkind'⟩, ?_, hlast⟩
    -- The cut at the end leaves the first character alone, if it leaves any.
    intro c hc
    refine hhead c ?_
    rw [hback, List.head?_append, Option.mem_def.mp hc]
    rfl

/-- Each `./` is dropped, up to the first place that has none. -/
theorem isBehindHeres_iff : IsBehindHeres text rest ↔ withoutLeadingHere text = rest := by
  constructor
  · rintro ⟨⟨count, rfl⟩, hstop⟩
    induction count with
    | zero =>
      rw [List.replicate_zero, List.flatten_nil, List.nil_append]
      unfold withoutLeadingHere
      split
      · exact absurd ⟨_, rfl⟩ hstop
      · rfl
    | succ count ih => simpa [List.replicate_succ, withoutLeadingHere] using ih
  · rintro rfl
    fun_induction withoutLeadingHere text with
    | case1 more ih =>
      obtain ⟨⟨count, hcount⟩, hstop⟩ := ih
      exact ⟨⟨count + 1, by simpa [List.replicate_succ] using hcount⟩, hstop⟩
    | case2 text hnot =>
      refine ⟨⟨0, rfl⟩, ?_⟩
      rintro ⟨more, rfl⟩
      exact hnot more rfl

theorem plainFolder_eq_iff : plainFolder raw = plain ↔ IsPlainForm raw plain := by
  have htrim : ∀ text inner, IsTrimmed isBlankChar text inner ↔ trim text = inner :=
    fun text inner => isTrimmed_iff
  have hslashes : ∀ text inner, IsTrimmed (· == '/') text inner ↔ trimSlashes text = inner :=
    fun text inner => isTrimmed_iff
  simp [IsPlainForm, htrim, hslashes, isBehindHeres_iff, plainFolder]

end PlainForms

/-! ### Segments -/

section Segments

variable {path folder : List Char}

/-- A path lies in a folder exactly if the segments of the folder stand in front of its own. -/
theorem liesIn_iff : liesIn path folder = true ↔ folder.splitOn '/' <+: path.splitOn '/' := by
  rw [splitOn_isPrefix_iff]
  unfold liesIn
  cases hafter : after? folder path with
  | none =>
    -- The folder's text is not in front, so the path is neither it nor beneath it.
    have hne : ∀ rest, path ≠ folder ++ rest := fun rest heq => by
      rw [after?_eq_some_iff.mpr heq] at hafter
      cases hafter
    simp only [Bool.false_eq_true, false_iff, not_or, not_exists]
    exact ⟨by simpa using hne [], fun rest => hne _⟩
  | some rest =>
    obtain rfl := after?_eq_some_iff.mp hafter
    cases rest with
    | nil => simp
    | cons c rest => simp

/-- A path is excluded exactly if the segments of a folder stand in front of its own. Both are taken
in their plain form, and a folder whose plain form is empty excludes nothing. -/
theorem isExcludedPath_iff_segments (path : String) (folders : List String) :
    (isExcludedPath path folders = true ↔ ∃ folder ∈ folders, plainFolder folder.toList ≠ [] ∧
      (plainFolder folder.toList).splitOn '/' <+: (plainFolder path.toList).splitOn '/') ∧
    ∀ raw plain, plainFolder raw = plain ↔ IsPlainForm raw plain := by
  refine ⟨?_, fun raw plain => plainFolder_eq_iff⟩
  simp [isExcludedPath, liesIn_iff]

/-- A name that only starts like a folder is not in it, and backslashes count as slashes. -/
example : isExcludedPath "TemplatesOld/a.md" [" ./Templates/ "] = false ∧
    isExcludedPath "Templates\\a.md" [" ./Templates/ "] = true := by decide

end Segments

end Waymark
