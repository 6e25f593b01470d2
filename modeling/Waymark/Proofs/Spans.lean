import Waymark.Note
import Waymark.Proofs.Pieces

/-!
# Taking spans out

A stage that takes spans out of a buffer leaves the lines that no span covers. When the
spans lie apart, counting span by span how many lines go above a place is the same as
counting the covered lines, so a place that is moved up by that many lines stays between
the same two lines.

The spans of tables of contents and of footers are found by one kind of scan: a line may
open a span, and the lines the span reaches over open none. What such a scan leaves can be
said line by line.

## Main definitions

* `coversLine` — some span covers a line
* `keptFrom` — the lines that no span covers, line by line
* `scanSpans`, `scanKept` — the spans of a scan, and the lines it leaves

## Main results

* `without_eq_keptFrom`, `keptFrom_append` — what is left of a buffer, and of its parts
* `insertAt_without` — a place moved up by the lines taken above it is the same place
* `keptFrom_scanSpans` — a scan leaves the lines it does not reach over
-/

namespace Waymark

/-- One of the spans covers line `index`. -/
def coversLine (spans : List Span) (index : Nat) : Bool :=
  spans.any (·.contains index)

/-- The lines that no span covers, the first line having the given index. -/
def keptFrom (spans : List Span) (index : Nat) : List Line → List Line
  | [] => []
  | line :: rest =>
    if coversLine spans index then keptFrom spans (index + 1) rest
    else line :: keptFrom spans (index + 1) rest

variable {spans spans' : List Span} {lines front back : Buffer} {line : Line} {index : Nat}

/-! ### The lines of a span -/

theorem Span.contains_iff {span : Span} :
    span.contains index = true ↔ span.first ≤ index ∧ index ≤ span.last := by
  rw [Span.contains, Bool.and_eq_true, decide_eq_true_eq, decide_eq_true_eq]

theorem Span.contains_eq_false_iff {span : Span} :
    span.contains index = false ↔ index < span.first ∨ span.last < index := by
  rw [Span.contains, Bool.and_eq_false_iff, decide_eq_false_iff_not, decide_eq_false_iff_not,
    Nat.not_le, Nat.not_le]

theorem Span.contains_first {span : Span} (h : span.first ≤ span.last) :
    span.contains span.first = true :=
  Span.contains_iff.mpr ⟨Nat.le_refl _, h⟩

theorem coversLine_cons (span : Span) (spans : List Span) (index : Nat) :
    coversLine (span :: spans) index = (span.contains index || coversLine spans index) :=
  List.any_cons

theorem coversLine_append (spans more : List Span) (index : Nat) :
    coversLine (spans ++ more) index = (coversLine spans index || coversLine more index) :=
  List.any_append

/-- Where all spans start below a line, none of them covers it. -/
theorem coversLine_eq_false_of_lt (h : ∀ span ∈ spans, index < span.first) :
    coversLine spans index = false := by
  rw [coversLine, List.any_eq_false]
  intro span hspan
  simp [Span.contains_eq_false_iff.mpr (Or.inl (h span hspan))]

/-! ### What is left -/

/-- The kept lines are those of the numbered lines whose numbers no span covers. -/
theorem map_filter_zipIdx (spans : List Span) (index : Nat) (lines : Buffer) :
    ((lines.zipIdx index).filter fun pair => !coversLine spans pair.2).map (·.1) =
      keptFrom spans index lines := by
  induction lines generalizing index with
  | nil => rfl
  | cons line lines ih =>
    rw [List.zipIdx_cons, keptFrom]
    cases h : coversLine spans index with
    | true => rw [List.filter_cons_of_neg (by simpa using h), ih, if_pos rfl]
    | false =>
      rw [List.filter_cons_of_pos (by simpa using h), List.map_cons, ih]
      rfl

theorem without_eq_keptFrom (lines : Buffer) (spans : List Span) :
    lines.without spans = keptFrom spans 0 lines :=
  map_filter_zipIdx spans 0 lines

/-- A line that no span covers is kept. -/
theorem mem_without_of_getElem? (hline : lines[index]? = some line)
    (hout : coversLine spans index = false) : line ∈ lines.without spans := by
  rw [coversLine] at hout
  refine List.mem_map.mpr ⟨(line, index), List.mem_filter.mpr ⟨?_, by simp [hout]⟩, rfl⟩
  exact List.mem_zipIdx_iff_getElem?.mpr hline

theorem keptFrom_append (spans : List Span) (index : Nat) (front back : Buffer) :
    keptFrom spans index (front ++ back) =
      keptFrom spans index front ++ keptFrom spans (index + front.length) back := by
  induction front generalizing index with
  | nil => rfl
  | cons line front ih =>
    rw [List.cons_append, add_length_cons]
    simp only [keptFrom, ih]
    split <;> rfl

theorem keptFrom_congr
    (h : ∀ i, index ≤ i → i < index + lines.length → coversLine spans i = coversLine spans' i) :
    keptFrom spans index lines = keptFrom spans' index lines := by
  induction lines generalizing index with
  | nil => rfl
  | cons line lines ih =>
    have hhere := h index (Nat.le_refl _) (by simp)
    have hrest : keptFrom spans (index + 1) lines = keptFrom spans' (index + 1) lines := by
      apply ih
      intro i hle hlt
      exact h i (by omega) (by rw [List.length_cons]; omega)
    rw [keptFrom, keptFrom, hhere, hrest]

theorem keptFrom_nil (index : Nat) (lines : Buffer) : keptFrom [] index lines = lines := by
  induction lines generalizing index with
  | nil => rfl
  | cons line lines ih => rw [keptFrom, ih]; rfl

theorem keptFrom_eq_self
    (h : ∀ i, index ≤ i → i < index + lines.length → coversLine spans i = false) :
    keptFrom spans index lines = lines := by
  exact (keptFrom_congr h).trans (keptFrom_nil index lines)

theorem keptFrom_sublist (spans : List Span) (index : Nat) (lines : Buffer) :
    (keptFrom spans index lines).Sublist lines := by
  induction lines generalizing index with
  | nil => exact List.Sublist.refl _
  | cons line lines ih =>
    rw [keptFrom]
    split
    · exact (ih _).cons line
    · exact (ih _).cons_cons line

theorem length_keptFrom_add (spans : List Span) (index : Nat) (lines : Buffer) :
    (keptFrom spans index lines).length +
      (List.range' index lines.length).countP (coversLine spans) = lines.length := by
  induction lines generalizing index with
  | nil => rfl
  | cons line lines ih =>
    have hrest := ih (index + 1)
    rw [keptFrom, List.length_cons, List.range'_succ, List.countP_cons]
    cases coversLine spans index with
    | true => simp only [if_true]; omega
    | false => simp only [Bool.false_eq_true, if_false, List.length_cons]; omega

/-! ### Buffers cut at an index -/

theorem insertAt_length (front back : Buffer) (inserted : List Line) :
    Buffer.insertAt (front ++ back) front.length inserted = front ++ inserted ++ back := by
  have hpad : front.length - (front ++ back).length = 0 := by
    rw [List.length_append]
    omega
  rw [Buffer.insertAt, List.take_left, List.drop_left, hpad]
  simp

theorem linesOf_middle {last : Nat} (front middle back : Buffer)
    (hlast : last + 1 = front.length + middle.length) :
    Buffer.linesOf (front ++ middle ++ back) ⟨front.length, last⟩ = middle := by
  have hcount : last + 1 - front.length = middle.length := by omega
  simp only [Buffer.linesOf, hcount, List.append_assoc, List.drop_left, List.take_left]

theorem linesOf_append (front middle back : Buffer) (hmiddle : 0 < middle.length) :
    Buffer.linesOf (front ++ middle ++ back)
      ⟨front.length, front.length + middle.length - 1⟩ = middle :=
  linesOf_middle front middle back (by omega)

theorem length_linesOf {span : Span} (hlast : span.last < lines.length) :
    (lines.linesOf span).length = span.last + 1 - span.first := by
  rw [Buffer.linesOf, List.length_take_of_le (by rw [List.length_drop]; omega)]

theorem take_append_linesOf_append_drop {span : Span} (h : span.first ≤ span.last)
    (lines : Buffer) :
    lines.take span.first ++ (lines.linesOf span ++ lines.drop (span.last + 1)) = lines := by
  have hback : lines.drop (span.last + 1) =
      (lines.drop span.first).drop (span.last + 1 - span.first) := by
    rw [List.drop_drop]
    congr 1
    omega
  rw [Buffer.linesOf, hback, List.take_append_drop, List.take_append_drop]

/-- A span cuts a buffer in three, and taking it out leaves the other two. -/
theorem exists_linesOf {span : Span} (hspan : span.first ≤ span.last)
    (hlast : span.last < lines.length) :
    ∃ front back, lines = front ++ lines.linesOf span ++ back ∧ front.length = span.first ∧
      span.first + (lines.linesOf span).length - 1 = span.last ∧
        lines.without [span] = front ++ back := by
  have hlength := length_linesOf hlast
  have hparts : lines =
      lines.take span.first ++ lines.linesOf span ++ lines.drop (span.last + 1) := by
    rw [List.append_assoc, take_append_linesOf_append_drop hspan]
  have hfront : (lines.take span.first).length = span.first := List.length_take_of_le (by omega)
  have hcovers : ∀ i, coversLine [span] i = true ↔ span.first ≤ i ∧ i ≤ span.last := by
    intro i
    rw [coversLine, List.any_cons, List.any_nil, Bool.or_false, Span.contains_iff]
  have hbefore : keptFrom [span] 0 (lines.take span.first) = lines.take span.first := by
    refine keptFrom_eq_self fun i _ hi => ?_
    rw [Bool.eq_false_iff, Ne, hcovers]
    omega
  have hbehind : keptFrom [span] (span.last + 1) (lines.drop (span.last + 1)) =
      lines.drop (span.last + 1) := by
    refine keptFrom_eq_self fun i hi _ => ?_
    rw [Bool.eq_false_iff, Ne, hcovers]
    omega
  -- Every index inside is covered, so as many lines go as there are.
  have hinside : keptFrom [span] span.first (lines.linesOf span) = [] := by
    have hcount := length_keptFrom_add [span] span.first (lines.linesOf span)
    have hall : ∀ i ∈ List.range' span.first (lines.linesOf span).length,
        coversLine [span] i = true := by
      intro i hi
      rw [List.mem_range'_1, hlength] at hi
      exact (hcovers i).mpr (by omega)
    rw [List.countP_eq_length.mpr hall, List.length_range'] at hcount
    exact List.length_eq_zero_iff.mp (by omega)
  refine ⟨_, _, hparts, hfront, by omega, ?_⟩
  rw [without_eq_keptFrom]
  conv => lhs; rw [hparts]
  have hindex : 0 + (span.first + (lines.linesOf span).length) = span.last + 1 := by omega
  rw [keptFrom_append, keptFrom_append, List.length_append, hfront, hindex, Nat.zero_add, hbefore,
    hinside, hbehind, List.append_nil]

/-! ### Counting the lines taken -/

/-- No line lies in both spans. -/
def Span.Apart (span other : Span) : Prop :=
  ∀ index, span.contains index = true → other.contains index = false

/-- The spans lie apart, none is empty, and all end before the given index. -/
structure TidySpans (spans : List Span) (bound : Nat) : Prop where
  /-- No line lies in two of the spans. -/
  apart : spans.Pairwise Span.Apart
  /-- Every span has a line. -/
  ordered : ∀ span ∈ spans, span.first ≤ span.last
  /-- Every span ends before the bound. -/
  bounded : ∀ span ∈ spans, span.last < bound

theorem Span.Apart.symm {span other : Span} (h : span.Apart other) : other.Apart span := by
  intro i hother
  cases hspan : span.contains i with
  | false => rfl
  | true =>
    rw [h i hspan] at hother
    cases hother

/-- Of two spans that lie apart, the one that starts first ends before the other. -/
theorem Span.Apart.last_lt {span later : Span} (h : span.Apart later)
    (hfirst : span.first ≤ later.first) (hlater : later.first ≤ later.last) :
    span.last < later.first := by
  -- Otherwise the first line of the later span would lie in both.
  refine Nat.lt_of_not_le fun hover => ?_
  have hout := h later.first (Span.contains_iff.mpr ⟨hfirst, hover⟩)
  rw [Span.contains_first hlater] at hout
  cases hout

theorem linesAbove_eq_countP {span : Span} (h : span.first ≤ span.last) (index : Nat) :
    span.linesAbove index = (List.range index).countP span.contains := by
  induction index with
  | zero => rfl
  | succ index ih =>
    rw [List.range_succ, List.countP_append, ← ih, List.countP_singleton]
    simp only [Span.linesAbove, Span.contains_iff]
    split <;> split <;> split <;> omega

theorem countP_coversLine_cons {span : Span} (h : ∀ other ∈ spans, span.Apart other)
    (indices : List Nat) :
    indices.countP (coversLine (span :: spans)) =
      indices.countP span.contains + indices.countP (coversLine spans) := by
  induction indices with
  | nil => rfl
  | cons i indices ih =>
    -- Spans that lie apart cover no index twice.
    have hboth : span.contains i = true → coversLine spans i = false := by
      intro hspan
      rw [coversLine, List.any_eq_false]
      exact fun other hother => by simp [h other hother i hspan]
    simp only [List.countP_cons, ih]
    cases hspan : span.contains i with
    | true =>
      have hcons : coversLine (span :: spans) i = true := by simp [coversLine_cons, hspan]
      rw [hcons, hboth hspan]
      simp only [if_true, Bool.false_eq_true, if_false]
      omega
    | false =>
      have hcons : coversLine (span :: spans) i = coversLine spans i := by
        simp [coversLine_cons, hspan]
      rw [hcons]
      simp only [Bool.false_eq_true, if_false]
      omega

/-- Counting span by span counts the covered lines. -/
theorem linesTakenAbove_eq_countP {bound : Nat} (h : TidySpans spans bound) (index : Nat) :
    linesTakenAbove spans index = (List.range index).countP (coversLine spans) := by
  obtain ⟨hapart, hordered, -⟩ := h
  induction spans with
  | nil => exact (List.countP_eq_zero.mpr fun _ _ => by simp [coversLine]).symm
  | cons span spans ih =>
    obtain ⟨hhead, htail⟩ := List.pairwise_cons.mp hapart
    have hspan := linesAbove_eq_countP (hordered span List.mem_cons_self) index
    rw [countP_coversLine_cons hhead, ← hspan,
      ← ih htail fun other hother => hordered other (List.mem_cons_of_mem _ hother)]
    rfl

theorem coversLine_eq_false_of_le {bound : Nat} (h : TidySpans spans bound)
    (hindex : bound ≤ index) : coversLine spans index = false := by
  rw [coversLine, List.any_eq_false]
  intro span hspan hcontains
  have hlast := (Span.contains_iff.mp hcontains).2
  have := h.bounded span hspan
  omega

theorem length_keptFrom_take (h : TidySpans spans lines.length) {place : Nat}
    (hplace : place ≤ lines.length) :
    (keptFrom spans 0 (lines.take place)).length = place - linesTakenAbove spans place := by
  have hlength := length_keptFrom_add spans 0 (lines.take place)
  rw [List.length_take_of_le hplace, ← List.range_eq_range'] at hlength
  rw [linesTakenAbove_eq_countP h]
  omega

/-- A place that moves up by the lines taken above it stays between the same two lines. -/
theorem insertAt_without (h : TidySpans spans lines.length) (place : Nat) (inserted : List Line) :
    (lines.without spans).insertAt (place - linesTakenAbove spans place) inserted =
      keptFrom spans 0 (lines.take place) ++ List.replicate (place - lines.length) [] ++
        inserted ++ keptFrom spans place (lines.drop place) := by
  rw [without_eq_keptFrom, Buffer.insertAt]
  rcases Nat.le_total place lines.length with hplace | hplace
  · have hlength := length_keptFrom_take h hplace
    have hkept : keptFrom spans 0 lines =
        keptFrom spans 0 (lines.take place) ++ keptFrom spans place (lines.drop place) := by
      have := keptFrom_append spans 0 (lines.take place) (lines.drop place)
      rwa [List.take_append_drop, List.length_take_of_le hplace, Nat.zero_add] at this
    rw [hkept, List.take_left' hlength, List.drop_left' hlength,
      Nat.sub_eq_zero_of_le (by rw [List.length_append]; omega), Nat.sub_eq_zero_of_le hplace]
  · -- The buffer ends above the place, and so does what is left of it.
    have hcount : linesTakenAbove spans place =
        (List.range lines.length).countP (coversLine spans) := by
      rw [linesTakenAbove_eq_countP h]
      obtain ⟨more, rfl⟩ := Nat.exists_eq_add_of_le hplace
      rw [List.range_add, List.countP_append, List.countP_map]
      have hnone : (List.range more).countP (coversLine spans ∘ (lines.length + ·)) = 0 := by
        rw [List.countP_eq_zero]
        intro i _
        simp [coversLine_eq_false_of_le h (Nat.le_add_right lines.length i)]
      rw [hnone, Nat.add_zero]
    have hlength := length_keptFrom_add spans 0 lines
    rw [← List.range_eq_range', ← hcount] at hlength
    rw [List.take_of_length_le hplace, List.drop_of_length_le hplace,
      List.take_of_length_le (by omega), List.drop_of_length_le (by omega)]
    have hpad : place - linesTakenAbove spans place - (keptFrom spans 0 lines).length =
        place - lines.length := by
      omega
    rw [hpad]
    rfl

/-! ### Scans -/

/-- The spans of a scan: a line opens a span if `reach?` says how many of the lines after it
belong to it. The first line has the given index, and the first `inside` lines belong to a span
that was found before. -/
def scanSpans (reach? : Nat → Line → List Line → Option Nat) (inside index : Nat) :
    List Line → List Span
  | [] => []
  | line :: rest =>
    match inside with
    | inside + 1 => scanSpans reach? inside (index + 1) rest
    | 0 =>
      match reach? index line rest with
      | some reach => ⟨index, index + reach⟩ :: scanSpans reach? reach (index + 1) rest
      | none => scanSpans reach? 0 (index + 1) rest

/-- The lines that a scan leaves. -/
def scanKept (reach? : Nat → Line → List Line → Option Nat) (inside index : Nat) :
    List Line → List Line
  | [] => []
  | line :: rest =>
    match inside with
    | inside + 1 => scanKept reach? inside (index + 1) rest
    | 0 =>
      match reach? index line rest with
      | some reach => scanKept reach? reach (index + 1) rest
      | none => line :: scanKept reach? 0 (index + 1) rest

variable {reach? : Nat → Line → List Line → Option Nat} {inside : Nat}

/-- A span of a scan starts at a line that opens it, behind the lines of the spans before. -/
theorem exists_of_mem_scanSpans {span : Span} (h : span ∈ scanSpans reach? inside index lines) :
    ∃ front line rest reach, lines = front ++ line :: rest ∧ inside ≤ front.length ∧
      reach? (index + front.length) line rest = some reach ∧
        span = ⟨index + front.length, index + front.length + reach⟩ := by
  induction lines generalizing inside index with
  | nil => cases h
  | cons line lines ih =>
    -- A span found further down is cut there, one line later.
    have hlater {inside' : Nat} (h : span ∈ scanSpans reach? inside' (index + 1) lines)
        (hle : inside ≤ inside' + 1) : ∃ front line' rest reach,
          line :: lines = front ++ line' :: rest ∧ inside ≤ front.length ∧
            reach? (index + front.length) line' rest = some reach ∧
              span = ⟨index + front.length, index + front.length + reach⟩ := by
      obtain ⟨front, line', rest, reach, rfl, hinside, hreach, hspan⟩ := ih h
      refine ⟨line :: front, line', rest, reach, rfl, ?_, by rwa [add_length_cons],
        by rwa [add_length_cons]⟩
      rw [List.length_cons]
      omega
    cases inside with
    | succ inside => exact hlater h (Nat.le_refl _)
    | zero =>
      rw [scanSpans] at h
      cases hreach : reach? index line lines with
      | some reach =>
        rw [hreach] at h
        rcases List.mem_cons.mp h with hspan | h
        · exact ⟨[], line, lines, reach, rfl, Nat.le_refl 0, hreach, hspan⟩
        · exact hlater h (Nat.zero_le _)
      | none =>
        rw [hreach] at h
        exact hlater h (Nat.zero_le _)

theorem of_mem_scanSpans {span : Span} (h : span ∈ scanSpans reach? inside index lines) :
    index + inside ≤ span.first ∧ span.first ≤ span.last := by
  obtain ⟨front, line, rest, reach, -, hinside, -, rfl⟩ := exists_of_mem_scanSpans h
  exact ⟨Nat.add_le_add_left hinside index, Nat.le_add_right _ _⟩

theorem last_lt_of_mem_scanSpans
    (hbound : ∀ i line rest reach, reach? i line rest = some reach → reach ≤ rest.length)
    {span : Span} (h : span ∈ scanSpans reach? inside index lines) :
    span.last < index + lines.length := by
  obtain ⟨front, line, rest, reach, rfl, -, hreach, rfl⟩ := exists_of_mem_scanSpans h
  have hle := hbound _ _ _ _ hreach
  dsimp only
  rw [List.length_append, List.length_cons]
  omega

/-- The lines of the spans before lie in no span of a scan. -/
theorem coversLine_scanSpans_of_lt {i : Nat} (h : i < index + inside) :
    coversLine (scanSpans reach? inside index lines) i = false :=
  coversLine_eq_false_of_lt fun _ hspan => Nat.lt_of_lt_of_le h (of_mem_scanSpans hspan).1

/-- A line that can open a span lies in one, unless it lies in a span from before. -/
theorem coversLine_scanSpans_of_reach? {rest : List Line} {reach : Nat}
    (h : reach? (index + front.length) line rest = some reach) (hinside : inside ≤ front.length) :
    coversLine (scanSpans reach? inside index (front ++ line :: rest)) (index + front.length) =
      true := by
  induction front generalizing inside index with
  | nil =>
    obtain rfl : inside = 0 := Nat.le_zero.mp hinside
    rw [List.length_nil, Nat.add_zero] at h ⊢
    rw [List.nil_append, scanSpans, h, coversLine_cons, Span.contains_first (Nat.le_add_right _ _),
      Bool.true_or]
  | cons first front ih =>
    rw [add_length_cons] at h ⊢
    rw [List.length_cons] at hinside
    rw [List.cons_append]
    cases inside with
    | succ inside => exact ih h (Nat.le_of_succ_le_succ hinside)
    | zero =>
      rw [scanSpans]
      cases reach? index first (front ++ line :: rest) with
      | none => exact ih h (Nat.zero_le _)
      | some reach =>
        -- The span that opens here reaches over the line, or ends above it.
        rw [coversLine_cons, Bool.or_eq_true, Span.contains_iff]
        by_cases hin : front.length < reach
        · exact Or.inl ⟨by dsimp only; omega, by dsimp only; omega⟩
        · exact Or.inr (ih h (Nat.le_of_not_lt hin))
theorem pairwise_scanSpans : (scanSpans reach? inside index lines).Pairwise Span.Apart := by
  induction lines generalizing inside index with
  | nil => exact List.Pairwise.nil
  | cons line lines ih =>
    cases inside with
    | succ inside => exact ih
    | zero =>
      rw [scanSpans]
      cases hreach : reach? index line lines with
      | some reach =>
        refine List.pairwise_cons.mpr ⟨fun other hother i hi => ?_, ih⟩
        have hfirst := (of_mem_scanSpans hother).1
        have hlast := (Span.contains_iff.mp hi).2
        exact Span.contains_eq_false_iff.mpr (Or.inl (by dsimp only at hlast; omega))
      | none => exact ih

/-- The spans of a scan are tidy. -/
theorem tidySpans_scanSpans
    (hbound : ∀ i line rest reach, reach? i line rest = some reach → reach ≤ rest.length) :
    TidySpans (scanSpans reach? 0 0 lines) lines.length where
  apart := pairwise_scanSpans
  ordered := fun _ h => (of_mem_scanSpans h).2
  bounded := fun _ h => by simpa using last_lt_of_mem_scanSpans hbound h

/-- A scan leaves the lines it does not reach over. -/
theorem keptFrom_scanSpans (h : ∀ i, index ≤ i → coversLine spans i =
      (decide (i < index + inside) || coversLine (scanSpans reach? inside index lines) i)) :
    keptFrom spans index lines = scanKept reach? inside index lines := by
  induction lines generalizing inside index with
  | nil => rfl
  | cons line lines ih =>
    have hhere := h index (Nat.le_refl _)
    cases inside with
    | succ inside =>
      have hcovered : coversLine spans index = true := by
        rw [hhere]
        simp
      rw [keptFrom, if_pos hcovered, scanKept]
      refine ih fun i hi => ?_
      rw [h i (by omega), scanSpans, Nat.add_right_comm, Nat.add_assoc]
    | zero =>
      rw [keptFrom, scanKept]
      cases hreach : reach? index line lines with
      | some reach =>
        have hcovered : coversLine spans index = true := by
          rw [hhere, scanSpans, hreach]
          simp [coversLine_cons, Span.contains_iff]
        rw [if_pos hcovered]
        refine ih fun i hi => ?_
        rw [h i (by omega), scanSpans, hreach]
        simp only [coversLine_cons, Span.contains]
        have hfirst : decide (i < index + 0) = false := by simp; omega
        -- The new span covers the lines that the scan goes on to pass over.
        have hspan : (decide (index ≤ i) && decide (i ≤ index + reach)) =
            decide (i < index + 1 + reach) := by
          rw [decide_eq_true (by omega : index ≤ i), Bool.true_and, decide_eq_decide]
          omega
        rw [hfirst, hspan, Bool.false_or]
      | none =>
        have hcovered : coversLine spans index = false := by
          rw [hhere, scanSpans, hreach]
          simp [coversLine_scanSpans_of_lt]
        rw [if_neg (by simp [hcovered])]
        refine congrArg (line :: ·) (ih fun i hi => ?_)
        rw [h i (by omega), scanSpans, hreach]
        have hlt : decide (i < index + 0) = decide (i < index + 1 + 0) := by
          rw [decide_eq_decide]
          omega
        rw [hlt]

/-- What a scan of a whole buffer leaves. -/
theorem without_scanSpans (reach? : Nat → Line → List Line → Option Nat) (lines : Buffer) :
    lines.without (scanSpans reach? 0 0 lines) = scanKept reach? 0 0 lines := by
  rw [without_eq_keptFrom]
  exact keptFrom_scanSpans fun i _ => by simp

end Waymark
