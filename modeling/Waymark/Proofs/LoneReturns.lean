import Waymark.Proofs.FooterPlacement
import Waymark.Proofs.Headings
import Waymark.Proofs.Order

/-!
# Carriage returns in the result

Reading a note takes one carriage return off every line end. A second one, or one at the very end
of the note, stays part of its line. When such a line is followed by another one in the result, the
two make a line end again: the result then has line ends of two kinds and is read as other lines
than were written. The lines of a rule with line feeds are read as several, too.

So what decides is the lines that stay of the note when the old footers are gone: none above the
last may end in a carriage return, and if the last one does, no footer may be put below it.

## Main definitions

* `keptText` — what stays of a note, with its title, anchor and table of contents in place
* `EndsPlainly` — no line that stays is written with a carriage return before its line end
* `RuleIsOneLine` — a rule line is written only if it is one line
* `IsReadAsWritten` — the result has no carriage return before a line end and is read as the lines
  that were written

## Main results

* `not_pair_infix_joinLines_iff` — when a joined buffer has no carriage return before a line end
* `forall_dropLast_placeFooters_iff` — the footers put a line end behind the last line
* `isReadAsWritten_iff` — exactly when the result is read as it was written
-/

namespace Waymark

/-- What stays of a note when its title, anchor and table of contents are in place and the old
footers are gone. -/
def keptText (lines : Buffer) (name : List Char) (options : Options) : Buffer :=
  let listed := listedLines lines name options
  listed.without (footerSpans listed options.footerLevels (ruleLine options.rule))

/-- No line that stays of the note is written with a carriage return before its line end: none above
the last ends in one, and if the last one does, no section is open below it that is to end in a
footer. -/
def EndsPlainly (lines : Buffer) (name : List Char) (options : Options) : Prop :=
  (∀ line ∈ (keptText lines name options).dropLast, endsInReturn line = false) ∧
    ((keptText lines name options).getLast?.any endsInReturn = true →
      openAfter options.footerLevels [] (keptText lines name options) = [])

/-- A rule line is written only if it is one line. -/
def RuleIsOneLine (lines : Buffer) (name : List Char) (options : Options) : Prop :=
  '\n' ∈ ruleLine options.rule →
    ∀ head ∈ outline (keptText lines name options), head.1 ∉ options.footerLevels

/-- The result has no carriage return before a line end, and is cut into the very lines that were
joined. -/
def IsReadAsWritten (text name : String) (options : Options) : Prop :=
  ¬ ['\r', '\n'] <:+: (arrange text name options).toList ∧
    splitLines (arrange text name options).toList =
      arrangeLines (splitLines text.toList) name.toList options.normalized

variable {lines rest : Buffer} {line rule : Line} {text : List Char} {options : Options}
variable {levels opened : List Nat} {endsBlank : Bool}

/-! ### Carriage returns before line ends -/

/-- The two characters lie in a part of the text, or on its two sides. -/
theorem pair_infix_append_newline_iff : ['\r', '\n'] <:+: line ++ '\n' :: text ↔
    ['\r', '\n'] <:+: line ∨ line.getLast? = some '\r' ∨ ['\r', '\n'] <:+: text := by
  induction line with
  | nil => simp [List.infix_cons_iff, List.cons_prefix_cons]
  | cons c line ih =>
    rw [List.cons_append, List.infix_cons_iff, ih, List.infix_cons_iff]
    cases line with
    | nil =>
      by_cases hc : c = '\r'
      · simp [hc, List.cons_prefix_cons]
      · simp [hc, Ne.symm hc, List.cons_prefix_cons]
    | cons d line =>
      rw [List.getLast?_cons_cons, List.cons_append]
      simp only [List.cons_prefix_cons, List.nil_prefix, and_true, or_assoc]

/-- A joined buffer has no carriage return before a line end where no line above the last one ends
in one. -/
theorem not_pair_infix_joinLines_iff (h : ∀ line ∈ lines, ¬ ['\r', '\n'] <:+: line) :
    ¬ ['\r', '\n'] <:+: joinLines lines ↔ ∀ line ∈ lines.dropLast, endsInReturn line = false := by
  induction lines with
  | nil => simp [joinLines]
  | cons line rest ih =>
    cases rest with
    | nil => simpa using h line List.mem_cons_self
    | cons next rest =>
      have hrest := ih fun l hl => h l (List.mem_cons_of_mem _ hl)
      rw [joinLines_cons line (List.cons_ne_nil _ _), pair_infix_append_newline_iff,
        or_iff_right (h line List.mem_cons_self), not_or, hrest, List.dropLast_cons_cons,
        List.forall_mem_cons, endsInReturn_eq_false_iff]

theorem endsInReturn_eq_false_of_mem_footerStack (hrule : endsInReturn rule = false) {count : Nat}
    (h : line ∈ footerStack rule count endsBlank) : endsInReturn line = false := by
  rcases mem_footerStack h with rfl | rfl | rfl
  · rfl
  · decide
  · exact hrule

/-- Footers put a line end behind the last line if a section is open there. -/
theorem forall_dropLast_placeFooters_iff (hrule : endsInReturn rule = false) :
    (∀ line ∈ (placeFooters levels rule opened endsBlank lines).dropLast,
        endsInReturn line = false) ↔
      (∀ line ∈ lines.dropLast, endsInReturn line = false) ∧
        (lines.getLast?.any endsInReturn = true → openAfter levels opened lines = []) := by
  induction lines generalizing opened endsBlank with
  | nil =>
    simp only [List.dropLast_nil, List.getLast?_nil, Option.any_none, Bool.false_eq_true,
      false_imp_iff, and_true, List.not_mem_nil, imp_true_iff, iff_true]
    exact fun line hline =>
      endsInReturn_eq_false_of_mem_footerStack hrule ((List.dropLast_prefix _).subset hline)
  | cons line rest ih =>
    have hstack : ∀ l ∈ footerStack rule (closingCount opened line) endsBlank,
        endsInReturn l = false := fun l => endsInReturn_eq_false_of_mem_footerStack hrule
    -- The last line stays the last one exactly if no section is open below it.
    cases rest with
    | nil =>
      have hopen : openAfter levels opened [line] = nextOpened levels opened line := rfl
      rw [placeFooters, placeFooters, hopen]
      cases hafter : nextOpened levels opened line with
      | nil =>
        rw [List.length_nil, footerStack, List.dropLast_concat]
        simpa using hstack
      | cons level deeper =>
        have hbelow : ∀ l ∈ (footerStack rule (level :: deeper).length (isBlank line)).dropLast,
            endsInReturn l = false := fun l hl =>
          endsInReturn_eq_false_of_mem_footerStack hrule ((List.dropLast_prefix _).subset hl)
        have hne : footerStack rule (level :: deeper).length (isBlank line) ≠ [] := by
          simp [footerStack, footerLines]
        rw [List.dropLast_append_of_ne_nil (List.cons_ne_nil _ _), List.dropLast_cons_of_ne_nil hne,
          List.forall_mem_append, and_iff_right hstack, List.forall_mem_cons, and_iff_left hbelow]
        simp
    | cons next rest =>
      rw [placeFooters, List.dropLast_append_of_ne_nil (List.cons_ne_nil _ _)]
      have hne : placeFooters levels rule (nextOpened levels opened line) (isBlank line)
          (next :: rest) ≠ [] := by
        rw [placeFooters]
        simp
      rw [List.dropLast_cons_of_ne_nil hne, List.forall_mem_append, and_iff_right hstack,
        List.forall_mem_cons, ih, List.dropLast_cons_cons, List.forall_mem_cons,
        List.getLast?_cons_cons, and_assoc]
      rfl

/-! ### The result -/

theorem arrangeLines_eq_placeFooters (lines : Buffer) (name : List Char) (options : Options) :
    arrangeLines lines name options =
      placeFooters options.footerLevels (ruleLine options.rule) [] false
        (keptText lines name options) := by
  rw [arrangeLines_eq, keptText, without_footerSpans]
  rfl

theorem keptText_eq_nil_iff :
    keptText lines name options = [] ↔ arrangeLines lines name options = [] := by
  rw [arrangeLines_eq_placeFooters]
  cases hkept : keptText lines name options with
  | nil => simp [placeFooters, footerStack]
  | cons line rest => simp [placeFooters]

theorem newline_not_mem_of_mem_keptText (hlines : ∀ line ∈ lines, '\n' ∉ line)
    (hfeed : '\n' ∉ name) (h : line ∈ keptText lines name options) : '\n' ∉ line := by
  rw [keptText, without_footerSpans] at h
  exact newline_not_mem_of_mem_ensureToc
    (fun _ => newline_not_mem_of_mem_arrangeTop hlines hfeed) ((keptLines_sublist ..).subset h)

/-- No stage writes a line that ends in a carriage return. -/
theorem endsInReturn_eq_false_of_mem_keptText (hlines : ∀ line ∈ lines, '\n' ∉ line)
    (hplain : ∀ line ∈ lines, endsInReturn line = false) (hreturn : '\r' ∉ name)
    (hfeed : '\n' ∉ name) (h : line ∈ keptText lines name options) :
    endsInReturn line = false := by
  rw [keptText, without_footerSpans] at h
  rw [endsInReturn_eq_false_iff]
  exact (cleanLine_of_mem_listedLines
    (fun l hl => ⟨hlines l hl, endsInReturn_eq_false_iff.mp (hplain l hl)⟩) hreturn hfeed
    ((keptLines_sublist ..).subset h)).2

/-- A note none of whose lines ends in a carriage return ends plainly. -/
theorem endsPlainly_of_lines (hlines : ∀ line ∈ lines, '\n' ∉ line)
    (hplain : ∀ line ∈ lines, endsInReturn line = false) (hreturn : '\r' ∉ name)
    (hfeed : '\n' ∉ name) : EndsPlainly lines name options := by
  have hkept : ∀ line ∈ keptText lines name options, endsInReturn line = false :=
    fun line => endsInReturn_eq_false_of_mem_keptText hlines hplain hreturn hfeed
  constructor
  · intro line hline
    exact hkept line ((List.dropLast_prefix _).subset hline)
  · intro hlast
    rw [Option.any_eq_true] at hlast
    obtain ⟨line, hline, hends⟩ := hlast
    rw [hkept line (List.mem_of_getLast? hline)] at hends
    cases hends

/-- A rule line with line feeds is not written exactly if there is no footer to be put in. -/
theorem ruleIsOneLine_iff (hlines : ∀ line ∈ lines, '\n' ∉ line) (hfeed : '\n' ∉ name) :
    RuleIsOneLine lines name options ↔
      ∀ line ∈ arrangeLines lines name options, '\n' ∉ line := by
  rw [arrangeLines_eq_placeFooters]
  constructor
  · intro hone line hline
    by_cases hrule : '\n' ∈ ruleLine options.rule
    · rw [placeFooters_eq_self (hone hrule)] at hline
      exact newline_not_mem_of_mem_keptText hlines hfeed hline
    · rcases mem_placeFooters hline with hline | rfl | rfl | rfl
      · exact newline_not_mem_of_mem_keptText hlines hfeed hline
      · exact List.not_mem_nil
      · decide
      · exact hrule
  · intro hplain hrule head hhead hlevel
    exact hplain _ (rule_mem_placeFooters (.inr ⟨head, hhead, hlevel⟩)) hrule

/-- The result of a note has no carriage return before a line end exactly if the lines that stay of
the note end plainly. It is then read as it was written exactly if some line stays and the rule line
is one line or is not written. -/
theorem isReadAsWritten_iff (text name : String) (options : Options)
    (hneeds : needsNavigation text = true) (hfeed : '\n' ∉ name.toList)
    (hrule : '\r' ∉ options.normalized.rule) :
    let lines := splitLines text.toList
    (¬ ['\r', '\n'] <:+: (arrange text name options).toList ↔
        EndsPlainly lines name.toList options.normalized) ∧
      (IsReadAsWritten text name options ↔ EndsPlainly lines name.toList options.normalized ∧
        keptText lines name.toList options.normalized ≠ [] ∧
          RuleIsOneLine lines name.toList options.normalized) := by
  intro lines
  have hused : ruleLine options.normalized.rule = options.normalized.rule :=
    ruleLine_usableRule options
  have hwhere : ∀ line ∈ arrangeLines lines name.toList options.normalized,
      '\n' ∉ line ∨ line = options.normalized.rule := by
    intro line hline
    rw [← hused]
    exact newline_not_mem_of_mem_arrangeLines (fun _ => not_mem_of_mem_splitLines) hfeed hline
  have hreturn : endsInReturn (ruleLine options.normalized.rule) = false := by
    rw [hused, endsInReturn_eq_false_iff]
    exact getLast?_usableRule options
  have hpair : ¬ ['\r', '\n'] <:+: (arrange text name options).toList ↔
      EndsPlainly lines name.toList options.normalized := by
    -- Within a line the pair could stand only in the rule line, and that has no carriage return.
    have hinside : ∀ line ∈ arrangeLines lines name.toList options.normalized,
        ¬ ['\r', '\n'] <:+: line := by
      intro line hline hpart
      rcases hwhere line hline with hplain | rfl
      · exact hplain (hpart.subset (by simp))
      · exact hrule (hpart.subset (by simp))
    rw [toList_arrange hneeds, not_pair_infix_joinLines_iff hinside, arrangeLines_eq_placeFooters,
      forall_dropLast_placeFooters_iff hreturn]
    rfl
  refine ⟨hpair, ?_⟩
  rw [IsReadAsWritten, hpair]
  refine and_congr_right fun hplain => ?_
  have hproper : RuleIsOneLine lines name.toList options.normalized ↔
      ProperLines (arrangeLines lines name.toList options.normalized) := by
    rw [ruleIsOneLine_iff (fun _ => not_mem_of_mem_splitLines) hfeed, ProperLines, iff_self_and]
    intro _ line hline
    rw [← endsInReturn_eq_false_iff]
    rw [arrangeLines_eq_placeFooters] at hline
    exact (forall_dropLast_placeFooters_iff hreturn).mpr hplain line hline
  rw [hproper, ne_eq, keptText_eq_nil_iff]
  constructor
  · intro hread
    refine ⟨?_, hproper.mp ((ruleIsOneLine_iff (fun _ => not_mem_of_mem_splitLines) hfeed).mpr ?_)⟩
    · rw [← hread]
      exact List.splitOn_ne_nil _ _
    · rw [← hread]
      exact fun _ => not_mem_of_mem_splitLines
  · rintro ⟨hne, hproper⟩
    rw [splitLines_arrange hneeds, relined_eq_self hne hproper]

/-- A note with two characters at each line end is read as it was written. -/
theorem isReadAsWritten_of_line_end_pairs :
    needsNavigation "## A\r\nbody\r\n## B\r\nbody\r\n" = true ∧
      '\r' ∉ ({} : Options).normalized.rule ∧
        IsReadAsWritten "## A\r\nbody\r\n## B\r\nbody\r\n" "note" {} := by
  have hneeds : needsNavigation "## A\r\nbody\r\n## B\r\nbody\r\n" = true := by decide +kernel
  have hrule : '\r' ∉ ({} : Options).normalized.rule := by decide +kernel
  refine ⟨hneeds, hrule, (isReadAsWritten_iff _ _ _ hneeds (by decide) hrule).2.mpr ⟨?_, ?_, ?_⟩⟩
  · exact endsPlainly_of_lines (fun _ => not_mem_of_mem_splitLines) (by decide +kernel) (by decide)
      (by decide)
  · decide +kernel
  · exact fun hfeed => absurd hfeed (by decide +kernel)

/-- The last line of a note may end in a carriage return. With a footer below it, the result has a
line end of two characters. -/
theorem pair_infix_arrange_of_last_return :
    needsNavigation "# T\r\n## A\r\nbody\r" = true ∧ '\r' ∉ ({} : Options).normalized.rule ∧
      ['\r', '\n'] <:+: (arrange "# T\r\n## A\r\nbody\r" "note" {}).toList := by
  have hneeds : needsNavigation "# T\r\n## A\r\nbody\r" = true := by decide +kernel
  refine ⟨hneeds, by decide +kernel, ?_⟩
  rw [toList_arrange hneeds]
  decide +kernel

end Waymark
