import Waymark.Proofs.Contents
import Waymark.Proofs.LineEnds
import Waymark.Proofs.Renewal
import Waymark.Proofs.Top

/-!
# The lines that the program writes

Every line of an arranged buffer stood in the note or is one of a few kinds of lines that
the program writes: a fence, a title, an anchor, a line of a table of contents, a line of
a footer, or an empty line. What can be said of these lines depends on the note's name and
on the rule line, whose normalized form is neither blank nor a heading and ends visibly.

## Main definitions

* `PlainName` — a name that brings neither line ends nor markers into a title
* `PlainRule` — a rule line that no stage takes for anything else

## Main results

* `ruleLine_usableRule`, `isBlank_usableRule`, `getLast?_usableRule` — normalized rule lines
* `exists_headingOfLine?_titleLine` — a made title is a heading of level one
* `mem_listedLines` — the lines that the stage of the footers finds
-/

namespace Waymark

/-- A name that brings neither line ends nor markers into a title. -/
def PlainName (name : List Char) : Prop :=
  '\r' ∉ name ∧ '\n' ∉ name ∧ '%' ∉ name ∧ '<' ∉ name

/-- A rule line that no stage takes for anything else than a rule line. -/
structure PlainRule (rule : Line) : Prop where
  /-- The rule line is one line. -/
  oneLine : '\n' ∉ rule
  /-- It starts like no heading. -/
  noHash : rule.head? ≠ some '#'
  /-- It is no anchor. -/
  noAnchor : rule ≠ topAnchor
  /-- It mentions no marker. -/
  noMarker : isMarkerLine rule = false

variable {lines : Buffer} {line : Line} {name : List Char} {options : Options}

/-! ### Normalized rule lines -/

theorem ruleLine_ne_nil (rule : List Char) : ruleLine rule ≠ [] := by
  rw [ruleLine]
  split
  · decide
  · next h =>
    rintro rfl
    exact h rfl

theorem ruleLine_usableRule (options : Options) :
    ruleLine options.usableRule = options.usableRule := by
  have hne : options.usableRule.isEmpty = false := by
    rw [List.isEmpty_eq_false_iff]
    exact ruleLine_ne_nil _
  have hheading : isHeadingLine options.usableRule = false := isHeadingLine_ruleLine _
  rw [ruleLine, hne, hheading]
  rfl

theorem isBlankChar_getLast?_trimEnd {text : List Char} :
    ∀ c ∈ (trimEnd text).getLast?, isBlankChar c = false :=
  (rdropWhile_eq_iff.mp rfl).2

/-- A normalized rule line ends visibly. -/
theorem isBlankChar_getLast?_usableRule (options : Options) :
    ∀ c ∈ options.usableRule.getLast?, isBlankChar c = false := by
  rw [Options.usableRule, ruleLine]
  split
  · have hlast : defaultRule.getLast? = some '-' := by decide
    rw [hlast]
    rintro c ⟨⟩
    decide
  · exact isBlankChar_getLast?_trimEnd

theorem isBlank_usableRule (options : Options) : isBlank options.usableRule = false := by
  obtain ⟨c, hc⟩ := Option.isSome_iff_exists.mp
    (List.getLast?_isSome.mpr (ruleLine_ne_nil (trimEnd options.rule)))
  have hvisible := isBlankChar_getLast?_usableRule options c hc
  rw [isBlank, List.all_eq_false]
  exact ⟨c, List.mem_of_getLast? hc, by simp [hvisible]⟩

theorem getLast?_usableRule (options : Options) : options.usableRule.getLast? ≠ some '\r' := by
  intro h
  have := isBlankChar_getLast?_usableRule options '\r' h
  revert this
  decide

/-- No heading is taken for a plain rule line. -/
theorem isMarkLine_eq_false_of_isHeadingLine {rule : Line} (hrule : rule.head? ≠ some '#')
    (hne : rule ≠ []) (h : isHeadingLine line = true) : isMarkLine rule line = false := by
  by_contra hmark
  obtain ⟨rest, rfl, -⟩ := isMarkLine_iff.mp (by simpa using hmark)
  have hhead := head?_of_isHeadingLine h
  rw [List.head?_append_of_ne_nil _ hne] at hhead
  exact hrule hhead

/-! ### Made titles -/

theorem eq_of_toUpper_eq {c d : Char} (h : c.toUpper = d) (hd : d.isUpper = false) : c = d := by
  delta Char.toUpper at h
  split at h
  · next hlower =>
    -- An upper case letter would have come out.
    subst h
    have hup : ∀ x : UInt32, 'a'.val ≤ x ∧ x ≤ 'z'.val →
        'A'.val ≤ x + ('A'.val - 'a'.val) ∧ x + ('A'.val - 'a'.val) ≤ 'Z'.val := by
      intro x hx
      have hshift : ('A'.val - 'a'.val).toNat = 4294967264 := by decide
      have hlo : 'a'.val.toNat = 97 := by decide
      have hhi : 'z'.val.toNat = 122 := by decide
      have hlo' : 'A'.val.toNat = 65 := by decide
      have hhi' : 'Z'.val.toNat = 90 := by decide
      rw [UInt32.le_iff_toNat_le, UInt32.le_iff_toNat_le, hlo, hhi] at hx
      rw [UInt32.le_iff_toNat_le, UInt32.le_iff_toNat_le, UInt32.toNat_add, hshift, hlo', hhi']
      omega
    delta Char.isUpper at hd
    exact absurd (hup _ hlower) (by simpa using hd)
  · exact h

theorem mem_spaceSeparators {c : Char} (h : c ∈ spaceSeparators name) : c ∈ name ∨ c = ' ' := by
  induction name with
  | nil => cases h
  | cons d name ih =>
    rw [spaceSeparators] at h
    split at h
    · split at h
      · exact (ih h).imp_left (List.mem_cons_of_mem _)
      · rcases List.mem_cons.mp h with rfl | h
        · exact Or.inr rfl
        · exact (ih h).imp_left (List.mem_cons_of_mem _)
    · rcases List.mem_cons.mp h with rfl | h
      · exact Or.inl List.mem_cons_self
      · exact (ih h).imp_left (List.mem_cons_of_mem _)

theorem mem_capitalizeWords {c : Char} {atStart : Bool} (hc : c.isUpper = false)
    (h : c ∈ capitalizeWords atStart name) : c ∈ name := by
  induction name generalizing atStart with
  | nil => cases h
  | cons d name ih =>
    rw [capitalizeWords] at h
    rcases List.mem_cons.mp h with heq | h
    · cases atStart with
      | true => exact eq_of_toUpper_eq heq.symm hc ▸ List.mem_cons_self
      | false => exact heq ▸ List.mem_cons_self
    · exact List.mem_cons_of_mem _ (ih h)

/-- A made title holds no character that is neither in the name nor a letter or a space. -/
theorem mem_of_mem_titleOfName {c : Char} {pretty : Bool} (hc : c.isAlpha = false)
    (hspace : c ≠ ' ') (h : c ∈ titleOfName name pretty) : c ∈ name := by
  have hupper : c.isUpper = false := by
    have hparts : (c.isUpper || c.isLower) = false := hc
    exact (Bool.or_eq_false_iff.mp hparts).1
  have hchosen : c ∈ if name.isEmpty then fallbackTitle else name := by
    rw [titleOfName] at h
    cases pretty with
    | false => exact h
    | true => exact (mem_spaceSeparators (mem_capitalizeWords hupper h)).resolve_right hspace
  split at hchosen
  · have hletters : fallbackTitle.all Char.isAlpha = true := by decide
    rw [List.all_eq_true.mp hletters c hchosen] at hc
    cases hc
  · exact hchosen

theorem length_capitalizeWords (atStart : Bool) (name : List Char) :
    (capitalizeWords atStart name).length = name.length := by
  induction name generalizing atStart with
  | nil => rfl
  | cons c name ih => rw [capitalizeWords, List.length_cons, ih, List.length_cons]

theorem spaceSeparators_ne_nil (h : name ≠ []) : spaceSeparators name ≠ [] := by
  induction name with
  | nil => exact absurd rfl h
  | cons c name ih =>
    rw [spaceSeparators]
    split
    · split
      · next hnext =>
        refine ih ?_
        rintro rfl
        cases hnext
      · exact List.cons_ne_nil _ _
    · exact List.cons_ne_nil _ _

theorem titleOfName_ne_nil (name : List Char) (pretty : Bool) : titleOfName name pretty ≠ [] := by
  have hchosen : (if name.isEmpty then fallbackTitle else name) ≠ [] := by
    split
    · decide
    · next h =>
      rintro rfl
      exact h rfl
  rw [titleOfName]
  cases pretty with
  | false => exact hchosen
  | true =>
    intro hnil
    have hlength := congrArg List.length hnil
    simp only [if_true, prettyTitle, length_capitalizeWords, List.length_nil,
      List.length_eq_zero_iff] at hlength
    exact spaceSeparators_ne_nil hchosen hlength

/-- A made title is a heading of level one. -/
theorem exists_headingOfLine?_titleLine (hname : '\n' ∉ name) (pretty : Bool) :
    ∃ text, headingOfLine? (titleLine (titleOfName name pretty)) = some (1, text) := by
  have hstarts : startsText (titleOfName name pretty) = true := by
    have hne := titleOfName_ne_nil name pretty
    have hfeed : '\n' ∉ titleOfName name pretty := fun h =>
      hname (mem_of_mem_titleOfName (by decide) (by decide) h)
    cases htitle : titleOfName name pretty with
    | nil => exact absurd htitle hne
    | cons c title =>
      rw [htitle] at hfeed
      have hc : c ≠ '\n' := fun hc => hfeed (by simp [hc])
      simpa [startsText] using hc
  obtain ⟨text, htext⟩ := Option.isSome_iff_exists.mp (isSome_titleOfLine?_titleLine hstarts)
  exact ⟨text, titleOfLine?_eq_some_iff.mp htext⟩

theorem mem_titleLine {c : Char} {pretty : Bool} (hc : c.isAlpha = false) (hspace : c ≠ ' ')
    (hhash : c ≠ '#') (h : c ∈ titleLine (titleOfName name pretty)) : c ∈ name := by
  rcases List.mem_cons.mp h with rfl | h
  · exact absurd rfl hhash
  · rcases List.mem_cons.mp h with rfl | h
    · exact absurd rfl hspace
    · exact mem_of_mem_titleOfName hc hspace h

/-- A name without the first characters of a marker makes a title that mentions none. -/
theorem isMarkerLine_titleLine (hpercent : '%' ∉ name) (hangle : '<' ∉ name) (pretty : Bool) :
    isMarkerLine (titleLine (titleOfName name pretty)) = false :=
  isMarkerLine_eq_false_of_not_mem
    (fun h => hpercent (mem_titleLine (by decide) (by decide) (by decide) h))
    (fun h => hangle (mem_titleLine (by decide) (by decide) (by decide) h))

/-! ### The lines of an arranged buffer -/

theorem mem_belowGap {lines : Buffer} (h : line ∈ belowGap lines) : line ∈ lines := by
  match lines with
  | [] => exact h
  | [] :: rest => exact List.mem_cons_of_mem _ h
  | (c :: first) :: rest => exact h

theorem mem_ensureEmptyAt {lines : Buffer} (h : line ∈ ensureEmptyAt lines 0) :
    line ∈ lines ∨ line = [] := by
  rw [ensureEmptyAt_zero] at h
  split at h
  · cases h
  · exact (List.mem_cons.mp h).symm.imp_left mem_belowGap

theorem mem_withoutAnchors {lines : Buffer} (h : line ∈ withoutAnchors lines) : line ∈ lines :=
  List.mem_of_mem_filter h

/-- The lines that the stages up to the anchor write. -/
def topLines (name : List Char) (options : Options) : List Line :=
  [[], fenceLine, topAnchor, titleLine (titleOfName name options.prettifyTitle)]

theorem isMarkerLine_eq_false_of_mem_topLines (hpercent : '%' ∉ name) (hangle : '<' ∉ name)
    (h : line ∈ topLines name options) : isMarkerLine line = false := by
  simp only [topLines, List.mem_cons, List.not_mem_nil, or_false] at h
  rcases h with rfl | rfl | rfl | rfl
  · decide
  · decide
  · decide
  · exact isMarkerLine_titleLine hpercent hangle _

theorem mem_titleStart {create : Bool} (h : line ∈ (titleStart lines create).1) :
    line ∈ lines ∨ line = [] ∨ line = fenceLine := by
  rw [titleStart_fst, List.mem_append] at h
  exact h.symm.imp_right eq_of_mem_newBlock

theorem Entitled.mem {start : Nat} {pretty : Bool} {above below : Buffer} {title : Line}
    (hcut : Entitled lines start name pretty above title below)
    (h : line ∈ above ++ title :: below) :
    line ∈ lines ∨ line = [] ∨ line = titleLine (titleOfName name pretty) := by
  cases hcut with
  | found hlines => exact Or.inl (hlines ▸ h)
  | made =>
    simp only [List.mem_append, List.mem_cons, List.not_mem_nil, or_false] at h
    rcases h with (h | h) | h | h | h
    · exact Or.inl (List.mem_of_mem_take h)
    · exact Or.inr (Or.inl h)
    · exact Or.inr (Or.inr h)
    · exact Or.inr (Or.inl h)
    · exact Or.inl (List.mem_of_mem_drop (mem_belowGap h))

/-- The lines of a buffer with a title: those of the note, and the ones that the first stages
write. -/
theorem Entitled.mem_or_mem_topLines {above below : Buffer} {title : Line}
    (hcut : Entitled (titleStart lines options.createFrontmatter).1
      (titleStart lines options.createFrontmatter).2 name options.prettifyTitle above title below)
    (h : line ∈ above ++ title :: below) : line ∈ lines ∨ line ∈ topLines name options := by
  rcases hcut.mem h with hline | hline | hline
  · rcases mem_titleStart hline with hline | hline | hline
    · exact Or.inl hline
    · exact Or.inr (by simp [topLines, hline])
    · exact Or.inr (by simp [topLines, hline])
  · exact Or.inr (by simp [topLines, hline])
  · exact Or.inr (by simp [topLines, hline])

theorem mem_arrangeTop (h : line ∈ (arrangeTop lines name options).1) :
    line ∈ lines ∨ line ∈ topLines name options := by
  obtain ⟨above, title, below, hcut, heq⟩ := arrangeTop_eq lines name options
  rw [heq] at h
  simp only [List.mem_append, List.mem_cons] at h
  rcases h with h | h | h | h | h
  · exact hcut.mem_or_mem_topLines (List.mem_append_left _ (mem_withoutAnchors h))
  · exact hcut.mem_or_mem_topLines (by simp [h])
  · exact Or.inr (by simp [topLines, h])
  · exact Or.inr (by simp [topLines, h])
  · rcases mem_ensureEmptyAt h with h | h
    · exact hcut.mem_or_mem_topLines (by simp [mem_belowGap (mem_withoutAnchors h)])
    · exact Or.inr (by simp [topLines, h])

/-- The buffer with its table of contents in place, as the stage of the footers finds it. -/
def listedLines (lines : Buffer) (name : List Char) (options : Options) : Buffer :=
  ensureToc (arrangeTop lines name options).1 (arrangeTop lines name options).2 options.maxDepth

/-- The stages one after the other. -/
theorem arrangeLines_eq (lines : Buffer) (name : List Char) (options : Options) :
    arrangeLines lines name options =
      renewFooters options.footerLevels (ruleLine options.rule) []
        false (listedLines lines name options) :=
  ensureFooters_eq _ _ _ false

/-- The lines that the stage of the footers finds: those of the note, and the ones that the stages
before it write. -/
theorem mem_listedLines (h : line ∈ listedLines lines name options) :
    line ∈ lines ∨ line ∈ topLines name options ∨
      line ∈ tocLines (arrangeTop lines name options).1 options.maxDepth := by
  rcases mem_ensureToc h with h | h
  · exact (mem_arrangeTop ((withoutToc_sublist _).subset h)).imp_right Or.inl
  · exact Or.inr (Or.inr h)

/-! ### Line ends -/

/-- The line holds no line feed, and no carriage return at its end. -/
def CleanLine (line : Line) : Prop :=
  '\n' ∉ line ∧ line.getLast? ≠ some '\r'

theorem cleanLine_nil : CleanLine [] :=
  ⟨by decide, by decide⟩

theorem cleanLine_topAnchor : CleanLine topAnchor :=
  ⟨by decide, by decide⟩

theorem cleanLine_backToTop : CleanLine backToTop :=
  ⟨by decide, by decide⟩

/-- The links of a table of contents are clean, as they close with brackets. -/
theorem cleanLine_tocEntry {head : Heading} (h : '\n' ∉ head.text) : CleanLine (tocEntry head) := by
  constructor
  · simp [tocEntry, h, List.mem_replicate]
  · have hlast : (tocEntry head).getLast? = some ']' := by
      rw [tocEntry, List.getLast?_append]
      rfl
    rw [hlast]
    decide

theorem cleanLine_of_mem_tocLines {depth : Nat} (hlines : ∀ line ∈ lines, '\n' ∉ line)
    (h : line ∈ tocLines lines depth) : CleanLine line := by
  rcases List.mem_append.mp h with h | h
  · rcases mem_tocListing h with h | ⟨head, source, hsource, hpair, rfl⟩
    · have hfixed : ∀ l ∈ fixedTocLines, '\n' ∉ l ∧ l.getLast? ≠ some '\r' := by decide
      exact hfixed line h
    · exact cleanLine_tocEntry fun hmem =>
        hlines source hsource ((headingText_infix_line hpair).subset hmem)
  · rw [List.mem_singleton.mp h]
    exact ⟨List.not_mem_nil, by decide⟩

theorem newline_not_mem_of_mem_topLines (hfeed : '\n' ∉ name) (h : line ∈ topLines name options) :
    '\n' ∉ line := by
  simp only [topLines, List.mem_cons, List.not_mem_nil, or_false] at h
  rcases h with rfl | rfl | rfl | rfl
  · decide
  · decide
  · decide
  · exact fun h => hfeed (mem_titleLine (by decide) (by decide) (by decide) h)

theorem newline_not_mem_of_mem_arrangeTop (hlines : ∀ line ∈ lines, '\n' ∉ line)
    (hfeed : '\n' ∉ name) (h : line ∈ (arrangeTop lines name options).1) : '\n' ∉ line := by
  rcases mem_arrangeTop h with h | h
  · exact hlines line h
  · exact newline_not_mem_of_mem_topLines hfeed h

theorem newline_not_mem_of_mem_ensureToc {anchor depth : Nat} (hlines : ∀ line ∈ lines, '\n' ∉ line)
    (h : line ∈ ensureToc lines anchor depth) : '\n' ∉ line := by
  rcases mem_ensureToc h with h | h
  · exact hlines line ((withoutToc_sublist lines).subset h)
  · exact (cleanLine_of_mem_tocLines hlines h).1

/-- Of the lines of an arranged buffer, only the rule line can be several lines. -/
theorem newline_not_mem_of_mem_arrangeLines (hlines : ∀ line ∈ lines, '\n' ∉ line)
    (hfeed : '\n' ∉ name) (h : line ∈ arrangeLines lines name options) :
    '\n' ∉ line ∨ line = ruleLine options.rule := by
  rw [arrangeLines_eq] at h
  rcases mem_renewFooters h with h | rfl | rfl | rfl
  · exact Or.inl (newline_not_mem_of_mem_ensureToc
      (fun l hl => newline_not_mem_of_mem_arrangeTop hlines hfeed hl) h)
  · exact Or.inl (by decide)
  · exact Or.inl (by decide)
  · exact Or.inr rfl

/-- A note that is arranged with a rule line of one line comes out in single lines. -/
theorem newline_not_mem_of_mem_arrangeLines_normalized {text : List Char} (hfeed : '\n' ∉ name)
    (hone : '\n' ∉ options.normalized.rule)
    (h : line ∈ arrangeLines (splitLines text) name options.normalized) : '\n' ∉ line := by
  rcases newline_not_mem_of_mem_arrangeLines (fun _ => not_mem_of_mem_splitLines) hfeed h with
    h | rfl
  · exact h
  · have hrule : ruleLine options.normalized.rule = options.normalized.rule :=
      ruleLine_usableRule options
    rwa [hrule]

theorem cleanLine_of_mem_topLines (hreturn : '\r' ∉ name) (hfeed : '\n' ∉ name)
    (h : line ∈ topLines name options) : CleanLine line := by
  refine ⟨newline_not_mem_of_mem_topLines hfeed h, ?_⟩
  simp only [topLines, List.mem_cons, List.not_mem_nil, or_false] at h
  rcases h with rfl | rfl | rfl | rfl
  · decide
  · decide
  · decide
  · exact fun h =>
      hreturn (mem_titleLine (by decide) (by decide) (by decide) (List.mem_of_getLast? h))

theorem cleanLine_of_mem_listedLines (hlines : ∀ line ∈ lines, CleanLine line)
    (hreturn : '\r' ∉ name)
    (hfeed : '\n' ∉ name) (h : line ∈ listedLines lines name options) : CleanLine line := by
  rcases mem_listedLines h with h | h | h
  · exact hlines line h
  · exact cleanLine_of_mem_topLines hreturn hfeed h
  · exact cleanLine_of_mem_tocLines
      (fun l hl => newline_not_mem_of_mem_arrangeTop (fun l hl => (hlines l hl).1) hfeed hl) h

/-- Arranging clean lines leaves clean lines. -/
theorem cleanLine_of_mem_arrangeLines (hlines : ∀ line ∈ lines, CleanLine line)
    (hreturn : '\r' ∉ name) (hfeed : '\n' ∉ name) (hrule : CleanLine (ruleLine options.rule))
    (h : line ∈ arrangeLines lines name options) : CleanLine line := by
  rw [arrangeLines_eq] at h
  exact forall_mem_renewFooters cleanLine_nil cleanLine_backToTop hrule
    (fun _ => cleanLine_of_mem_listedLines hlines hreturn hfeed) line h

/-! ### The text of an arranged note -/

theorem toList_arrange {text : String} (h : needsNavigation text = true) (name : String)
    (options : Options) : (arrange text name options).toList =
      joinLines (arrangeLines (splitLines text.toList) name.toList options.normalized) := by
  rw [arrange, if_pos h, String.toList_ofList]

/-- The lines that an arranged note is read into. -/
theorem splitLines_arrange {text : String} (h : needsNavigation text = true) (name : String)
    (options : Options) :
    splitLines (arrange text name options).toList =
      relined (arrangeLines (splitLines text.toList) name.toList options.normalized) := by
  rw [toList_arrange h, splitLines_joinLines]

end Waymark
