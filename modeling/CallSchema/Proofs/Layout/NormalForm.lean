import CallSchema.Proofs.Layout.Clean
import CallSchema.Proofs.Layout.Relayout
import Mathlib.Data.List.Forall2

/-!
# The normal form of a raw text

The cleaned text has no tabs and no blanks at the ends of its lines, and it begins and ends with
lines that are not blank. Its lines are those of the raw text, one for one from the first line that
is not blank to the last one: the first line is trimmed, and the later ones lose the spaces that
they all begin with (`Layout.normalForm_cleanText`). Cleaning a text that begins with such a line
again changes nothing more.

## Main definitions

* `Layout.cleanText` -- the cleaned lines joined with line feeds
* `Layout.contents` -- the trimmed lines that are not blank
* `Layout.Unindented`, `Layout.Aligned` -- what a line keeps, and what the lines of a text keep
* `Layout.NormalForm` -- what the cleaned text is to the raw one
-/

namespace CallSchema.Layout

open Text

/-- The cleaned text: the cleaned lines joined with line feeds. -/
def cleanText (raw : Text) : Text :=
  unlines (clean raw)

/-- The lines of a text with their tabs expanded. -/
def expandedLines (raw : Text) : List Text :=
  (lines raw).map expandTabs

/-- The lines that are not blank, trimmed. -/
def contents (ls : List Text) : List Text :=
  (ls.filter (!allBlank ·)).map trim

/-- The second line is the first one without `width` spaces in front and without the blanks at its
    end. Of a blank line nothing is kept. -/
inductive Unindented (width : Nat) : Text → Text → Prop
  | blank {l : Text} (h : allBlank l = true) : Unindented width l []
  | content {m tail : Text} (hm : allBlank m = false) (hend : trimEnd m = m)
      (htail : allBlank tail = true) :
      Unindented width (List.replicate width ' ' ++ (m ++ tail)) m

/-- Line by line, the first line is trimmed and the later ones are unindented. -/
inductive Aligned (width : Nat) : List Text → List Text → Prop
  | nil : Aligned width [] []
  | cons (first : Text) {rest below : List Text}
      (h : List.Forall₂ (Unindented width) rest below) :
      Aligned width (first :: rest) (trim first :: below)

/-- What the cleaned text is to the raw one. -/
structure NormalForm (raw out : Text) : Prop where
  tab_notMem : '\t' ∉ out
  trimEnd_eq : ∀ l ∈ lines out, trimEnd l = l
  head_not_allBlank : ∀ l, (lines out).head? = some l → allBlank l = false
  last_not_allBlank : ∀ l, (lines out).getLast? = some l → allBlank l = false
  eq_nil_iff : out = [] ↔ allBlank raw = true
  contents_eq : contents (lines out) = contents (expandedLines raw)
  /-- The lines in front of the cleaned text and behind it are blank, and those in between stand at
      their old places without the margin. -/
  aligned : ∃ width before after, IsLeastIndent width (expandedLines raw).tail ∧
    Aligned width (expandedLines raw) (before ++ (lines out ++ after)) ∧
    ∀ l ∈ before ++ after, l = []

variable {raw l m : Text} {ls ms : List Text} {width : Nat}

/-! ### Contents -/

theorem contents_eq_nil_iff : contents ls = [] ↔ ∀ l ∈ ls, allBlank l = true := by
  simp [contents]

theorem contents_expandedLines_eq_nil_iff :
    contents (expandedLines raw) = [] ↔ allBlank raw = true := by
  rw [contents_eq_nil_iff, expandedLines, List.forall_mem_map, allBlank_iff_lines]
  simp only [allBlank_expandTabs]

theorem contents_append (ls ms : List Text) : contents (ls ++ ms) = contents ls ++ contents ms := by
  rw [contents, List.filter_append, List.map_append, contents, contents]

/-! ### Lines without the margin -/

theorem isLeastIndent_margin (ls : List Text) : IsLeastIndent (margin ls) ls := fun h =>
  ⟨exists_indent_eq_margin h, fun _ hl hb => margin_le hl hb⟩

theorem unindented_flush (h : allBlank l = false → width ≤ indent l) :
    Unindented width l (flush width l) := by
  by_cases hb : allBlank l = true
  · rw [flush_of_allBlank width hb]
    exact .blank hb
  · rw [Bool.not_eq_true] at hb
    rw [flush_of_not_allBlank width hb]
    obtain ⟨tail, htail, hdrop⟩ := exists_trimEnd_append (l.drop width)
    have hl : l = List.replicate width ' ' ++ (trimEnd (l.drop width) ++ tail) := by
      rw [← hdrop, ← take_of_le_indent (h hb), List.take_append_drop]
    have hcontent : allBlank (trimEnd (l.drop width)) = false := by
      rw [hl] at hb
      simpa [htail] using hb
    conv => lhs; rw [hl]
    exact .content hcontent (trimEnd_idem _) htail

theorem aligned_dedent (ls : List Text) : Aligned (margin ls.tail) ls (dedent ls) := by
  cases ls with
  | nil => exact .nil
  | cons first rest =>
    refine .cons first ?_
    rw [List.forall₂_map_right_iff, List.forall₂_same]
    exact fun l hl => unindented_flush fun hb => margin_le hl hb

theorem Unindented.trim_eq (h : Unindented width l m) : trim m = trim l := by
  cases h with
  | blank h => rw [trim_nil, trim_eq_nil_iff.2 h]
  | content _ _ htail =>
    rw [trim_of_allBlank_append _ (allBlank_replicate_space width), trim_append_of_allBlank m htail]

theorem contents_congr (h : List.Forall₂ (fun l m => trim m = trim l) ls ms) :
    contents ms = contents ls := by
  induction h with
  | nil => rfl
  | @cons l m ls ms hlm _ ih =>
    have hb : allBlank m = allBlank l := by rw [← allBlank_trim, hlm, allBlank_trim]
    rw [← List.singleton_append, contents_append, ih, ← List.singleton_append (l := ls),
      contents_append]
    congr 1
    simp only [contents, List.filter_cons, hb]
    split
    · rw [List.map_cons, hlm]
      rfl
    · rfl

/-- The lines of a text and those that are aligned with them have the same contents. -/
theorem Aligned.contents_eq (h : Aligned width ls ms) : contents ms = contents ls := by
  apply contents_congr
  cases h with
  | nil => exact .nil
  | cons first h => exact .cons (trim_idem first) (h.imp fun _ _ => Unindented.trim_eq)

/-! ### The cleaned text -/

theorem lines_cleanText (raw : Text) : lines (cleanText raw) = clean raw :=
  lines_unlines_clean raw

theorem tab_notMem_cleanText (raw : Text) : '\t' ∉ cleanText raw := by
  intro h
  obtain h | ⟨l, hl, htab⟩ := mem_unlines h
  · cases h
  · obtain ⟨-, -, m, hm, hsub⟩ := of_mem_dedent (mem_dedent_of_mem_clean hl)
    obtain ⟨k, -, rfl⟩ := List.mem_map.1 hm
    exact tab_notMem_expandTabs k (hsub.subset htab)

theorem not_allBlank_of_getLast?_clean (h : (clean raw).getLast? = some l) :
    allBlank l = false := by
  refine (of_mem_dedent (mem_dedent_of_mem_clean (List.mem_of_getLast? h))).2.1 ?_
  rintro rfl
  exact getLast?_dropEmptyEnds_ne _ h

theorem contents_clean (raw : Text) : contents (clean raw) = contents (expandedLines raw) := by
  obtain ⟨above, below, habove, hbelow, hsplit⟩ :=
    exists_append_dropEmptyEnds (dedent (expandedLines raw))
  have hnil : ∀ {ms}, (∀ l ∈ ms, l = []) → contents ms = [] := fun h =>
    contents_eq_nil_iff.2 fun l hl => by rw [h l hl, allBlank_nil]
  rw [← (aligned_dedent (expandedLines raw)).contents_eq, hsplit, contents_append, contents_append,
    hnil habove, hnil hbelow, List.append_nil]
  rfl

theorem cleanText_eq_nil_iff : cleanText raw = [] ↔ allBlank raw = true := by
  rw [← contents_expandedLines_eq_nil_iff, ← contents_clean, ← lines_cleanText]
  constructor
  · intro h
    rw [h]
    rfl
  · intro h
    rw [contents_eq_nil_iff, lines_cleanText] at h
    -- the first cleaned line would be blank
    cases hclean : clean raw with
    | nil => rw [cleanText, hclean]; rfl
    | cons first rest =>
      have hfirst := not_allBlank_of_clean_eq_cons hclean
      rw [h first (by rw [hclean]; exact List.mem_cons_self)] at hfirst
      cases hfirst

/-! ### Cleaning again -/

theorem shift_flush (h : allBlank l = false → width ≤ indent l) :
    shift width (flush width l) = trimEnd l := by
  by_cases hb : allBlank l = true
  · rw [flush_of_allBlank width hb, shift_nil, trimEnd_eq_nil_iff.2 hb]
  · rw [Bool.not_eq_true] at hb
    have hl : l = List.replicate width ' ' ++ l.drop width := by
      rw [← take_of_le_indent (h hb), List.take_append_drop]
    have hdrop : allBlank (l.drop width) = false := by
      rw [hl] at hb
      simpa using hb
    have hne : trimEnd (l.drop width) ≠ [] := by
      rw [Ne, trimEnd_eq_nil_iff, hdrop]
      exact Bool.false_ne_true
    conv => rhs; rw [hl]
    rw [flush_of_not_allBlank width hb, shift_of_ne_nil width hne,
      trimEnd_append_of_not_allBlank _ hdrop]

/-- Lines that are flush with their margin have no margin left. -/
theorem map_flush_idem (ls : List Text) :
    (ls.map (flush (margin ls))).map (flush (margin (ls.map (flush (margin ls))))) =
      ls.map (flush (margin ls)) := by
  -- moved back to the right they are the lines as they were, without the blanks at their ends
  have hshift : (ls.map (flush (margin ls))).map (shift (margin ls)) = ls.map trimEnd := by
    rw [List.map_map]
    exact List.map_congr_left fun l hl => shift_flush fun hb => margin_le hl hb
  have htrim : (ls.map trimEnd).map (flush (margin ls)) = ls.map (flush (margin ls)) := by
    rw [List.map_map]
    exact List.map_congr_left fun l hl => flush_trimEnd fun hb => margin_le hl hb
  rw [← map_flush_map_shift (margin ls), hshift, margin_map_trimEnd, htrim]

theorem dedent_idem (ls : List Text) : dedent (dedent ls) = dedent ls := by
  cases ls with
  | nil => rfl
  | cons first rest => rw [dedent, dedent, trim_idem, map_flush_idem]

theorem clean_cleanText (raw : Text) :
    clean (cleanText raw) = dropEmptyEnds (dedent (clean raw)) := by
  rw [clean_of_not_mem (tab_notMem_cleanText raw), lines_cleanText]

/-- A text whose first line is not blank is cleaned once and for all. -/
theorem cleanText_idem (h : ∀ first, (lines raw).head? = some first → allBlank first = false) :
    cleanText (cleanText raw) = cleanText raw := by
  have hclean : clean raw = dropEndWhile List.isEmpty (dedent (expandedLines raw)) := by
    change dropEmptyEnds (dedent (expandedLines raw)) = _
    cases hls : lines raw with
    | nil => rw [expandedLines, hls]; rfl
    | cons first rest =>
      have hfirst : ¬(trim (expandTabs first)).isEmpty = true := by
        rw [List.isEmpty_iff, trim_eq_nil_iff, allBlank_expandTabs, h first (by rw [hls]; rfl)]
        exact Bool.false_ne_true
      rw [expandedLines, hls, List.map_cons, dedent, dropEmptyEnds,
        List.dropWhile_cons_of_neg hfirst]
  rw [cleanText, clean_cleanText, hclean, dropEmptyEnds_dedent_dropEndWhile, dedent_idem]
  rfl

/-- **Normal form**: the cleaned text of any text is its normal form, and it is cleaned to itself
    when the first line of the text is not blank. -/
theorem normalForm_cleanText (raw : Text) :
    NormalForm raw (cleanText raw) ∧
      ((∀ first, (lines raw).head? = some first → allBlank first = false) →
        cleanText (cleanText raw) = cleanText raw) := by
  have hhead : ∀ l, (clean raw).head? = some l → allBlank l = false := fun l hl => by
    obtain ⟨rest, hclean⟩ := List.head?_eq_some_iff.1 hl
    exact not_allBlank_of_clean_eq_cons hclean
  obtain ⟨before, after, hbefore, hafter, hsplit⟩ :=
    exists_append_dropEmptyEnds (dedent (expandedLines raw))
  have hempty : ∀ l ∈ before ++ after, l = [] := List.forall_mem_append.2 ⟨hbefore, hafter⟩
  have haligned := aligned_dedent (expandedLines raw)
  rw [hsplit] at haligned
  refine ⟨?_, cleanText_idem⟩
  constructor
  case tab_notMem => exact tab_notMem_cleanText raw
  case eq_nil_iff => exact cleanText_eq_nil_iff
  all_goals rw [lines_cleanText]
  case trimEnd_eq => exact fun l => trimEnd_of_mem_clean
  case head_not_allBlank => exact hhead
  case last_not_allBlank => exact fun l => not_allBlank_of_getLast?_clean
  case contents_eq => exact contents_clean raw
  case aligned => exact ⟨_, before, after, isLeastIndent_margin _, haligned, hempty⟩

/-- A docstring with tabs, a line of blanks and blanks at its end. -/
theorem normalForm_cleanText_tabs :
    let raw := " Sum.\n\n\tArgs:\n \t  n: Size. \n  ".toList
    let out := "Sum.\n\nArgs:\n  n: Size.".toList
    NormalForm raw out ∧ cleanText out = out := by
  intro raw out
  have hout : cleanText raw = out := by decide
  have hfirst : ∀ first, (lines raw).head? = some first → allBlank first = false := by
    intro first h
    obtain rfl := Option.some.inj h
    decide
  obtain ⟨hnormal, hagain⟩ := normalForm_cleanText raw
  rw [hout] at hnormal hagain
  exact ⟨hnormal, hagain hfirst⟩

/-- Behind a blank first line the first line that is left may keep an indentation, which cleaning
    again takes off. -/
example :
    cleanText "\n  a\n b".toList = " a\nb".toList ∧
      cleanText (cleanText "\n  a\n b".toList) = "a\nb".toList := by
  decide

end CallSchema.Layout
