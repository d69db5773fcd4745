import CallSchema.Docstring.Read
import CallSchema.Proofs.Layout.Bare
import Mathlib.Logic.Relation

/-!
# Changes of layout

Raw documentation can be indented along with the code around it, end its lines in two ways, carry
blanks at the ends of lines, and begin on the line of the opening quotation mark or on the next.
`Relayout` lists these changes, and `Docstring.read_eq_of_relayout` says that none of them changes
what is read.

## Main definitions

* `Layout.indentBelow`, `Layout.indentAll` -- spaces in front of all lines but the first, or of all
* `Layout.withCrLf` -- carriage returns in front of all line feeds
* `Layout.lowerFirst` -- the first line moved to a line of its own
* `Relayout` -- one change of layout
-/

namespace CallSchema

open Text

namespace Layout

/-- The text with `k` spaces in front of every line but the first. -/
def indentBelow (k : Nat) (s : Text) : Text :=
  s.flatMap fun c => if c = '\n' then '\n' :: List.replicate k ' ' else [c]

/-- The text with `k` spaces in front of every line. -/
def indentAll (k : Nat) (s : Text) : Text :=
  List.replicate k ' ' ++ indentBelow k s

/-- The text with a carriage return in front of every line feed. -/
def withCrLf (s : Text) : Text :=
  s.flatMap fun c => if c = '\n' then ['\r', '\n'] else [c]

/-- The first line without its line feed. -/
def firstLine (s : Text) : Text :=
  s.takeWhile (· ≠ '\n')

/-- What follows the first line, from its line feed on. -/
def belowFirst (s : Text) : Text :=
  s.dropWhile (· ≠ '\n')

/-- The text whose trimmed first line stands on a line of its own, indented by `k` spaces. -/
def lowerFirst (k : Nat) (s : Text) : Text :=
  '\n' :: (List.replicate k ' ' ++ trim (firstLine s) ++ belowFirst s)

/-- Whether a line ends in front of the given text. -/
def EndsLine (s : Text) : Prop :=
  s = [] ∨ (∃ r, s = '\n' :: r) ∨ ∃ r, s = '\r' :: '\n' :: r

/-- Whether `k` is the least indentation of the lines that are not blank, if there are any. -/
def IsLeastIndent (k : Nat) (ls : List Text) : Prop :=
  (∃ l ∈ ls, allBlank l = false) →
    (∃ l ∈ ls, allBlank l = false ∧ indent l = k) ∧ ∀ l ∈ ls, allBlank l = false → k ≤ indent l

instance (k : Nat) (ls : List Text) : Decidable (IsLeastIndent k ls) :=
  inferInstanceAs (Decidable (_ → _))

end Layout

open Layout

/-- One change of layout, from the first text to the second. -/
inductive Relayout : Text → Text → Prop
  /-- All lines but the first are indented, over whole tab widths when there are tabs. -/
  | indentBelow (k : Nat) (s : Text) (htab : '\t' ∉ s ∨ tabWidth ∣ k) :
      Relayout s (indentBelow k s)
  /-- All lines are indented, over whole tab widths when there are tabs. -/
  | indentAll (k : Nat) (s : Text) (htab : '\t' ∉ s ∨ tabWidth ∣ k) : Relayout s (indentAll k s)
  /-- Every line feed gets a carriage return. -/
  | crLf (s : Text) : Relayout s (withCrLf s)
  /-- Spaces are put at the end of a line. -/
  | padLine (k : Nat) (before after : Text) (hend : EndsLine after) :
      Relayout (before ++ after) (before ++ List.replicate k ' ' ++ after)
  /-- The first line moves to a line of its own, indented as the lines below it are. -/
  | lowerFirst (k : Nat) (s : Text) (htab : '\t' ∉ s) (hfirst : allBlank (firstLine s) = false)
      (hleast : IsLeastIndent k (lines s).tail) : Relayout s (lowerFirst k s)

namespace Layout

/-! ### Bare lines of a text, line by line -/

theorem bareLines_of_not_mem {l : Text} (h : '\n' ∉ l) :
    bareLines l = dropEndWhile List.isEmpty [bare l] := by
  by_cases hl : l = []
  · subst hl
    rfl
  · rw [bareLines, lines_of_not_mem h hl, List.map_singleton]

theorem bareLines_append_newline {l : Text} (h : '\n' ∉ l) (s : Text) :
    bareLines (l ++ '\n' :: s) = dropEndWhile List.isEmpty (bare l :: bareLines s) := by
  rw [bareLines, lines_append_newline h, List.map_cons, bare_dropCr, bareLines]
  exact (dropEndWhile_cons_dropEndWhile _ _).symm

/-! ### The changes, line by line -/

theorem flatMap_of_not_mem {l t : Text} (f : Text) (h : '\n' ∉ l) :
    (l ++ t).flatMap (fun c => if c = '\n' then f else [c]) =
      l ++ t.flatMap (fun c => if c = '\n' then f else [c]) := by
  induction l with
  | nil => rfl
  | cons c l ih =>
    rw [List.mem_cons, not_or] at h
    rw [List.cons_append, List.flatMap_cons, if_neg fun hc => h.1 hc.symm, ih h.2]
    rfl

theorem indentBelow_of_not_mem {l : Text} (k : Nat) (h : '\n' ∉ l) : indentBelow k l = l := by
  simpa [indentBelow] using flatMap_of_not_mem (t := []) ('\n' :: List.replicate k ' ') h

theorem indentBelow_append_newline {l : Text} (k : Nat) (h : '\n' ∉ l) (s : Text) :
    indentBelow k (l ++ '\n' :: s) = l ++ '\n' :: indentAll k s := by
  rw [indentBelow, flatMap_of_not_mem _ h, List.flatMap_cons, if_pos rfl]
  rfl

theorem withCrLf_of_not_mem {l : Text} (h : '\n' ∉ l) : withCrLf l = l := by
  simpa [withCrLf] using flatMap_of_not_mem (t := []) ['\r', '\n'] h

theorem withCrLf_append_newline {l : Text} (h : '\n' ∉ l) (s : Text) :
    withCrLf (l ++ '\n' :: s) = l ++ ['\r'] ++ '\n' :: withCrLf s := by
  rw [withCrLf, flatMap_of_not_mem _ h, List.flatMap_cons, if_pos rfl]
  simp [withCrLf]

/-! ### What the changes do to the bare lines -/

theorem dropEndWhile_isEmpty_map_shift (k : Nat) (ls : List Text) :
    dropEndWhile List.isEmpty (ls.map (shift k)) =
      (dropEndWhile List.isEmpty ls).map (shift k) := by
  have hempty : (fun l => List.isEmpty (shift k l)) = List.isEmpty := by
    funext l
    rw [Bool.eq_iff_iff, List.isEmpty_iff, List.isEmpty_iff, shift_eq_nil_iff]
  rw [dropEndWhile_map, hempty]

/-- Indenting every line of a text shifts all its bare lines. -/
theorem bareLines_indentAll (k : Nat) (s : Text) (h : '\t' ∉ s ∨ tabWidth ∣ k) :
    bareLines (indentAll k s) = (bareLines s).map (shift k) := by
  induction s using newline_induction with
  | last l hl =>
    have hl' : '\n' ∉ List.replicate k ' ' ++ l := by
      simp [hl]
    rw [indentAll, indentBelow_of_not_mem k hl, bareLines_of_not_mem hl', bareLines_of_not_mem hl,
      bare_replicate_append h, ← dropEndWhile_isEmpty_map_shift, List.map_singleton]
  | step l s hl ih =>
    have hl' : '\n' ∉ List.replicate k ' ' ++ l := by
      simp [hl]
    have htab : '\t' ∉ l ∨ tabWidth ∣ k := h.imp_left fun hs hm => hs (by simp [hm])
    have htab' : '\t' ∉ s ∨ tabWidth ∣ k := h.imp_left fun hs hm => hs (by simp [hm])
    rw [indentAll, indentBelow_append_newline k hl, ← List.append_assoc,
      bareLines_append_newline hl', bareLines_append_newline hl, bare_replicate_append htab,
      ih htab', ← List.map_cons, dropEndWhile_isEmpty_map_shift]

theorem bareLines_withCrLf (s : Text) : bareLines (withCrLf s) = bareLines s := by
  induction s using newline_induction with
  | last l hl => rw [withCrLf_of_not_mem hl]
  | step l s hl ih =>
    have hl' : '\n' ∉ l ++ ['\r'] := by
      simp [hl]
    rw [withCrLf_append_newline hl, bareLines_append_newline hl', bareLines_append_newline hl, ih,
      bare_append_cr]

theorem bareLines_padLine (k : Nat) (before after : Text) (h : EndsLine after) :
    bareLines (before ++ List.replicate k ' ' ++ after) = bareLines (before ++ after) := by
  -- on the lines before the padded one, which stay as they are
  induction before using newline_induction with
  | last l hl =>
    have hl' : '\n' ∉ l ++ List.replicate k ' ' := by
      simp [hl]
    rcases h with rfl | ⟨r, rfl⟩ | ⟨r, rfl⟩
    · rw [List.append_nil, List.append_nil, bareLines_of_not_mem hl', bareLines_of_not_mem hl,
        bare_append_spaces]
    · rw [bareLines_append_newline hl', bareLines_append_newline hl, bare_append_spaces]
    · have hcr : ∀ t : Text, t ++ '\r' :: '\n' :: r = t ++ ['\r'] ++ '\n' :: r := fun t => by simp
      rw [hcr, hcr, bareLines_append_newline (by simp [hl]),
        bareLines_append_newline (by simp [hl]), bare_append_cr, bare_append_cr,
        bare_append_spaces]
  | step l s hl ih =>
    simp only [List.append_assoc, List.cons_append] at ih ⊢
    rw [bareLines_append_newline hl, bareLines_append_newline hl, ih]

/-! ### What the changes do to the cleaned lines -/

theorem clean_append_newline {l : Text} (h : '\n' ∉ l) (s : Text) :
    clean (l ++ '\n' :: s) = dropEmptyEnds (dedent (bare l :: bareLines s)) := by
  rw [clean_eq_bareLines, bareLines_append_newline h, dropEmptyEnds_dedent_dropEndWhile]

theorem clean_indentBelow (k : Nat) (s : Text) (h : '\t' ∉ s ∨ tabWidth ∣ k) :
    clean (indentBelow k s) = clean s := by
  by_cases hs : '\n' ∈ s
  · obtain ⟨l, rest, rfl, hl⟩ := List.eq_append_cons_of_mem hs
    have htab : '\t' ∉ rest ∨ tabWidth ∣ k := h.imp_left fun hs hm => hs (by simp [hm])
    rw [indentBelow_append_newline k hl, clean_append_newline hl, clean_append_newline hl,
      bareLines_indentAll k rest htab, dedent, dedent, map_flush_map_shift]
  · rw [indentBelow_of_not_mem k hs]

/-- Cleaning does not see how far to the right all the lines of a text stand. -/
theorem clean_eq_of_bareLines_shift {k : Nat} {raw raw' : Text}
    (h : bareLines raw' = (bareLines raw).map (shift k)) : clean raw' = clean raw := by
  rw [clean_eq_bareLines, clean_eq_bareLines, h]
  cases bareLines raw with
  | nil => rfl
  | cons first rest =>
    have htrim : trim (shift k first) = trim first := by
      by_cases hnil : first = []
      · rw [hnil, shift_nil]
      · rw [shift_of_ne_nil k hnil, trim_of_allBlank_append _ (allBlank_replicate_space k)]
    rw [List.map_cons, dedent, dedent, map_flush_map_shift, htrim]

theorem clean_indentAll (k : Nat) (s : Text) (h : '\t' ∉ s ∨ tabWidth ∣ k) :
    clean (indentAll k s) = clean s :=
  clean_eq_of_bareLines_shift (bareLines_indentAll k s h)

/-- A text without tabs is cleaned as its lines stand. -/
theorem clean_of_not_mem {s : Text} (h : '\t' ∉ s) :
    clean s = dropEmptyEnds (dedent (lines s)) := by
  have hmap : (lines s).map expandTabs = lines s := by
    rw [List.map_congr_left fun l hl => expandTabs_of_not_mem fun ht => h (mem_of_mem_lines hl ht),
      List.map_id']
  rw [clean, hmap]

theorem firstLine_append_belowFirst (s : Text) : firstLine s ++ belowFirst s = s :=
  List.takeWhile_append_dropWhile

theorem not_mem_firstLine (s : Text) : '\n' ∉ firstLine s := fun h => by
  simpa using List.mem_takeWhile_imp h

/-- The lines below the first one do not depend on it. -/
theorem lines_append_belowFirst {s l : Text} (h : firstLine s ≠ []) (hl : '\n' ∉ l) (hne : l ≠ []) :
    ∃ m, (m = l ∨ m = dropCr l) ∧ lines (l ++ belowFirst s) = m :: (lines s).tail := by
  cases hb : belowFirst s with
  | nil =>
    have hs : s = firstLine s := by
      conv => lhs; rw [← firstLine_append_belowFirst s, hb, List.append_nil]
    refine ⟨l, .inl rfl, ?_⟩
    rw [List.append_nil, lines_of_not_mem hl hne, hs, lines_of_not_mem (not_mem_firstLine s) h]
    rfl
  | cons c r =>
    have hc : c = '\n' := by
      have hd := List.head?_dropWhile_not (· ≠ '\n') s
      rw [show s.dropWhile (· ≠ '\n') = c :: r from hb] at hd
      simpa using hd
    subst hc
    have hs : lines s = dropCr (firstLine s) :: lines r := by
      conv => lhs; rw [← firstLine_append_belowFirst s, hb]
      exact lines_append_newline (not_mem_firstLine s) r
    refine ⟨dropCr l, .inr rfl, ?_⟩
    rw [lines_append_newline hl, hs, List.tail_cons]

/-- Moving a first line below an empty one, as far to the right as the other lines, changes nothing
    that cleaning keeps. -/
theorem dedent_lowered {k : Nat} {first : Text} {rest : List Text} (htrim : trim first = first)
    (hb : allBlank first = false) (hk : IsLeastIndent k rest) :
    dropEmptyEnds (dedent ([] :: (List.replicate k ' ' ++ first) :: rest)) =
      dropEmptyEnds (dedent (first :: rest)) := by
  have hstart : indent first = 0 := by
    apply indent_eq_zero
    intro hsp
    exact absurd (trimStart_eq_self_iff.1 (trim_eq_self_iff.1 htrim).1 ' ' hsp) (by simp)
  have hi : indent (List.replicate k ' ' ++ first) = k := by
    rw [indent_replicate_append, hstart, Nat.add_zero]
  have hnb : allBlank (List.replicate k ' ' ++ first) = false := by
    simp [hb]
  have hmargin : margin ((List.replicate k ' ' ++ first) :: rest) = k := by
    apply margin_eq (List.mem_cons_self ..) hnb hi
    intro m hm hmb
    rcases List.mem_cons.1 hm with rfl | hm
    · rw [hi]
    · exact (hk ⟨m, hm, hmb⟩).2 m hm hmb
  -- with the lowered line the margin is what it was without, if it was measured at all
  have hrest : rest.map (flush k) = rest.map (flush (margin rest)) := by
    by_cases hex : ∃ l ∈ rest, allBlank l = false
    · obtain ⟨⟨l, hl, hlb, hli⟩, hle⟩ := hk hex
      rw [margin_eq hl hlb hli hle]
    · exact map_flush_of_forall_allBlank k _ hex
  rw [dedent, hmargin, List.map_cons, hrest, flush_of_not_allBlank k hnb,
    List.drop_left' List.length_replicate, (trim_eq_self_iff.1 htrim).2, dedent, htrim, trim_nil]
  rfl

theorem tab_notMem_lowerFirst (k : Nat) {s : Text} (h : '\t' ∉ s) : '\t' ∉ lowerFirst k s := by
  intro hm
  simp only [lowerFirst, List.mem_cons, List.mem_append] at hm
  rcases hm with hm | (hm | hm) | hm
  · exact absurd hm (by decide)
  · cases (List.mem_replicate.1 hm).2
  · exact h (List.takeWhile_subset _ (mem_of_mem_trim hm))
  · exact h (List.dropWhile_subset _ hm)

theorem lines_lowerFirst (k : Nat) {s : Text} (hfirst : allBlank (firstLine s) = false) :
    lines (lowerFirst k s) =
      [] :: (List.replicate k ' ' ++ trim (firstLine s)) :: (lines s).tail := by
  have hb : allBlank (trim (firstLine s)) = false := by rw [allBlank_trim, hfirst]
  have hne : List.replicate k ' ' ++ trim (firstLine s) ≠ [] :=
    List.append_ne_nil_of_right_ne_nil _ (ne_nil_of_not_allBlank hb)
  have hnl : '\n' ∉ List.replicate k ' ' ++ trim (firstLine s) := by
    intro hm
    rcases List.mem_append.1 hm with hm | hm
    · cases (List.mem_replicate.1 hm).2
    · exact not_mem_firstLine s (mem_of_mem_trim hm)
  -- a carriage return at the end of the first line was trimmed along with the blanks
  have hcr : dropCr (List.replicate k ' ' ++ trim (firstLine s)) =
      List.replicate k ' ' ++ trim (firstLine s) := by
    apply dropCr_of_trimEnd
    rw [trimEnd_append_of_not_allBlank _ hb, (trim_eq_self_iff.1 (trim_idem _)).2]
  obtain ⟨m, hm, hlines⟩ := lines_append_belowFirst (ne_nil_of_not_allBlank hfirst) hnl hne
  rw [hcr, or_self] at hm
  rw [lowerFirst, lines_newline, hlines, hm]

theorem clean_lowerFirst {k : Nat} {s : Text} (htab : '\t' ∉ s)
    (hfirst : allBlank (firstLine s) = false) (hk : IsLeastIndent k (lines s).tail) :
    clean (lowerFirst k s) = clean s := by
  have hb : allBlank (trim (firstLine s)) = false := by rw [allBlank_trim, hfirst]
  have hne : firstLine s ≠ [] := ne_nil_of_not_allBlank hfirst
  obtain ⟨m, hm, hlines⟩ := lines_append_belowFirst hne (not_mem_firstLine s) hne
  have hmtrim : trim m = trim (firstLine s) := by
    rcases hm with rfl | rfl
    · rfl
    · exact trim_dropCr _
  rw [firstLine_append_belowFirst] at hlines
  rw [clean_of_not_mem (tab_notMem_lowerFirst k htab), clean_of_not_mem htab,
    lines_lowerFirst k hfirst, dedent_lowered (trim_idem _) hb hk, hlines, dedent, dedent, hmtrim,
    List.tail_cons, trim_idem]

end Layout

/-- No change of layout changes the cleaned lines of a text. -/
theorem Relayout.clean_eq {raw raw' : Text} (h : Relayout raw raw') : clean raw' = clean raw := by
  cases h with
  | indentBelow k s htab => exact clean_indentBelow k raw htab
  | indentAll k s htab => exact clean_indentAll k raw htab
  | crLf s => rw [clean_eq_bareLines, clean_eq_bareLines, bareLines_withCrLf]
  | padLine k before after hend =>
    rw [clean_eq_bareLines, clean_eq_bareLines, bareLines_padLine k before after hend]
  | lowerFirst k s htab hfirst hleast => exact clean_lowerFirst htab hfirst hleast

/-- No sequence of changes, made or undone, changes the cleaned lines either. -/
theorem clean_eq_of_eqvGen {raw raw' : Text} (h : Relation.EqvGen Relayout raw raw') :
    clean raw' = clean raw := by
  induction h with
  | rel raw raw' h => exact h.clean_eq
  | refl raw => rfl
  | symm raw raw' _ ih => exact ih.symm
  | trans raw raw' raw'' _ _ ih ih' => exact ih'.trans ih

/-- A docstring reads the same after any changes of layout, for every function and every choice of
    style. -/
theorem Docstring.read_eq_of_relayout {raw raw' : Text} (h : Relation.EqvGen Relayout raw raw')
    (function : String) (style : Option Style) :
    Docstring.read function (some (String.ofList raw')) style =
      Docstring.read function (some (String.ofList raw)) style := by
  have hclean : clean (String.ofList raw').toList = clean (String.ofList raw).toList := by
    rw [String.toList_ofList, String.toList_ofList, clean_eq_of_eqvGen h]
  rw [Docstring.read, Docstring.read]
  simp only [hclean]

/-- Documentation that begins right behind the quotation mark, and the same on lines of its own
    that end in carriage returns. -/
theorem Docstring.read_lowered_crLf :
    let raw := " Sum.\n\n    Args:\n      n: Size.".toList
    let raw' := "\r\n    Sum.\r\n\r\n    Args:\r\n      n: Size.".toList
    Relation.EqvGen Relayout raw raw' ∧
      Docstring.read "f" (some (String.ofList raw')) none =
        Docstring.read "f" (some (String.ofList raw)) none := by
  intro raw raw'
  have hlower : Relayout raw "\n    Sum.\n\n    Args:\n      n: Size.".toList :=
    .lowerFirst 4 _ (by decide) (by decide) (by decide)
  have hcrlf : Relayout "\n    Sum.\n\n    Args:\n      n: Size.".toList raw' :=
    .crLf _
  have h := (Relation.EqvGen.rel _ _ hlower).trans _ _ _ (.rel _ _ hcrlf)
  exact ⟨h, Docstring.read_eq_of_relayout h "f" none⟩

end CallSchema
