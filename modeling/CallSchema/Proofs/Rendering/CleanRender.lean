import CallSchema.Proofs.Rendering.Render

/-!
# Cleaning a rendering

Every line of a rendering is empty or an indented line, and every part begins flush left. Such lines
come back when they are joined with line feeds and cleaned again (`Content.clean_render`).

## Main definitions

* `IsIndented` -- a line with spaces in front of it
* `IsPart` -- lines of which the first stands flush left
-/

namespace CallSchema

open Text Layout

/-- A line with spaces in front of it. -/
def IsIndented (l : Text) : Prop :=
  ∃ k s, IsLine s ∧ l = List.replicate k ' ' ++ s

/-- Indented lines of which the first stands flush left. -/
def IsPart (part : List Text) : Prop :=
  ∃ first later, part = first :: later ∧ IsLine first ∧ ∀ l ∈ later, IsIndented l

theorem IsLine.append_direct {s t : Text} (hs : IsLine s) (ht : IsLine t) : IsLine (s ++ t) := by
  have happend := hs.append List.not_mem_nil List.not_mem_nil ht
  rwa [List.append_nil] at happend

theorem IsLine.isIndented {s : Text} (h : IsLine s) : IsIndented s :=
  ⟨0, s, h, rfl⟩

namespace IsIndented

variable {l : Text}

theorem not_allBlank (h : IsIndented l) : allBlank l = false := by
  obtain ⟨k, s, hs, rfl⟩ := h
  rw [allBlank_append, hs.not_allBlank, Bool.and_false]

theorem ne_nil (h : IsIndented l) : l ≠ [] :=
  ne_nil_of_not_allBlank h.not_allBlank

theorem trimEnd_eq (h : IsIndented l) : trimEnd l = l := by
  obtain ⟨k, s, hs, rfl⟩ := h
  rw [trimEnd_append_of_not_allBlank _ hs.not_allBlank, hs.trimEnd_eq]

theorem notMem_of_newline_or_tab (h : IsIndented l) {c : Char} (hc : c = '\n' ∨ c = '\t') :
    c ∉ l := by
  obtain ⟨k, s, hs, rfl⟩ := h
  rw [List.mem_append, List.mem_replicate, not_or]
  rcases hc with rfl | rfl
  · exact ⟨fun h => absurd h.2 (by decide), hs.newline_notMem⟩
  · exact ⟨fun h => absurd h.2 (by decide), hs.tab_notMem⟩

end IsIndented

/-! ### Cleaning -/

namespace Layout

/-- A line without blanks at its end is flush when there is no margin. -/
theorem flush_zero {l : Text} (h : trimEnd l = l) : flush 0 l = l := by
  by_cases hb : allBlank l = true
  · rw [flush_of_allBlank 0 hb, ← h, trimEnd_eq_nil_iff.2 hb]
  · rw [flush_of_not_allBlank 0 (Bool.eq_false_iff.2 hb), List.drop_zero, h]

/-- Lines that carry no margin, no blanks at their ends and no empty line at either end of the list
    come back when they are joined and cleaned. -/
theorem clean_unlines {first : Text} {rest : List Text} (hfirst : IsLine first)
    (hrest : ∀ l ∈ rest, l = [] ∨ IsIndented l) (hmargin : margin rest = 0)
    (hlast : (first :: rest).getLast? ≠ some []) :
    clean (unlines (first :: rest)) = first :: rest := by
  have hall : ∀ l ∈ first :: rest, l = [] ∨ IsIndented l := by
    intro l hl
    rcases List.mem_cons.1 hl with rfl | hl
    · exact .inr hfirst.isIndented
    · exact hrest l hl
  have hnone : ∀ c, c = '\n' ∨ c = '\t' → ∀ l ∈ first :: rest, c ∉ l := by
    intro c hc l hl
    rcases hall l hl with rfl | h
    · exact List.not_mem_nil
    · exact h.notMem_of_newline_or_tab hc
  have htrim : ∀ l ∈ first :: rest, trimEnd l = l := by
    intro l hl
    rcases hall l hl with rfl | h
    · rfl
    · exact h.trimEnd_eq
  have hcr : ∀ l ∈ first :: rest, l.getLast? ≠ some '\r' := fun l hl hlast =>
    Bool.noConfusion (trimEnd_eq_self_iff.1 (htrim l hl) '\r' hlast)
  have htabs : (first :: rest).map expandTabs = first :: rest :=
    (List.map_congr_left fun l hl => expandTabs_of_not_mem (hnone '\t' (.inr rfl) l hl)).trans
      (List.map_id _)
  have hflush : rest.map (flush 0) = rest :=
    (List.map_congr_left fun l hl => flush_zero (htrim l (List.mem_cons_of_mem first hl))).trans
      (List.map_id _)
  have hempty : ∀ l, (first :: rest).getLast? = some l → l.isEmpty = false := by
    rintro l hl
    rw [List.isEmpty_eq_false_iff]
    rintro rfl
    exact hlast hl
  have hstart : (first :: rest).dropWhile List.isEmpty = first :: rest :=
    List.dropWhile_cons_of_neg (by simpa using hfirst.ne_nil)
  -- the lines are found again as they were, and no later step of cleaning changes them
  rw [clean, lines_unlines (hnone '\n' (.inl rfl)) hcr hlast, htabs, dedent, hmargin, hflush,
    hfirst.trim_eq, dropEmptyEnds, hstart]
  exact dropEndWhile_eq_self_iff.2 hempty

end Layout

/-! ### Parts -/

namespace IsPart

variable {part : List Text}

theorem isIndented_of_mem (h : IsPart part) : ∀ l ∈ part, IsIndented l := by
  obtain ⟨first, later, rfl, hfirst, hlater⟩ := h
  intro l hl
  rcases List.mem_cons.1 hl with rfl | hl
  · exact hfirst.isIndented
  · exact hlater l hl

theorem getLast?_ne (h : IsPart part) : ([] :: part).getLast? ≠ some [] := by
  obtain ⟨first, later, rfl, -, -⟩ := id h
  rw [List.getLast?_cons_cons]
  intro hlast
  exact (h.isIndented_of_mem [] (List.mem_of_mem_getLast? hlast)).ne_nil rfl

end IsPart

theorem headed_of_ne_nil {heading : List Text} {entry deeper : Nat} {blocks : List Block}
    (h : blocks ≠ []) : headed heading entry deeper blocks =
      [heading ++ blocks.flatMap (Block.lines entry deeper)] := by
  cases blocks with
  | nil => exact absurd rfl h
  | cons b blocks => rfl

section Below

variable {parts : List (List Text)}

@[simp] theorem below_nil : below [] = [] := rfl

theorem below_cons (part : List Text) (parts : List (List Text)) :
    below (part :: parts) = [] :: (part ++ below parts) := rfl

theorem mem_below {l : Text} (h : ∀ part ∈ parts, IsPart part) (hl : l ∈ below parts) :
    l = [] ∨ IsIndented l := by
  obtain ⟨part, hpart, hl⟩ := List.mem_flatMap.1 hl
  rcases List.mem_cons.1 hl with rfl | hl
  · exact .inl rfl
  · exact .inr ((h part hpart).isIndented_of_mem l hl)

/-- Parts do not end with an empty line. -/
theorem getLast?_below_ne (h : ∀ part ∈ parts, IsPart part) :
    (below parts).getLast? ≠ some [] := by
  induction parts with
  | nil => simp
  | cons part parts ih =>
    have hpart := (h part List.mem_cons_self).getLast?_ne
    have ih := ih fun p hp => h p (List.mem_cons_of_mem part hp)
    rw [below_cons, ← List.cons_append, List.getLast?_append]
    cases hlast : (below parts).getLast? with
    | none => simpa using hpart
    | some l => simpa [hlast] using ih

/-- Each part begins flush left, so that there is no margin. -/
theorem margin_eq_zero {later : List Text} (hlater : ∀ l ∈ later, IsLine l)
    (h : ∀ part ∈ parts, IsPart part) : margin (later ++ below parts) = 0 := by
  -- any line that is not indented will do, such as the first one that is not empty
  have hflush : ∀ l ∈ later ++ below parts, IsLine l → margin (later ++ below parts) = 0 :=
    fun l hl hline => margin_eq hl hline.not_allBlank hline.indent_eq_zero
      fun _ _ _ => Nat.zero_le _
  cases later with
  | cons l later => exact hflush l (by simp) (hlater l (by simp))
  | nil =>
    cases parts with
    | nil => rfl
    | cons part parts =>
      obtain ⟨first, ls, rfl, hfirst, -⟩ := h part List.mem_cons_self
      exact hflush first (by simp [below_cons]) hfirst

/-- Parts with empty lines between them come back when they are joined and cleaned. -/
theorem clean_unlines_below {first : Text} {later : List Text} (hfirst : IsLine first)
    (hlater : ∀ l ∈ later, IsLine l) (h : ∀ part ∈ parts, IsPart part) :
    clean (unlines (first :: (later ++ below parts))) = first :: (later ++ below parts) := by
  apply clean_unlines hfirst
  · intro l hl
    rcases List.mem_append.1 hl with hl | hl
    · exact .inr (hlater l hl).isIndented
    · exact mem_below h hl
  · exact margin_eq_zero hlater h
  · rw [← List.cons_append, List.getLast?_append]
    cases hlast : (below parts).getLast? with
    | none =>
      have hpart : IsPart (first :: later) :=
        ⟨first, later, rfl, hfirst, fun l hl => (hlater l hl).isIndented⟩
      simpa [List.getLast?_cons_cons] using hpart.getLast?_ne
    | some l => simpa [hlast] using getLast?_below_ne h

end Below

/-! ### The parts of a rendering -/

namespace Block

/-- All lines of a block with a proper head are indented lines. -/
theorem isIndented_of_mem_lines {entry deeper : Nat} {b : Block} (hb : IsLine b.head) :
    ∀ l ∈ b.lines entry deeper, IsIndented l := by
  intro l hl
  rcases List.mem_cons.1 hl with rfl | hl
  · exact ⟨entry, b.head, hb, rfl⟩
  · obtain ⟨m, -, rfl⟩ := List.mem_map.1 hl
    exact ⟨entry + deeper, m.text, m.isLine, rfl⟩

theorem labelled_isLine {label : Text} (h : IsLine label) (ls : List Line) :
    IsLine (labelled label ls).head := by
  cases ls with
  | nil => exact h
  | cons first later => exact h.append (by decide) (by decide) first.isLine

end Block

/-- The blocks of a part are indented below its heading, or the first of them stands flush left. -/
theorem isPart_of_mem_headed {α : Type} {heading : List Text} {entry deeper : Nat}
    {block : α → Block} {items : List α} (hheading : ∀ l ∈ heading, IsLine l)
    (hblock : ∀ item, IsLine (block item).head) (hflush : heading ≠ [] ∨ entry = 0) :
    ∀ part ∈ headed heading entry deeper (items.map block), IsPart part := by
  have hlines : ∀ l ∈ (items.map block).flatMap (Block.lines entry deeper), IsIndented l := by
    intro l hl
    obtain ⟨b, hb, hl⟩ := List.mem_flatMap.1 hl
    obtain ⟨item, -, rfl⟩ := List.mem_map.1 hb
    exact (block item).isIndented_of_mem_lines (hblock item) l hl
  intro part hpart
  cases items with
  | nil => cases hpart
  | cons item items =>
    obtain rfl := List.mem_singleton.1 hpart
    -- below a title the blocks may be indented, but without one the first head begins the part
    cases heading with
    | nil =>
      obtain rfl := hflush.resolve_left fun h => h rfl
      rw [List.nil_append]
      refine ⟨(block item).head, _, rfl, hblock item, ?_⟩
      exact fun l hl => hlines l (List.mem_cons_of_mem _ hl)
    | cons title heading =>
      refine ⟨title, _, rfl, hheading title List.mem_cons_self, fun l hl => ?_⟩
      rcases List.mem_append.1 hl with hl | hl
      · exact (hheading l (List.mem_cons_of_mem title hl)).isIndented
      · exact hlines l hl

theorem FieldText.block_head_isLine (field : FieldText) : IsLine field.block.head := by
  have hkey : IsLine field.topic.key := by
    cases field.topic <;> decide
  have hargument : '\n' ∉ field.argument ∧ '\t' ∉ field.argument := by
    unfold argument
    split
    · next p _ =>
      simp [p.written_isLine.newline_notMem, p.written_isLine.tab_notMem]
    · exact ⟨List.not_mem_nil, List.not_mem_nil⟩
  have hcolon : IsLine [':'] := by decide
  apply Block.labelled_isLine
  rw [← List.append_assoc]
  exact (hcolon.append_direct hkey).append hargument.1 hargument.2 hcolon

theorem ParamDoc.titledBlock_head_isLine (p : ParamDoc) : IsLine p.titledBlock.head := by
  unfold titledBlock
  split
  · next t _ =>
    have hclose : IsLine "):".toList := by decide
    have hopen : IsLine (p.written ++ " (".toList ++ t.text) :=
      p.written_isLine.append (by decide) (by decide) t.isLine
    exact Block.labelled_isLine (hopen.append_direct hclose) p.lines
  · have hcolon : IsLine [':'] := by decide
    exact Block.labelled_isLine (p.written_isLine.append_direct hcolon) p.lines

theorem ParamDoc.underlinedBlock_head_isLine (p : ParamDoc) : IsLine p.underlinedBlock.head := by
  unfold underlinedBlock
  split
  · next t _ => exact p.written_isLine.append (by decide) (by decide) t.isLine
  · have hcolon : IsLine [':'] := by decide
    have hhead : IsLine (p.written ++ [' '] ++ [':']) :=
      p.written_isLine.append (by decide) (by decide) hcolon
    rwa [List.append_assoc] at hhead

theorem ReturnDoc.titledBlock_head_isLine (r : ReturnDoc) : IsLine r.titledBlock.head := by
  have hcolon : IsLine [':'] := by decide
  exact Block.labelled_isLine (r.type.isLine.append_direct hcolon) r.lines

theorem isLine_of_mem_underlined {dashes : Nat} {title : String} (hdashes : 3 ≤ dashes)
    (htitle : IsLine title.toList) : ∀ l ∈ underlined dashes title, IsLine l := by
  have hdash : ∀ c ∈ List.replicate dashes '-', isBlank c = false := by
    intro c hc
    rw [(List.mem_replicate.1 hc).2]
    decide
  have hne : List.replicate dashes '-' ≠ [] := by
    rw [Ne, List.replicate_eq_nil_iff]
    omega
  intro l hl
  rw [underlined, List.mem_pair] at hl
  rcases hl with rfl | rfl
  · exact htitle
  · exact isLine_of_forall_not_blank hne hdash

namespace Content

variable (content : Content) (spacing : Spacing)

theorem isPart_paragraphLines {paragraph : List ProseLine} (h : paragraph ≠ []) :
    IsPart (paragraphLines paragraph) := by
  cases paragraph with
  | nil => exact absurd rfl h
  | cons first later =>
    refine ⟨first.text, paragraphLines later, rfl, first.isLine, fun l hl => ?_⟩
    obtain ⟨m, -, rfl⟩ := List.mem_map.1 hl
    exact m.isLine.isIndented

theorem isPart_of_mem_markup (style : Style) :
    ∀ part ∈ content.markup spacing style, IsPart part := by
  have hargs : IsLine "Args:".toList := by decide
  have hreturns : IsLine "Returns:".toList := by decide
  cases style with
  | rest => exact isPart_of_mem_headed (by simp) FieldText.block_head_isLine (.inr rfl)
  | google =>
    intro part hpart
    rcases List.mem_append.1 hpart with hpart | hpart
    · exact isPart_of_mem_headed (by simpa using hargs) ParamDoc.titledBlock_head_isLine
        (.inl (List.cons_ne_nil _ _)) part hpart
    · exact isPart_of_mem_headed (by simpa using hreturns) ReturnDoc.titledBlock_head_isLine
        (.inl (List.cons_ne_nil _ _)) part hpart
  | numpy =>
    intro part hpart
    rcases List.mem_append.1 hpart with hpart | hpart
    · exact isPart_of_mem_headed
        (isLine_of_mem_underlined spacing.three_le_dashes (by decide))
        ParamDoc.underlinedBlock_head_isLine (.inl (List.cons_ne_nil _ _)) part hpart
    · exact isPart_of_mem_headed
        (isLine_of_mem_underlined spacing.three_le_dashes (by decide))
        (fun r => r.type.isLine) (.inl (List.cons_ne_nil _ _)) part hpart

theorem isPart_of_mem_parts (style : Style) :
    ∀ part ∈ content.long.map paragraphLines ++ content.markup spacing style, IsPart part := by
  intro part hpart
  rcases List.mem_append.1 hpart with hpart | hpart
  · obtain ⟨paragraph, hmem, rfl⟩ := List.mem_map.1 hpart
    exact isPart_paragraphLines (content.long_ne_nil paragraph hmem)
  · exact content.isPart_of_mem_markup spacing style part hpart

theorem lines_eq (style : Style) :
    content.lines spacing style = paragraphLines content.short ++
      below (content.long.map paragraphLines ++ content.markup spacing style) := by
  rw [lines, description, below, below, below, List.flatMap_append, List.append_assoc]

/-- Cleaning gives back the lines of a rendering. -/
theorem clean_render (style : Style) :
    clean (content.render spacing style).toList = content.lines spacing style := by
  have hparts := content.isPart_of_mem_parts spacing style
  rw [render, String.toList_ofList, lines_eq]
  cases hshort : content.short with
  | nil => exact absurd hshort content.short_ne_nil
  | cons first later =>
    refine clean_unlines_below first.isLine (fun l hl => ?_) hparts
    obtain ⟨m, -, rfl⟩ := List.mem_map.1 hl
    exact m.isLine

end Content

end CallSchema
