import CallSchema.Docstring.Underlined
import CallSchema.Proofs.Rendering.ReadSections
import CallSchema.Proofs.Text.Cut

/-!
# Reading back underlined sections

A section begins where an underline follows a line that is none itself. In a rendering that happens
below the titles only: description lines are no underlines, the head of an entry about a parameter
has a colon, and a type that looks like an underline stands right below one
(`Content.read?_underlined`).
-/

namespace CallSchema

open Text

namespace Underlined

/-! ### Underlines -/

theorem isUnderline_eq_false {l : Text} (h : ∃ c ∈ l, c ≠ '-') : isUnderline l = false := by
  rw [isUnderline, Bool.and_eq_false_iff]
  right
  simpa using h

theorem isUnderline_replicate {dashes : Nat} (h : 3 ≤ dashes) :
    isUnderline (List.replicate dashes '-') = true := by
  simp [isUnderline, h]

theorem isUnderline_of_head?_space {l : Text} (h : l.head? = some ' ') : isUnderline l = false :=
  isUnderline_eq_false ⟨' ', List.mem_of_mem_head? h, by decide⟩

theorem topic?_eq_none {a : Text} {rest : List Text}
    (h : isUnderline a = true ∨ ∀ u, rest.head? = some u → isUnderline u = false) :
    topic? (a :: rest) = none := by
  cases rest with
  | nil => rfl
  | cons u rest =>
    have hfalse : (isTitle a && isUnderline u) = false := by
      rcases h with h | h
      · simp [isTitle, h]
      · simp [h u rfl]
    rw [topic?, hfalse]
    rfl

/-- The sections of underlined renderings. -/
def marks (spacing : Spacing) : SectionMarks where
  heading? := topic?
  title
    | .params => "Parameters".toList
    | .returned => "Returns".toList
    | .aside => []
  under := [List.replicate spacing.dashes '-']
  heading?_nil rest := by
    cases rest <;> rfl
  heading?_title topic htopic rest := by
    have hunderline := isUnderline_replicate spacing.three_le_dashes
    cases topic with
    | params => simp [topic?, hunderline]; decide
    | returned => simp [topic?, hunderline]; decide
    | aside => exact absurd rfl htopic

theorem outline_eq (spacing : Spacing) (ls : List Text) :
    outline ls = Content.sectionOutline (marks spacing) ls := by
  rw [outline, Content.sectionOutline]
  congr 2
  funext part
  exact congrArg (Prod.mk part.1) List.drop_one.symm

/-- No section begins among lines of which none is an underline. -/
theorem quiet_of_forall {spacing : Spacing} {ls : List Text}
    (h : ∀ s a u t, ls = s ++ a :: u :: t → isUnderline a = true ∨ isUnderline u = false) :
    (marks spacing).Quiet ls := by
  rintro s a t hs parts
  apply topic?_eq_none
  -- below the last of the lines stands nothing, or the empty line above a part
  cases t with
  | nil =>
    right
    intro u hu
    cases parts with
    | nil => cases hu
    | cons part parts =>
      obtain rfl := Option.some.inj hu
      rfl
  | cons u t =>
    rcases h s a u t hs with hu | hu
    · exact .inl hu
    · right
      rintro v hv
      obtain rfl := Option.some.inj hv
      exact hu

theorem quiet_description (content : Content) (spacing : Spacing) :
    (marks spacing).Quiet content.description := by
  apply quiet_of_forall
  intro s a u t hs
  right
  have hu : u ∈ content.description := by rw [hs]; simp
  rcases content.mem_description hu with rfl | ⟨m, rfl⟩
  · rfl
  · exact isUnderline_eq_false m.exists_ne_dash

/-- No section begins in a section of which only the first entry can be an underline. -/
theorem quiet_body {spacing : Spacing} {deeper : Nat} {blocks : List Block}
    (h : ∀ l ∈ (blocks.flatMap (Block.lines 0 deeper)).tail, isUnderline l = false) :
    (marks spacing).Quiet ((marks spacing).body 0 deeper blocks) := by
  apply quiet_of_forall
  intro s a u t hs
  cases s with
  | nil =>
    left
    rw [← (List.cons.inj hs).1]
    exact isUnderline_replicate spacing.three_le_dashes
  | cons d s =>
    right
    have htail : (blocks.flatMap (Block.lines 0 deeper)).tail = (s ++ a :: u :: t).tail :=
      congrArg List.tail (List.cons.inj hs).2
    apply h u
    rw [htail]
    cases s <;> simp

end Underlined

/-! ### The lines that open entries -/

namespace ParamDoc

variable (p : ParamDoc)

/-- The type text behind the colon of an entry about a parameter. -/
def typeText : Text :=
  p.type?.elim [] (·.text)

theorem exists_underlinedBlock_head :
    ∃ rest, p.underlinedBlock.head = p.written ++ [' '] ++ ':' :: rest ∧
      trimStart rest = p.typeText := by
  unfold underlinedBlock typeText
  cases p.type? with
  | none => exact ⟨[], by simp, rfl⟩
  | some t =>
    refine ⟨' ' :: t.text, by simp, ?_⟩
    rw [trimStart_cons_of_blank _ isBlank_space, t.isLine.trimStart_eq]
    rfl

theorem underlinedBlock_below : p.underlinedBlock.below = p.lines := by
  unfold underlinedBlock
  cases p.type? <;> rfl

end ParamDoc

namespace SharedHead

/-- A text that is read as a list of names. -/
structure IsNameList (l : Text) : Prop where
  head : l.head?.any isNameStart = true
  all : l.all isNameListChar = true
  trimEnd_eq : trimEnd l = l

namespace IsNameList

variable {l : Text}

theorem colon_notMem (h : IsNameList l) : ':' ∉ l := fun hmem =>
  absurd (List.all_eq_true.1 h.all ':' hmem) (by decide)

theorem ofLine?_eq (h : IsNameList l) :
    ofLine? l = some ⟨((l.splitOn ',').map Entry.bareName).filter (!·.isEmpty), none⟩ := by
  simp only [ofLine?, cut?_eq_none_iff.2 h.colon_notMem, h.trimEnd_eq]
  rw [if_pos ⟨h.head, h.all⟩]

/-- The type stands behind the first colon. -/
theorem ofLine?_append (h : IsNameList l) {gap : Text} (hgap : allBlank gap = true) (rest : Text) :
    ofLine? (l ++ (gap ++ ':' :: rest)) =
      some ⟨((l.splitOn ',').map Entry.bareName).filter (!·.isEmpty), some (trimStart rest)⟩ := by
  have hcut : cut? ':' (l ++ (gap ++ ':' :: rest)) = some (l ++ gap, rest) := by
    refine cut?_eq_some_iff.2 ⟨(List.append_assoc _ _ _).symm, fun hmem => ?_⟩
    exact (List.mem_append.1 hmem).elim h.colon_notMem (notMem_of_allBlank hgap (by decide))
  simp only [ofLine?, hcut, trimEnd_append_of_allBlank _ hgap, h.trimEnd_eq]
  rw [if_pos ⟨h.head, h.all⟩]

end IsNameList

/-- Reading the line that opens an entry about a parameter gives its name and its type. -/
theorem ofLine?_underlinedBlock (p : ParamDoc) :
    ofLine? p.underlinedBlock.head = some ⟨[p.name.text], some p.typeText⟩ := by
  obtain ⟨rest, hhead, hrest⟩ := p.exists_underlinedBlock_head
  have hstart : ∀ c ∈ p.written, isNameStart c = true := by
    intro c hc
    rcases p.mem_written hc with rfl | hword
    · decide
    · simp [isNameStart, hword]
  have hlist : IsNameList p.written := by
    refine ⟨?_, ?_, p.written_isLine.trimEnd_eq⟩
    · cases hw : p.written with
      | nil => exact absurd hw p.written_isLine.ne_nil
      | cons c s => exact hstart c (by simp [hw])
    · rw [List.all_eq_true]
      intro c hc
      simp [isNameListChar, hstart c hc]
  have hcomma : ',' ∉ p.written := by
    intro hc
    exact absurd (hstart ',' hc) (by decide)
  rw [hhead, List.append_assoc, hlist.ofLine?_append rfl rest, List.splitOn_eq_singleton hcomma,
    List.map_singleton, p.bareName_written, List.filter_cons_of_pos (by simpa using p.name.ne_nil),
    List.filter_nil, hrest]

end SharedHead

namespace Underlined

/-- An entry notes what there is to say about its parameter. -/
theorem noteParams_underlinedBlock (doc : Docstring) (p : ParamDoc) :
    noteParams doc p.underlinedBlock.entry =
      doc.onParam (String.ofList p.name.text) fun _ => p.entry Style.numpy.paramHint := by
  have htext : unwrap p.underlinedBlock.entry.body = joined p.lines := by
    apply unwrap_eq_joined
    rw [Block.entry, p.underlinedBlock_below, map_trim_text]
  have hhint : TypeHint.ofText? (TypeHint.withoutOptional p.typeText) =
      p.type?.bind fun t => Style.numpy.paramHint t.text := by
    unfold ParamDoc.typeText
    cases p.type? with
    | none => decide
    | some t => rfl
  unfold noteParams
  rw [show p.underlinedBlock.entry.head = p.underlinedBlock.head from rfl,
    SharedHead.ofLine?_underlinedBlock]
  simp only [htext, Option.bind_some, hhint]
  rfl

theorem afterSpacedColon?_eq_none {s : Text} (h : ':' ∉ s) : afterSpacedColon? s = none := by
  induction s with
  | nil => rfl
  | cons c s ih =>
    have hafter : after? [' ', ':', ' '] (c :: s) = none := by
      by_contra hne
      obtain ⟨rest, hrest⟩ := Option.ne_none_iff_exists'.1 hne
      exact h (by rw [after?_eq_some_iff.1 hrest]; simp)
    rw [List.mem_cons, not_or] at h
    rw [afterSpacedColon?, hafter, ih h.2]
    rfl

/-- An entry gives what there is to say about the returned value. -/
theorem returned?_underlinedBlock (r : ReturnDoc) :
    returned? [r.underlinedBlock.entry] = some r.entry := by
  have htype : returnedType r.type.text = r.type.text := by
    have hlast : r.type.text.getLast? ≠ some ':' :=
      fun h => r.type.colon_notMem (List.mem_of_mem_getLast? h)
    rw [returnedType, afterSpacedColon?_eq_none r.type.colon_notMem]
    exact if_neg hlast
  have htext : unwrap r.underlinedBlock.entry.body = joined r.lines :=
    unwrap_eq_joined (map_trim_text r.lines)
  rw [returned?, List.head?_cons, Option.map_some, htext]
  change some (DocEntry.mk _ (TypeHint.ofText? (returnedType r.type.text))) = _
  rw [htype]
  rfl

theorem isUnderline_underlinedBlock_lines (p : ParamDoc) {deeper : Nat} (hdeeper : 0 < deeper) :
    ∀ l ∈ p.underlinedBlock.lines 0 deeper, isUnderline l = false := by
  intro l hl
  rcases List.mem_cons.1 hl with rfl | hl
  · obtain ⟨rest, hhead, -⟩ := p.exists_underlinedBlock_head
    refine isUnderline_eq_false ⟨':', ?_, by decide⟩
    rw [hhead]
    simp
  · obtain ⟨m, -, rfl⟩ := List.mem_map.1 hl
    exact isUnderline_of_head?_space (head?_replicate_append (by simpa using hdeeper) m.text)

theorem isUnderline_params (content : Content) {deeper : Nat} (hdeeper : 0 < deeper) :
    ∀ l ∈ ((content.params.map ParamDoc.underlinedBlock).flatMap (Block.lines 0 deeper)).tail,
      isUnderline l = false := by
  intro l hl
  obtain ⟨b, hb, hl⟩ := List.mem_flatMap.1 (List.mem_of_mem_tail hl)
  obtain ⟨p, -, rfl⟩ := List.mem_map.1 hb
  exact isUnderline_underlinedBlock_lines p hdeeper l hl

/-- The type of the returned value may well be made of dashes, but it stands first. -/
theorem isUnderline_returns (content : Content) {deeper : Nat} (hdeeper : 0 < deeper) :
    ∀ l ∈ ((content.returns.toList.map ReturnDoc.underlinedBlock).flatMap
      (Block.lines 0 deeper)).tail, isUnderline l = false := by
  intro l hl
  cases hreturns : content.returns with
  | none =>
    rw [hreturns] at hl
    cases hl
  | some r =>
    rw [hreturns, Option.toList_some, List.map_singleton, List.flatMap_singleton, Block.lines,
      List.tail_cons] at hl
    obtain ⟨m, -, rfl⟩ := List.mem_map.1 hl
    exact isUnderline_of_head?_space (head?_replicate_append (by simpa using hdeeper) m.text)

end Underlined

namespace Content

/-- **Reading back underlined sections**: a rendering with sections gives the content. -/
theorem read?_underlined (content : Content) (spacing : Spacing) (hmarked : content.IsMarked) :
    Underlined.read? (content.lines spacing .numpy) =
      some (content.docstring Style.numpy.paramHint (some .numpy)) := by
  have hparams := Underlined.isUnderline_params content spacing.deeper_pos
  have hreturns := Underlined.isUnderline_returns content spacing.deeper_pos
  have hlines : content.lines spacing .numpy =
      content.sectionLines (Underlined.marks spacing) 0 spacing.deeper
        ParamDoc.underlinedBlock ReturnDoc.underlinedBlock := rfl
  rw [Underlined.read?, Underlined.outline_eq spacing, hlines]
  exact read?_sections hmarked spacing.deeper_pos ParamDoc.underlinedBlock_head_isLine
    (fun r => r.type.isLine) (Underlined.quiet_description content spacing)
    (Underlined.quiet_body hparams) (Underlined.quiet_body hreturns)
    Underlined.noteParams_underlinedBlock rfl Underlined.returned?_underlinedBlock

end Content

end CallSchema
