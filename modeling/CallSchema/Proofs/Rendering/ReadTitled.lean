import CallSchema.Proofs.Docstring.ParamHead
import CallSchema.Proofs.Rendering.ReadSections

/-!
# Reading back titled sections

No title begins or ends with a blank, and no line of a description ends with a colon, so the only
titles of a rendering are those of its sections. The line that opens an entry is read as the parts
that it was put together from, whatever the type between its parentheses looks like, as long as
there is no colon in it (`Content.read?_titled`).
-/

namespace CallSchema

open Text

namespace Titled

/-! ### Titles -/

/-- A title line is a line of text with a colon behind it. -/
theorem isLine_of_topic? {l : Text} {topic : SectionTopic} (h : topic? l = some topic) :
    l.getLast? = some ':' ∧ IsLine l.dropLast := by
  have htitles : ∀ topic ∈ [SectionTopic.params, .returned, .aside], ∀ title ∈ titles topic,
      title.toList ≠ [] ∧ trim title.toList = title.toList ∧ '\n' ∉ title.toList ∧
        '\t' ∉ title.toList := by
    decide +kernel
  unfold topic? at h
  split at h
  · next hlast =>
    refine ⟨hlast, ?_⟩
    have hmem := List.mem_of_find?_eq_some h
    have htitle := List.find?_some h
    obtain ⟨hne, htrim, hnewline, htab⟩ := htitles topic hmem _ (of_decide_eq_true htitle)
    rw [String.toList_ofList] at hne htrim hnewline htab
    exact ⟨hne, htrim, hnewline, htab⟩
  · cases h

theorem topic?_of_getLast?_ne {l : Text} (h : l.getLast? ≠ some ':') : topic? l = none := by
  rw [topic?, if_neg h]

/-- An indented line is no title. -/
theorem topic?_of_head?_space {l : Text} (h : l.head? = some ' ') : topic? l = none := by
  by_contra hne
  obtain ⟨topic, htopic⟩ := Option.ne_none_iff_exists'.1 hne
  obtain ⟨-, hline⟩ := isLine_of_topic? htopic
  cases l with
  | nil => cases h
  | cons c s =>
    obtain rfl := Option.some.inj h
    cases s with
    | nil => exact hline.ne_nil rfl
    | cons d s => exact hline.head_ne_blank isBlank_space rfl

/-- The title of a section in a rendering. -/
def title : SectionTopic → Text
  | .params => "Args:".toList
  | .returned => "Returns:".toList
  | .aside => []

theorem topic?_title {topic : SectionTopic} (h : topic ≠ .aside) :
    topic? (title topic) = some topic := by
  cases topic with
  | params => decide +kernel
  | returned => decide +kernel
  | aside => exact absurd rfl h

theorem head?_bind_topic?_title {topic : SectionTopic} (h : topic ≠ .aside) (rest : List Text) :
    (title topic :: rest).head?.bind topic? = some topic := by
  rw [List.head?_cons, Option.bind_some, topic?_title h]

/-- The sections of titled renderings. -/
def marks : SectionMarks where
  heading? ls := ls.head?.bind topic?
  title := title
  under := []
  heading?_nil _ := rfl
  heading?_title _ htopic rest := head?_bind_topic?_title htopic rest

theorem outline_eq (ls : List Text) : outline ls = Content.sectionOutline marks ls := by
  have hdrop : marks.dropLead = id := rfl
  rw [Content.sectionOutline, hdrop, List.map_id_fun, id]
  rfl

theorem quiet_of_forall {ls : List Text} (h : ∀ l ∈ ls, topic? l = none) : marks.Quiet ls := by
  rintro s a t rfl parts
  exact h a (by simp)

theorem quiet_description (content : Content) : marks.Quiet content.description := by
  apply quiet_of_forall
  intro l hl
  rcases content.mem_description hl with rfl | ⟨m, rfl⟩
  · rfl
  · exact topic?_of_getLast?_ne m.last_ne

/-- No section begins among the entries of a section. -/
theorem quiet_body {entry deeper : Nat} (hentry : 0 < entry) (blocks : List Block) :
    marks.Quiet (marks.body entry deeper blocks) := by
  apply quiet_of_forall
  intro l hl
  obtain ⟨b, -, hl⟩ := List.mem_flatMap.1 hl
  apply topic?_of_head?_space
  rcases List.mem_cons.1 hl with rfl | hl
  · exact head?_replicate_append hentry b.head
  · obtain ⟨m, -, rfl⟩ := List.mem_map.1 hl
    exact head?_replicate_append (Nat.add_pos_left hentry deeper) m.text

end Titled

/-! ### The lines that open entries -/

namespace ParamHead

/-- A type without a colon ends at the parenthesis behind it. -/
theorem noneCloses_of_colon_notMem {t : Text} (ht : ':' ∉ t) (rest : Text) : NoneCloses t rest := by
  rintro before after rfl hcolon
  have hafter : ':' ∉ after := fun hmem => ht (by simp [hmem])
  rw [colonNext_iff] at hcolon
  by_cases hb : allBlank after = true
  · rw [trimStart_append_cons hb (by decide)] at hcolon
    simp at hcolon
  · rw [trimStart_append_of_not_allBlank _ (Bool.eq_false_iff.2 hb),
      List.head?_append_of_ne_nil _ (mt trimStart_eq_nil_iff.1 hb)] at hcolon
    exact hafter ((List.dropWhile_sublist isBlank).subset (List.mem_of_mem_head? hcolon))

/-- A name is written with its stars, and the word ends in front of anything else. -/
theorem opening_written (p : ParamDoc) {c : Char} (hc : isWord c = false) (rest : Text) :
    Opening p.stars p.name.text (c :: rest) (p.written ++ c :: rest) where
  line_eq := List.append_assoc _ _ _
  stars_le := p.stars_le
  ne_nil := p.name.ne_nil
  isWord := p.name.isWord
  head?_not_isWord _ hd := Option.some.inj hd ▸ hc

/-- Reading the line that opens an entry about a parameter gives its parts. -/
theorem ofLine?_titledBlock (p : ParamDoc) :
    ofLine? p.titledBlock.head =
      some ⟨p.name.text, p.type?.map (·.text), firstText p.lines⟩ := by
  refine ofLine?_eq_some_iff.2 ⟨Block.behind p.lines, ?_, (Block.trimStart_behind p.lines).symm⟩
  unfold ParamDoc.titledBlock
  cases p.type? with
  | none =>
    rw [Block.labelled_head, List.append_assoc]
    exact ⟨p.stars, _, opening_written p (by decide) _, .untyped allBlank_nil⟩
  | some t =>
    have hhead : (Block.labelled (p.written ++ " (".toList ++ t.text ++ "):".toList) p.lines).head =
        p.written ++ ' ' :: '(' :: (t.text ++ ')' :: ':' :: Block.behind p.lines) := by
      simp [Block.labelled_head]
    have hnone : NoneCloses t.text (':' :: Block.behind p.lines) :=
      noneCloses_of_colon_notMem t.colon_notMem _
    change Form _ _ _ (Block.labelled _ p.lines).head
    rw [hhead]
    exact ⟨p.stars, _, opening_written p (by decide) _,
      @Behind.typed [' '] t.text [] _ rfl allBlank_nil hnone⟩

end ParamHead

namespace Titled

theorem map_trim_below_titledBlock (p : ParamDoc) :
    (p.titledBlock.entry.body).map trim = p.lines.tail.map (·.text) := by
  unfold Block.entry ParamDoc.titledBlock
  cases p.type? <;> rw [Block.labelled_below, map_trim_text]

/-- An entry notes what there is to say about its parameter. -/
theorem noteParam_titledBlock (doc : Docstring) (p : ParamDoc) :
    noteParam doc p.titledBlock.entry =
      doc.onParam (String.ofList p.name.text) fun _ => p.entry Style.google.paramHint := by
  have htext := unwrap_firstText (map_trim_below_titledBlock p)
  unfold noteParam
  rw [show p.titledBlock.entry.head = p.titledBlock.head from rfl,
    ParamHead.ofLine?_titledBlock]
  simp only [htext, Option.bind_map]
  rfl

/-- An entry gives what there is to say about the returned value. -/
theorem returned?_titledBlock (r : ReturnDoc) : returned? [r.titledBlock.entry] = some r.entry := by
  have hhead : r.titledBlock.head = r.type.text ++ ':' :: Block.behind r.lines := by
    simp [ReturnDoc.titledBlock, Block.labelled_head]
  have hbody : (r.titledBlock.entry.body).map trim = r.lines.tail.map (·.text) := by
    unfold Block.entry ReturnDoc.titledBlock
    rw [Block.labelled_below, map_trim_text]
  have hcut : cut? ':' (r.type.text ++ ':' :: Block.behind r.lines) =
      some (r.type.text, Block.behind r.lines) :=
    cut?_eq_some_iff.2 ⟨rfl, r.type.colon_notMem⟩
  have hsplit : (!r.type.text.isEmpty) = true ∧ ((Block.behind r.lines).isEmpty = true ∨
      (Block.behind r.lines).head?.any isBlank = true) := by
    refine ⟨by simpa using r.type.isLine.ne_nil, ?_⟩
    cases r.lines with
    | nil => exact .inl rfl
    | cons first later => exact .inr rfl
  have htype : typeAndText r.titledBlock.head = (some r.type.text, firstText r.lines) := by
    simp only [hhead, typeAndText, hcut]
    rw [if_pos hsplit, Block.trimStart_behind]
  unfold returned?
  simp only [show r.titledBlock.entry.head = r.titledBlock.head from rfl, htype,
    List.flatMap_nil, List.append_nil, unwrap_firstText hbody, Option.bind_some]
  rfl

end Titled

namespace Content

/-- **Reading back titled sections**: a rendering with sections gives the content. -/
theorem read?_titled (content : Content) (spacing : Spacing) (hmarked : content.IsMarked) :
    Titled.read? (content.lines spacing .google) =
      some (content.docstring Style.google.paramHint (some .google)) := by
  have hlines : content.lines spacing .google = content.sectionLines Titled.marks spacing.entry
      spacing.deeper ParamDoc.titledBlock ReturnDoc.titledBlock := rfl
  rw [Titled.read?, Titled.outline_eq, hlines]
  exact read?_sections hmarked spacing.deeper_pos ParamDoc.titledBlock_head_isLine
    ReturnDoc.titledBlock_head_isLine (Titled.quiet_description content)
    (Titled.quiet_body spacing.entry_pos _) (Titled.quiet_body spacing.entry_pos _)
    Titled.noteParam_titledBlock rfl Titled.returned?_titledBlock

end Content

end CallSchema
