import CallSchema.Proofs.Outline
import CallSchema.Proofs.Rendering.Description
import CallSchema.Proofs.Text.Cut

/-!
# Reading back a field list

Each field of a rendering begins with a line that gives its key, the parameter that it is about and
its first description line, and no other line of the rendering begins a field. Noting the fields one
after the other gives the content (`Content.read?_fieldList`).
-/

namespace CallSchema

open Text

/-! ### The lines that begin a field -/

theorem FieldLine.ofLine?_of_head?_ne {l : Text} (h : l.head? ≠ some ':') :
    FieldLine.ofLine? l = none := by
  cases l with
  | nil => rfl
  | cons c s =>
    unfold FieldLine.ofLine?
    split
    · next heq => exact absurd (congrArg List.head? heq) h
    · rfl

namespace FieldText

variable (field : FieldText)

/-- The line with which a field begins, once it is read. -/
def fieldLine : FieldLine :=
  ⟨field.topic.key, field.about.map ParamDoc.written, firstText field.lines⟩

theorem argument?_argument :
    FieldLine.argument? field.argument = field.about.map ParamDoc.written := by
  unfold argument
  cases field.about with
  | none => rfl
  | some p =>
    have hlength : 2 ≤ (' ' :: p.written).length :=
      Nat.succ_le_succ (List.length_pos_of_ne_nil p.written_isLine.ne_nil)
    have htrim : trim (' ' :: p.written) = p.written := by
      rw [← List.singleton_append, trim_of_allBlank_append _ rfl, p.written_isLine.trim_eq]
    rw [FieldLine.argument?, if_pos hlength, htrim]
    rfl

theorem colon_notMem_argument : ':' ∉ field.argument := by
  unfold argument
  split
  · next p _ =>
    rw [List.mem_cons, not_or]
    exact ⟨by decide, p.colon_notMem_written⟩
  · exact List.not_mem_nil

/-- Reading the first line of a field gives its parts. -/
theorem ofLine?_head : FieldLine.ofLine? field.block.head = some field.fieldLine := by
  have hkey : field.topic.key ≠ [] ∧ field.topic.key.all isWord = true := by
    cases field.topic <;> decide
  have hbetween : field.argument = [] ∨ field.argument.head?.any isBlank = true := by
    unfold argument
    split
    · exact .inr rfl
    · exact .inl rfl
  -- a blank or a colon follows the key, so that it ends there
  have hrest : ∀ c, (field.argument ++ ':' :: Block.behind field.lines).head? = some c →
      isWord c = false := by
    intro c hc
    unfold argument at hc
    split at hc
    · obtain rfl := Option.some.inj hc
      decide
    · obtain rfl := Option.some.inj hc
      decide
  obtain ⟨htake, hdrop⟩ := takeWhile_isWord_append (List.all_eq_true.1 hkey.2) hrest
  have hcut : cut? ':' (field.argument ++ ':' :: Block.behind field.lines) =
      some (field.argument, Block.behind field.lines) :=
    cut?_eq_some_iff.2 ⟨rfl, field.colon_notMem_argument⟩
  have hhead : field.block.head =
      ':' :: (field.topic.key ++ (field.argument ++ ':' :: Block.behind field.lines)) := by
    simp [block, Block.labelled_head]
  rw [hhead, FieldLine.ofLine?]
  simp only [htake, hdrop, hcut, List.isEmpty_iff, hkey.1, if_false, if_pos hbetween,
    argument?_argument, Block.trimStart_behind, fieldLine]

end FieldText

/-! ### What the fields add -/

namespace FieldText

/-- The field as it is read, given the spaces in front of the lines below its head. -/
def field (width : Nat) (f : FieldText) : Field :=
  (f.fieldLine, f.block.below.map fun l => List.replicate width ' ' ++ l.text)

theorem text_field (width : Nat) (f : FieldText) : (f.field width).text = joined f.lines := by
  apply unwrap_firstText
  rw [field, map_trim_below, block, Block.labelled_below]

theorem topic?_field (width : Nat) (f : FieldText) : (f.field width).topic? = some f.topic := by
  change FieldTopic.ofKey? f.topic.key = some f.topic
  cases f.topic <;> decide

end FieldText

namespace FieldList

variable (doc : Docstring) (width : Nat)

theorem typeAndName_written (p : ParamDoc) : typeAndName p.written = (none, p.written) := by
  rw [typeAndName, cutLast?_eq_none p.written_not_blank]

theorem note_param (p : ParamDoc) (ls : List Line) :
    note doc (FieldText.field width ⟨.param, some p, ls⟩) =
      doc.onParam (String.ofList p.name.text) fun entry =>
        ⟨String.ofList (joined ls), entry.hint⟩ := by
  have hargument : (FieldText.field width ⟨.param, some p, ls⟩).1.argument = some p.written := rfl
  unfold note
  rw [FieldText.topic?_field, FieldText.text_field, hargument]
  simp only [typeAndName_written, p.bareName_written]
  rfl

theorem note_paramType (p : ParamDoc) (ls : List Line) :
    note doc (FieldText.field width ⟨.paramType, some p, ls⟩) =
      doc.onParam (String.ofList p.name.text) fun entry =>
        ⟨entry.description, TypeHint.ofText? (joined ls)⟩ := by
  unfold note
  rw [FieldText.topic?_field, FieldText.text_field]
  change doc.onParam (String.ofList (Entry.bareName p.written)) _ = _
  rw [p.bareName_written]

theorem note_returned (ls : List Line) :
    note doc (FieldText.field width ⟨.returned, none, ls⟩) =
      doc.onReturn fun entry => ⟨String.ofList (joined ls), entry.hint⟩ := by
  unfold note
  rw [FieldText.topic?_field, FieldText.text_field]

theorem note_returnedType (ls : List Line) :
    note doc (FieldText.field width ⟨.returnedType, none, ls⟩) =
      doc.onReturn fun entry => ⟨entry.description, TypeHint.ofText? (joined ls)⟩ := by
  unfold note
  rw [FieldText.topic?_field, FieldText.text_field]

/-- Both fields about a parameter together set its whole entry. -/
theorem foldl_note_param (p : ParamDoc) :
    (p.fields.map (FieldText.field width)).foldl note doc =
      doc.onParam (String.ofList p.name.text) fun entry =>
        ⟨String.ofList (joined p.lines),
          p.type?.elim entry.hint fun t => TypeHint.ofText? t.text⟩ := by
  unfold ParamDoc.fields
  cases p.type? with
  | none => exact note_param doc width p p.lines
  | some t =>
    rw [Option.map_some, Option.toList_some, List.map_cons, List.map_singleton, List.foldl_cons,
      List.foldl_cons, List.foldl_nil, note_param, note_paramType, Docstring.onParam_onParam,
      joined_singleton]
    rfl

theorem foldl_note_return (r : ReturnDoc) (hdoc : doc.returns = none) :
    (r.fields.map (FieldText.field width)).foldl note doc =
      { doc with returns := some r.entry } := by
  rw [ReturnDoc.fields, List.map_cons, List.map_singleton, List.foldl_cons, List.foldl_cons,
    List.foldl_nil, note_returned, note_returnedType, joined_singleton, Docstring.onReturn,
    Docstring.onReturn, hdoc]
  rfl

end FieldList

namespace Content

variable (content : Content)

/-- The fields add just what the content says about the parameters and the returned value. -/
theorem foldl_note_fields (width : Nat) (style : Option Style) {trailing : List Text}
    (htrailing : trailing = [] ∨ trailing = [[]]) :
    (content.fields.map (FieldText.field width)).foldl FieldList.note
        (Docstring.ofDescription style (content.description ++ trailing)) =
      content.docstring Style.rest.paramHint style := by
  have hvalue : ∀ p : ParamDoc, (⟨String.ofList (joined p.lines),
      p.type?.elim (default : DocEntry).hint fun t => TypeHint.ofText? t.text⟩ : DocEntry) =
        p.entry Style.rest.paramHint := by
    intro p
    unfold ParamDoc.entry
    cases p.type? <;> rfl
  have hparams : (content.params.map fun p => p.fields.map (FieldText.field width)).flatten.foldl
      FieldList.note (Docstring.ofDescription style (content.description ++ trailing)) =
        { content.docstring Style.rest.paramHint style with returns := none } := by
    rw [List.foldl_flatten, List.foldl_map,
      content.foldl_step (fun doc p => FieldList.foldl_note_param doc width p) hvalue rfl,
      content.ofDescription_description htrailing style Style.rest.paramHint]
    rfl
  rw [fields, List.map_append, List.foldl_append, List.map_flatMap, List.flatMap_def, hparams]
  cases hreturns : content.returns with
  | none =>
    unfold docstring
    rw [hreturns]
    rfl
  | some r =>
    rw [Option.toList_some, List.flatMap_singleton, FieldList.foldl_note_return _ width r rfl,
      docstring, hreturns]
    rfl

/-- No line of the description begins a field. -/
theorem ofLine?_description {l : Text} (hl : l ∈ content.description) :
    FieldLine.ofLine? l = none := by
  rcases content.mem_description hl with rfl | ⟨m, rfl⟩
  · rfl
  · exact FieldLine.ofLine?_of_head?_ne m.head_ne

/-- The outline of a rendering divides it into the fields of the content. -/
theorem outline_fieldList (spacing : Spacing) (hmarked : content.fields ≠ []) :
    FieldList.outline (content.lines spacing .rest) =
      ⟨content.description ++ [[]],
        content.fields.map (FieldText.field (0 + spacing.deeper))⟩ := by
  have hparts : below (content.markup spacing .rest) =
      [] :: content.fields.flatMap fun f => f.block.head :: (f.field (0 + spacing.deeper)).2 := by
    have hblocks : content.fields.map FieldText.block ≠ [] := by simpa using hmarked
    rw [markup, headed_of_ne_nil hblocks, below_cons, below_nil, List.append_nil, List.nil_append,
      List.flatMap_map]
    rfl
  have hpreamble : ∀ l ∈ content.description ++ [[]], FieldLine.ofLine? l = none := by
    intro l hl
    rcases List.mem_append.1 hl with hl | hl
    · exact content.ofLine?_description hl
    · obtain rfl := List.mem_singleton.1 hl
      rfl
  have hbelow : ∀ f ∈ content.fields, ∀ l ∈ (f.field (0 + spacing.deeper)).2,
      FieldLine.ofLine? l = none := by
    intro f _ l hl
    obtain ⟨m, -, rfl⟩ := List.mem_map.1 hl
    apply FieldLine.ofLine?_of_head?_ne
    rw [head?_replicate_append (by simpa using spacing.deeper_pos)]
    decide
  rw [lines, hparts, ← List.singleton_append, ← List.append_assoc, FieldList.outline,
    Outline.ofItems_append _ hpreamble,
    Outline.ofItems_flatMap (fun f _ => f.ofLine?_head) hbelow, List.append_nil]
  rfl

/-- **Reading back a field list**: a rendering with fields gives the content. -/
theorem read?_fieldList (spacing : Spacing) (hmarked : content.fields ≠ []) :
    FieldList.read? (content.lines spacing .rest) =
      some (content.docstring Style.rest.paramHint (some .rest)) := by
  have hany : (content.fields.map (FieldText.field (0 + spacing.deeper))).any
      (fun field => (Field.topic? field).isSome) = true := by
    obtain ⟨f, hf⟩ := List.exists_mem_of_ne_nil _ hmarked
    rw [List.any_map, List.any_eq_true]
    exact ⟨f, hf, by rw [Function.comp_apply, FieldText.topic?_field, Option.isSome_some]⟩
  unfold FieldList.read?
  rw [outline_fieldList content spacing hmarked]
  simp only [hany, if_true]
  rw [content.foldl_note_fields _ (some .rest) (.inr rfl)]

end Content

end CallSchema
