import CallSchema.Proofs.Rendering.StyleIndependence
import CallSchema.Proofs.Schema.Assembly
import CallSchema.Proofs.TypeHint.Remark

/-!
# The remark that a value is optional

Behind the type of a parameter the remark `, optional` is informal: whether a value may be left out
is for the signature to say. The two styles with sections drop it, so that it has no influence on a
schema. Field lists keep it, and what they make of a type with the remark is given by
`TypeHint.RemarkHarmless`: it is harmless for a type that is no closed set of strings and leaves no
bracket open.

## Main definitions

* `Content.remarked` -- the content with the remark behind the type of one parameter
* `TypeHint.RemarkHarmless` -- whether a field list makes the same of a type with the remark
* `Schema.emitted` -- the type and the closed set that a schema gives for a parameter
-/

namespace CallSchema

open Text

/-! ### Hints with the remark -/

namespace TypeHint

/-- What a hint puts into a schema: a kind and a closed set of strings. -/
def emission (hint : Option TypeHint) : Option Kind × Option (List String) :=
  (hint.bind kind?, hint.bind choices?)

/-- Whether a type means the same with the remark behind it: it is no closed set, and if the remark
    stays, the name in front of the first bracket means what the type means. -/
def RemarkHarmless (t : Text) : Prop :=
  (ofText? t).bind choices? = none ∧
    (RemarkStays (t.map Char.toLower) →
      Kind.ofName? (outerName (withoutReference
        (trim (remarked (lastOutside '|' (barsForOr (t.map Char.toLower))))))) =
          (ofText? t).bind kind?)

instance (t : Text) : Decidable (RemarkHarmless t) :=
  inferInstanceAs (Decidable (_ ∧ (_ → _)))

theorem kind?_named (text : Text) :
    (named (String.ofList text)).kind? = Kind.ofName? (baseName text) := by
  rw [kind?, String.toList_ofList]

/-- A type that is no closed set is looked up by its name. -/
theorem ofText?_eq_named {t : Text} (htrim : trim t = t) (hne : t ≠ [])
    (hchoices : (ofText? t).bind choices? = none) : ofText? t = some (named (String.ofList t)) := by
  have hempty : ¬ t.isEmpty = true := by simpa using hne
  rw [ofText?, htrim, if_neg hempty] at hchoices ⊢
  split at hchoices
  · cases hchoices
  · rfl

/-- Without the remark the same comes out exactly if the remark is harmless. -/
theorem emission_remarked_eq_iff {t : Text} (htrim : trim t = t) (hne : t ≠ []) :
    emission (ofText? (remarked t)) = emission (ofText? t) ↔ RemarkHarmless t := by
  have hremarked : emission (ofText? (remarked t)) =
      (Kind.ofName? (baseName (remarked t)), none) := by
    rw [ofText?_remarked htrim, emission, Option.bind_some, Option.bind_some, kind?_named,
      choices?_named]
  rw [hremarked, emission, Prod.mk.injEq, baseName_remarked htrim, RemarkHarmless]
  constructor
  · rintro ⟨hkind, hchoices⟩
    refine ⟨hchoices.symm, fun hstays => ?_⟩
    rwa [if_pos hstays] at hkind
  · rintro ⟨hchoices, hkind⟩
    refine ⟨?_, hchoices.symm⟩
    split
    · next hstays => exact hkind hstays
    · rw [ofText?_eq_named htrim hne hchoices, Option.bind_some, kind?_named]

end TypeHint

/-! ### Content with the remark -/

/-- The type text with the remark behind it. -/
def TypeLine.remarked (t : TypeLine) : TypeLine where
  text := TypeHint.remarked t.text
  isLine := t.isLine.append_direct (by decide)
  colon_notMem := by
    rw [TypeHint.remarked, List.mem_append, not_or]
    exact ⟨t.colon_notMem, by decide⟩

/-- The parameter with the remark behind its type, if it has one. -/
def ParamDoc.remarked (p : ParamDoc) : ParamDoc :=
  { p with type? := p.type?.map TypeLine.remarked }

namespace Content

/-- The content with the remark behind the type of one parameter. -/
def remarked (content : Content) (name : Text) : Content :=
  { content with
    params := content.params.map fun p => if p.name.text = name then p.remarked else p
    distinct := by
      have hname : ∀ p : ParamDoc,
          (if p.name.text = name then p.remarked else p).name.text = p.name.text := by
        intro p
        split <;> rfl
      rw [List.map_map]
      simp only [Function.comp_def, hname]
      exact content.distinct }

variable {content : Content} {p : ParamDoc}

theorem mem_params_remarked (hp : p ∈ content.params) :
    p.remarked ∈ (content.remarked p.name.text).params :=
  List.mem_map.2 ⟨p, hp, if_pos rfl⟩

/-- Names are distinct, so that the remark stands behind the type of one parameter only. -/
theorem docstring_remarked (hp : p ∈ content.params) {hintOf : Text → Option TypeHint}
    (hentry : p.remarked.entry hintOf = p.entry hintOf) (style : Option Style) :
    (content.remarked p.name.text).docstring hintOf style = content.docstring hintOf style := by
  have hentries : (content.remarked p.name.text).entries hintOf = content.entries hintOf := by
    rw [entries, remarked, List.map_map]
    apply List.map_congr_left
    intro q hq
    rw [Function.comp_apply]
    split
    · next hname =>
      rw [List.inj_on_of_nodup_map content.distinct hq hp hname, hentry]
      rfl
    · rfl
  unfold docstring
  congr 1
  exact Table.ext hentries

theorem styleIn_remarked (name : Text) (style : Style) :
    (content.remarked name).styleIn style = content.styleIn style := by
  have hmarked : (content.remarked name).IsMarked ↔ content.IsMarked := by
    rw [IsMarked, IsMarked, remarked]
    simp
  unfold styleIn
  rw [if_congr hmarked rfl rfl]

theorem get?_docstring (hp : p ∈ content.params) (hintOf : Text → Option TypeHint)
    (style : Option Style) :
    (content.docstring hintOf style).params.get? (String.ofList p.name.text) =
      some (p.entry hintOf) :=
  Table.get?_of_mem (List.mem_map_of_mem hp)

end Content

/-! ### Schemas with the remark -/

/-- The type and the closed set that a schema gives for a parameter. -/
def Schema.emitted (schema : Schema) (name : String) :
    Option (Option Kind × Option (List String)) :=
  (schema.parameters.properties.get? name).map fun property => (property.kind, property.choices)

namespace Signature

variable {sig : Signature} {options : Options}

/-- The type of a parameter that has no declared one is that of the docstring. -/
theorem emitted_foldl_addParam {doc : Docstring} {param : Param}
    (hnames : (sig.params.map Param.name).Nodup) (hparam : param ∈ sig.params)
    (hdeclared : param.declared = none)
    (hreturn : options.returnProperty = true → doc.returns ≠ none → param.name ≠ returnName)
    (schema : Schema) :
    ((sig.listedParams doc options).foldl Schema.addParam schema).emitted param.name =
      some (TypeHint.emission ((doc.params.get? param.name).getD default).hint) := by
  have hnotMem : param.name ∉ (if options.returnProperty then (sig.describedReturn? doc).toList
      else []).map DescribedParam.name := by
    intro hmem
    obtain ⟨described, hdescribed, hname⟩ := List.mem_map.1 hmem
    split at hdescribed
    · next hflag =>
      obtain ⟨entry, hentry, rfl⟩ := Option.map_eq_some_iff.1 (Option.mem_toList.1 hdescribed)
      exact hreturn hflag (by simp [hentry]) hname.symm
    · cases hdescribed
  have hnodup : ((sig.describedParams doc).map DescribedParam.name).Nodup := by
    rwa [map_name_describedParams]
  have hdescribed : ∃ described ∈ sig.describedParams doc, described.name = param.name ∧
      (described.kind?, described.choices?) =
        TypeHint.emission ((doc.params.get? param.name).getD default).hint := by
    refine ⟨_, List.mem_map_of_mem hparam, rfl, ?_⟩
    simp [DescribedParam.kind?, DescribedParam.choices?, DescribedParam.hint?, hdeclared,
      TypeHint.emission]
  obtain ⟨described, hmem, hname, hemission⟩ := hdescribed
  rw [Schema.emitted, Schema.foldl_addParam_parameters, listedParams, List.foldl_append,
    ParameterSchema.get?_foldl_add_of_not_mem hnotMem, ← hname,
    ParameterSchema.get?_foldl_add hnodup hmem, hname, ← hemission]
  rfl

/-- The schema of a function that is documented by a rendering. -/
theorem schema_render_eq_ok_iff (content : Content) (spacing : Spacing) {style : Style}
    (hstyle : options.style = none ∨ options.style = some style) {schema : Schema} :
    (sig.withDoc (content.render spacing style)).schema options = .ok schema ↔
      ∃ description, Docstring.compose sig.name
          (content.docstring style.paramHint (content.styleIn style)).short
          (content.docstring style.paramHint (content.styleIn style)).long
          options.longDescription = .ok description ∧
        schema = (sig.listedParams (content.docstring style.paramHint (content.styleIn style))
          options).foldl Schema.addParam { name := sig.name, description } := by
  have hread := content.read_render spacing sig.name style hstyle
  rw [schema_eq_ok_iff]
  constructor
  · rintro ⟨doc, description, hdoc, hcompose, rfl⟩
    obtain rfl := Except.ok.inj (hread.symm.trans hdoc)
    exact ⟨description, hcompose, rfl⟩
  · rintro ⟨description, hcompose, rfl⟩
    exact ⟨_, description, hread, hcompose, rfl⟩

/-- What a field list says about a parameter without declared type goes into the schema. -/
theorem emitted_fieldList {content : Content} {p : ParamDoc} {t : TypeLine} {param : Param}
    (hp : p ∈ content.params) (ht : p.type? = some t) (hnames : (sig.params.map Param.name).Nodup)
    (hparam : param ∈ sig.params) (hname : param.name = String.ofList p.name.text)
    (hdeclared : param.declared = none)
    (hreturn : options.returnProperty = true → content.returns ≠ none →
      String.ofList p.name.text ≠ returnName) (style : Option Style) (schema : Schema) :
    ((sig.listedParams (content.docstring Style.rest.paramHint style) options).foldl
        Schema.addParam schema).emitted param.name =
      some (TypeHint.emission (TypeHint.ofText? t.text)) := by
  have hreturn' : options.returnProperty = true →
      (content.docstring Style.rest.paramHint style).returns ≠ none → param.name ≠ returnName := by
    intro hflag hreturns
    rw [hname]
    refine hreturn hflag fun hnone => hreturns ?_
    rw [Content.docstring, hnone]
    rfl
  have hemitted := emitted_foldl_addParam hnames hparam hdeclared hreturn' schema
  have hentry := Content.get?_docstring hp Style.rest.paramHint style
  rw [← hname] at hentry
  rw [hemitted, hentry, Option.getD_some, ParamDoc.entry, ht]
  rfl

/-- The styles with sections read a type with the remark as the type. -/
theorem entry_remarked {p : ParamDoc} {t : TypeLine} (ht : p.type? = some t)
    (hplain : TypeHint.withoutOptional t.text = t.text) {style : Style} (hstyle : style ≠ .rest) :
    p.remarked.entry style.paramHint = p.entry style.paramHint := by
  have hsame : TypeHint.withoutOptional (TypeHint.remarked t.text) =
      TypeHint.withoutOptional t.text := by
    rw [TypeHint.withoutOptional_remarked t.isLine.trim_eq, hplain]
  have hhint : style.paramHint (TypeHint.remarked t.text) = style.paramHint t.text := by
    cases style with
    | rest => exact absurd rfl hstyle
    | google => exact congrArg TypeHint.ofText? hsame
    | numpy => exact congrArg TypeHint.ofText? hsame
  rw [ParamDoc.entry, ParamDoc.remarked, ht, ParamDoc.entry, ht]
  exact congrArg (DocEntry.mk _) hhint

/-- In the styles with sections the remark is dropped, so that both docstrings are the same. -/
theorem schema_remarked_sections (content : Content) (spacing : Spacing) {p : ParamDoc}
    {t : TypeLine} (hp : p ∈ content.params) (ht : p.type? = some t)
    (hplain : TypeHint.withoutOptional t.text = t.text) {style : Style} (hne : style ≠ .rest)
    (sig : Signature) {options : Options}
    (hstyle : options.style = none ∨ options.style = some style) :
    (sig.withDoc ((content.remarked p.name.text).render spacing style)).schema options =
      (sig.withDoc (content.render spacing style)).schema options := by
  have hread := content.read_render spacing sig.name style hstyle
  have hread' := (content.remarked p.name.text).read_render spacing sig.name style hstyle
  rw [content.styleIn_remarked, content.docstring_remarked hp (entry_remarked ht hplain hne)]
    at hread'
  unfold schema
  simp only [withDoc, hread, hread']
  rfl

/-- A field list with the remark gives a schema as well, and what it says about a parameter without
    declared type is the same exactly if the remark is harmless. -/
theorem schema_remarked_fieldList (content : Content) (spacing : Spacing) {p : ParamDoc}
    {t : TypeLine} (hp : p ∈ content.params) (ht : p.type? = some t) {schema : Schema}
    (hstyle : options.style = none ∨ options.style = some .rest)
    (hnames : (sig.params.map Param.name).Nodup)
    (hundeclared : ∃ param ∈ sig.params,
      param.name = String.ofList p.name.text ∧ param.declared = none)
    (hreturn : options.returnProperty = true → content.returns ≠ none →
      String.ofList p.name.text ≠ returnName)
    (hok : (sig.withDoc (content.render spacing .rest)).schema options = .ok schema) :
    ∃ schema',
      (sig.withDoc ((content.remarked p.name.text).render spacing .rest)).schema options =
        .ok schema' ∧
      (schema'.emitted (String.ofList p.name.text) = schema.emitted (String.ofList p.name.text) ↔
        TypeHint.RemarkHarmless t.text) := by
  obtain ⟨param, hparam, hname, hdeclared⟩ := hundeclared
  obtain ⟨description, hcompose, rfl⟩ := (schema_render_eq_ok_iff content spacing hstyle).1 hok
  refine ⟨_, (schema_render_eq_ok_iff _ spacing hstyle).2 ⟨description, ?_, rfl⟩, ?_⟩
  · rw [content.styleIn_remarked]
    exact hcompose
  · have ht' : p.remarked.type? = some t.remarked := by
      rw [ParamDoc.remarked, ht]
      rfl
    rw [← hname, emitted_fieldList hp ht hnames hparam hname hdeclared hreturn,
      emitted_fieldList (Content.mem_params_remarked hp) ht' hnames hparam hname hdeclared
        hreturn, Option.some.injEq]
    exact TypeHint.emission_remarked_eq_iff t.isLine.trim_eq t.isLine.ne_nil

/-- **The remark in a schema.** In the styles with sections the remark `, optional` behind the type
    of a parameter has no influence on the schema. In a field list, the type and the closed set that
    the schema gives for a parameter without declared type stay the same exactly if the remark is
    harmless. -/
theorem schema_remarked (content : Content) (spacing : Spacing) {p : ParamDoc} {t : TypeLine}
    (hp : p ∈ content.params) (ht : p.type? = some t)
    (hplain : TypeHint.withoutOptional t.text = t.text) :
    (∀ style, style ≠ .rest → ∀ (sig : Signature) (options : Options),
      options.style = none ∨ options.style = some style →
        (sig.withDoc ((content.remarked p.name.text).render spacing style)).schema options =
          (sig.withDoc (content.render spacing style)).schema options) ∧
    ∀ (sig : Signature) (options : Options) (schema : Schema),
      options.style = none ∨ options.style = some .rest →
      (sig.params.map Param.name).Nodup →
      (∃ param ∈ sig.params, param.name = String.ofList p.name.text ∧ param.declared = none) →
      (options.returnProperty = true → content.returns ≠ none →
        String.ofList p.name.text ≠ returnName) →
      (sig.withDoc (content.render spacing .rest)).schema options = .ok schema →
      ∃ schema',
        (sig.withDoc ((content.remarked p.name.text).render spacing .rest)).schema options =
          .ok schema' ∧
        (schema'.emitted (String.ofList p.name.text) = schema.emitted (String.ofList p.name.text) ↔
          TypeHint.RemarkHarmless t.text) := by
  constructor
  · intro style hne sig options hstyle
    exact schema_remarked_sections content spacing hp ht hplain hne sig hstyle
  · intro sig options schema hstyle hnames hundeclared hreturn hok
    exact schema_remarked_fieldList content spacing hp ht hstyle hnames hundeclared hreturn hok

/-- A function with one parameter, whose type is a closed set. -/
def choosing : Content where
  short := [⟨⟨"Short.".toList, by decide⟩, by decide, by decide, 'S', by decide, by decide⟩]
  short_ne_nil := List.cons_ne_nil _ _
  long := []
  long_ne_nil := by simp
  params := [
    .unstarred ⟨"e".toList, by decide, List.all_eq_true.1 (by decide)⟩
      (some ⟨⟨"Literal[\"a\", \"b\"]".toList, by decide⟩, by decide⟩)
      [⟨"Mode.".toList, by decide⟩]]
  distinct := by decide
  returns := none

/-- With the remark, a field list takes the closed set for a type without a kind. -/
theorem schema_remarked_choosing :
    let sig : Signature := { name := "f", params := [⟨"e", none, false⟩] }
    let spacing : Spacing := ⟨4, by decide, 4, by decide, 3, by decide⟩
    let remarked := choosing.remarked "e".toList
    (sig.withDoc (remarked.render spacing .google)).schema {} =
        (sig.withDoc (choosing.render spacing .google)).schema {} ∧
      remarked.render spacing .rest =
        "Short.\n\n:param e: Mode.\n:type e: Literal[\"a\", \"b\"], optional" ∧
      ∃ schema, (sig.withDoc (remarked.render spacing .rest)).schema {} = .ok schema ∧
        schema.emitted "e" ≠ some (some .string, some ["a", "b"]) := by
  intro sig spacing remarked
  obtain ⟨hsections, hfields⟩ := schema_remarked choosing spacing List.mem_cons_self rfl
    (by decide +kernel)
  have hok : (sig.withDoc (choosing.render spacing .rest)).schema {} =
      .ok { name := "f"
            description := "Short."
            parameters :=
              { properties := ⟨[("e", ⟨some .string, "Mode.", some ["a", "b"]⟩)], by decide⟩
                required := ["e"] } } := by
    decide +kernel
  obtain ⟨schema, hschema, hemitted⟩ := hfields sig {} _ (.inl rfl) (by decide)
    ⟨_, List.mem_cons_self, rfl, rfl⟩ (by simp) hok
  refine ⟨hsections .google (by decide) sig {} (.inl rfl), by decide +kernel, schema, hschema, ?_⟩
  exact fun hsame => absurd (hemitted.1 hsame) (by decide +kernel)

end Signature

end CallSchema
