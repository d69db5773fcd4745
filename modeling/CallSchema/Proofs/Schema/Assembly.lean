import CallSchema.Proofs.Table
import CallSchema.Schema.OfSignature

/-!
# The schema that a signature gets

`ParameterSchema.add` either appends a parameter or replaces the one of the same name. Where the
names are distinct it always appends, and the schema lists the parameters as the signature does:
`Signature.schema_states` says which properties there are, which of them are required, and what
each of them says.

## Main definitions

* `Docstring.SameUnder` -- docstrings that say the same under given names
* `Signature.returnNames` -- the name of the returned value, where it is listed
* `Property.Of` -- the property that a declared type and an entry of a docstring give
* `Schema.States` -- what the schema of a signature says about its parameters
-/

namespace CallSchema

/-! ### Adding a parameter -/

namespace ParameterSchema

theorem properties_add (schema : ParameterSchema) (param : DescribedParam) :
    (schema.add param).properties = schema.properties.insert param.name (.ofParam param) := rfl

theorem get?_properties_add (schema : ParameterSchema) (param : DescribedParam) (name : String) :
    (schema.add param).properties.get? name =
      if name = param.name then some (.ofParam param) else schema.properties.get? name := by
  rw [properties_add, Table.get?_insert]

/-- A parameter with a new name comes last. -/
theorem names_add_of_not_mem {schema : ParameterSchema} {param : DescribedParam}
    (h : param.name ∉ schema.properties.names) :
    (schema.add param).properties.names = schema.properties.names ++ [param.name] := by
  rw [properties_add, Table.names_insert_of_not_mem _ h]

theorem required_add_of_not_mem {schema : ParameterSchema} {param : DescribedParam}
    (h : param.name ∉ schema.properties.names) :
    (schema.add param).required =
      schema.required ++ if param.isRequired then [param.name] else [] := by
  have hnew : ¬(schema.properties.get? param.name).isSome = true :=
    fun hs => h (Table.isSome_get?_iff.1 hs)
  rw [add, if_neg hnew]
  split
  · rfl
  · rw [List.append_nil]

end ParameterSchema

/-! ### Adding parameters with distinct names -/

namespace Schema

theorem foldl_addParam_parameters (schema : Schema) (params : List DescribedParam) :
    (params.foldl Schema.addParam schema).parameters =
      params.foldl ParameterSchema.add schema.parameters := by
  induction params generalizing schema with
  | nil => rfl
  | cons param params ih => exact ih _

@[simp] theorem foldl_addParam_description (schema : Schema) (params : List DescribedParam) :
    (params.foldl Schema.addParam schema).description = schema.description := by
  induction params generalizing schema with
  | nil => rfl
  | cons param params ih => exact ih _

end Schema

namespace ParameterSchema

variable {schema : ParameterSchema} {params : List DescribedParam}

/-- The names of the parameters are new to a schema and occur once each. -/
structure Fresh (schema : ParameterSchema) (params : List DescribedParam) : Prop where
  nodup : (params.map DescribedParam.name).Nodup
  not_mem : ∀ param ∈ params, param.name ∉ schema.properties.names

theorem Fresh.head {param : DescribedParam} (h : Fresh schema (param :: params)) :
    param.name ∉ schema.properties.names :=
  h.not_mem param (List.mem_cons_self ..)

/-- What is fresh stays fresh while the parameters before it are added. -/
theorem Fresh.tail {param : DescribedParam} (h : Fresh schema (param :: params)) :
    Fresh (schema.add param) params := by
  have hnodup := List.nodup_cons.1 h.nodup
  refine ⟨hnodup.2, fun other hother hmem => ?_⟩
  rw [names_add_of_not_mem h.head, List.mem_append, List.mem_singleton] at hmem
  rcases hmem with hmem | heq
  · exact h.not_mem other (List.mem_cons_of_mem param hother) hmem
  · exact hnodup.1 (heq ▸ List.mem_map_of_mem hother)

theorem names_foldl_add (h : Fresh schema params) :
    (params.foldl add schema).properties.names =
      schema.properties.names ++ params.map DescribedParam.name := by
  -- on the parameters, for every schema to which they are new
  induction params generalizing schema with
  | nil => simp
  | cons param params ih =>
    rw [List.foldl_cons, ih h.tail, names_add_of_not_mem h.head, List.append_assoc, List.map_cons,
      List.singleton_append]

theorem required_foldl_add (h : Fresh schema params) :
    (params.foldl add schema).required =
      schema.required ++ (params.filter DescribedParam.isRequired).map DescribedParam.name := by
  induction params generalizing schema with
  | nil => simp
  | cons param params ih =>
    rw [List.foldl_cons, ih h.tail, required_add_of_not_mem h.head, List.append_assoc]
    by_cases hr : param.isRequired = true
    · rw [if_pos hr, List.filter_cons_of_pos hr, List.map_cons, List.singleton_append]
    · rw [if_neg hr, List.filter_cons_of_neg hr, List.nil_append]

/-- Adding parameters leaves the properties of all other names alone. -/
theorem get?_foldl_add_of_not_mem {name : String}
    (h : name ∉ params.map DescribedParam.name) :
    (params.foldl add schema).properties.get? name = schema.properties.get? name := by
  induction params generalizing schema with
  | nil => rfl
  | cons param params ih =>
    rw [List.map_cons, List.mem_cons, not_or] at h
    rw [List.foldl_cons, ih h.2, get?_properties_add, if_neg h.1]

theorem get?_foldl_add {param : DescribedParam} (h : (params.map DescribedParam.name).Nodup)
    (hmem : param ∈ params) :
    (params.foldl add schema).properties.get? param.name = some (.ofParam param) := by
  induction params generalizing schema with
  | nil => cases hmem
  | cons first params ih =>
    rw [List.map_cons, List.nodup_cons] at h
    rw [List.foldl_cons]
    rcases List.mem_cons.1 hmem with rfl | hmem
    · rw [get?_foldl_add_of_not_mem h.1, get?_properties_add, if_pos rfl]
    · exact ih h.2 hmem

end ParameterSchema

/-! ### The parameters that a schema lists -/

namespace Signature

/-- A signature gets a schema exactly when its docstring can be read and has the parts of the
    description that are asked for. -/
theorem schema_eq_ok_iff {sig : Signature} {options : Options} {schema : Schema} :
    sig.schema options = .ok schema ↔
      ∃ doc description, Docstring.read sig.name sig.doc options.style = .ok doc ∧
        Docstring.compose sig.name doc.short doc.long options.longDescription = .ok description ∧
        schema = (sig.listedParams doc options).foldl Schema.addParam
          { name := sig.name, description } := by
  unfold Signature.schema
  cases hread : Docstring.read sig.name sig.doc options.style with
  | error failure => simp [bind, Except.bind]
  | ok doc =>
    cases hcompose : Docstring.compose sig.name doc.short doc.long options.longDescription with
    | error failure => simp [bind, Except.bind, hcompose]
    | ok description =>
      simp only [bind, Except.bind, hcompose, pure, Except.pure, Except.ok.injEq]
      constructor
      · rintro rfl
        exact ⟨doc, description, rfl, hcompose, rfl⟩
      · rintro ⟨doc', description', rfl, hcompose', rfl⟩
        rw [hcompose, Except.ok.injEq] at hcompose'
        rw [hcompose']

/-- The name of the returned value, if it is asked for and the docstring mentions it. -/
def returnNames (doc : Docstring) (options : Options) : List String :=
  if options.returnProperty = true ∧ doc.returns.isSome = true then [returnName] else []

theorem map_name_describedParams (sig : Signature) (doc : Docstring) :
    (sig.describedParams doc).map DescribedParam.name = sig.params.map Param.name := by
  rw [describedParams, List.map_map]
  rfl

theorem map_name_listedParams (sig : Signature) (doc : Docstring) (options : Options) :
    (sig.listedParams doc options).map DescribedParam.name =
      sig.params.map Param.name ++ returnNames doc options := by
  rw [listedParams, List.map_append, map_name_describedParams, returnNames]
  congr 1
  cases hflag : options.returnProperty <;> cases hreturns : doc.returns <;>
    simp [describedReturn?, hreturns]

/-- Of the listed parameters, those without default and the returned value are required. -/
theorem map_name_filter_isRequired_listedParams (sig : Signature) (doc : Docstring)
    (options : Options) :
    ((sig.listedParams doc options).filter DescribedParam.isRequired).map DescribedParam.name =
      (sig.params.filter fun param => !param.hasDefault).map Param.name ++
        returnNames doc options := by
  rw [listedParams, List.filter_append, List.map_append, describedParams, List.filter_map,
    List.map_map, returnNames]
  congr 1
  cases hflag : options.returnProperty <;> cases hreturns : doc.returns <;>
    simp [describedReturn?, hreturns, DescribedParam.isRequired]

/-- The returned value is listed under its own name, with its own entry. -/
theorem mem_listedParams_return (sig : Signature) {doc : Docstring} {options : Options}
    {entry : DocEntry} (hflag : options.returnProperty = true) (hentry : doc.returns = some entry) :
    ⟨returnName, sig.returns, entry.hint, entry.description, false⟩ ∈
      sig.listedParams doc options := by
  rw [listedParams, if_pos hflag, describedReturn?, hentry]
  exact List.mem_append_right _ (List.mem_singleton.2 rfl)

/-- What a docstring says under other names has no influence on the listed parameters. -/
theorem listedParams_congr {sig : Signature} {doc other : Docstring} (options : Options)
    (hparams : ∀ param ∈ sig.params, other.params.get? param.name = doc.params.get? param.name)
    (hreturns : other.returns = doc.returns) :
    sig.listedParams other options = sig.listedParams doc options := by
  have hdescribed : sig.describedParams other = sig.describedParams doc :=
    List.map_congr_left fun param hparam => by simp only [hparams param hparam]
  rw [listedParams, listedParams, hdescribed, describedReturn?, describedReturn?, hreturns]

end Signature

/-- Two docstrings describe a function alike, and say the same under the given names and of the
    returned value. -/
structure Docstring.SameUnder (names : List String) (doc other : Docstring) : Prop where
  short : other.short = doc.short
  long : other.long = doc.long
  params : ∀ name ∈ names, other.params.get? name = doc.params.get? name
  returns : other.returns = doc.returns

namespace Signature

/-- The schema of a signature with documentation, in terms of what is read. -/
theorem schema_withDoc (sig : Signature) (options : Options) (text : String) :
    (sig.withDoc text).schema options =
      let doc := Docstring.ofLines options.style (Layout.clean text.toList)
      if doc.short = "" then .error ⟨sig.name, .shortDescription⟩
      else
        (Docstring.compose sig.name doc.short doc.long options.longDescription).map
          fun description =>
            (sig.listedParams doc options).foldl Schema.addParam
              { name := sig.name, description } := by
  rw [schema]
  change (Docstring.read sig.name (some text) options.style >>= _) = _
  rw [Docstring.read]
  dsimp only
  split
  · rfl
  · change (Docstring.compose sig.name _ _ _ >>= _) = _
    cases Docstring.compose sig.name _ _ options.longDescription with
    | error failure => rfl
    | ok description => rfl

/-- A schema shows no more of two raw texts than what is read under the names of the parameters. -/
theorem schema_congr {sig : Signature} {options : Options} {text text' : String}
    (h : Docstring.SameUnder (sig.params.map Param.name)
      (Docstring.ofLines options.style (Layout.clean text.toList))
      (Docstring.ofLines options.style (Layout.clean text'.toList))) :
    (sig.withDoc text').schema options = (sig.withDoc text).schema options := by
  have hparams : ∀ param ∈ sig.params, _ := fun param hparam =>
    h.params param.name (List.mem_map_of_mem hparam)
  have hlisted := listedParams_congr options hparams h.returns
  rw [schema_withDoc, schema_withDoc]
  simp only [h.short, h.long, hlisted]

end Signature

/-- The property that says what a declared type and an entry of a docstring say: the declared type
    counts where there is one. -/
def Property.Of (declared : Option TypeHint) (entry : Option DocEntry) (property : Property) :
    Prop :=
  (∀ hint, declared = some hint →
    property.kind = hint.kind? ∧ property.choices = hint.choices?) ∧
  (declared = none →
    property.kind = (entry.bind DocEntry.hint).bind TypeHint.kind? ∧
      property.choices = (entry.bind DocEntry.hint).bind TypeHint.choices?) ∧
  property.description = (entry.map DocEntry.description).getD ""

/-- What the schema of a signature says, given what its docstring says. -/
structure Schema.States (sig : Signature) (options : Options) (doc : Docstring)
    (schema : Schema) : Prop where
  /-- The properties are the parameters in order, and then the returned value. -/
  names : schema.parameters.properties.names =
    sig.params.map Param.name ++ Signature.returnNames doc options
  /-- The parameters without default are required, and so is the returned value. -/
  required : schema.parameters.required =
    (sig.params.filter fun param => !param.hasDefault).map Param.name ++
      Signature.returnNames doc options
  /-- Each parameter has the property that its type and its own entry give. -/
  property : ∀ param ∈ sig.params, ∃ property,
    schema.parameters.properties.get? param.name = some property ∧
      property.Of param.declared (doc.params.get? param.name)
  /-- So has the returned value. -/
  returned : ∀ name ∈ Signature.returnNames doc options, ∃ property,
    schema.parameters.properties.get? name = some property ∧
      property.Of sig.returns doc.returns
  /-- No other entry of the docstring counts. -/
  foreign : ∀ other : Docstring,
    (∀ param ∈ sig.params, other.params.get? param.name = doc.params.get? param.name) →
    other.returns = doc.returns →
    (sig.listedParams other options).foldl Schema.addParam
      { name := sig.name, description := schema.description } = schema

namespace Signature

theorem nodup_listedParams {sig : Signature} {doc : Docstring} {options : Options}
    (hnames : (sig.params.map Param.name).Nodup)
    (hreturn : options.returnProperty = true → doc.returns.isSome = true →
      returnName ∉ sig.params.map Param.name) :
    ((sig.listedParams doc options).map DescribedParam.name).Nodup := by
  rw [map_name_listedParams, returnNames]
  split
  · next h =>
    rw [List.nodup_append]
    refine ⟨hnames, List.nodup_singleton _, ?_⟩
    rintro name hname other hother rfl
    exact hreturn h.1 h.2 (List.mem_singleton.1 hother ▸ hname)
  · rwa [List.append_nil]

theorem ofParam_describedParam_of (param : Param) (entry : Option DocEntry) :
    (Property.ofParam
      { name := param.name
        declared := param.declared
        documented := (entry.getD default).hint
        description := (entry.getD default).description
        hasDefault := param.hasDefault }).Of param.declared entry := by
  cases hd : param.declared with
  | none =>
    cases entry with
    | none => exact ⟨by simp, fun _ => ⟨rfl, rfl⟩, rfl⟩
    | some entry => exact ⟨by simp, fun _ => ⟨rfl, rfl⟩, rfl⟩
  | some hint =>
    refine ⟨?_, by simp, ?_⟩
    · rintro hint' h
      cases h
      exact ⟨rfl, rfl⟩
    · cases entry <;> rfl

/-- A schema states exactly what the signature and its docstring say: its properties and required
    names are those of the parameters in order, followed by the returned value where it is asked
    for and mentioned. -/
theorem schema_states {sig : Signature} {options : Options} {schema : Schema}
    (hnames : (sig.params.map Param.name).Nodup) (hok : sig.schema options = .ok schema) :
    ∃ doc, Docstring.read sig.name sig.doc options.style = .ok doc ∧
      ((options.returnProperty = true → doc.returns.isSome = true →
        returnName ∉ sig.params.map Param.name) → schema.States sig options doc) := by
  obtain ⟨doc, description, hread, -, rfl⟩ := schema_eq_ok_iff.1 hok
  refine ⟨doc, hread, fun hreturn => ?_⟩
  have hnodup := nodup_listedParams hnames hreturn
  have hfresh : ParameterSchema.Fresh {} (sig.listedParams doc options) :=
    ⟨hnodup, fun _ _ h => by cases h⟩
  refine ⟨?_, ?_, ?_, ?_, ?_⟩
  · rw [Schema.foldl_addParam_parameters, ParameterSchema.names_foldl_add hfresh,
      map_name_listedParams]
    rfl
  · rw [Schema.foldl_addParam_parameters, ParameterSchema.required_foldl_add hfresh,
      map_name_filter_isRequired_listedParams]
    rfl
  · intro param hparam
    have hlisted : _ ∈ sig.listedParams doc options :=
      List.mem_append_left _ (List.mem_map_of_mem hparam)
    rw [Schema.foldl_addParam_parameters]
    exact ⟨_, ParameterSchema.get?_foldl_add hnodup hlisted,
      ofParam_describedParam_of param (doc.params.get? param.name)⟩
  · intro name hname
    rw [returnNames] at hname
    split at hname
    · next h =>
      obtain ⟨entry, hentry⟩ := Option.isSome_iff_exists.1 h.2
      rw [List.mem_singleton.1 hname, Schema.foldl_addParam_parameters]
      have hlisted := mem_listedParams_return sig h.1 hentry
      refine ⟨_, ParameterSchema.get?_foldl_add hnodup hlisted, ?_⟩
      rw [hentry]
      exact ofParam_describedParam_of ⟨returnName, sig.returns, false⟩ (some entry)
    · cases hname
  · intro other hparams hreturns
    rw [listedParams_congr options hparams hreturns, Schema.foldl_addParam_description]

/-- A declared type beside a documented one, a documented type that counts, an entry about no
    parameter, and a returned value. -/
theorem schema_states_add :
    let sig : Signature :=
      { name := "add"
        params := [⟨"a", some (.named "i32"), false⟩, ⟨"b", none, true⟩]
        doc := some ("Sum.\n\nArgs:\n  a (str): Left.\n  c: Alien.\n  b (bool): Right.\n\n" ++
          "Returns:\n  int: Total.") }
    let options : Options := { returnProperty := true }
    let schema : Schema :=
      { name := "add"
        description := "Sum."
        parameters :=
          { properties := Table.ofList [("a", ⟨some .number, "Left.", none⟩),
              ("b", ⟨some .boolean, "Right.", none⟩), ("return", ⟨some .number, "Total.", none⟩)]
            required := ["a", "return"] } }
    (sig.params.map Param.name).Nodup ∧ sig.schema options = .ok schema ∧
      ∃ doc, Docstring.read sig.name sig.doc options.style = .ok doc ∧
        schema.States sig options doc := by
  intro sig options schema
  have hnames : (sig.params.map Param.name).Nodup := by decide
  have hok : sig.schema options = .ok schema := by decide +kernel
  obtain ⟨doc, hread, hstates⟩ := schema_states hnames hok
  exact ⟨hnames, hok, doc, hread, hstates fun _ _ => by decide⟩

end Signature

end CallSchema
