import CallSchema.Proofs.Schema.Missing

/-!
# Listing the returned value

The returned value is listed by adding one more parameter, of the name `return`, to the schema. As
long as no parameter has this name, that puts one property at the end and leaves the others as they
are. A parameter of this name is replaced, which goes unnoticed only if it has the property of the
returned value and is the last one that is required
(`Signature.schema_returnProperty_addsReturn_iff`).

## Main definitions

* `Schema.AddsReturn` -- a schema has what another one has, and at most the returned value besides
* `Signature.ReturnFits` -- no parameter is lost to the returned value
-/

namespace CallSchema

/-- The second schema has what the first one says about some names, and after it at most the
    returned value. -/
structure Schema.AddsReturn (names : List String) (plain full : Schema) : Prop where
  name_eq : full.name = plain.name
  description_eq : full.description = plain.description
  appended : ∃ extra : Option Property,
    full.parameters.properties.entries =
        plain.parameters.properties.entries ++ (extra.map (Signature.returnName, ·)).toList ∧
      full.parameters.required =
        plain.parameters.required ++ (extra.map fun _ => Signature.returnName).toList
  property_eq : ∀ name ∈ names,
    full.parameters.properties.get? name = plain.parameters.properties.get? name
  required_iff : ∀ name ∈ names,
    (name ∈ full.parameters.required ↔ name ∈ plain.parameters.required)

@[simp] theorem Schema.foldl_addParam_name (schema : Schema) (params : List DescribedParam) :
    (params.foldl Schema.addParam schema).name = schema.name := by
  induction params generalizing schema with
  | nil => rfl
  | cons param params ih => exact ih _

theorem Schema.AddsReturn.refl (names : List String) (schema : Schema) :
    schema.AddsReturn names schema :=
  ⟨rfl, rfl, ⟨none, by simp⟩, fun _ _ => rfl, fun _ _ => .rfl⟩

namespace ParameterSchema

variable {schema : ParameterSchema} {param : DescribedParam}

/-- A parameter that is replaced goes to the end of the required names. -/
theorem required_add_of_mem (h : param.name ∈ schema.properties.names)
    (hrequired : param.isRequired = true) :
    (schema.add param).required = schema.required.filter (· ≠ param.name) ++ [param.name] := by
  rw [add, if_pos (Table.isSome_get?_iff.2 h)]
  exact if_pos hrequired

/-- Adding a parameter again changes nothing if it has the same property and is the last one that
    is required. -/
theorem add_eq_self {init : List String} (hprop : schema.properties.get? param.name =
      some (.ofParam param)) (hrequired : param.isRequired = true)
    (hlast : schema.required = init ++ [param.name]) (hnodup : schema.required.Nodup) :
    schema.add param = schema := by
  have hmem : param.name ∈ schema.properties.names := by
    rw [← Table.isSome_get?_iff, hprop]
    rfl
  have hinit : init.filter (· ≠ param.name) = init := by
    rw [List.filter_eq_self]
    intro name hname
    rw [hlast, List.nodup_append] at hnodup
    exact decide_eq_true (hnodup.2.2 name hname param.name List.mem_cons_self)
  have hreq : (schema.add param).required = schema.required := by
    rw [required_add_of_mem hmem hrequired, hlast, List.filter_append, hinit]
    simp
  have hproperties : (schema.add param).properties = schema.properties := by
    rw [properties_add, Table.insert_eq_self hprop]
  cases schema
  simp only [add] at hreq hproperties ⊢
  rw [hreq, hproperties]

end ParameterSchema

/-! ### One more parameter -/

namespace Schema

variable {schema : Schema} {ret : DescribedParam} {names : List String}

/-- A returned value whose name is new comes last. -/
theorem addsReturn_addParam_of_not_mem (hret : ret.name = Signature.returnName)
    (hrequired : ret.isRequired = true)
    (hnew : Signature.returnName ∉ schema.parameters.properties.names)
    (hnames : Signature.returnName ∉ names) : schema.AddsReturn names (schema.addParam ret) := by
  rw [← hret] at hnew hnames
  have hreq := ParameterSchema.required_add_of_not_mem hnew
  rw [if_pos hrequired] at hreq
  refine ⟨rfl, rfl, ⟨some (.ofParam ret), ?_, ?_⟩, fun name hname => ?_, fun name hname => ?_⟩
  · rw [← hret]
    exact Table.entries_alter_of_not_mem _ hnew
  · rw [← hret]
    exact hreq
  · have hne : name ≠ ret.name := fun heq => hnames (heq ▸ hname)
    exact (ParameterSchema.get?_properties_add _ _ _).trans (if_neg hne)
  · have hne : name ≠ ret.name := fun heq => hnames (heq ▸ hname)
    change name ∈ (schema.parameters.add ret).required ↔ _
    rw [hreq, List.mem_append, List.mem_singleton, or_iff_left hne]

/-- A returned value that replaces a parameter without leaving a trace has its property, and its
    name was the last required one. -/
theorem AddsReturn.of_addParam (h : schema.AddsReturn names (schema.addParam ret))
    (hrequired : ret.isRequired = true) (hmem : ret.name ∈ schema.parameters.properties.names)
    (hname : ret.name ∈ names) :
    schema.parameters.properties.get? ret.name = some (.ofParam ret) ∧
      schema.parameters.required.getLast? = some ret.name := by
  constructor
  · rw [← h.property_eq ret.name hname]
    exact (ParameterSchema.get?_properties_add _ _ _).trans (if_pos rfl)
  · obtain ⟨extra, hentries, hreq⟩ := h.appended
    -- there is no new name, so that nothing is appended
    have hnone : extra = none := by
      have hlength := congrArg List.length
        (Table.names_insert_of_mem (Property.ofParam ret) hmem)
      change (schema.addParam ret).parameters.properties.names.length = _ at hlength
      rw [Table.names, Table.names, List.length_map, List.length_map, hentries] at hlength
      cases extra with
      | none => rfl
      | some property => simp at hlength
    rw [hnone] at hreq
    change (schema.parameters.add ret).required = _ at hreq
    rw [ParameterSchema.required_add_of_mem hmem hrequired] at hreq
    rw [Option.map_none, Option.toList_none, List.append_nil] at hreq
    rw [← hreq, List.getLast?_concat]

end Schema

namespace Signature

variable {sig : Signature} {doc : Docstring} {options : Options}

/-- Where a parameter has the name of the documented returned value, it has the same property and
    is the last one that is required. -/
def ReturnFits (sig : Signature) (doc : Docstring) : Prop :=
  ∀ ret, sig.describedReturn? doc = some ret → ∀ param ∈ sig.describedParams doc,
    param.name = returnName → Property.ofParam param = .ofParam ret ∧
      ((sig.describedParams doc).filter DescribedParam.isRequired).getLast? = some param

/-- The schema without the returned value. -/
def plainSchema (sig : Signature) (doc : Docstring) (description : String) : Schema :=
  (sig.describedParams doc).foldl Schema.addParam { name := sig.name, description }

theorem fresh_describedParams (hnames : (sig.params.map Param.name).Nodup) :
    ParameterSchema.Fresh {} (sig.describedParams doc) :=
  ⟨by rwa [map_name_describedParams], fun _ _ h => nomatch h⟩

theorem names_plainSchema (doc : Docstring) (hnames : (sig.params.map Param.name).Nodup)
    (description : String) :
    (sig.plainSchema doc description).parameters.properties.names = sig.params.map Param.name := by
  rw [plainSchema, Schema.foldl_addParam_parameters,
    ParameterSchema.names_foldl_add (fresh_describedParams hnames), map_name_describedParams]
  rfl

theorem required_plainSchema (doc : Docstring) (hnames : (sig.params.map Param.name).Nodup)
    (description : String) :
    (sig.plainSchema doc description).parameters.required =
      ((sig.describedParams doc).filter DescribedParam.isRequired).map DescribedParam.name := by
  rw [plainSchema, Schema.foldl_addParam_parameters,
    ParameterSchema.required_foldl_add (fresh_describedParams hnames)]
  rfl

theorem get?_plainSchema (hnames : (sig.params.map Param.name).Nodup) (description : String)
    {param : DescribedParam} (hparam : param ∈ sig.describedParams doc) :
    (sig.plainSchema doc description).parameters.properties.get? param.name =
      some (.ofParam param) := by
  rw [plainSchema, Schema.foldl_addParam_parameters]
  exact ParameterSchema.get?_foldl_add (fresh_describedParams hnames).nodup hparam

/-- With the returned value the schema is the one without, to which it may be added. -/
theorem foldl_listedParams (description : String) :
    (sig.listedParams doc { options with returnProperty := true }).foldl Schema.addParam
        { name := sig.name, description } =
      (sig.describedReturn? doc).toList.foldl Schema.addParam
        (sig.plainSchema doc description) := by
  rw [listedParams, if_pos rfl, List.foldl_append, plainSchema]

theorem of_describedReturn?_eq_some {ret : DescribedParam}
    (h : sig.describedReturn? doc = some ret) : ret.name = returnName ∧ ret.isRequired = true := by
  rw [describedReturn?, Option.map_eq_some_iff] at h
  obtain ⟨entry, -, rfl⟩ := h
  exact ⟨rfl, rfl⟩

/-- Two parameters of one name are the same. -/
theorem eq_of_name_eq {params : List DescribedParam}
    (hnames : (params.map DescribedParam.name).Nodup) {p q : DescribedParam} (hp : p ∈ params)
    (hq : q ∈ params) (h : p.name = q.name) : p = q :=
  List.inj_on_of_nodup_map hnames hp hq h

/-- The schema of a signature is the same with its returned value that fits. -/
theorem addParam_plainSchema_of_fits (hnames : (sig.params.map Param.name).Nodup)
    {description : String} {ret param : DescribedParam} (hrequired : ret.isRequired = true)
    (hparam : param ∈ sig.describedParams doc) (heq : ret.name = param.name)
    (hprop : Property.ofParam param = .ofParam ret)
    (hlast : ((sig.describedParams doc).filter DescribedParam.isRequired).getLast? = some param) :
    (sig.plainSchema doc description).addParam ret = sig.plainSchema doc description := by
  have hreq := required_plainSchema doc hnames description
  obtain ⟨init, hinit⟩ := List.getLast?_eq_some_iff.1 hlast
  rw [hinit, List.map_append, List.map_singleton, ← heq] at hreq
  have hnodup : (sig.plainSchema doc description).parameters.required.Nodup := by
    rw [required_plainSchema doc hnames]
    refine List.Sublist.nodup (List.filter_sublist.map DescribedParam.name) ?_
    rwa [map_name_describedParams]
  have hget := get?_plainSchema hnames description hparam
  rw [← heq, hprop] at hget
  have hadd := ParameterSchema.add_eq_self hget hrequired hreq hnodup
  rw [Schema.addParam, hadd]

/-- A returned value that replaces a parameter without leaving a trace fits. -/
theorem ReturnFits.of_addsReturn (hnames : (sig.params.map Param.name).Nodup)
    {description : String} {ret : DescribedParam} (hret : sig.describedReturn? doc = some ret)
    (h : (sig.plainSchema doc description).AddsReturn (sig.params.map Param.name)
      ((sig.plainSchema doc description).addParam ret)) : sig.ReturnFits doc := by
  obtain ⟨hname, hrequired⟩ := of_describedReturn?_eq_some hret
  intro ret' hret' param hparam hreturn
  obtain rfl := Option.some.inj (hret.symm.trans hret')
  have heq : ret.name = param.name := hname.trans hreturn.symm
  have hmem : ret.name ∈ sig.params.map Param.name := by
    rw [heq, ← map_name_describedParams sig doc]
    exact List.mem_map_of_mem hparam
  obtain ⟨hget, hlast⟩ := h.of_addParam hrequired (by rwa [names_plainSchema doc hnames]) hmem
  rw [heq, get?_plainSchema hnames description hparam, Option.some.injEq] at hget
  rw [required_plainSchema doc hnames, List.getLast?_map, Option.map_eq_some_iff] at hlast
  obtain ⟨last, hlast, hlastName⟩ := hlast
  have hmemLast := List.mem_of_mem_filter (List.mem_of_getLast? hlast)
  have hsame : last = param := by
    refine eq_of_name_eq ?_ hmemLast hparam (hlastName.trans heq)
    rwa [map_name_describedParams]
  exact ⟨hget, hsame ▸ hlast⟩

/-- A returned value that fits comes last, or else changes nothing. -/
theorem ReturnFits.addsReturn (hnames : (sig.params.map Param.name).Nodup) (description : String)
    {ret : DescribedParam} (hret : sig.describedReturn? doc = some ret) (h : sig.ReturnFits doc) :
    (sig.plainSchema doc description).AddsReturn (sig.params.map Param.name)
      ((sig.plainSchema doc description).addParam ret) := by
  obtain ⟨hname, hrequired⟩ := of_describedReturn?_eq_some hret
  by_cases hmem : returnName ∈ sig.params.map Param.name
  · rw [← map_name_describedParams sig doc] at hmem
    obtain ⟨param, hparam, hreturn⟩ := List.mem_map.1 hmem
    obtain ⟨hprop, hlast⟩ := h ret hret param hparam hreturn
    rw [addParam_plainSchema_of_fits hnames hrequired hparam (hname.trans hreturn.symm) hprop
      hlast]
    exact .refl _ _
  · refine Schema.addsReturn_addParam_of_not_mem hname hrequired ?_ hmem
    rwa [names_plainSchema doc hnames]

theorem plainSchema_addsReturn_iff (hnames : (sig.params.map Param.name).Nodup)
    (description : String) :
    (sig.plainSchema doc description).AddsReturn (sig.params.map Param.name)
        ((sig.describedReturn? doc).toList.foldl Schema.addParam
          (sig.plainSchema doc description)) ↔ sig.ReturnFits doc := by
  cases hret : sig.describedReturn? doc with
  | none => exact ⟨fun _ ret h => (nomatch hret.symm.trans h), fun _ => .refl _ _⟩
  | some ret => exact ⟨.of_addsReturn hnames hret, fun h => h.addsReturn hnames description hret⟩

theorem map_name_description_schema (sig : Signature) (options : Options) :
    (sig.schema options).map (fun schema => (schema.name, schema.description)) =
      (sig.description options).map (sig.name, ·) := by
  rw [← map_description_schema]
  cases hschema : sig.schema options with
  | error failure => rfl
  | ok schema =>
    obtain ⟨doc, description, -, -, rfl⟩ := schema_eq_ok_iff.1 hschema
    simp [Except.map]

theorem schema_eq_plainSchema {plain : Schema}
    (hread : Docstring.read sig.name sig.doc options.style = .ok doc)
    (hok : sig.schema { options with returnProperty := false } = .ok plain) :
    plain = sig.plainSchema doc plain.description := by
  obtain ⟨doc', description, hread', -, rfl⟩ := schema_eq_ok_iff.1 hok
  obtain rfl := Except.ok.inj (hread.symm.trans hread')
  rw [Schema.foldl_addParam_description, plainSchema, listedParams, if_neg Bool.false_ne_true,
    List.append_nil]

theorem schema_returnProperty_eq {plain full : Schema}
    (hread : Docstring.read sig.name sig.doc options.style = .ok doc)
    (hplain : sig.schema { options with returnProperty := false } = .ok plain)
    (hfull : sig.schema { options with returnProperty := true } = .ok full) :
    full = (sig.describedReturn? doc).toList.foldl Schema.addParam plain := by
  have hdescription := map_description_schema sig { options with returnProperty := true }
  rw [hfull] at hdescription
  have hsame := map_description_schema sig { options with returnProperty := false }
  rw [hplain] at hsame
  have heq : full.description = plain.description :=
    Except.ok.inj (hdescription.trans hsame.symm)
  obtain ⟨doc', description, hread', -, rfl⟩ := schema_eq_ok_iff.1 hfull
  obtain rfl := Except.ok.inj (hread.symm.trans hread')
  rw [Schema.foldl_addParam_description] at heq
  change description = plain.description at heq
  rw [foldl_listedParams, heq, ← schema_eq_plainSchema hread hplain]

/-- **The returned value**: listing it changes neither the failure nor the name nor the description.
    All the parameters stay as they are, with at most the returned value after them, exactly when it
    fits; where no parameter has its name it always does. -/
theorem schema_returnProperty_addsReturn_iff (options : Options)
    (hnames : (sig.params.map Param.name).Nodup) :
    (sig.schema { options with returnProperty := true }).map
        (fun schema => (schema.name, schema.description)) =
      (sig.schema { options with returnProperty := false }).map
        (fun schema => (schema.name, schema.description)) ∧
    ∀ doc plain full, Docstring.read sig.name sig.doc options.style = .ok doc →
      sig.schema { options with returnProperty := false } = .ok plain →
      sig.schema { options with returnProperty := true } = .ok full →
      (plain.AddsReturn (sig.params.map Param.name) full ↔ sig.ReturnFits doc) := by
  constructor
  · rw [map_name_description_schema, map_name_description_schema]
    rfl
  · intro doc plain full hread hplain hfull
    rw [schema_returnProperty_eq hread hplain hfull, schema_eq_plainSchema hread hplain]
    exact plainSchema_addsReturn_iff hnames _

/-- A parameter with a default that is named like the returned value: it loses its type and its
    description, and becomes required. -/
theorem schema_returnProperty_replaces :
    let sig : Signature :=
      { name := "f"
        params := [⟨"return", some (.named "str"), true⟩, ⟨"x", none, false⟩]
        doc := some ("Short.\n\n:param return: Whether to come back.\n:param x: Value.\n" ++
          ":return: Result.\n:rtype: int") }
    let schema (properties : Table Property) (required : List String) : Schema :=
      ⟨"f", "Short.", .object, properties, required⟩
    let plain := schema (.ofList [("return", ⟨some .string, "Whether to come back.", none⟩),
      ("x", ⟨none, "Value.", none⟩)]) ["x"]
    let full := schema (.ofList [("return", ⟨some .number, "Result.", none⟩),
      ("x", ⟨none, "Value.", none⟩)]) ["x", "return"]
    (sig.params.map Param.name).Nodup ∧ sig.schema { returnProperty := false } = .ok plain ∧
      sig.schema { returnProperty := true } = .ok full ∧
      ¬plain.AddsReturn (sig.params.map Param.name) full := by
  intro sig schema plain full
  let doc : Docstring :=
    { style := some .rest
      short := "Short."
      long := none
      params := .ofList [("return", { description := "Whether to come back." }),
        ("x", { description := "Value." })]
      returns := some { description := "Result.", hint := some (.named "int") } }
  have hnames : (sig.params.map Param.name).Nodup := by decide
  have hread : Docstring.read sig.name sig.doc none = .ok doc := by decide +kernel
  have hplain : sig.schema { returnProperty := false } = .ok plain :=
    schema_eq_ok_iff.2 ⟨doc, "Short.", hread, rfl, by decide +kernel⟩
  have hfull : sig.schema { returnProperty := true } = .ok full :=
    schema_eq_ok_iff.2 ⟨doc, "Short.", hread, rfl, by decide +kernel⟩
  refine ⟨hnames, hplain, hfull, fun hadds => ?_⟩
  have hfits := ((schema_returnProperty_addsReturn_iff {} hnames).2 doc plain full hread hplain
    hfull).1 hadds
  -- the replaced parameter was a string and did not end the required names
  have hsame := hfits ⟨"return", none, some (.named "int"), "Result.", false⟩ rfl
    ⟨"return", some (.named "str"), none, "Whether to come back.", true⟩ List.mem_cons_self rfl
  exact absurd hsame.1 (by decide +kernel)

end Signature

end CallSchema
