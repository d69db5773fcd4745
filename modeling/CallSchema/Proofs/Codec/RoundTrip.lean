import CallSchema.Codec.Schema
import CallSchema.Codec.Signature
import CallSchema.Proofs.Table
import Mathlib.Data.List.Nodup

/-!
# Reading back what is written

Every value with a form in JSON is read back from it unchanged. A record that writes all of its
fields is read from the members of the same names, whatever the values are. A property leaves out
what it does not have, and the fields that it leaves out have null as their default.

## Main definitions

* `Json.ReadsBack` -- a writer whose values a reader gives back
-/

namespace CallSchema

namespace Json

variable {α : Type} {write : α → Json} {read? : Json → Option α}

/-- The reader gives back every value that is written. -/
def ReadsBack (write : α → Json) (read? : Json → Option α) : Prop :=
  ∀ a, read? (write a) = some a

theorem readsBack_string : ReadsBack string string? := fun _ => rfl

theorem readsBack_bool : ReadsBack bool bool? := fun _ => rfl

/-! ### Values that may be absent, and lists -/

/-- An absent value is told from a present one if no present value is written as null. -/
theorem ReadsBack.optional (h : ReadsBack write read?) (hnull : ∀ a, write a ≠ null) :
    ReadsBack (ofOption write) (optional? read?) := by
  intro o
  cases o with
  | none => rfl
  | some a =>
    have hread : optional? read? (write a) = (read? (write a)).map some := by
      cases hwrite : write a with
      | null => exact absurd hwrite (hnull a)
      | _ => rfl
    show optional? read? (write a) = some (some a)
    rw [hread, h a, Option.map_some]

theorem ReadsBack.itemsOf? (h : ReadsBack write read?) (values : List α) :
    itemsOf? read? (values.map write) = some values := by
  induction values with
  | nil => rfl
  | cons a values ih =>
    rw [List.map_cons, Json.itemsOf?, h a, ih]
    rfl

theorem ReadsBack.listOf? (h : ReadsBack write read?) :
    ReadsBack (fun values => array (values.map write)) (listOf? read?) :=
  h.itemsOf?

theorem readsBack_strings : ReadsBack ofStrings (listOf? string?) :=
  readsBack_string.listOf?

/-! ### Records -/

/-- The fields of a record are read from the members of the same names. -/
theorem fieldsOfMembers?_of_lookup {members written : List (String × Json)}
    {fields : List RecordField} (hnames : fields.map RecordField.name = written.map Prod.fst)
    (hlookup : ∀ m ∈ written, members.lookup m.1 = some m.2) :
    fieldsOfMembers? members fields = some (written.map Prod.snd) := by
  induction fields generalizing written with
  | nil =>
    obtain rfl := List.map_eq_nil_iff.1 hnames.symm
    rfl
  | cons f fields ih =>
    cases written with
    | nil => cases hnames
    | cons m written =>
      obtain ⟨hname, hnames⟩ := List.cons.inj hnames
      have hvalue := hlookup m List.mem_cons_self
      have hrest := ih hnames fun n hn => hlookup n (List.mem_cons_of_mem m hn)
      rw [fieldsOfMembers?, hname, hvalue, hrest]
      rfl

/-- A record that writes each of its fields in order is read as the values that it writes. -/
theorem fields?_object {members : List (String × Json)} {fields : List RecordField}
    (hnames : fields.map RecordField.name = members.map Prod.fst)
    (hdistinct : (fields.map RecordField.name).Nodup) :
    fields? fields (object members) = some (members.map Prod.snd) := by
  let table : Table Json := ⟨members, hnames ▸ hdistinct⟩
  exact fieldsOfMembers?_of_lookup hnames fun m hm => Table.get?_of_mem (t := table) hm

end Json

open Json

/-! ### Names of constants -/

theorem Kind.readsBack : ReadsBack Kind.toJson Kind.ofJson? := by
  intro kind
  cases kind <;> decide

theorem Style.readsBack : ReadsBack Style.toJson Style.ofJson? := by
  intro style
  cases style <;> decide

/-! ### Type hints -/

theorem TypeHint.readsBack : ReadsBack TypeHint.toJson TypeHint.ofJson? := by
  intro hint
  cases hint with
  | named text => rfl
  | literal values =>
    show ((ofStrings values).listOf? string?).map literal = some (literal values)
    rw [readsBack_strings values, Option.map_some]

theorem TypeHint.toJson_ne_null (hint : TypeHint) : hint.toJson ≠ null := by
  cases hint <;> nofun

theorem TypeHint.readsBack_optional :
    ReadsBack (ofOption TypeHint.toJson) (optional? TypeHint.ofJson?) :=
  TypeHint.readsBack.optional TypeHint.toJson_ne_null

/-! ### Signatures and options -/

theorem Param.readsBack : ReadsBack Param.toJson Param.ofJson? := by
  intro param
  rw [Param.toJson, Param.ofJson?, fields?_object rfl (by decide)]
  simp only [List.map_cons, List.map_nil, readsBack_string _, readsBack_bool _,
    TypeHint.readsBack_optional _]
  rfl

theorem Signature.readsBack : ReadsBack Signature.toJson Signature.ofJson? := by
  intro sig
  have hdoc : ReadsBack (ofOption string) (optional? string?) :=
    readsBack_string.optional nofun
  rw [Signature.toJson, Signature.ofJson?, fields?_object rfl (by decide)]
  simp only [List.map_cons, List.map_nil, readsBack_string _, Param.readsBack.listOf? _,
    TypeHint.readsBack_optional _, hdoc _]
  rfl

theorem Options.readsBack : ReadsBack Options.toJson Options.ofJson? := by
  intro options
  have hstyle : ReadsBack (ofOption Style.toJson) (optional? Style.ofJson?) :=
    Style.readsBack.optional nofun
  rw [Options.toJson, Options.ofJson?, fields?_object rfl (by decide)]
  simp only [List.map_cons, List.map_nil, readsBack_bool _, hstyle _]
  rfl

/-! ### Schemas -/

theorem DescribedParam.readsBack : ReadsBack DescribedParam.toJson DescribedParam.ofJson? := by
  intro param
  rw [DescribedParam.toJson, DescribedParam.ofJson?, fields?_object rfl (by decide)]
  simp only [List.map_cons, List.map_nil, readsBack_string _, readsBack_bool _,
    TypeHint.readsBack_optional _]
  rfl

namespace Property

/-- What stands for each field of a property, those that are left out included. -/
theorem fields?_toJson (property : Property) :
    property.toJson.fields? fields =
      some [ofOption Kind.toJson property.kind, string property.description,
        ofOption ofStrings property.choices] := by
  obtain ⟨kind, description, choices⟩ := property
  cases kind with
  | none => cases choices <;> rfl
  | some kind => cases choices <;> rfl

theorem readsBack : ReadsBack toJson ofJson? := by
  intro property
  have hkind : ReadsBack (ofOption Kind.toJson) (optional? Kind.ofJson?) :=
    Kind.readsBack.optional nofun
  have hchoices : ReadsBack (ofOption ofStrings) (optional? (listOf? string?)) :=
    readsBack_strings.optional nofun
  rw [ofJson?, fields?_toJson]
  simp only [hkind _, readsBack_string _, hchoices _]
  rfl

theorem entriesOfMembers?_map (entries : List (String × Property)) :
    entriesOfMembers? (entries.map fun e => (e.1, e.2.toJson)) = some entries := by
  induction entries with
  | nil => rfl
  | cons e entries ih =>
    rw [List.map_cons, entriesOfMembers?, readsBack e.2, ih]
    rfl

/-- The properties are read back in their order, since no two of them have the same name. -/
theorem readsBack_table : ReadsBack tableToJson tableOfJson? := by
  intro properties
  show (entriesOfMembers? _).map Table.ofList = some properties
  rw [entriesOfMembers?_map, Option.map_some, Table.ofList_entries]

end Property

theorem ParameterSchema.readsBack : ReadsBack ParameterSchema.toJson ParameterSchema.ofJson? := by
  intro schema
  rw [ParameterSchema.toJson, ParameterSchema.ofJson?, fields?_object rfl (by decide)]
  simp only [List.map_cons, List.map_nil, Kind.readsBack _, Property.readsBack_table _,
    readsBack_strings _]
  rfl

theorem Schema.readsBack : ReadsBack Schema.toJson Schema.ofJson? := by
  intro schema
  rw [Schema.toJson, Schema.ofJson?, fields?_object rfl (by decide)]
  simp only [List.map_cons, List.map_nil, readsBack_string _, ParameterSchema.readsBack _]
  rfl

/-- **Reading back what is written**: schemas, signatures, described parameters, options and type
    hints are equal to what is read from the JSON that they are written as. -/
theorem ofJson?_toJson :
    (∀ schema : Schema, Schema.ofJson? schema.toJson = some schema) ∧
      (∀ sig : Signature, Signature.ofJson? sig.toJson = some sig) ∧
      (∀ param : DescribedParam, DescribedParam.ofJson? param.toJson = some param) ∧
      (∀ options : Options, Options.ofJson? options.toJson = some options) ∧
      ∀ hint : TypeHint, TypeHint.ofJson? hint.toJson = some hint :=
  ⟨Schema.readsBack, Signature.readsBack, DescribedParam.readsBack, Options.readsBack,
    TypeHint.readsBack⟩

end CallSchema
