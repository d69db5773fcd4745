import CallSchema.Proofs.Docstring.Entries
import CallSchema.Proofs.Schema.Assembly
import CallSchema.Proofs.TypeHint.Choices

/-!
# Properties with choices

A property of a schema lists choices when the type that counts for it is a closed set. Types come
from the signature or from the docstring, and what the docstring says about a type is always read
from type text, in every style. So where the types of the signature are derived too, a property with
choices is one of strings and has at least one choice.

## Main definitions

* `Docstring.HintsWritten` -- the hints of a docstring were read from type text
* `Signature.HintsDerived` -- the types of a signature were derived from a schema or a text
-/

namespace CallSchema

/-! ### The hints of a docstring -/

/-- The hint of an entry, if it has one, was read from type text. -/
def DocEntry.HintWritten (entry : DocEntry) : Prop :=
  ∀ hint, entry.hint = some hint → ∃ text, TypeHint.ofText? text = some hint

/-- The hints of a docstring were read from type text. -/
def Docstring.HintsWritten (doc : Docstring) : Prop :=
  ∀ subject entry, doc.about? subject = some entry → entry.HintWritten

namespace DocEntry

theorem hintWritten_default : (default : DocEntry).HintWritten := nofun

/-- A hint that is read from a text, if there is a text, is a written one. -/
theorem hintWritten_of_hint_eq_bind {entry : DocEntry} {written : Option Text}
    {typeText : Text → Text}
    (h : entry.hint = written.bind fun s => TypeHint.ofText? (typeText s)) :
    entry.HintWritten := by
  intro hint hhint
  obtain ⟨s, -, hs⟩ := Option.bind_eq_some_iff.1 (h.symm.trans hhint)
  exact ⟨typeText s, hs⟩

end DocEntry

namespace Docstring

variable {doc : Docstring}

theorem HintsWritten.getD (h : doc.HintsWritten) (subject : Subject) :
    ((doc.about? subject).getD default).HintWritten := by
  cases hentry : doc.about? subject with
  | none => exact DocEntry.hintWritten_default
  | some entry => exact h subject entry hentry

theorem HintsWritten.foldl {α : Type} {step : Docstring → α → Docstring}
    (hstep : ∀ doc a, doc.HintsWritten → (step doc a).HintsWritten) (items : List α)
    (h : doc.HintsWritten) : (items.foldl step doc).HintsWritten := by
  induction items generalizing doc with
  | nil => exact h
  | cons a items ih => exact ih (hstep doc a h)

/-- A description has no entries. -/
theorem hintsWritten_ofDescription (style : Option Style) (ls : List Text) :
    (ofDescription style ls).HintsWritten := by
  intro subject entry h
  cases subject <;> cases h

end Docstring

/-! ### Fields -/

theorem Field.hintWritten_addition? {field : Field} {subject : Subject} {addition : Addition}
    (h : field.addition? = some (subject, addition)) {entry : DocEntry}
    (hentry : entry.HintWritten) :
    (addition.applyTo entry).HintWritten := by
  intro hint hhint
  unfold addition? at h
  split at h
  · next argument _ _ =>
    cases hinline : (FieldList.typeAndName argument).1.bind TypeHint.ofText? with
    | none =>
      simp only [hinline, Option.map_none] at h
      cases h
      exact hentry hint hhint
    | some inline =>
      simp only [hinline, Option.map_some] at h
      cases h
      obtain ⟨text, -, htext⟩ := Option.bind_eq_some_iff.1 hinline
      cases hhint
      exact ⟨text, htext⟩
  · cases h
    exact ⟨field.text, hhint⟩
  · cases h
    exact hentry hint hhint
  · cases h
    exact ⟨field.text, hhint⟩
  · cases h

theorem FieldList.hintsWritten_note (doc : Docstring) (field : Field) (h : doc.HintsWritten) :
    (note doc field).HintsWritten := by
  intro subject entry hentry
  rw [about?_note, Field.entryAfter] at hentry
  split at hentry
  · next written addition hadd =>
    split at hentry
    · obtain rfl := Option.some.inj hentry
      exact Field.hintWritten_addition? hadd (h.getD subject)
    · exact h subject entry hentry
  · exact h subject entry hentry

/-! ### Sections -/

theorem Titled.hintWritten_said (entry : Entry) : (said entry).HintWritten := by
  unfold said
  split
  · exact DocEntry.hintWritten_default
  · exact DocEntry.hintWritten_of_hint_eq_bind rfl

theorem Titled.hintWritten_returned? {entries : List Entry} {entry : DocEntry}
    (h : returned? entries = some entry) : entry.HintWritten := by
  cases entries with
  | nil => cases h
  | cons first later =>
    obtain rfl := Option.some.inj h
    exact DocEntry.hintWritten_of_hint_eq_bind rfl

theorem Underlined.hintWritten_said (entry : Entry) : (said entry).HintWritten := by
  unfold said
  split
  · exact DocEntry.hintWritten_default
  · exact DocEntry.hintWritten_of_hint_eq_bind rfl

theorem Underlined.hintWritten_returned? {entries : List Entry} {entry : DocEntry}
    (h : returned? entries = some entry) : entry.HintWritten := by
  intro hint hhint
  obtain ⟨first, -, rfl⟩ := Option.map_eq_some_iff.1 h
  exact ⟨_, hhint⟩

namespace SectionFormat

variable {format : SectionFormat} (form : format.EntryForm)

theorem EntryForm.hintsWritten_noteParam (hsaid : ∀ entry, (form.said entry).HintWritten)
    (doc : Docstring) (entry : Entry) (h : doc.HintsWritten) :
    (format.noteParam doc entry).HintsWritten := by
  intro subject said hentry
  rw [form.about?_noteParam] at hentry
  split at hentry
  · obtain rfl := Option.some.inj hentry
    exact hsaid entry
  · exact h subject said hentry

theorem EntryForm.hintsWritten_note (hsaid : ∀ entry, (form.said entry).HintWritten)
    (hreturned : ∀ entries said, format.returned? entries = some said → said.HintWritten)
    (doc : Docstring) (part : SectionTopic × List Text) (h : doc.HintsWritten) :
    (format.note doc part).HintsWritten := by
  obtain ⟨topic, body⟩ := part
  cases topic with
  | params => exact h.foldl (form.hintsWritten_noteParam hsaid) (Entry.ofLines body)
  | returned =>
    intro subject entry hentry
    cases subject with
    | param name => exact h (.param name) entry hentry
    | returned =>
      -- the section may be empty, and then an earlier one keeps its say
      change (format.returned? (Entry.ofLines body) <|> doc.returns) = some entry at hentry
      cases hsome : format.returned? (Entry.ofLines body) with
      | none =>
        rw [hsome] at hentry
        exact h .returned entry hentry
      | some said =>
        rw [hsome] at hentry
        obtain rfl := Option.some.inj hentry
        exact hreturned _ said hsome
  | aside => exact h

theorem EntryForm.hintsWritten_read? (hsaid : ∀ entry, (form.said entry).HintWritten)
    (hreturned : ∀ entries said, format.returned? entries = some said → said.HintWritten)
    {parts : Outline Text SectionTopic} {doc : Docstring} (h : format.read? parts = some doc) :
    doc.HintsWritten := by
  obtain ⟨-, rfl⟩ := read?_eq_some_iff.1 h
  exact (Docstring.hintsWritten_ofDescription _ _).foldl (form.hintsWritten_note hsaid hreturned) _

end SectionFormat

/-- In every style the hints are read from type text. -/
theorem Style.hintsWritten_read? {style : Style} {ls : List Text} {doc : Docstring}
    (h : style.read? ls = some doc) : doc.HintsWritten := by
  cases style with
  | rest =>
    obtain ⟨-, rfl⟩ := FieldList.read?_eq_some_iff.1 h
    exact (Docstring.hintsWritten_ofDescription _ _).foldl FieldList.hintsWritten_note _
  | google =>
    exact Titled.entryForm.hintsWritten_read? Titled.hintWritten_said
      (fun _ _ => Titled.hintWritten_returned?) h
  | numpy =>
    exact Underlined.entryForm.hintsWritten_read? Underlined.hintWritten_said
      (fun _ _ => Underlined.hintWritten_returned?) h

namespace Docstring

theorem hintsWritten_ofLines (style : Option Style) (ls : List Text) :
    (ofLines style ls).HintsWritten := by
  rw [ofLines]
  cases hfound : (stylesToTry style).findSome? fun candidate => candidate.read? ls with
  | none => exact hintsWritten_ofDescription none ls
  | some doc =>
    obtain ⟨candidate, -, hread⟩ := List.exists_of_findSome?_eq_some hfound
    exact Style.hintsWritten_read? hread

theorem hintsWritten_read {function : String} {raw : Option String} {style : Option Style}
    {doc : Docstring} (h : read function raw style = .ok doc) : doc.HintsWritten := by
  unfold read at h
  split at h
  · cases h
  · dsimp only at h
    split at h
    · cases h
    · obtain rfl := Except.ok.inj h
      exact hintsWritten_ofLines style _

end Docstring

/-! ### The properties of a schema -/

/-- Every property comes from one of the parameters that were added. -/
theorem ParameterSchema.exists_of_get?_foldl_add {params : List DescribedParam}
    {schema : ParameterSchema} {name : String} {property : Property}
    (h : (params.foldl add schema).properties.get? name = some property) :
    schema.properties.get? name = some property ∨ ∃ param ∈ params, property = .ofParam param := by
  induction params generalizing schema with
  | nil => exact .inl h
  | cons param params ih =>
    rcases ih h with h | ⟨other, hother, rfl⟩
    · rw [get?_properties_add] at h
      split at h
      · exact .inr ⟨param, List.mem_cons_self, (Option.some.inj h).symm⟩
      · exact .inl h
    · exact .inr ⟨other, List.mem_cons_of_mem param hother, rfl⟩

/-- The types of a signature were derived from a schema or a text. -/
structure Signature.HintsDerived (sig : Signature) : Prop where
  params : ∀ param ∈ sig.params, ∀ hint, param.declared = some hint → hint.Derived
  returns : ∀ hint, sig.returns = some hint → hint.Derived

namespace DescribedParam

/-- The type that counts is derived when both of its sources are. -/
theorem derived_of_hint? {param : DescribedParam} {hint : TypeHint}
    (hdeclared : ∀ hint, param.declared = some hint → hint.Derived)
    (hdocumented : ∀ hint, param.documented = some hint → ∃ text, TypeHint.ofText? text = some hint)
    (h : param.hint? = some hint) : hint.Derived := by
  rw [hint?, Option.orElse_eq_some] at h
  rcases h with h | ⟨-, h⟩
  · exact hdeclared hint h
  · exact .inr (hdocumented hint h)

end DescribedParam

namespace Signature

variable {sig : Signature} {options : Options}

theorem derived_of_mem_listedParams (hderived : sig.HintsDerived) {doc : Docstring}
    (hdoc : doc.HintsWritten) {param : DescribedParam}
    (hparam : param ∈ sig.listedParams doc options)
    {hint : TypeHint} (h : param.hint? = some hint) : hint.Derived := by
  rw [listedParams, List.mem_append] at hparam
  rcases hparam with hparam | hparam
  · obtain ⟨source, hsource, rfl⟩ := List.mem_map.1 hparam
    have hwritten : ((doc.params.get? source.name).getD default).HintWritten :=
      hdoc.getD (.param source.name)
    refine DescribedParam.derived_of_hint? (hderived.params source hsource) (fun hint hhint => ?_) h
    exact hwritten hint hhint
  · split at hparam
    · rw [Option.mem_toList, describedReturn?, Option.map_eq_some_iff] at hparam
      obtain ⟨entry, hentry, rfl⟩ := hparam
      refine DescribedParam.derived_of_hint? hderived.returns (fun hint hhint => ?_) h
      exact hdoc .returned entry hentry hint hhint
    · cases hparam

/-- **Choices**: a property with choices is one of strings, and it has at least one choice. -/
theorem choices_of_schema (hderived : sig.HintsDerived) {schema : Schema}
    (hok : sig.schema options = .ok schema) {name : String} {property : Property}
    (hproperty : schema.parameters.properties.get? name = some property) {values : List String}
    (hvalues : property.choices = some values) :
    property.kind = some .string ∧ values ≠ [] := by
  obtain ⟨doc, description, hread, -, rfl⟩ := schema_eq_ok_iff.1 hok
  rw [Schema.foldl_addParam_parameters] at hproperty
  obtain hempty | ⟨param, hparam, rfl⟩ := ParameterSchema.exists_of_get?_foldl_add hproperty
  · cases hempty
  · obtain ⟨hint, hhint, hchoices⟩ := Option.bind_eq_some_iff.1 hvalues
    have hderived : hint.Derived :=
      derived_of_mem_listedParams hderived (Docstring.hintsWritten_read hread) hparam hhint
    obtain ⟨hkind, hne⟩ := hderived.of_choices? hchoices
    refine ⟨?_, hne⟩
    change param.hint?.bind TypeHint.kind? = some .string
    rw [hhint, Option.bind_some, hkind]

/-- A declared type whose `enum` allows null, and documented types of which one quotes nothing. -/
theorem choices_of_schema_mode :
    let declared : Json := .object [("enum", .array [.null, .string "fast"])]
    let sig : Signature :=
      { name := "travel"
        params := [⟨"mode", TypeHint.ofSchema? declared, false⟩, ⟨"unit", none, false⟩]
        doc := some ("Go.\n\nArgs:\n  mode (str): How.\n  unit (Literal[]): Scale.\n\n" ++
          "Returns:\n  Literal['ok']: Outcome.") }
    let options : Options := { returnProperty := true }
    let schema : Schema :=
      { name := "travel"
        description := "Go."
        parameters :=
          { properties := Table.ofList [("mode", ⟨some .string, "How.", some ["fast"]⟩),
              ("unit", ⟨none, "Scale.", none⟩), ("return", ⟨some .string, "Outcome.", some ["ok"]⟩)]
            required := ["mode", "unit", "return"] } }
    sig.HintsDerived ∧ sig.schema options = .ok schema ∧
      schema.parameters.properties.get? "mode" = some ⟨some .string, "How.", some ["fast"]⟩ ∧
      some Kind.string = some .string ∧ ["fast"] ≠ [] := by
  intro declared sig options schema
  have hderived : sig.HintsDerived := by
    refine ⟨fun param hparam hint hhint => .inl ⟨declared, ?_⟩, nofun⟩
    rcases List.mem_cons.1 hparam with rfl | hparam
    · exact hhint
    · obtain rfl := List.mem_singleton.1 hparam
      cases hhint
  have hok : sig.schema options = .ok schema := by decide +kernel
  have hmode : schema.parameters.properties.get? "mode" =
      some ⟨some .string, "How.", some ["fast"]⟩ := by decide
  exact ⟨hderived, hok, hmode, choices_of_schema hderived hok hmode rfl⟩

end Signature

end CallSchema
