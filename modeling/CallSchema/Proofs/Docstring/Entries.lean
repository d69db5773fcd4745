import CallSchema.Proofs.Docstring.Detection
import CallSchema.Proofs.Schema.Assembly
import Mathlib.Data.List.Pairwise

/-!
# What is added to which entry

A docstring has an entry for each parameter that it mentions and one for the returned value. A field
writes the description or the hint of one entry, or both; an entry of a section about the parameters
replaces the entries of all the names that share it. Seen from a single subject, reading is a fold
that looks at nothing but the entry of that subject (`FieldList.about?_foldl_note`,
`SectionFormat.EntryForm.about?_foldl_noteParam`).

## Main definitions

* `Subject`, `Docstring.about?` -- what an entry is about, and the entry about it
* `Field.addition?` -- the subject of a field and what it writes there
* `SectionFormat.EntryForm` -- the names and the content of the entries of a section
-/

namespace CallSchema

open Text

/-- Steps that commute pairwise can be taken in any order. -/
theorem foldl_eq_of_perm {α β : Type} {step : β → α → β} {steps steps' : List α}
    (hcomm : steps.Pairwise fun a b => ∀ s, step (step s a) b = step (step s b) a)
    (h : steps.Perm steps') (s : β) : steps.foldl step s = steps'.foldl step s := by
  have : Std.Symm fun a b => ∀ s, step (step s a) b = step (step s b) a :=
    ⟨fun _ _ hab s => (hab s).symm⟩
  exact h.foldl_eq' (fun a ha b hb => hcomm.forall_of_forall (fun _ _ _ => rfl) ha hb) s

/-- What an entry of a docstring is about. -/
inductive Subject where
  | param (name : String)
  | returned
deriving DecidableEq

/-- Whether a subject is the returned value or a parameter of one of the given names. -/
def Subject.isAmong (names : List String) : Subject → Bool
  | .param name => name ∈ names
  | .returned => true

namespace Docstring

def about? (doc : Docstring) : Subject → Option DocEntry
  | .param name => doc.params.get? name
  | .returned => doc.returns

/-- Only the entry of the named parameter changes. -/
theorem about?_onParam (doc : Docstring) (name : String) (f : DocEntry → DocEntry)
    (subject : Subject) :
    (doc.onParam name f).about? subject =
      if subject = .param name then some (f ((doc.about? subject).getD default))
      else doc.about? subject := by
  cases subject with
  | returned => rfl
  | param other =>
    change (doc.params.alter name _).get? other = _
    rw [Table.get?_alter]
    by_cases h : other = name
    · subst h
      simp only [if_true]
      rfl
    · rw [if_neg h, if_neg fun heq => h (Subject.param.inj heq)]
      rfl

theorem about?_onReturn (doc : Docstring) (f : DocEntry → DocEntry) (subject : Subject) :
    (doc.onReturn f).about? subject =
      if subject = .returned then some (f ((doc.about? subject).getD default))
      else doc.about? subject := by
  cases subject <;> rfl

variable {names : List String} {doc other : Docstring}

/-- Docstrings that differ in nothing but their entries, and not in those under the given names. -/
theorem SameUnder.of_about? (hwithout : other.withoutEntries = doc.withoutEntries)
    (hentry : ∀ subject, subject.isAmong names = true → other.about? subject = doc.about? subject) :
    SameUnder names doc other := by
  have hshort := congrArg Docstring.short hwithout
  have hlong := congrArg Docstring.long hwithout
  exact ⟨hshort, hlong, fun name hname => hentry (.param name) (decide_eq_true hname),
    hentry .returned rfl⟩

end Docstring

/-! ### Fields -/

/-- The parts of an entry that a field writes. -/
structure Addition where
  description : Option String := none
  hint : Option (Option TypeHint) := none

/-- The entry with the written parts replaced. -/
def Addition.applyTo (addition : Addition) (entry : DocEntry) : DocEntry :=
  ⟨addition.description.getD entry.description, addition.hint.getD entry.hint⟩

namespace Field

/-- The subject of a field, and what it writes into the entry about it. -/
def addition? (field : Field) : Option (Subject × Addition) :=
  match field.topic?, field.1.argument with
  | some .param, some argument =>
    let (typeText, name) := FieldList.typeAndName argument
    some (.param (String.ofList (Entry.bareName name)),
      { description := some (String.ofList field.text)
        hint := (typeText.bind TypeHint.ofText?).map some })
  | some .paramType, some argument =>
    some (.param (String.ofList (Entry.bareName argument)),
      { hint := some (TypeHint.ofText? field.text) })
  | some .returned, _ => some (.returned, { description := some (String.ofList field.text) })
  | some .returnedType, _ => some (.returned, { hint := some (TypeHint.ofText? field.text) })
  | _, _ => none

/-- The entry about a subject after a field. -/
def entryAfter (subject : Subject) (entry : Option DocEntry) (field : Field) : Option DocEntry :=
  match field.addition? with
  | some (written, addition) =>
    if subject = written then some (addition.applyTo (entry.getD default)) else entry
  | none => entry

end Field

namespace FieldList

/-- A field changes the entry of its own subject, by what it writes there. -/
theorem about?_note (doc : Docstring) (field : Field) (subject : Subject) :
    (note doc field).about? subject = field.entryAfter subject (doc.about? subject) := by
  unfold note Field.entryAfter Field.addition?
  generalize field.topic? = topic?
  generalize field.1.argument = argument?
  cases topic? with
  | none => rfl
  | some topic =>
    cases topic with
    | param =>
      cases argument? with
      | none => rfl
      | some argument =>
        -- without an inline type the hint stays, which is what writing no hint means
        simp only [Docstring.about?_onParam]
        cases (typeAndName argument).1.bind TypeHint.ofText? <;> rfl
    | paramType =>
      cases argument? with
      | none => rfl
      | some argument => exact Docstring.about?_onParam doc _ _ subject
    | returned => exact Docstring.about?_onReturn doc _ subject
    | returnedType => exact Docstring.about?_onReturn doc _ subject

theorem about?_foldl_note (fields : List Field) (doc : Docstring) (subject : Subject) :
    (fields.foldl note doc).about? subject =
      fields.foldl (fun entry field => field.entryAfter subject entry) (doc.about? subject) :=
  (List.foldl_hom (Docstring.about? · subject) fun doc field =>
    (about?_note doc field subject).symm).symm

end FieldList

/-! ### Entries of sections -/

/-- How the entries of a section about the parameters are understood: each of them replaces the
    entries of the parameters that it names. -/
structure SectionFormat.EntryForm (format : SectionFormat) where
  names : Entry → List String
  /-- What an entry says about each of its names. -/
  said : Entry → DocEntry
  about?_noteParam : ∀ doc entry subject,
    (format.noteParam doc entry).about? subject =
      if subject ∈ (names entry).map Subject.param then some (said entry) else doc.about? subject

namespace Titled

/-- The name in an entry, if the entry has the form of one. -/
def namesOf (entry : Entry) : List String :=
  (ParamHead.ofLine? entry.head).toList.map fun head => String.ofList head.name

/-- What an entry says about its name. -/
def said (entry : Entry) : DocEntry :=
  match ParamHead.ofLine? entry.head with
  | none => default
  | some head =>
    { description := String.ofList (unwrap (head.text :: entry.body))
      hint := head.typeText.bind fun typeText =>
        TypeHint.ofText? (TypeHint.withoutOptional typeText) }

def entryForm : format.EntryForm where
  names := namesOf
  said := said
  about?_noteParam := by
    intro doc entry subject
    change (noteParam doc entry).about? subject = _
    unfold noteParam namesOf said
    cases ParamHead.ofLine? entry.head with
    | none => exact (if_neg List.not_mem_nil).symm
    | some head => simp [Docstring.about?_onParam]

end Titled

namespace Underlined

/-- The names that share an entry, if the entry has the form of one. -/
def namesOf (entry : Entry) : List String :=
  match SharedHead.ofLine? entry.head with
  | none => []
  | some head => head.names.map String.ofList

/-- What an entry says about each of its names. -/
def said (entry : Entry) : DocEntry :=
  match SharedHead.ofLine? entry.head with
  | none => default
  | some head =>
    { description := String.ofList (unwrap entry.body)
      hint := head.typeText.bind fun typeText =>
        TypeHint.ofText? (TypeHint.withoutOptional typeText) }

theorem about?_foldl_onParam (names : List Text) (said : DocEntry) (doc : Docstring)
    (subject : Subject) :
    (names.foldl (fun doc name => doc.onParam (String.ofList name) fun _ => said) doc).about?
        subject =
      if subject ∈ (names.map String.ofList).map Subject.param then some said
      else doc.about? subject := by
  induction names generalizing doc with
  | nil => simp
  | cons name names ih =>
    have hmem : subject ∈ ((name :: names).map String.ofList).map Subject.param ↔
        subject = .param (String.ofList name) ∨
          subject ∈ (names.map String.ofList).map Subject.param := List.mem_cons
    rw [List.foldl_cons, ih, Docstring.about?_onParam]
    by_cases hlater : subject ∈ (names.map String.ofList).map Subject.param
    · rw [if_pos hlater, if_pos (hmem.2 (.inr hlater))]
    · rw [if_neg hlater]
      by_cases hname : subject = .param (String.ofList name)
      · rw [if_pos hname, if_pos (hmem.2 (.inl hname))]
      · rw [if_neg hname, if_neg fun h => (hmem.1 h).elim hname hlater]

def entryForm : format.EntryForm where
  names := namesOf
  said := said
  about?_noteParam := by
    intro doc entry subject
    change (noteParams doc entry).about? subject = _
    unfold noteParams namesOf said
    cases SharedHead.ofLine? entry.head with
    | none => exact (if_neg List.not_mem_nil).symm
    | some head => exact about?_foldl_onParam head.names _ doc subject

end Underlined

namespace SectionFormat

variable {format : SectionFormat} (form : format.EntryForm)

theorem EntryForm.about?_foldl_noteParam (entries : List Entry) (doc : Docstring)
    (subject : Subject) :
    (entries.foldl format.noteParam doc).about? subject =
      entries.foldl (fun said entry =>
        if subject ∈ (form.names entry).map Subject.param then some (form.said entry) else said)
        (doc.about? subject) :=
  (List.foldl_hom (Docstring.about? · subject) fun doc entry =>
    (form.about?_noteParam doc entry subject).symm).symm

end SectionFormat

end CallSchema
