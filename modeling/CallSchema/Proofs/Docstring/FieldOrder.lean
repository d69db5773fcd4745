import CallSchema.Proofs.Docstring.Ends
import CallSchema.Proofs.Docstring.Entries
import Mathlib.Data.List.Flatten

/-!
# The order of fields

A field writes the description or the hint of an entry, or both; these are its slots. Fields that
share no slot commute, even where one of them creates the entry that another one adds to, and a
field whose slots are about other names leaves the entries of the given names alone. So all that
counts of a field list is which fields are about the given names
(`FieldList.sameUnder_ofLines`).

## Main definitions

* `Slot`, `Field.slots` -- the parts of entries that a field writes
* `Field.concerns` -- whether a field writes about one of the given names
* `FieldBlock` -- a field as it stands in a text
-/

namespace CallSchema

open Text

inductive EntryPart where
  | description
  | hint
deriving DecidableEq

/-- A part of the entry about a subject. -/
abbrev Slot := Subject × EntryPart

namespace Field

/-- The slots that a field writes: a parameter field writes the description of its parameter, and
    with an inline type the hint as well. -/
def slots (field : Field) : List Slot :=
  match field.topic?, field.1.argument with
  | some .param, some argument =>
    let (typeText, name) := FieldList.typeAndName argument
    let subject := Subject.param (String.ofList (Entry.bareName name))
    if typeText.isSome then [(subject, .description), (subject, .hint)]
    else [(subject, .description)]
  | some .paramType, some argument => [(.param (String.ofList (Entry.bareName argument)), .hint)]
  | some .returned, _ => [(.returned, .description)]
  | some .returnedType, _ => [(.returned, .hint)]
  | _, _ => []

/-- Whether a field writes about the returned value or under one of the given names. -/
def concerns (names : List String) (field : Field) : Bool :=
  field.slots.any fun slot => slot.1.isAmong names

end Field

/-! ### Single fields -/

/-- Additions that write different parts of an entry commute. -/
theorem Addition.applyTo_comm {a b : Addition}
    (hdescription : a.description = none ∨ b.description = none)
    (hhint : a.hint = none ∨ b.hint = none) (entry : DocEntry) :
    a.applyTo (b.applyTo entry) = b.applyTo (a.applyTo entry) := by
  have hparts : (a.applyTo (b.applyTo entry)).description =
        (b.applyTo (a.applyTo entry)).description ∧
      (a.applyTo (b.applyTo entry)).hint = (b.applyTo (a.applyTo entry)).hint := by
    constructor
    · rcases hdescription with h | h <;> simp [applyTo, h]
    · rcases hhint with h | h <;> simp [applyTo, h]
  exact congrArg₂ DocEntry.mk hparts.1 hparts.2

namespace Field

variable {field other : Field} {subject : Subject} {addition : Addition} {names : List String}

/-- What a field writes is in its slots. -/
theorem mem_slots_of_addition? (h : field.addition? = some (subject, addition)) :
    (addition.description.isSome = true → (subject, .description) ∈ field.slots) ∧
      (addition.hint.isSome = true → (subject, .hint) ∈ field.slots) ∧
      ∃ part, (subject, part) ∈ field.slots := by
  unfold addition? at h
  unfold slots
  generalize field.topic? = topic? at h ⊢
  generalize field.1.argument = argument? at h ⊢
  cases topic? with
  | none => cases h
  | some topic =>
    cases topic with
    | param =>
      cases argument? with
      | none => cases h
      | some argument =>
        dsimp only at h ⊢
        generalize FieldList.typeAndName argument = written at h ⊢
        obtain ⟨typeText?, name⟩ := written
        obtain ⟨rfl, rfl⟩ := Prod.mk.inj (Option.some.inj h)
        cases typeText? <;> simp
    | paramType =>
      cases argument? with
      | none => cases h
      | some argument =>
        obtain ⟨rfl, rfl⟩ := Prod.mk.inj (Option.some.inj h)
        simp
    | returned =>
      obtain ⟨rfl, rfl⟩ := Prod.mk.inj (Option.some.inj h)
      simp
    | returnedType =>
      obtain ⟨rfl, rfl⟩ := Prod.mk.inj (Option.some.inj h)
      simp

/-- Fields without a common slot write different parts of an entry. -/
theorem apart_of_disjoint {addition' : Addition} (h : field.slots.Disjoint other.slots)
    (hfield : field.addition? = some (subject, addition))
    (hother : other.addition? = some (subject, addition')) :
    (addition.description = none ∨ addition'.description = none) ∧
      (addition.hint = none ∨ addition'.hint = none) := by
  obtain ⟨hdescription, hhint, -⟩ := mem_slots_of_addition? hfield
  obtain ⟨hdescription', hhint', -⟩ := mem_slots_of_addition? hother
  constructor
  · by_contra hboth
    rw [not_or, ← ne_eq, ← ne_eq, ← Option.isSome_iff_ne_none, ← Option.isSome_iff_ne_none] at hboth
    exact h (hdescription hboth.1) (hdescription' hboth.2)
  · by_contra hboth
    rw [not_or, ← ne_eq, ← ne_eq, ← Option.isSome_iff_ne_none, ← Option.isSome_iff_ne_none] at hboth
    exact h (hhint hboth.1) (hhint' hboth.2)

/-- Fields without a common slot commute at every entry. -/
theorem entryAfter_comm (h : field.slots.Disjoint other.slots) (entry : Option DocEntry) :
    other.entryAfter subject (field.entryAfter subject entry) =
      field.entryAfter subject (other.entryAfter subject entry) := by
  unfold entryAfter
  cases hfield : field.addition? with
  | none => rfl
  | some written =>
    cases hother : other.addition? with
    | none => rfl
    | some written' =>
      obtain ⟨s, a⟩ := written
      obtain ⟨s', a'⟩ := written'
      dsimp only
      by_cases hs : subject = s
      · by_cases hs' : subject = s'
        · -- both write to this entry, where the one that comes first may create it
          subst hs hs'
          obtain ⟨hdescription, hhint⟩ := apart_of_disjoint h hfield hother
          rw [if_pos rfl, if_pos rfl, if_pos rfl, if_pos rfl]
          exact congrArg some (Addition.applyTo_comm hdescription hhint _).symm
        · rw [if_pos hs, if_neg hs', if_neg hs', if_pos hs]
      · rw [if_neg hs, if_neg hs]

/-- A field about other names leaves the entries of the given names alone. -/
theorem entryAfter_of_not_concerns (h : field.concerns names = false)
    (hsubject : subject.isAmong names = true) (entry : Option DocEntry) :
    field.entryAfter subject entry = entry := by
  unfold entryAfter
  cases hfield : field.addition? with
  | none => rfl
  | some written =>
    obtain ⟨s, a⟩ := written
    obtain ⟨-, -, part, hpart⟩ := mem_slots_of_addition? hfield
    refine if_neg fun hs => ?_
    have hconcerns : field.concerns names = true :=
      List.any_eq_true.2 ⟨(s, part), hpart, hs ▸ hsubject⟩
    rw [h] at hconcerns
    cases hconcerns

end Field

/-! ### Lists of fields -/

namespace FieldList

variable {names : List String} {fields fields' : List Field}

/-- Only the fields about the given names count for the entries of these names. -/
theorem foldl_entryAfter_filter {subject : Subject} (hsubject : subject.isAmong names = true)
    (fields : List Field) (entry : Option DocEntry) :
    (fields.filter (Field.concerns names)).foldl
        (fun entry field => field.entryAfter subject entry) entry =
      fields.foldl (fun entry field => field.entryAfter subject entry) entry := by
  induction fields generalizing entry with
  | nil => rfl
  | cons field fields ih =>
    by_cases h : field.concerns names = true
    · rw [List.filter_cons_of_pos h, List.foldl_cons, List.foldl_cons, ih]
    · rw [List.filter_cons_of_neg h, List.foldl_cons, ih,
        Field.entryAfter_of_not_concerns (Bool.not_eq_true _ ▸ h) hsubject]

/-- Fields that share no slot write the same entries in any order, and whatever fields about other
    names stand among them. -/
theorem about?_foldl_note_congr (hslots : (fields.flatMap Field.slots).Nodup)
    (hsame : (fields.filter (Field.concerns names)).Perm (fields'.filter (Field.concerns names)))
    (doc : Docstring) {subject : Subject} (hsubject : subject.isAmong names = true) :
    (fields'.foldl note doc).about? subject = (fields.foldl note doc).about? subject := by
  have hnodup : ((fields.filter (Field.concerns names)).flatMap Field.slots).Nodup :=
    (List.filter_sublist.flatMap Field.slots).nodup hslots
  have hcomm : (fields.filter (Field.concerns names)).Pairwise fun field other => ∀ entry,
      other.entryAfter subject (field.entryAfter subject entry) =
        field.entryAfter subject (other.entryAfter subject entry) :=
    (List.nodup_flatMap.1 hnodup).2.imp Field.entryAfter_comm
  rw [about?_foldl_note, about?_foldl_note, ← foldl_entryAfter_filter hsubject,
    ← foldl_entryAfter_filter hsubject fields]
  exact (foldl_eq_of_perm hcomm hsame _).symm

theorem sameUnder_foldl_note (hslots : (fields.flatMap Field.slots).Nodup)
    (hsame : (fields.filter (Field.concerns names)).Perm (fields'.filter (Field.concerns names)))
    (doc : Docstring) :
    Docstring.SameUnder names (fields.foldl note doc) (fields'.foldl note doc) := by
  refine .of_about? ?_ fun subject hsubject => about?_foldl_note_congr hslots hsame doc hsubject
  rw [Docstring.withoutEntries_foldl withoutEntries_note,
    Docstring.withoutEntries_foldl withoutEntries_note]

end FieldList

/-! ### Fields in a text -/

/-- A field as it stands in a text: a line that begins it, and lines below of which none begins
    another field. -/
structure FieldBlock where
  line : Text
  fieldLine : FieldLine
  below : List Text
  reads : FieldLine.ofLine? line = some fieldLine
  quiet : ∀ l ∈ below, FieldLine.ofLine? l = none

namespace FieldBlock

/-- The lines of a field. -/
def lines (block : FieldBlock) : List Text :=
  block.line :: block.below

/-- The field, in which blank lines do not count. -/
def field (block : FieldBlock) : Field :=
  (block.fieldLine, block.below.filter (!allBlank ·))

end FieldBlock

namespace FieldList

variable {names : List String} {description : List Text} {blocks blocks' : List FieldBlock}

/-- A description with fields below it is divided into these. -/
theorem outline_append_flatMap (hdescription : ∀ l ∈ description, FieldLine.ofLine? l = none)
    (blocks : List FieldBlock) :
    outline (description ++ blocks.flatMap FieldBlock.lines) =
      ⟨description, blocks.map fun block => (block.fieldLine, block.below)⟩ := by
  unfold FieldBlock.lines
  rw [outline, Outline.ofItems_append _ hdescription,
    Outline.ofItems_flatMap (fun block _ => block.reads) (fun block _ => block.quiet),
    List.append_nil]

theorem ofLines_append_flatMap (hdescription : ∀ l ∈ description, FieldLine.ofLine? l = none)
    (hmarker : ∃ block ∈ blocks, block.field.topic?.isSome = true) :
    Docstring.ofLines (some .rest) (description ++ blocks.flatMap FieldBlock.lines) =
      (blocks.map FieldBlock.field).foldl note
        (Docstring.ofDescription (some .rest) description) := by
  have hsections : (blocks.map fun block => (block.fieldLine, block.below)).map Outline.dropBlank =
      (blocks.map FieldBlock.field).map Outline.dropBlank := by
    rw [List.map_map, List.map_map]
    refine List.map_congr_left fun block _ => ?_
    change Outline.dropBlank _ = Outline.dropBlank _
    simp [Outline.dropBlank, FieldBlock.field]
  have hread : read? (description ++ blocks.flatMap FieldBlock.lines) =
      some ((blocks.map FieldBlock.field).foldl note
        (Docstring.ofDescription (some .rest) description)) := by
    rw [read?, outline_append_flatMap hdescription, if_pos,
      Outline.foldl_congr note_dropBlank hsections]
    obtain ⟨block, hblock, htopic⟩ := hmarker
    exact List.any_eq_true.2 ⟨_, List.mem_map_of_mem hblock, htopic⟩
  rw [Docstring.ofLines_some]
  change (read? _).getD _ = _
  rw [hread, Option.getD_some]

/-- **Order of fields**: fields that share no slot can stand in any order, and fields that are not
    about the given names can come and go, as long as some field has a topic. -/
theorem sameUnder_ofLines (hdescription : ∀ l ∈ description, FieldLine.ofLine? l = none)
    (hslots : ((blocks.map FieldBlock.field).flatMap Field.slots).Nodup)
    (hsame : ((blocks.map FieldBlock.field).filter (Field.concerns names)).Perm
      ((blocks'.map FieldBlock.field).filter (Field.concerns names)))
    (hmarker : ∃ block ∈ blocks, block.field.topic?.isSome = true)
    (hmarker' : ∃ block ∈ blocks', block.field.topic?.isSome = true) :
    Docstring.SameUnder names
      (Docstring.ofLines (some .rest) (description ++ blocks.flatMap FieldBlock.lines))
      (Docstring.ofLines (some .rest) (description ++ blocks'.flatMap FieldBlock.lines)) := by
  rw [ofLines_append_flatMap hdescription hmarker, ofLines_append_flatMap hdescription hmarker']
  exact sameUnder_foldl_note hslots hsame _

end FieldList

end CallSchema
