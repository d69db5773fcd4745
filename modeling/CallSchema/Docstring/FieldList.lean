import CallSchema.Docstring.Basic
import CallSchema.Docstring.Entry
import CallSchema.Docstring.Paragraph
import CallSchema.Text.Word
import CallSchema.TypeHint.Written

/-!
# Docstrings with field lists

A field begins with a line such as `:param size: How many.` and takes in the lines below it up to
the next field. The lines before the first field are the description. The key of a field says what
it is about: a parameter, the type of a parameter, the returned value or its type. Fields with
other keys say nothing, but they too end the field above them.

## Main definitions

* `FieldLine` -- a line that begins a field
* `FieldLine.ofLine?` -- the field that a line begins
* `FieldList.note` -- what a field adds to a docstring
* `FieldList.read?` -- the docstring that a text with a field list gives
-/

namespace CallSchema

open Text

/-- The line that begins a field. -/
structure FieldLine where
  /-- The word after the first colon. -/
  key : Text
  /-- The trimmed text between the key and the second colon, if there is any. -/
  argument : Option Text
  /-- The text after the second colon, without blanks at its start. -/
  text : Text
deriving DecidableEq, Inhabited

namespace FieldLine

/-- The argument written between the key and the second colon. A single blank is no argument. -/
def argument? (between : Text) : Option Text :=
  if 2 ≤ between.length then some (trim between) else none

/-- The field that a line begins: a colon, a word, nothing or blank-led text without a colon, and a
    second colon. -/
def ofLine? : Text → Option FieldLine
  | ':' :: s =>
    let key := s.takeWhile isWord
    if key.isEmpty then none
    else
      match cut? ':' (s.dropWhile isWord) with
      | some (between, rest) =>
        if between.isEmpty ∨ (between.head?.any isBlank) then
          some ⟨key, argument? between, trimStart rest⟩
        else none
      | none => none
  | _ => none

end FieldLine

inductive FieldTopic where
  | param
  | paramType
  | returned
  | returnedType
deriving DecidableEq, Repr

namespace FieldTopic

/-- The keys of each topic. -/
def keys : FieldTopic → List String
  | param => ["param", "parameter", "arg", "argument", "key", "keyword"]
  | paramType => ["type"]
  | returned => ["return", "returns"]
  | returnedType => ["rtype"]

/-- The topic that a key stands for. -/
def ofKey? (key : Text) : Option FieldTopic :=
  [param, paramType, returned, returnedType].find? fun topic => String.ofList key ∈ topic.keys

end FieldTopic

/-- A field: its first line and the lines below it. -/
abbrev Field := FieldLine × List Text

namespace Field

/-- The text of a field, on one line. -/
def text (field : Field) : Text :=
  unwrap (field.1.text :: field.2)

/-- What a field is about, if its key says so. -/
def topic? (field : Field) : Option FieldTopic :=
  FieldTopic.ofKey? field.1.key

end Field

namespace FieldList

/-- The type text and the name in the argument of a parameter field: the name is what follows the
    last blank character. -/
def typeAndName (argument : Text) : Option Text × Text :=
  match cutLast? isBlank argument with
  | some (typeText, name) => (some typeText, name)
  | none => (none, argument)

/-- What a field adds to a docstring. -/
def note (doc : Docstring) (field : Field) : Docstring :=
  match field.topic?, field.1.argument with
  | some .param, some argument =>
    let (typeText, name) := typeAndName argument
    doc.onParam (String.ofList (Entry.bareName name)) fun entry =>
      { description := String.ofList field.text
        hint := typeText.bind TypeHint.ofText? <|> entry.hint }
  | some .paramType, some argument =>
    doc.onParam (String.ofList (Entry.bareName argument)) fun entry =>
      { entry with hint := TypeHint.ofText? field.text }
  | some .returned, _ =>
    doc.onReturn fun entry => { entry with description := String.ofList field.text }
  | some .returnedType, _ =>
    doc.onReturn fun entry => { entry with hint := TypeHint.ofText? field.text }
  | _, _ => doc

/-- The fields of a text, after the lines before the first of them. -/
def outline (ls : List Text) : Outline Text FieldLine :=
  Outline.ofItems FieldLine.ofLine? ls

/-- The docstring that a text with a field list gives, or `none` when no field has a topic. -/
def read? (ls : List Text) : Option Docstring :=
  let fields := outline ls
  if fields.sections.any fun field => (Field.topic? field).isSome then
    some (fields.sections.foldl note (Docstring.ofDescription (some .rest) fields.preamble))
  else none

theorem read?_eq_some_iff {ls : List Text} {doc : Docstring} :
    read? ls = some doc ↔
      (outline ls).sections.any (fun field => (Field.topic? field).isSome) = true ∧
        (outline ls).sections.foldl note
          (Docstring.ofDescription (some .rest) (outline ls).preamble) = doc := by
  rw [read?, Option.ite_none_right_eq_some, Option.some.injEq]

end FieldList

end CallSchema
