import CallSchema.Docstring.Basic
import CallSchema.Docstring.Entry
import CallSchema.Docstring.Paragraph

/-!
# Docstrings made of sections

Two conventions divide a docstring into sections, each a list of indented entries, and differ in
how a section and its entries begin. What they share is here: a section is about the parameters,
about the returned value or about something else, and sections of the last sort say nothing.

## Main definitions

* `SectionTopic` -- what a section is about
* `SectionFormat` -- how the entries of a section are read
* `SectionFormat.read?` -- the docstring that a text divided into sections gives
-/

namespace CallSchema

inductive SectionTopic where
  | params
  | returned
  /-- Something that no schema needs. -/
  | aside
deriving DecidableEq, Repr

/-- How the entries of a section are read. -/
structure SectionFormat where
  style : Style
  /-- Adds what an entry about parameters says. -/
  noteParam : Docstring → Entry → Docstring
  /-- What the entries about the returned value say, if there are any. -/
  returned? : List Entry → Option DocEntry

namespace SectionFormat

/-- Adds what a section says. A later section on the returned value replaces an earlier one, unless
    it is empty. -/
def note (format : SectionFormat) (doc : Docstring) : SectionTopic × List Text → Docstring
  | (.params, body) => (Entry.ofLines body).foldl format.noteParam doc
  | (.returned, body) =>
    { doc with returns := format.returned? (Entry.ofLines body) <|> doc.returns }
  | (.aside, _) => doc

/-- The docstring that a text divided into sections gives, or `none` when no section is about the
    parameters or the returned value. -/
def read? (format : SectionFormat) (parts : Outline Text SectionTopic) : Option Docstring :=
  if parts.sections.any (·.1 ≠ .aside) then
    some (parts.sections.foldl format.note
      (Docstring.ofDescription (some format.style) parts.preamble))
  else none

theorem read?_eq_some_iff {format : SectionFormat} {parts : Outline Text SectionTopic}
    {doc : Docstring} :
    format.read? parts = some doc ↔
      parts.sections.any (·.1 ≠ .aside) = true ∧
        parts.sections.foldl format.note
          (Docstring.ofDescription (some format.style) parts.preamble) = doc := by
  rw [read?, Option.ite_none_right_eq_some, Option.some.injEq]

end SectionFormat

end CallSchema
