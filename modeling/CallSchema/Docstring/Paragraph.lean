import CallSchema.Docstring.Basic
import CallSchema.Text.Line

/-!
# Paragraphs

The lines of a description form paragraphs, which are the runs of lines between blank lines. The
first paragraph is the short description and the others together are the long one.

## Main definitions

* `Paragraph.runs` -- the runs of lines that are not blank
* `Paragraph.all` -- the paragraphs, each on one line
* `Paragraph.short`, `Paragraph.long?` -- the two parts of a description
* `Docstring.ofDescription` -- the docstring that consists of a description only
-/

namespace CallSchema

open Text

namespace Paragraph

/-- The runs of lines between blank lines. -/
def runs (ls : List Text) : List (List Text) :=
  (ls.splitOnP allBlank).filter (!·.isEmpty)

/-- The paragraphs, each with its trimmed lines joined by single spaces. -/
def all (ls : List Text) : List Text :=
  (runs ls).map fun run => [' '].intercalate (run.map trim)

/-- The short description: the first paragraph, or nothing. -/
def short (ls : List Text) : Text :=
  ((all ls).head?).getD []

/-- The long description: the later paragraphs with an empty line between them, if there are
    any. -/
def long? (ls : List Text) : Option Text :=
  match (all ls).tail with
  | [] => none
  | later => some (['\n', '\n'].intercalate later)

end Paragraph

/-- The docstring of the given style that describes no parameter and no returned value. -/
def Docstring.ofDescription (style : Option Style) (ls : List Text) : Docstring where
  style := style
  short := String.ofList (Paragraph.short ls)
  long := (Paragraph.long? ls).map String.ofList

end CallSchema
