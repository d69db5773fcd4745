import CallSchema.Outline
import CallSchema.Text.Line

/-!
# Indented entries

The body of a section is a list of entries. The first line sets the indentation: every line
indented no deeper than it is the head of an entry, and the deeper lines below a head are its body.
Blank lines do not count.

## Main definitions

* `Entry` -- a head line with its body
* `Entry.ofLines` -- the entries of a section
* `Entry.bareName` -- a parameter name without the stars in front of it
-/

namespace CallSchema

open Text

/-- A head line with the deeper lines below it, all of them trimmed. -/
structure Entry where
  head : Text
  body : List Text
deriving DecidableEq, Inhabited

namespace Entry

/-- The trimmed line, when it is indented no deeper than `base`. -/
def head? (base : Nat) (l : Text) : Option Text :=
  if indent l ≤ base then some (trim l) else none

/-- The entries of a section. -/
def ofLines (ls : List Text) : List Entry :=
  match ls.filter (!allBlank ·) with
  | [] => []
  | first :: rest =>
    (Outline.ofItems (head? (indent first)) (first :: rest)).sections.map fun (head, body) =>
      ⟨head, body.map trim⟩

/-- A parameter name without the stars in front of it. -/
def bareName (s : Text) : Text :=
  (trim s).dropWhile (· == '*')

end Entry

end CallSchema
