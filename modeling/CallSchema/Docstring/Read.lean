import CallSchema.Docstring.FieldList
import CallSchema.Docstring.Layout
import CallSchema.Docstring.Titled
import CallSchema.Docstring.Underlined
import CallSchema.Failure

/-!
# Reading docstrings

A raw docstring is cleaned and then read in the first style whose markers it has, or in the one
style that is asked for. A text without markers consists of a description only.

## Main definitions

* `Style.read?` -- the docstring that a style finds in a text, if it finds its markers
* `Docstring.ofLines` -- the docstring that a cleaned text gives
* `Docstring.read` -- the docstring of a function, or what is missing
-/

namespace CallSchema

/-- The docstring that a style finds in the lines of a text, or `none` when its markers are
    missing. -/
def Style.read? : Style → List Text → Option Docstring
  | .rest => FieldList.read?
  | .google => Titled.read?
  | .numpy => Underlined.read?

namespace Docstring

/-- The styles to try: the one that is asked for, or all of them in order. -/
def stylesToTry (style : Option Style) : List Style :=
  match style with
  | some style => [style]
  | none => Style.all

/-- The docstring that a cleaned text gives. -/
def ofLines (style : Option Style) (ls : List Text) : Docstring :=
  ((stylesToTry style).findSome? fun candidate => candidate.read? ls).getD (ofDescription none ls)

/-- The docstring of a function, which must have a short description. -/
def read (function : String) (raw : Option String) (style : Option Style) :
    Except Failure Docstring :=
  match raw with
  | none => .error ⟨function, .documentation⟩
  | some text =>
    let doc := ofLines style (Layout.clean text.toList)
    if doc.short = "" then .error ⟨function, .shortDescription⟩ else .ok doc

end Docstring

end CallSchema
