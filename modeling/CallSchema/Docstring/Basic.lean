import CallSchema.Table
import CallSchema.TypeHint.Basic

/-!
# Docstrings

A docstring, once read, consists of a short description, possibly a long one, what it says about
each parameter it names, and what it says about the returned value.

## Main definitions

* `Style` -- the three conventions for marking parameters and the returned value
* `DocEntry` -- what is said about one value
* `Docstring` -- the content of a docstring
* `Docstring.onParam`, `Docstring.onReturn` -- changes of what is said about one value
-/

namespace CallSchema

/-- A convention for marking up parameters and the returned value. -/
inductive Style where
  /-- Field lists, as in `:param x: Size.` -/
  | rest
  /-- Sections with an indented body, as in `Args:`. -/
  | google
  /-- Sections whose title is underlined with dashes. -/
  | numpy
deriving DecidableEq, Repr, Inhabited

namespace Style

/-- Every style, in the order in which they are tried. -/
def all : List Style :=
  [rest, google, numpy]

def name : Style → String
  | rest => "rest"
  | google => "google"
  | numpy => "numpy"

end Style

/-- What a docstring says about one value. -/
structure DocEntry where
  /-- The description, on one line; empty when there is none. -/
  description : String := ""
  hint : Option TypeHint := none
deriving DecidableEq, Repr, Inhabited

/-- The content of a docstring. -/
structure Docstring where
  /-- The convention that was recognised, if any. -/
  style : Option Style := none
  short : String
  /-- The later paragraphs, separated by empty lines. -/
  long : Option String
  /-- The parameters in the order in which they are first mentioned. -/
  params : Table DocEntry := Table.empty
  returns : Option DocEntry := none
deriving DecidableEq, Inhabited

namespace Docstring

/-- Changes the entry of a parameter, which starts out empty. -/
def onParam (doc : Docstring) (name : String) (f : DocEntry → DocEntry) : Docstring :=
  { doc with params := doc.params.alter name fun entry => f (entry.getD default) }

/-- Changes the entry of the returned value, which starts out empty. -/
def onReturn (doc : Docstring) (f : DocEntry → DocEntry) : Docstring :=
  { doc with returns := some (f (doc.returns.getD default)) }

end Docstring

end CallSchema
