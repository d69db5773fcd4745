import CallSchema.Kind

/-!
# Type hints

A type hint is what a signature or a docstring says about the type of a value: either the type as
it is written, or the closed list of the strings that the value may be.
-/

namespace CallSchema

/-- What is said about the type of a value. -/
inductive TypeHint where
  /-- A type written by name, with its arguments if it has any. -/
  | named (text : String)
  /-- A closed set of strings, in the order in which they are declared. -/
  | literal (values : List String)
deriving DecidableEq, Repr, Inhabited

namespace TypeHint

/-- The allowed strings of a closed set. -/
def choices? : TypeHint → Option (List String)
  | named _ => none
  | literal values => some values

@[simp] theorem choices?_named (text : String) : (named text).choices? = none := rfl

@[simp] theorem choices?_literal (values : List String) :
    (literal values).choices? = some values := rfl

end TypeHint

end CallSchema
