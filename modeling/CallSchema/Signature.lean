import CallSchema.Docstring.Basic

/-!
# Signatures and options

A signature is what is known of a function without reading its documentation: its name, its
parameters in order, the type of the returned value, and the raw documentation itself. The options
say which parts of the documentation go into the schema.

## Main definitions

* `Param`, `Signature` -- the signature of a function, with functions that build one
* `Options` -- the choices of the user
-/

namespace CallSchema

structure Param where
  name : String
  /-- The declared type, if there is one. -/
  declared : Option TypeHint := none
  /-- Whether the value may be left out. -/
  hasDefault : Bool := false
deriving DecidableEq, Repr, Inhabited

structure Signature where
  name : String
  params : List Param := []
  /-- The declared type of the returned value, if there is one. -/
  returns : Option TypeHint := none
  doc : Option String := none
deriving DecidableEq, Repr, Inhabited

namespace Signature

/-- The signature with the given raw documentation. -/
def withDoc (sig : Signature) (text : String) : Signature :=
  { sig with doc := some text }

/-- The signature with one more parameter at the end. -/
def addParam (sig : Signature) (param : Param) : Signature :=
  { sig with params := sig.params ++ [param] }

/-- The signature with the given type of the returned value. -/
def withReturns (sig : Signature) (hint : Option TypeHint) : Signature :=
  { sig with returns := hint }

end Signature

/-- Which parts of the documentation go into a schema. -/
structure Options where
  /-- Whether the long description is part of the description. -/
  longDescription : Bool := false
  /-- Whether the returned value is listed as a property. -/
  returnProperty : Bool := false
  /-- The only docstring style to look for, if there is one. -/
  style : Option Style := none
deriving DecidableEq, Repr, Inhabited

end CallSchema
