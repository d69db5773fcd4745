import CallSchema.Signature
import CallSchema.TypeHint.Meaning

/-!
# Call schemas

A call schema gives the name and the description of a function, and a property for each of its
parameters. A parameter is added as a `DescribedParam`, which brings together what the signature
and the docstring say about it.

## Main definitions

* `DescribedParam` -- a parameter with all that is known of it
* `Property` -- the schema of one parameter
* `ParameterSchema`, `Schema` -- the schema of a function
* `Schema.addParam` -- adds a parameter, or replaces the one of the same name
-/

namespace CallSchema

/-- A parameter with what the signature and the docstring say about it. -/
structure DescribedParam where
  name : String
  /-- The type in the signature, if there is one. -/
  declared : Option TypeHint := none
  /-- The type in the docstring, if there is one. -/
  documented : Option TypeHint := none
  /-- The description; empty when there is none. -/
  description : String := ""
  /-- Whether the value may be left out. -/
  hasDefault : Bool := false
deriving DecidableEq, Repr, Inhabited

namespace DescribedParam

/-- The type that counts: the declared one, or else the documented one. -/
def hint? (param : DescribedParam) : Option TypeHint :=
  param.declared <|> param.documented

/-- The kind of the type that counts. -/
def kind? (param : DescribedParam) : Option Kind :=
  param.hint?.bind TypeHint.kind?

/-- The allowed strings of the type that counts. -/
def choices? (param : DescribedParam) : Option (List String) :=
  param.hint?.bind TypeHint.choices?

/-- Whether a call has to give a value. -/
def isRequired (param : DescribedParam) : Bool :=
  !param.hasDefault

end DescribedParam

/-- The schema of one parameter. -/
structure Property where
  kind : Option Kind
  /-- The description; empty when there is none. -/
  description : String
  /-- The allowed strings, if they form a closed set. -/
  choices : Option (List String)
deriving DecidableEq, Repr, Inhabited

/-- The property of a parameter. -/
def Property.ofParam (param : DescribedParam) : Property :=
  ⟨param.kind?, param.description, param.choices?⟩

/-- The schema of the parameters of a function. -/
structure ParameterSchema where
  kind : Kind := .object
  /-- The properties in the order of the parameters. -/
  properties : Table Property := Table.empty
  /-- The names of the parameters that a call has to give. -/
  required : List String := []
deriving DecidableEq, Inhabited

namespace ParameterSchema

/-- Adds a parameter, or replaces the one of the same name. The property of a replaced parameter
    keeps its place, whereas its name goes to the end of the required names. -/
def add (schema : ParameterSchema) (param : DescribedParam) : ParameterSchema :=
  let others :=
    if (schema.properties.get? param.name).isSome then schema.required.filter (· ≠ param.name)
    else schema.required
  { schema with
    properties := schema.properties.insert param.name (.ofParam param)
    required := if param.isRequired then others ++ [param.name] else others }

end ParameterSchema

structure Schema where
  name : String
  description : String := ""
  parameters : ParameterSchema := {}
deriving DecidableEq, Inhabited

namespace Schema

/-- The schema with the given description. -/
def withDescription (schema : Schema) (text : String) : Schema :=
  { schema with description := text }

/-- Adds a parameter, or replaces the one of the same name. -/
def addParam (schema : Schema) (param : DescribedParam) : Schema :=
  { schema with parameters := schema.parameters.add param }

end Schema

end CallSchema
