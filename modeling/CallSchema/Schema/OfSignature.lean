import CallSchema.Docstring.Read
import CallSchema.Schema.Basic

/-!
# The schema of a signature

The docstring of a signature is read, what it says about each parameter is put beside what the
signature says, and the parameters are added to a schema in the order of the signature.

## Main definitions

* `Docstring.compose` -- the description that a short and a long one give, or what is missing
* `Signature.describedParams` -- the parameters with what the docstring says about them
* `Signature.describedReturn?` -- the returned value as a further parameter
* `Signature.schema` -- the schema of a signature, or what is missing
-/

namespace CallSchema

namespace Docstring

/-- The description that a short and a long description give together. The long one is added on
    demand and must then hold more than blanks. -/
def compose (function short : String) (long : Option String) (includeLong : Bool) :
    Except Failure String :=
  if includeLong then
    match (long.map fun text => Text.trim text.toList).filter (!·.isEmpty) with
    | some text => .ok (short ++ " " ++ String.ofList text)
    | none => .error ⟨function, .longDescription⟩
  else .ok short

end Docstring

namespace Signature

/-- The parameters in the order of the signature, each with what the docstring says under exactly
    its name. -/
def describedParams (sig : Signature) (doc : Docstring) : List DescribedParam :=
  sig.params.map fun param =>
    let entry := (doc.params.get? param.name).getD default
    { name := param.name
      declared := param.declared
      documented := entry.hint
      description := entry.description
      hasDefault := param.hasDefault }

/-- The name under which the returned value is listed. -/
def returnName : String := "return"

/-- The returned value as a parameter, if the docstring mentions it. -/
def describedReturn? (sig : Signature) (doc : Docstring) : Option DescribedParam :=
  doc.returns.map fun entry =>
    { name := returnName
      declared := sig.returns
      documented := entry.hint
      description := entry.description }

/-- The parameters that the schema lists. -/
def listedParams (sig : Signature) (doc : Docstring) (options : Options) : List DescribedParam :=
  sig.describedParams doc ++
    if options.returnProperty then (sig.describedReturn? doc).toList else []

/-- The schema of a signature, or what is missing. -/
def schema (sig : Signature) (options : Options) : Except Failure Schema := do
  let doc ← Docstring.read sig.name sig.doc options.style
  let description ← Docstring.compose sig.name doc.short doc.long options.longDescription
  return (sig.listedParams doc options).foldl Schema.addParam { name := sig.name, description }

end Signature

end CallSchema
