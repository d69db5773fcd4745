import CallSchema.Item.Function
import CallSchema.Schema.OfSignature
import CallSchema.TypeHint.OfSchema

/-!
# What a function item describes

A function item gives its own documentation, the names and types of its parameters, and the type of
what it returns. Unsafe, foreign and generic functions are refused, and so are functions with
parameters that bind no plain name.

## Main definitions

* `Refusal` -- the reasons why an item is refused
* `FnItem.describe` -- what an item describes, or why it is refused
* `FnItem.keptAttributes` -- the attributes of the inputs that are left to the compiler
* `ItemDescription.signature?` -- the signature, given the schemas of types
-/

namespace CallSchema

/-- The reasons why a function item is refused. -/
inductive Refusal where
  | unsafeFunction
  | externFunction
  | genericFunction
  | patternParameter
deriving DecidableEq, Repr

/-- The sentence that tells of a refusal. -/
def Refusal.message : Refusal → String
  | unsafeFunction => "#[describe] cannot be applied to unsafe functions"
  | externFunction => "#[describe] cannot be applied to extern functions"
  | genericFunction => "#[describe] does not support generic parameters"
  | patternParameter => "#[describe] parameters must be plain identifiers"

/-- A parameter of a function item. -/
structure ItemParam where
  name : Text
  type : TypeExpr
  /-- Whether the value may be left out. -/
  hasDefault : Bool
deriving Inhabited

/-- What a function item describes. -/
structure ItemDescription where
  name : Text
  doc : Option Text
  /-- The parameters in order, without the receiver. -/
  params : List ItemParam
  returns : Option TypeExpr
deriving Inhabited

namespace FnItem

/-- The documentation in the attributes of an item, one line for each of them. -/
def doc? (item : FnItem) : Option Text :=
  match item.attributes.filterMap fun attr => if attr.isNamed "doc" then attr.value else none with
  | [] => none
  | values => some (['\n'].intercalate values)

/-- The parameter that an input is: an optional type stands for its argument, and the value may be
    left out if the type is optional or the input is marked with a default. Receivers are no
    parameters. -/
def param? : Input → Except Refusal (Option ItemParam)
  | .receiver _ => .ok none
  | .typed _ .other _ => .error .patternParameter
  | .typed attributes (.binding name) type =>
    let inner := type.argumentOf? "Option"
    .ok (some
      { name
        type := inner.getD type
        hasDefault := attributes.any (·.isNamed "default") || inner.isSome })

/-- The parameters that inputs are. -/
def paramsOf : List Input → Except Refusal (List ItemParam)
  | [] => .ok []
  | input :: inputs => do
    let param ← param? input
    let params ← paramsOf inputs
    return param.toList ++ params

/-- The type of the returned value: a result stands for its argument, and the unit type is no
    value. -/
def returns? (item : FnItem) : Option TypeExpr :=
  item.output.bind fun type =>
    match (type.argumentOf? "Result").getD type with
    | .unit => none
    | value => some value

/-- The reason to refuse an item for its head, if there is one. -/
def refusal? (item : FnItem) : Option Refusal :=
  if item.isUnsafe then some .unsafeFunction
  else if item.isExtern then some .externFunction
  else if item.isGeneric then some .genericFunction
  else none

/-- What an item describes, or why it is refused. -/
def describe (item : FnItem) : Except Refusal ItemDescription :=
  match item.refusal? with
  | some refusal => .error refusal
  | none => do
    let params ← paramsOf item.inputs
    return { name := item.name, doc := item.doc?, params, returns := item.returns? }

/-- The attributes of an input that are left to the compiler: those of a receiver, and those of a
    parameter that neither document it nor give a default. -/
def keptAttributesOf : Input → List Attribute
  | .receiver attributes => attributes
  | .typed attributes _ _ =>
    attributes.filter fun attr => !attr.isNamed "default" && !attr.isNamed "doc"

/-- The names of the attributes that are left to the compiler, input by input. -/
def keptAttributes (item : FnItem) : List (List Text) :=
  item.inputs.map fun input => (keptAttributesOf input).map fun attr => Token.compact attr.path

end FnItem

namespace ItemDescription

/-- The type hint of a type, given the schemas of types: `none` when its schema is not known. -/
def hintOf? (schemaOf? : Text → Option Json) (type : TypeExpr) : Option (Option TypeHint) :=
  (schemaOf? type.text).map TypeHint.ofSchema?

/-- The parameters of a signature, given the schemas of types. -/
def signatureParams? (schemaOf? : Text → Option Json) : List ItemParam → Option (List Param)
  | [] => some []
  | param :: params => do
    let declared ← hintOf? schemaOf? param.type
    let rest ← signatureParams? schemaOf? params
    return { name := String.ofList param.name, declared, hasDefault := param.hasDefault } :: rest

/-- The type hint of the returned value, given the schemas of types. -/
def returnHint? (schemaOf? : Text → Option Json) : Option TypeExpr → Option (Option TypeHint)
  | none => some none
  | some type => hintOf? schemaOf? type

/-- The signature that an item describes, given the schemas of types: `none` when the schema of one
    of its types is not known. -/
def signature? (schemaOf? : Text → Option Json) (item : ItemDescription) : Option Signature := do
  let params ← signatureParams? schemaOf? item.params
  let returns ← returnHint? schemaOf? item.returns
  return {
    name := String.ofList item.name
    params, returns
    doc := item.doc.map String.ofList }

end ItemDescription

end CallSchema
