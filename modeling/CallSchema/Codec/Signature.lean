import CallSchema.Codec.TypeHint
import CallSchema.Signature

/-!
# Signatures and options in JSON

Parameters, signatures and options are records. In options every field may be missing.
-/

namespace CallSchema

namespace Param

def fields : List RecordField :=
  [⟨"name", .required⟩, ⟨"declared_type", .nullable⟩, ⟨"has_default", .required⟩]

def toJson (param : Param) : Json :=
  .object
    [("name", .string param.name), ("declared_type", .ofOption TypeHint.toJson param.declared),
     ("has_default", .bool param.hasDefault)]

def ofJson? (value : Json) : Option Param :=
  match value.fields? fields with
  | some [name, declared, hasDefault] => do
    return {
      name := ← name.string?
      declared := ← declared.optional? TypeHint.ofJson?
      hasDefault := ← hasDefault.bool? }
  | _ => none

end Param

namespace Signature

def fields : List RecordField :=
  [⟨"name", .required⟩, ⟨"params", .required⟩, ⟨"return_type", .nullable⟩,
   ⟨"docstring", .nullable⟩]

def toJson (sig : Signature) : Json :=
  .object
    [("name", .string sig.name), ("params", .array (sig.params.map Param.toJson)),
     ("return_type", .ofOption TypeHint.toJson sig.returns),
     ("docstring", .ofOption .string sig.doc)]

def ofJson? (value : Json) : Option Signature :=
  match value.fields? fields with
  | some [name, params, returns, doc] => do
    return {
      name := ← name.string?
      params := ← params.listOf? Param.ofJson?
      returns := ← returns.optional? TypeHint.ofJson?
      doc := ← doc.optional? Json.string? }
  | _ => none

end Signature

namespace Options

def fields : List RecordField :=
  [⟨"include_long_description", .defaulted (.bool false)⟩,
   ⟨"include_return_in_parameters", .defaulted (.bool false)⟩, ⟨"style", .defaulted .null⟩]

def toJson (options : Options) : Json :=
  .object
    [("include_long_description", .bool options.longDescription),
     ("include_return_in_parameters", .bool options.returnProperty),
     ("style", .ofOption Style.toJson options.style)]

def ofJson? (value : Json) : Option Options :=
  match value.fields? fields with
  | some [longDescription, returnProperty, style] => do
    return {
      longDescription := ← longDescription.bool?
      returnProperty := ← returnProperty.bool?
      style := ← style.optional? Style.ofJson? }
  | _ => none

end Options

end CallSchema
