import CallSchema.Codec.TypeHint
import CallSchema.Schema.Basic

/-!
# Schemas in JSON

Described parameters, properties and schemas are records. A property without a kind or without a
closed set of strings is written without the member that would hold it.
-/

namespace CallSchema

namespace DescribedParam

def fields : List RecordField :=
  [⟨"name", .required⟩, ⟨"declared_type", .nullable⟩, ⟨"docstring_type", .nullable⟩,
   ⟨"description", .required⟩, ⟨"has_default", .required⟩]

def toJson (param : DescribedParam) : Json :=
  .object
    [("name", .string param.name), ("declared_type", .ofOption TypeHint.toJson param.declared),
     ("docstring_type", .ofOption TypeHint.toJson param.documented),
     ("description", .string param.description), ("has_default", .bool param.hasDefault)]

def ofJson? (value : Json) : Option DescribedParam :=
  match value.fields? fields with
  | some [name, declared, documented, description, hasDefault] => do
    return {
      name := ← name.string?
      declared := ← declared.optional? TypeHint.ofJson?
      documented := ← documented.optional? TypeHint.ofJson?
      description := ← description.string?
      hasDefault := ← hasDefault.bool? }
  | _ => none

end DescribedParam

namespace Property

def fields : List RecordField :=
  [⟨"type", .defaulted .null⟩, ⟨"description", .required⟩, ⟨"enum", .defaulted .null⟩]

def toJson (property : Property) : Json :=
  .object <|
    (property.kind.map fun kind => ("type", kind.toJson)).toList ++
      [("description", .string property.description)] ++
      (property.choices.map fun choices => ("enum", .ofStrings choices)).toList

def ofJson? (value : Json) : Option Property :=
  match value.fields? fields with
  | some [kind, description, choices] => do
    return {
      kind := ← kind.optional? Kind.ofJson?
      description := ← description.string?
      choices := ← choices.optional? (Json.listOf? Json.string?) }
  | _ => none

def tableToJson (properties : Table Property) : Json :=
  .object (properties.entries.map fun (name, property) => (name, property.toJson))

/-- Reads the members of an object as properties. -/
def entriesOfMembers? : List (String × Json) → Option (List (String × Property))
  | [] => some []
  | (name, value) :: members => do
    let property ← ofJson? value
    let entries ← entriesOfMembers? members
    return (name, property) :: entries

/-- Reads an object of properties. -/
def tableOfJson? : Json → Option (Table Property)
  | .object members => (entriesOfMembers? members).map Table.ofList
  | _ => none

end Property

namespace ParameterSchema

def fields : List RecordField :=
  [⟨"type", .required⟩, ⟨"properties", .required⟩, ⟨"required", .required⟩]

def toJson (schema : ParameterSchema) : Json :=
  .object
    [("type", schema.kind.toJson), ("properties", Property.tableToJson schema.properties),
     ("required", .ofStrings schema.required)]

def ofJson? (value : Json) : Option ParameterSchema :=
  match value.fields? fields with
  | some [kind, properties, required] => do
    return {
      kind := ← Kind.ofJson? kind
      properties := ← Property.tableOfJson? properties
      required := ← required.listOf? Json.string? }
  | _ => none

end ParameterSchema

namespace Schema

def fields : List RecordField :=
  [⟨"name", .required⟩, ⟨"description", .required⟩, ⟨"parameters", .required⟩]

def toJson (schema : Schema) : Json :=
  .object
    [("name", .string schema.name), ("description", .string schema.description),
     ("parameters", schema.parameters.toJson)]

def ofJson? (value : Json) : Option Schema :=
  match value.fields? fields with
  | some [name, description, parameters] => do
    return {
      name := ← name.string?
      description := ← description.string?
      parameters := ← ParameterSchema.ofJson? parameters }
  | _ => none

end Schema

end CallSchema
