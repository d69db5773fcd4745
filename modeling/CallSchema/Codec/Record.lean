import CallSchema.Json

/-!
# Records in JSON

A record is written as an object with one member for each field. It may also be written as the
array of the values of its fields in order. Unknown members of an object count for nothing, and
what a missing field means is up to the field.

## Main definitions

* `Presence`, `RecordField` -- the fields of a record
* `Json.fields?` -- the values of the fields of a record, in order
* `Json.bool?`, `Json.optional?`, `Json.listOf?` -- the values of fields of other sorts
* `Json.unitName?` -- the name of a constant
-/

namespace CallSchema

/-- What it means that a field is missing. -/
inductive Presence where
  /-- The record is malformed. -/
  | required
  /-- In an object the value is null; in an array the record is malformed. -/
  | nullable
  | defaulted (value : Json)

structure RecordField where
  name : String
  presence : Presence

namespace Presence

/-- The value of a field that is missing in an object. -/
def inObject? : Presence → Option Json
  | required => none
  | nullable => some .null
  | defaulted value => some value

/-- The value of a field that is missing at the end of an array. -/
def inArray? : Presence → Option Json
  | required => none
  | nullable => none
  | defaulted value => some value

end Presence

namespace Json

/-- The values of the fields of a record that is written as an object. -/
def fieldsOfMembers? (members : List (String × Json)) : List RecordField → Option (List Json)
  | [] => some []
  | field :: fields => do
    let value ← members.lookup field.name <|> field.presence.inObject?
    let values ← fieldsOfMembers? members fields
    return value :: values

/-- The values of the fields of a record that is written as an array. -/
def fieldsOfItems? : List RecordField → List Json → Option (List Json)
  | [], [] => some []
  | [], _ :: _ => none
  | _ :: fields, item :: items => (fieldsOfItems? fields items).map (item :: ·)
  | field :: fields, [] => do
    let value ← field.presence.inArray?
    let values ← fieldsOfItems? fields []
    return value :: values

/-- The values of the fields of a record, in order. -/
def fields? (fields : List RecordField) : Json → Option (List Json)
  | object members => fieldsOfMembers? members fields
  | array items => fieldsOfItems? fields items
  | _ => none

/-- The truth value of a boolean. -/
def bool? : Json → Option Bool
  | bool value => some value
  | _ => none

/-- A value that may be null. -/
def optional? {α : Type} (read? : Json → Option α) : Json → Option (Option α)
  | null => some none
  | value => (read? value).map some

/-- The values of a list of items. -/
def itemsOf? {α : Type} (read? : Json → Option α) : List Json → Option (List α)
  | [] => some []
  | item :: items => do
    let value ← read? item
    let values ← itemsOf? read? items
    return value :: values

def listOf? {α : Type} (read? : Json → Option α) (value : Json) : Option (List α) :=
  value.array?.bind (itemsOf? read?)

/-- The name of a constant: a string, or an object that holds null under the name alone. -/
def unitName? : Json → Option String
  | string name => some name
  | object [(name, null)] => some name
  | _ => none

/-- A value that may be absent is written as null when it is. -/
def ofOption {α : Type} (write : α → Json) : Option α → Json
  | none => null
  | some value => write value

/-- A list of strings is written as an array. -/
def ofStrings (values : List String) : Json :=
  array (values.map string)

end Json

end CallSchema
