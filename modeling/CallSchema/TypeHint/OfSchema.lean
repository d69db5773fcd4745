import CallSchema.Json
import CallSchema.TypeHint.Basic

/-!
# Type hints from JSON schemas

`TypeHint.ofSchema?` derives a hint from the JSON schema of a type. It recognises, in this order,
an `enum` of strings, a string `const`, the members of a `oneOf` and of an `anyOf`, and the `type`.
What stands for null is skipped throughout: null in an `enum`, members of type null, and the name
null in a list of types.

## Main definitions

* `TypeHint.closedSet?` -- the closed set that `enum` or `const` states
* `TypeHint.ofType?` -- the named type that `type` states
* `TypeHint.ofAlternatives` -- what the members of a `oneOf` or `anyOf` decide
* `TypeHint.ofSchema?` -- the hint of a schema
-/

namespace CallSchema.TypeHint

/-- The strings of a list that holds strings and nulls only. -/
def stringsAmongNulls? : List Json → Option (List String)
  | [] => some []
  | .null :: items => stringsAmongNulls? items
  | .string value :: items => (stringsAmongNulls? items).map (value :: ·)
  | _ :: _ => none

/-- The strings of an `enum` that holds strings and nulls only, and at least one string. -/
def enumStrings? (items : List Json) : Option (List String) :=
  (stringsAmongNulls? items).filter (!·.isEmpty)

/-- The closed set that the `enum` or the `const` of a schema states. -/
def closedSet? (members : List (String × Json)) : Option TypeHint :=
  (((members.lookup "enum").bind Json.array?).bind enumStrings?).map literal <|>
    ((members.lookup "const").bind Json.string?).map fun value => literal [value]

/-- The named type that the `type` of a schema states: a name other than null, or the first such
    name of a list. -/
def ofType? (members : List (String × Json)) : Option TypeHint :=
  match members.lookup "type" with
  | some (.string name) => if name = "null" then none else some (named name)
  | some (.array names) => ((names.filterMap Json.string?).find? (· ≠ "null")).map named
  | _ => none

/-- Whether a schema states the type null. -/
def isNullSchema (schema : Json) : Bool :=
  (schema.get? "type").bind Json.string? == some "null"

/-- The strings of several closed sets in turn, or `none` when one of the hints is no closed set. -/
def jointSet? : List (Option TypeHint) → Option (List String)
  | [] => some []
  | some (literal values) :: hints => (jointSet? hints).map (values ++ ·)
  | _ :: _ => none

/-- What the hints of the alternatives decide: a single one is taken as it is, several closed sets
    are joined, and anything else is no hint. No alternative at all decides nothing. -/
def ofAlternatives : List (Option TypeHint) → Option (Option TypeHint)
  | [] => none
  | [hint] => some hint
  | hints => some ((jointSet? hints).map literal)

mutual

/-- The hint of a schema, or `none` when it has no shape that is recognised. -/
def ofSchema? : Json → Option TypeHint
  | .object members =>
    match closedSet? members with
    | some hint => some hint
    | none =>
      match (alternativesUnder? "oneOf" members).bind ofAlternatives with
      | some hint => hint
      | none =>
        match (alternativesUnder? "anyOf" members).bind ofAlternatives with
        | some hint => hint
        | none => ofType? members
  | _ => none

/-- The hints of the alternatives that stand as an array under `key`. -/
def alternativesUnder? (key : String) : List (String × Json) → Option (List (Option TypeHint))
  | [] => none
  | (name, value) :: members =>
    if name = key then alternativesIn? value else alternativesUnder? key members

/-- The hints of the alternatives in an array. -/
def alternativesIn? : Json → Option (List (Option TypeHint))
  | .array items => some (ofItems items)
  | _ => none

/-- The hints of the items that do not have the type null. -/
def ofItems : List Json → List (Option TypeHint)
  | [] => []
  | item :: items => if isNullSchema item then ofItems items else ofSchema? item :: ofItems items

end

end CallSchema.TypeHint
