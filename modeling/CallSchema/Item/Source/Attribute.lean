import CallSchema.Item.Source.TypeExpr

/-!
# Attributes from tokens

Attributes stand in front of an item, an input or a generic parameter, and an item may have some at
the start of its body.

This module belongs to the outer layer: it serves programs that start from source text, and no
result is about it.

## Main definitions

* `Item.attributes?` -- the attributes in front of an item
* `Item.innerAttributes?` -- the attributes at the start of a body
-/

namespace CallSchema

namespace Item

/-- A path of plain segments, and the tokens after it. -/
def plainSegments? : List Token → Option (List Token × List Token)
  | [] => none
  | token :: rest =>
    if !isSegment token then none
    else
      match rest with
      | .punct ':' true :: .punct ':' joint :: more =>
        (plainSegments? more).map fun (path, rest) =>
          (token :: .punct ':' true :: .punct ':' joint :: path, rest)
      | _ => some ([token], rest)

/-- A path of plain segments that may begin with two colons, and the tokens after it. -/
def plainPath? (tokens : List Token) : Option (List Token × List Token) :=
  (plainSegments? ((colons? tokens).getD tokens)).map fun (_, rest) =>
    (beforeTokens tokens rest, rest)

/-- The path that names an attribute, and the tokens after it. -/
def attributePath? : List Token → Option (List Token × List Token)
  | token :: rest =>
    if isWordIn ["unsafe"] token then some ([token], rest) else plainPath? (token :: rest)
  | [] => none

/-- The attribute that stands between square brackets. -/
def attribute? (tokens : List Token) : Option Attribute := do
  let (path, rest) ← attributePath? tokens
  match rest with
  | [] => some { path }
  | [.group _ _] => some { path }
  | [.punct '=' _, .literal _ value] => some { path, value }
  | .punct '=' _ :: _ :: _ => some { path }
  | _ => none

/-- The attributes in front of an item or an input, and the tokens after them. -/
def attributes? : List Token → Option (List Attribute × List Token)
  | .punct '#' _ :: .group .square content :: rest => do
    let attr ← attribute? content
    let (attributes, rest) ← attributes? rest
    return (attr :: attributes, rest)
  | .punct '#' _ :: _ => none
  | tokens => some ([], tokens)

/-- The attributes at the start of a body. -/
def innerAttributes? : List Token → Option (List Attribute)
  | .punct '#' _ :: .punct '!' _ :: .group .square content :: rest => do
    let attr ← attribute? content
    let attributes ← innerAttributes? rest
    return attr :: attributes
  | .punct '#' _ :: .punct '!' _ :: _ => none
  | _ => some []

end Item

end CallSchema
