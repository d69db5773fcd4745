import CallSchema.Codec.Record
import CallSchema.Docstring.Basic
import CallSchema.TypeHint.Basic

/-!
# Kinds, styles and type hints in JSON

Kinds and styles are written by name. A type hint is an object with a single member, whose key
tells the two sorts of hint apart.
-/

namespace CallSchema

def Kind.toJson (kind : Kind) : Json :=
  .string kind.name

def Kind.ofJson? (value : Json) : Option Kind :=
  value.unitName?.bind fun name => Kind.all.find? (·.name = name)

def Style.toJson (style : Style) : Json :=
  .string style.name

def Style.ofJson? (value : Json) : Option Style :=
  value.unitName?.bind fun name => Style.all.find? (·.name = name)

/-- A type hint is written under the name of its sort. -/
def TypeHint.toJson : TypeHint → Json
  | named text => .object [("named", .string text)]
  | literal values => .object [("literal", .ofStrings values)]

def TypeHint.ofJson? : Json → Option TypeHint
  | .object [(sort, value)] =>
    if sort = "named" then value.string?.map named
    else if sort = "literal" then (value.listOf? Json.string?).map literal
    else none
  | _ => none

end CallSchema
