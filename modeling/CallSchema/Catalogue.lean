import CallSchema.Item.Source.Function
import CallSchema.Json

/-!
# The catalogue of type schemas

The JSON schemas of the types that are known by name. A schema stands in full, without reference to
others. The names are in compact form, in which `TypeExpr.text` gives the types of an item.

Together with the readers of source text this module is the outer layer, which serves running
programs only. No result is about it: the results on items take the schemas of types as a parameter,
of which `Catalogue.schemaOf?` is one instance.

## Main definitions

* `Catalogue.nullable` -- the schema of an optional value
* `Catalogue.entries` -- the types with their schemas
* `Catalogue.schemaOf?` -- the schema of a type
-/

namespace CallSchema.Catalogue

/-! ### Building blocks -/

/-- A schema that states a type and further members. -/
def ofType (name : String) (more : List (String × Json)) : Json :=
  .object (("type", .string name) :: more)

def null : Json := ofType "null" []

def boolean : Json := ofType "boolean" []

def text : Json := ofType "string" []

/-- Whole numbers in a format, with the bounds that the schema states. -/
def integer (format : String) (bounds : List (String × String)) : Json :=
  ofType "integer" (("format", .string format) ::
    bounds.map fun (name, bound) => (name, .number bound))

def int8 : Json := integer "int8" [("minimum", "-128"), ("maximum", "127")]

def int16 : Json := integer "int16" [("minimum", "-32768"), ("maximum", "32767")]

def int32 : Json := integer "int32" []

def int64 : Json := integer "int64" []

def uint8 : Json := integer "uint8" [("minimum", "0"), ("maximum", "255")]

/-- Whole numbers in a format that has no negative ones. -/
def unsigned (format : String) : Json := integer format [("minimum", "0")]

def double : Json := ofType "number" [("format", .string "double")]

/-- Lists whose items have the given schema. -/
def listOf (item : Json) (more : List (String × Json)) : Json :=
  ofType "array" (("items", item) :: more)

/-- Lists without repetition whose items have the given schema. -/
def setOf (item : Json) : Json :=
  ofType "array" [("uniqueItems", .bool true), ("items", item)]

/-- Tuples whose members have the given schemas. -/
def tupleOf (items : List Json) : Json :=
  let size := Json.number (toString items.length)
  ofType "array" [("prefixItems", .array items), ("minItems", size), ("maxItems", size)]

/-- Mappings from names to values with the given schema. -/
def mapOf (value : Json) : Json :=
  ofType "object" [("additionalProperties", value)]

/-- Records with the given fields, all of which are required. -/
def recordOf (fields : List (String × Json)) (more : List (String × Json)) : Json :=
  ofType "object" <|
    ("properties", .object fields) ::
      ("required", .array (fields.map fun field => .string field.1)) :: more

/-- A closed set of strings. -/
def oneOfStrings (values : List String) : Json :=
  ofType "string" [("enum", .array (values.map .string))]

/-- A single string. -/
def constant (value : String) : Json :=
  ofType "string" [("const", .string value)]

/-- The schema with a description in front. -/
def described (description : String) : Json → Json
  | .object members => .object (("description", .string description) :: members)
  | schema => schema

/-- A member of a schema as it stands when null is allowed too. -/
def nullableMember : String × Json → String × Json
  | ("type", .string name) => ("type", .array [.string name, .string "null"])
  | ("enum", .array values) => ("enum", .array (values ++ [.null]))
  | member => member

/-- The schema of an optional value: null becomes one of the types, or an alternative when the
    schema states no type. -/
def nullable (schema : Json) : Json :=
  match schema.get? "type", schema with
  | some (.string "null"), _ => schema
  | some (.array _), _ => schema
  | some (.string _), .object members => .object (members.map nullableMember)
  | _, _ => .object [("anyOf", .array [schema, null])]

/-! ### The types -/

def choice : Json := described "Unit variants, lowercased." (oneOfStrings ["a", "b"])

def documented : Json :=
  .object
    [("oneOf", .array
      [oneOfStrings ["no_doc"], described "Quick." (constant "very_fast"),
       described "Not quick." (constant "SLOW!")])]

def point : Json := recordOf [("x", double), ("y", double)] []

def single : Json := oneOfStrings ["Only"]

def bytes : Json := listOf uint8 []

/-- Numbers, characters and texts. -/
def scalars : List (String × Json) :=
  [("bool", boolean),
   ("char", ofType "string" [("minLength", .number "1"), ("maxLength", .number "1")]),
   ("String", text), ("str", text), ("&'static str", text), ("Cow<'static,str>", text),
   ("i8", int8), ("i16", int16), ("i32", int32), ("i64", int64),
   ("i128", integer "int128" []), ("isize", integer "int" []),
   ("u8", uint8), ("u16", integer "uint16" [("minimum", "0"), ("maximum", "65535")]),
   ("u32", unsigned "uint32"), ("u64", unsigned "uint64"), ("u128", unsigned "uint128"),
   ("usize", unsigned "uint"),
   ("f32", ofType "number" [("format", .string "float")]), ("f64", double), ("()", null)]

/-- Tuples, lists, sets and mappings. -/
def collections : List (String × Json) :=
  [("(i32,)", tupleOf [int32]), ("(i32,String)", tupleOf [int32, text]),
   ("(bool,bool,bool)", tupleOf [boolean, boolean, boolean]),
   ("Vec<u8>", bytes), ("Vec<String>", listOf text []), ("Vec<Choice>", listOf choice []),
   ("[i32]", listOf int32 []),
   ("[u8;4]", listOf uint8 [("minItems", .number "4"), ("maxItems", .number "4")]),
   ("[u8;0]", ofType "array" [("maxItems", .number "0")]),
   ("&'static[u8]", bytes), ("VecDeque<u8>", bytes), ("LinkedList<u8>", bytes),
   ("HashSet<String>", setOf text), ("BTreeSet<i32>", setOf int32),
   ("HashMap<String,i32>", mapOf int32),
   ("BTreeMap<String,Vec<bool>>", mapOf (listOf boolean [])),
   ("HashMap<String,Choice>", mapOf choice)]

/-- Wrapped and optional values. -/
def wrappers : List (String × Json) :=
  [("Box<str>", text), ("Box<i32>", int32), ("Rc<bool>", boolean), ("Arc<Choice>", choice),
   ("Box<Vec<u8>>", bytes),
   ("Option<bool>", nullable boolean), ("Option<i64>", nullable int64),
   ("Option<String>", nullable text), ("Option<Vec<u8>>", nullable bytes),
   ("Option<Choice>", nullable choice), ("Option<Documented>", nullable documented),
   ("Option<u8>", nullable uint8), ("Option<Option<u8>>", nullable (nullable uint8)),
   ("Option<Point>", nullable point), ("Option<()>", nullable null),
   ("Option<Single>", nullable single), ("Option<Box<Choice>>", nullable choice),
   ("Result<u8,String>", .object
     [("oneOf", .array [recordOf [("Ok", uint8)] [], recordOf [("Err", text)] []])])]

/-- Types that are written with their path. -/
def pathTypes : List (String × Json) :=
  [("serde_json::Value", .bool true),
   ("serde_json::Map<String,serde_json::Value>", mapOf (.bool true)),
   ("std::time::Duration",
     recordOf [("secs", unsigned "uint64"), ("nanos", unsigned "uint32")] []),
   ("std::path::PathBuf", text),
   ("std::net::IpAddr", ofType "string" [("format", .string "ip")]),
   ("std::num::NonZeroU8", integer "uint8" [("minimum", "1"), ("maximum", "255")]),
   ("std::ops::Range<u8>", recordOf [("start", uint8), ("end", uint8)] []),
   ("std::marker::PhantomData<u8>", null)]

/-- Enumerations and records. -/
def userTypes : List (String × Json) :=
  [("Choice", choice), ("Plain", oneOfStrings ["ZuluTime", "AlphaTime"]),
   ("Documented", documented), ("Single", single),
   ("Mixed", .object
     [("oneOf", .array
       [oneOfStrings ["Empty"],
        recordOf [("Value", unsigned "uint32")] [("additionalProperties", .bool false)]])]),
   ("Tagged", .object
     [("oneOf", .array
       [recordOf [("t", constant "One")] [],
        recordOf [("t", constant "Two"), ("x", uint8)] []])]),
   ("Untagged", .object [("anyOf", .array [int32, text])]),
   ("MaybeChoice", .object [("anyOf", .array [null, choice])]),
   ("Point", point), ("Id", unsigned "uint32"),
   ("Pair", tupleOf [unsigned "uint32", text]), ("Marker", null), ("Wrapper", nullable choice)]

/-- The types with their schemas. -/
def entries : List (String × Json) :=
  scalars ++ collections ++ wrappers ++ pathTypes ++ userTypes

/-- The schema of a type in compact form. -/
def schemaOf? (name : Text) : Option Json :=
  entries.lookup (String.ofList name)

end CallSchema.Catalogue
