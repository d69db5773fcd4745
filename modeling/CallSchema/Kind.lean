/-!
# Primitive kinds

The vocabulary of a call schema knows five kinds of value. `Kind.ofName?` looks up the lower-case
name of a type in the table `Kind.typeNames`.

## Main definitions

* `Kind` -- number, string, boolean, array or object
* `Kind.name` -- the spelling of a kind in a schema
* `Kind.typeNames` -- the type names that stand for a kind
* `Kind.ofName?` -- the kind that a type name stands for
-/

namespace CallSchema

/-- The sorts of value that a call schema can ask for. -/
inductive Kind where
  /-- Integers and floating point numbers alike. -/
  | number
  /-- Text, closed sets of strings included. -/
  | string
  | boolean
  /-- Any collection of items. -/
  | array
  /-- Any mapping from names to values. -/
  | object
deriving DecidableEq, Repr, Inhabited

namespace Kind

/-- Every kind. -/
def all : List Kind :=
  [number, string, boolean, array, object]

theorem mem_all (k : Kind) : k ∈ all := by
  cases k <;> decide

/-- The spelling of a kind in a schema. -/
def name : Kind → String
  | number => "number"
  | string => "string"
  | boolean => "boolean"
  | array => "array"
  | object => "object"

/-- The lower-case type names that stand for a kind. -/
def typeNames : Kind → List String
  | number =>
    ["int", "integer", "float", "double", "number", "numeric", "decimal", "long", "complex",
     "i8", "i16", "i32", "i64", "i128", "isize", "u8", "u16", "u32", "u64", "u128", "usize",
     "f32", "f64"]
  | string => ["str", "string", "text", "char", "unicode"]
  | boolean => ["bool", "boolean"]
  | array =>
    ["list", "array", "sequence", "tuple", "set", "frozenset", "iterable", "vec", "vecdeque",
     "hashset", "btreeset", "indexset", "slice"]
  | object => ["dict", "mapping", "object", "map", "hashmap", "btreemap", "indexmap"]

/-- The kind that a lower-case type name stands for. -/
def ofName? (typeName : String) : Option Kind :=
  all.find? fun k => typeName ∈ k.typeNames

/-- The spelling of a kind is one of its type names, and no other kind has it. -/
@[simp] theorem ofName?_name (k : Kind) : ofName? k.name = some k := by
  cases k <;> decide

end Kind

end CallSchema
