/-!
# JSON values

JSON values as a tree. An object keeps its members in the order in which they are written, and a
number is kept as its text, because nothing in this library computes with numbers.

## Main definitions

* `Json` -- JSON values
* `Json.get?` -- the member of an object
* `Json.string?`, `Json.array?` -- the content of a value of one sort
-/

namespace CallSchema

/-- A JSON value. -/
inductive Json where
  | null
  | bool (value : Bool)
  | number (text : String)
  | string (value : String)
  | array (items : List Json)
  | object (members : List (String × Json))
deriving Inhabited, Repr

namespace Json

/-- The text of a string value. -/
def string? : Json → Option String
  | string value => some value
  | _ => none

/-- The items of an array. -/
def array? : Json → Option (List Json)
  | array items => some items
  | _ => none

/-- The member of an object under the given key. -/
def get? (key : String) : Json → Option Json
  | object members => members.lookup key
  | _ => none

end Json

end CallSchema
