import CallSchema.Item.Token

/-!
# Function items

A function item consists of attributes, a head with a name, the inputs in parentheses, an optional
result type and a body. Of the body only the attributes at its start count.

A type in a signature matters in three ways: how it is written, whether it is the unit type, and
whether it is a path that ends in a name with arguments of which the first is a type. Such a path,
`Option<T>` for instance, may stand for its argument. An attribute has a path and may have a value,
as in `#[doc = "text"]`.

## Main definitions

* `TypeExpr` -- a type expression
* `TypeExpr.tokens`, `TypeExpr.text` -- the written form
* `TypeExpr.argumentOf?` -- the first argument of a path that ends in a given name
* `Attribute` -- an attribute
* `Pattern`, `Input`, `FnItem` -- a function item
-/

namespace CallSchema

/-! ### Types -/

/-- A type expression. -/
inductive TypeExpr where
  | unit
  /-- A path whose last name has arguments, the first of which is a type: the tokens before the
      name, the name, the tokens up to the first argument, that argument, and the tokens after
      it. -/
  | applied (front : List Token) (name : Token) (opening : List Token) (argument : TypeExpr)
      (rest : List Token)
  | other (tokens : List Token)
deriving Inhabited

namespace TypeExpr

/-- The tokens of a type. -/
def tokens : TypeExpr → List Token
  | unit => [.group .paren []]
  | applied front name opening argument rest =>
    front ++ name :: (opening ++ (argument.tokens ++ rest))
  | other tokens => tokens

/-- The compact form of a type. -/
def text (type : TypeExpr) : Text :=
  Token.compact type.tokens

/-- The first argument of a path that ends in `wrapper` with arguments. -/
def argumentOf? (wrapper : String) : TypeExpr → Option TypeExpr
  | applied _ (.ident name false) _ argument _ =>
    if name = wrapper.toList then some argument else none
  | _ => none

end TypeExpr

/-! ### Attributes -/

/-- An attribute of an item or of an input. -/
structure Attribute where
  path : List Token
  /-- The string after an equals sign, if there is one. -/
  value : Option Text := none
deriving Inhabited

/-- Whether the path of an attribute is a single given name. -/
def Attribute.isNamed (name : String) (attr : Attribute) : Bool :=
  match attr.path with
  | [.ident text false] => text == name.toList
  | _ => false

/-! ### Items -/

/-- The pattern of an input. -/
inductive Pattern where
  /-- A name that the whole value is bound to. -/
  | binding (name : Text)
  /-- A pattern that takes the value apart or drops it. -/
  | other
deriving DecidableEq, Repr, Inhabited

/-- An input of a function. -/
inductive Input where
  /-- The value that a method is called on. -/
  | receiver (attributes : List Attribute)
  | typed (attributes : List Attribute) (pattern : Pattern) (type : TypeExpr)
deriving Inhabited

/-- A function item. -/
structure FnItem where
  /-- The attributes, those at the start of the body included. -/
  attributes : List Attribute := []
  /-- Whether the function is marked as unsafe. -/
  isUnsafe : Bool := false
  /-- Whether the function has a foreign calling convention. -/
  isExtern : Bool := false
  isGeneric : Bool := false
  name : Text
  inputs : List Input := []
  output : Option TypeExpr := none
deriving Inhabited

end CallSchema
