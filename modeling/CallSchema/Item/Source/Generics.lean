import CallSchema.Item.Source.Attribute

/-!
# Generic parameters and their constraints

Generic parameters stand in angle brackets after the name of a function, and a `where` clause in
front of the body states constraints on types. Of both it only matters that they are well formed
and whether there are any parameters.

This module belongs to the outer layer: it serves programs that start from source text, and no
result is about it.

## Main definitions

* `Item.genericParam?` -- the tokens after one generic parameter
* `Item.generics?` -- whether there are generic parameters, and the tokens after them
* `Item.afterWhere?` -- the tokens after a `where` clause
-/

namespace CallSchema.Item

/-- The tokens after the lifetimes between plus signs, of which there may be none. The last one may
    have a sign after it. -/
def dropLifetimes : List Token → List Token
  | .lifetime _ :: .punct '+' _ :: rest => dropLifetimes rest
  | .lifetime _ :: rest => rest
  | tokens => tokens

/-- The tokens after the bounds that follow a colon, of which there may be none. -/
def afterBounds? (tokens : List Token) : Option (List Token) :=
  if tokens.head?.any startsBound then readBounds? tokens else some tokens

/-- The tokens after a mark and what `read` reads behind it, or all of them when they do not begin
    with the mark. -/
def afterMarked? (c : Char) (read : List Token → Option (List Token)) (tokens : List Token) :
    Option (List Token) :=
  match mark? c tokens with
  | some rest => read rest
  | none => some tokens

/-- The tokens after a type. -/
def afterType? (tokens : List Token) : Option (List Token) :=
  (TypeExpr.read? tokens).map Prod.snd

/-- The tokens after the default value of a constant parameter. -/
def afterDefault? (tokens : List Token) : Option (List Token) :=
  match tokens, constant? tokens with
  | _, some rest => some rest
  | name :: rest, none => if isName name then some rest else none
  | [], none => none

/-- The tokens after a generic parameter: a lifetime, a type or a constant. -/
def genericParam? : List Token → Option (List Token)
  | .lifetime _ :: rest => some (((mark? ':' rest).map dropLifetimes).getD rest)
  | token :: rest =>
    if isName token then (afterMarked? ':' afterBounds? rest).bind (afterMarked? '=' afterType?)
    else if isWordIn ["_"] token then some rest
    else if isWordIn ["const"] token then
      match rest with
      | name :: rest =>
        if isName name then do
          let rest ← afterType? (← mark? ':' rest)
          afterMarked? '=' afterDefault? rest
        else none
      | [] => none
    else none
  | [] => none

/-- The tokens after the generic parameters and the angle bracket that closes them. There are at
    most `fuel` parameters. -/
def afterParams? : Nat → List Token → Option (List Token)
  | 0, tokens => mark? '>' tokens
  | fuel + 1, tokens =>
    match mark? '>' tokens with
    | some rest => some rest
    | none => do
      let (_, start) ← attributes? tokens
      let rest ← genericParam? start
      match mark? ',' rest with
      | some rest => afterParams? fuel rest
      | none => mark? '>' rest

/-- Whether a function has generic parameters, and the tokens after them. -/
def generics? (tokens : List Token) : Option (Bool × List Token) :=
  match mark? '<' tokens with
  | none => some (false, tokens)
  | some inside =>
    (afterParams? inside.length inside).map fun rest => ((mark? '>' inside).isNone, rest)

/-- The tokens after a constraint: a lifetime or a type, a colon, and bounds. -/
def constraint? : List Token → Option (List Token)
  | .lifetime _ :: .punct ':' _ :: rest => some (dropLifetimes rest)
  | tokens => do
    let rest ← afterType? (← dropBinder? tokens)
    afterBounds? (← mark? ':' rest)

/-- The tokens from the body on, after constraints with commas between them. There are at most
    `fuel` constraints. -/
def afterConstraints? : Nat → List Token → Option (List Token)
  | _, .group .brace body :: rest => some (.group .brace body :: rest)
  | 0, _ => none
  | fuel + 1, tokens => do
    let rest ← constraint? tokens
    match mark? ',' rest with
    | some rest => afterConstraints? fuel rest
    | none => some rest

/-- The tokens after a `where` clause, or all of them when there is none. -/
def afterWhere? (tokens : List Token) : Option (List Token) :=
  match word? "where" tokens with
  | some rest => afterConstraints? rest.length rest
  | none => some tokens

end CallSchema.Item
