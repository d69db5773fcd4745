import CallSchema.Item.Source.Generics
import CallSchema.Item.Source.Token

/-!
# Function items from source text

`FnItem.ofText?` reads a function item from source text, by way of its tokens. The statements of
the body are not looked at, only the attributes in front of them.

This module belongs to the outer layer: it serves programs that start from source text, and no
result is about it. The results on items hold of every item, whether a text makes it or not.

## Main definitions

* `Item.pattern?`, `Item.input?`, `Item.inputs?` -- the inputs between the parentheses
* `FnItem.ofTokens?`, `FnItem.ofText?` -- the item that tokens or a text make
-/

namespace CallSchema

namespace Item

/-! ### The head -/

/-- The tokens after a statement of visibility, if there is one. -/
def dropVisibility? (tokens : List Token) : Option (List Token) :=
  match word? "pub" tokens with
  | none => some tokens
  | some (.group .paren [scope] :: rest) =>
    if isWordIn ["crate", "self", "super"] scope then some rest else none
  | some (.group .paren (token :: path) :: rest) =>
    match word? "in" [token], plainPath? path with
    | some _, some (_, []) => some rest
    | _, _ => none
  | some rest => some rest

/-- Whether a function has a foreign calling convention, and the tokens after the mention of it. -/
def foreign (tokens : List Token) : Bool × List Token :=
  match word? "extern" tokens with
  | some (.literal _ (some _) :: rest) => (true, rest)
  | some rest => (true, rest)
  | none => (false, tokens)

/-! ### Inputs -/

/-- The tokens after the receiver of a method. -/
def receiver? (tokens : List Token) : Option (List Token) := do
  let borrowed := mark? '&' tokens
  let start := (borrowed.map dropLifetime).getD tokens
  let rest ← word? "self" (dropWord "mut" start)
  match borrowed, mark? ':' rest with
  | none, some rest => (TypeExpr.read? rest).map Prod.snd
  | _, _ => some rest

/-- The tokens after the colon that ends a pattern. -/
def afterPattern? : List Token → Option (List Token)
  | [] => none
  | .punct ':' true :: .punct ':' _ :: rest =>
    if startsSegment rest || (mark? '<' rest).isSome then afterPattern? rest else none
  | .punct mark _ :: rest =>
    if mark = ':' then some rest
    else if mark = ',' ∨ mark = '|' then none
    else afterPattern? rest
  | _ :: rest => afterPattern? rest

/-- Whether what follows a name makes it the start of a path, a call of a macro, a structure or a
    range. -/
def continuesPath : List Token → Bool
  | .punct ':' true :: .punct ':' _ :: _ => true
  | .punct '!' _ :: _ => true
  | .punct '.' true :: .punct '.' _ :: _ => true
  | .group .brace _ :: _ => true
  | .group .paren _ :: _ => true
  | _ => false

/-- Whether a token begins a pattern other than a name. -/
def startsOtherPattern : Token → Bool
  | .literal _ _ => true
  | .group .paren _ => true
  | .group .square _ => true
  | .punct mark _ => ['-', '&', '<', ':', '.'].contains mark
  | token => isWordIn ["box", "const", "Self", "super", "crate", "true", "false"] token

/-- A name that is bound as a whole, perhaps under a further pattern, and the tokens after the
    colon that ends the pattern. -/
def binding? (tokens : List Token) : Option (Pattern × List Token) :=
  match dropWord "mut" (dropWord "ref" tokens) with
  | .ident name raw :: rest =>
    if isName (.ident name raw) || isWordIn ["self"] (.ident name raw) then
      match mark? '@' rest, mark? ':' rest with
      | some rest, _ => (afterPattern? rest).map fun rest => (.binding name, rest)
      | none, some rest => some (.binding name, rest)
      | none, none => none
    else none
  | _ => none

/-- A pattern, and the tokens after the colon that ends it. -/
def pattern? (tokens : List Token) : Option (Pattern × List Token) :=
  match tokens with
  | [] => none
  | token :: rest =>
    if isWordIn ["_"] token then (mark? ':' rest).map fun rest => (.other, rest)
    else if startsOtherPattern token ∨
        ((isName token || isWordIn ["self"] token) && continuesPath rest) then
      (afterPattern? tokens).map fun rest => (.other, rest)
    else binding? tokens

/-- The tokens after three dots. -/
def dots? : List Token → Option (List Token)
  | .punct '.' true :: .punct '.' true :: .punct '.' _ :: rest => some rest
  | _ => none

/-- Whether nothing follows but perhaps a comma. -/
def isEnd : List Token → Bool
  | [] => true
  | [.punct ',' _] => true
  | _ => false

/-- An input after its attributes, `none` standing for a variable number of further inputs, and the
    tokens after it. -/
def input? (attributes : List Attribute) (tokens : List Token) :
    Option (Option Input × List Token) :=
  match receiver? tokens with
  | some rest => some (some (.receiver attributes), rest)
  | none =>
    if tokens.head?.any isName ∧ (mark? '<' tokens.tail).isSome then
      (TypeExpr.read? tokens).map fun (type, rest) => (some (.typed attributes .other type), rest)
    else do
      let (pattern, rest) ← pattern? tokens
      match dots? rest with
      | some rest => return (none, rest)
      | none =>
        let (type, rest) ← TypeExpr.read? rest
        return (some (.typed attributes pattern type), rest)

/-- The inputs among the tokens between the parentheses. A receiver comes `first` or not at all, and
    `fuel` bounds the number of inputs. -/
def inputs? : Nat → Bool → List Token → Option (List Input)
  | _, _, [] => some []
  | 0, _, _ :: _ => none
  | fuel + 1, first, tokens => do
    let (attributes, start) ← attributes? tokens
    match dots? start with
    | some rest => if isEnd rest then some [] else none
    | none =>
      match ← input? attributes start with
      | (none, rest) => if isEnd rest then some [] else none
      | (some input, rest) =>
        if !first && input matches .receiver _ then none
        else
          match rest with
          | [] => some [input]
          | .punct ',' _ :: rest => (inputs? fuel false rest).map (input :: ·)
          | _ => none

/-! ### The whole item -/

/-- The result type, if it is written, and the tokens after it. -/
def output? (tokens : List Token) : Option (Option TypeExpr × List Token) :=
  match arrow? tokens with
  | some rest => (TypeExpr.read? rest).map fun (type, rest) => (some type, rest)
  | none => some (none, tokens)

/-- The tokens of the body, which ends the item. -/
def body? : List Token → Option (List Token)
  | [.group .brace body] => some body
  | _ => none

/-- The name of a function and the tokens after it. -/
def functionName? : List Token → Option (Text × List Token)
  | .ident name raw :: rest => if isName (.ident name raw) then some (name, rest) else none
  | _ => none

/-- The tokens between the parentheses at the start of a sequence, and the tokens after them. -/
def parenthesized? : List Token → Option (List Token × List Token)
  | .group .paren inner :: rest => some (inner, rest)
  | _ => none

end Item

namespace FnItem

open Item

/-- The function item that tokens make. -/
def ofTokens? (tokens : List Token) : Option FnItem := do
  let (outer, tokens) ← attributes? tokens
  let tokens ← dropVisibility? tokens
  let start := dropWord "async" (dropWord "const" tokens)
  let (isExtern, tokens) := foreign (dropWord "unsafe" start)
  let (name, tokens) ← functionName? (← word? "fn" tokens)
  let (isGeneric, tokens) ← generics? tokens
  let (inside, tokens) ← parenthesized? tokens
  let inputs ← inputs? inside.length true inside
  let (output, tokens) ← output? tokens
  let inner ← innerAttributes? (← body? (← afterWhere? tokens))
  return {
    attributes := outer ++ inner
    isUnsafe := (word? "unsafe" start).isSome
    isExtern, isGeneric, name, inputs, output }

/-- The function item that a source text makes. -/
def ofText? (s : Text) : Option FnItem :=
  (Token.ofText? s).bind ofTokens?

end FnItem

end CallSchema
