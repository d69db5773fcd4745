import CallSchema.Item.Source.Literal
import CallSchema.Item.Token

/-!
# Tokens from source text

`Token.ofText?` divides the source text of an item into token trees. Blanks and comments that
document nothing separate tokens and vanish. Documentation comments become the attributes that say
the same.

This module belongs to the outer layer: it serves programs that start from source text, and no
result is about it.

## Main definitions

* `Token.leaf?` -- the token at the start of a text
* `Token.ofText?` -- the token trees of a text
-/

namespace CallSchema.Token

open Item Text

/-- Whether a character separates tokens: blank characters and the two marks of direction. -/
def isSeparator (c : Char) : Bool :=
  isBlank c || c == '\u200e' || c == '\u200f'

/-- The part of a text before its end `rest`. -/
def before (s rest : Text) : Text :=
  s.take (s.length - rest.length)

/-- The marks of punctuation. -/
def isMark (c : Char) : Bool :=
  "~!@#$%^&*-=+|;:,<.>/?".toList.contains c

/-- Whether a text goes on with a mark of punctuation or a lifetime. -/
def startsMark (s : Text) : Bool :=
  !startsComment s && s.head?.any fun c => isMark c || c == '\''

/-- The names that cannot be written as raw identifiers. -/
def neverRaw : List String :=
  ["_", "super", "self", "Self", "crate"]

/-- The beginnings of literals, which do not begin an identifier even if the literal is
    malformed. -/
def literalStarts : List String :=
  ["r\"", "r#\"", "r##", "b\"", "b'", "br\"", "br#", "c\"", "cr\"", "cr#"]

/-- A raw or plain identifier, and the text after it. -/
def anyIdent? : Text → Option (Token × Text)
  | 'r' :: '#' :: s => do
    let (name, rest) ← ident? s
    if neverRaw.contains (String.ofList name) then none else some (.ident name true, rest)
  | s => (ident? s).map fun (name, rest) => (.ident name false, rest)

/-- A lifetime whose quotation mark has been read, and the text after it. -/
def lifetime? (s : Text) : Option (Token × Text) := do
  let (name, rest) ← anyIdent? s
  let raw := match name with
    | .ident _ raw => raw
    | _ => false
  if rest.head? = some '\'' ∨ (rest.head? = some '#' ∧ !raw) then none
  else some (.lifetime ('\'' :: before s rest), rest)

/-- A mark of punctuation or a lifetime, and the text after it. -/
def mark? : Text → Option (Token × Text)
  | [] => none
  | c :: s =>
    if startsComment (c :: s) then none
    else if c = '\'' then lifetime? s
    else if isMark c then some (.punct c (startsMark s), s)
    else none

/-- A literal, and the text after it. -/
def literal? (s : Text) : Option (Token × Text) :=
  (literalValue? s).map fun (value, rest) => (.literal (before s rest) value, rest)

/-- The token other than a bracket that begins here, and the text after it. -/
def leaf? (s : Text) : Option (Token × Text) :=
  literal? s <|> mark? s <|>
    if literalStarts.any fun lead => (after? lead.toList s).isSome then none else anyIdent? s

/-- The attribute that says the same as a documentation comment, last token first. -/
def docAttribute (inner : Bool) (text : Text) : List Token :=
  let body := Token.group .square
    [.ident "doc".toList false, .punct '=' false, .literal text (some text)]
  if inner then [body, .punct '!' false, .punct '#' false] else [body, .punct '#' false]

/-- The sort of an opening bracket. -/
def opened? (c : Char) : Option Bracket :=
  if c = '(' then some .paren else if c = '[' then some .square
  else if c = '\x7b' then some .brace else none

/-- The sort of a closing bracket. -/
def closed? (c : Char) : Option Bracket :=
  if c = ')' then some .paren else if c = ']' then some .square
  else if c = '\x7d' then some .brace else none

/-- The tokens of a text inside the groups that are open around it. Each open group comes with the
    tokens before it, and `done` holds the tokens of the innermost one, all of them last token
    first. -/
def treesFrom (around : List (Bracket × List Token)) (done : List Token) :
    Text → Option (List Token)
  | [] => if around.isEmpty then some done.reverse else none
  | c :: s =>
    if isSeparator c then treesFrom around done s
    else if startsComment (c :: s) then
      match comment? (c :: s) with
      | none => none
      | some (comment, rest) =>
        if rest.length ≤ s.length then
          match comment with
          | .plain => treesFrom around done rest
          | .doc inner text => treesFrom around (docAttribute inner text ++ done) rest
        else none
    else
      match opened? c with
      | some bracket => treesFrom ((bracket, done) :: around) [] s
      | none =>
        match closed? c with
        | some bracket =>
          match around with
          | [] => none
          | (opening, outside) :: around =>
            if opening = bracket then
              treesFrom around (.group bracket done.reverse :: outside) s
            else none
        | none =>
          match leaf? (c :: s) with
          | none => none
          | some (token, rest) =>
            if rest.length ≤ s.length then treesFrom around (token :: done) rest else none
termination_by s => s.length

/-- The token trees of a source text, or `none` when it cannot be divided into tokens. A byte order
    mark at the start is passed over. -/
def ofText? (s : Text) : Option (List Token) :=
  treesFrom [] [] (if s.head? = some '\ufeff' then s.tail else s)

end CallSchema.Token
