import CallSchema.Item.Source.Identifier
import CallSchema.Text.Cut

/-!
# Comments and literals in source text

How far a comment or a literal at the start of a text reaches. Comments that document an item carry
their text, and so do string literals; nothing else about a literal matters here, since no schema
depends on it.

This module belongs to the outer layer: it serves programs that start from source text, and no
result is about it.

## Main definitions

* `Item.Comment`, `Item.comment?` -- comments, and the documentation that they hold
* `Item.escape?` -- the character that an escape sequence stands for
* `Item.literalValue?` -- the value of a literal, if it is a string
-/

namespace CallSchema.Item

open Text

/-! ### Comments -/

/-- A comment. -/
inductive Comment where
  /-- A comment that documents nothing. -/
  | plain
  /-- Documentation of the item that follows, or of the item around it when `inner` is set. -/
  | doc (inner : Bool) (text : Text)
deriving DecidableEq, Repr

/-- The rest of a line, and the text from its line break on. A carriage return before the line feed
    belongs to the break. -/
def restOfLine : Text → Text × Text
  | [] => ([], [])
  | '\n' :: s => ([], '\n' :: s)
  | '\r' :: '\n' :: s => ([], '\n' :: s)
  | c :: s => (c :: (restOfLine s).1, (restOfLine s).2)

/-- The body of a block comment, and the text after its end. Block comments nest, and `depth`
    comments are open inside the body already. -/
def blockBody? (depth : Nat) : Text → Option (Text × Text)
  | [] => none
  | '*' :: '/' :: s =>
    match depth with
    | 0 => some ([], s)
    | depth + 1 => (blockBody? depth s).map fun (body, rest) => ('*' :: '/' :: body, rest)
  | '/' :: '*' :: s => (blockBody? (depth + 1) s).map fun (body, rest) => ('/' :: '*' :: body, rest)
  | c :: s => (blockBody? depth s).map fun (body, rest) => (c :: body, rest)

/-- Whether a carriage return stands in a text without a line feed after it. -/
def hasLoneReturn : Text → Bool
  | [] => false
  | '\r' :: '\n' :: s => hasLoneReturn s
  | c :: s => c == '\r' || hasLoneReturn s

/-- The comment that the rest of a line makes when two slashes stand before it. -/
def Comment.ofLine : Text → Comment
  | '!' :: text => .doc true text
  | '/' :: '/' :: _ => .plain
  | '/' :: text => .doc false text
  | _ => .plain

/-- The comment that the body of a block comment makes. -/
def Comment.ofBlock : Text → Comment
  | '!' :: text => .doc true text
  | ['*'] => .plain
  | '*' :: '*' :: _ => .plain
  | '*' :: text => .doc false text
  | _ => .plain

/-- Whether a comment begins here. -/
def startsComment : Text → Bool
  | '/' :: '/' :: _ => true
  | '/' :: '*' :: _ => true
  | _ => false

/-- The comment that begins here, and the text after it. A comment that does not end is none, nor
    is documentation with a lone carriage return. -/
def comment? (s : Text) : Option (Comment × Text) := do
  let (comment, rest) ←
    match s with
    | '/' :: '/' :: s => some (Comment.ofLine (restOfLine s).1, (restOfLine s).2)
    | '/' :: '*' :: s => (blockBody? 0 s).map fun (body, rest) => (Comment.ofBlock body, rest)
    | _ => none
  match comment with
  | .plain => some (comment, rest)
  | .doc _ text => if hasLoneReturn text then none else some (comment, rest)

/-! ### Characters and strings -/

/-- The value of a hexadecimal digit. -/
def hexDigit? (c : Char) : Option Nat :=
  if c.isDigit then some (c.toNat - '0'.toNat)
  else if 'a' ≤ c ∧ c ≤ 'f' then some (c.toNat - 'a'.toNat + 10)
  else if 'A' ≤ c ∧ c ≤ 'F' then some (c.toNat - 'A'.toNat + 10)
  else none

/-- The character whose code point is written in braces with at most six hexadecimal digits, after
    `count` digits that make `value`. -/
def codePoint? (value count : Nat) : Text → Option (Char × Text)
  | [] => none
  | c :: s =>
    if c = '_' ∧ 0 < count then codePoint? value count s
    else if c = '\x7d' ∧ 0 < count then
      if value.isValidChar then some (Char.ofNat value, s) else none
    else
      match hexDigit? c with
      | some digit => if count < 6 then codePoint? (value * 16 + digit) (count + 1) s else none
      | none => none

/-- The character that an escape sequence stands for; the backslash has been read. -/
def escape? : Text → Option (Char × Text)
  | 'n' :: s => some ('\n', s)
  | 'r' :: s => some ('\r', s)
  | 't' :: s => some ('\t', s)
  | '0' :: s => some ('\x00', s)
  | '\\' :: s => some ('\\', s)
  | '\'' :: s => some ('\'', s)
  | '"' :: s => some ('"', s)
  | 'x' :: high :: low :: s => do
    let high ← hexDigit? high
    let low ← hexDigit? low
    if high < 8 then some (Char.ofNat (high * 16 + low), s) else none
  | 'u' :: '\x7b' :: s => codePoint? 0 0 s
  | _ => none

/-- The text after the blanks that follow a line break escaped in a string. -/
def afterContinuation? : Text → Option Text
  | '\r' :: '\n' :: s => afterContinuation? s
  | '\r' :: _ => none
  | c :: s => if c = ' ' ∨ c = '\t' ∨ c = '\n' then afterContinuation? s else some (c :: s)
  | [] => none

/-- What one written character of a string adds to its value, and the text after it. -/
def stringPart? : Text → Option (Text × Text)
  | '\r' :: '\n' :: s => some (['\n'], s)
  | '\r' :: _ => none
  | '\\' :: '\n' :: s => (afterContinuation? s).map fun rest => ([], rest)
  | '\\' :: '\r' :: '\n' :: s => (afterContinuation? s).map fun rest => ([], rest)
  | '\\' :: s => (escape? s).map fun (c, rest) => ([c], rest)
  | c :: s => some ([c], s)
  | [] => none

/-- The value of a string and the text after its closing mark; the opening mark has been read. -/
def stringValue? : Text → Option (Text × Text)
  | '"' :: s => some ([], s)
  | s =>
    match stringPart? s with
    | none => none
    | some (part, rest) =>
      if rest.length < s.length then
        (stringValue? rest).map fun (value, rest) => (part ++ value, rest)
      else none
termination_by s => s.length

/-- The value of a raw string that ends at a mark followed by `hashes`. -/
def rawValue? (hashes : Text) : Text → Option (Text × Text)
  | [] => none
  | c :: s =>
    match c, after? hashes s with
    | '"', some rest => some ([], rest)
    | '\r', _ =>
      if s.head? = some '\n' then (rawValue? hashes s).map fun (value, rest) => (c :: value, rest)
      else none
    | _, _ => (rawValue? hashes s).map fun (value, rest) => (c :: value, rest)

/-- The value of a raw string whose `r` has been read. -/
def rawString? (s : Text) : Option (Text × Text) :=
  match s.dropWhile (· == '#') with
  | '"' :: body => rawValue? (s.takeWhile (· == '#')) body
  | _ => none

/-- The text after a character literal whose opening mark has been read. -/
def afterCharacter? : Text → Option Text
  | '\\' :: s =>
    match escape? s with
    | some (_, '\'' :: rest) => some rest
    | _ => none
  | _ :: '\'' :: rest => some rest
  | _ => none

/-! ### Literals -/

/-- The text after a number. -/
def afterNumber? : Text → Option Text
  | [] => none
  | c :: s =>
    if c.isDigit then
      match s.dropWhile isIdentContinue with
      | '.' :: rest =>
        if rest.head?.any fun next => next == '.' || isIdentStart next then some ('.' :: rest)
        else some (rest.dropWhile isIdentContinue)
      | rest => some rest
    else none

/-- The text without the suffix that may follow a literal directly. -/
def afterSuffix (s : Text) : Text :=
  ((ident? s).map Prod.snd).getD s

/-- The value of the literal at the start of a text, if it is a string, and the text after the
    literal. -/
def literalValue? : Text → Option (Option Text × Text)
  | '"' :: s => (stringValue? s).map fun (value, rest) => (some value, afterSuffix rest)
  | 'r' :: s => (rawString? s).map fun (value, rest) => (some value, afterSuffix rest)
  | 'b' :: '"' :: s => (stringValue? s).map fun (_, rest) => (none, afterSuffix rest)
  | 'c' :: '"' :: s => (stringValue? s).map fun (_, rest) => (none, afterSuffix rest)
  | 'b' :: 'r' :: s => (rawString? s).map fun (_, rest) => (none, afterSuffix rest)
  | 'c' :: 'r' :: s => (rawString? s).map fun (_, rest) => (none, afterSuffix rest)
  | 'b' :: '\'' :: s => (afterCharacter? s).map fun rest => (none, afterSuffix rest)
  | '\'' :: s => (afterCharacter? s).map fun rest => (none, afterSuffix rest)
  | s => (afterNumber? s).map fun rest => (none, rest)

end CallSchema.Item
