import CallSchema.Text.Blank
import CallSchema.Text.Word

/-!
# Token trees

The source text of a function item is a sequence of tokens, in which every pair of brackets makes
a group with the tokens inside. Types are shown to the reader in compact form: tokens stand
directly beside each other, unless that would join two words.

## Main definitions

* `Token` -- a token, or a group of tokens in brackets
* `Token.pieces` -- the written tokens in order
* `Token.compact` -- the compact form of a sequence of tokens
-/

namespace CallSchema

/-- The three sorts of brackets. -/
inductive Bracket where
  | paren
  | square
  | brace
deriving DecidableEq, Repr

/-- The two brackets of a sort. -/
def Bracket.marks : Bracket → Text × Text
  | paren => (['('], [')'])
  | square => (['['], [']'])
  | brace => (['\x7b'], ['\x7d'])

/-- A token, or the tokens between a pair of brackets. -/
inductive Token where
  /-- An identifier or a keyword; a raw identifier is written with `r#` in front of its name. -/
  | ident (name : Text) (raw : Bool)
  /-- A lifetime, with its quotation mark. -/
  | lifetime (text : Text)
  /-- A literal as it is written. The value is given for string literals. -/
  | literal (text : Text) (value : Option Text)
  /-- A punctuation mark, and whether another one follows directly. -/
  | punct (mark : Char) (joint : Bool)
  /-- The tokens between a pair of brackets. -/
  | group (bracket : Bracket) (tokens : List Token)
deriving Repr, Inhabited

namespace Token

mutual

/-- The written tokens that make up a token tree. -/
def pieces : Token → List Text
  | ident name raw => [if raw then 'r' :: '#' :: name else name]
  | lifetime text => [text]
  | literal text _ => [text]
  | punct mark _ => [[mark]]
  | group bracket tokens => bracket.marks.1 :: (piecesOf tokens ++ [bracket.marks.2])

/-- The written tokens that make up a sequence of token trees. -/
def piecesOf : List Token → List Text
  | [] => []
  | token :: tokens => token.pieces ++ piecesOf tokens

end

/-- Whether a character belongs to a word. -/
def isWordPart (c : Char) : Bool :=
  Text.isAlphanumeric c || c == '_'

/-- The text without the spaces that do not separate two words, where `before` is the character in
    front of the text. -/
def squeezeFrom (before : Char) : Text → Text
  | [] => []
  | c :: s =>
    if c = ' ' && !(isWordPart before && s.head?.any isWordPart) then squeezeFrom c s
    else c :: squeezeFrom c s

/-- The text without the spaces that do not separate two words. -/
def squeeze (s : Text) : Text :=
  squeezeFrom ' ' s

/-- The compact form of a sequence of tokens. -/
def compact (tokens : List Token) : Text :=
  squeeze ([' '].intercalate (piecesOf tokens))

end Token

end CallSchema
