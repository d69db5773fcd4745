import CallSchema.Item.Function

/-!
# Type expressions from tokens

A type is read from the start of a sequence of tokens. Every reader takes a number of rounds that
the number of tokens bounds.

This module belongs to the outer layer: it serves programs that start from source text, and no
result is about it. The results on items start from the type expressions themselves.

## Main definitions

* `Token.weightOf` -- the number of tokens, those in brackets included
* `Item.PathEnd` -- the arguments at the end of a path
* `Item.TypeExpr.read?` -- the type expression at the start of a sequence of tokens
* `Item.readBounds?` -- the tokens after one or more bounds
-/

namespace CallSchema

namespace Token

mutual

/-- The number of tokens in a tree, brackets counted as one. -/
def weight : Token → Nat
  | group _ tokens => weightOf tokens + 1
  | _ => 1

/-- The number of tokens in a sequence of trees. -/
def weightOf : List Token → Nat
  | [] => 0
  | token :: tokens => token.weight + weightOf tokens

end

end Token

namespace Item

/-- The words that are no plain identifiers. -/
def keywords : List String :=
  ["_", "abstract", "as", "async", "await", "become", "box", "break", "const", "continue", "crate",
   "do", "dyn", "else", "enum", "extern", "false", "final", "fn", "for", "if", "impl", "in", "let",
   "loop", "macro", "match", "mod", "move", "mut", "override", "priv", "pub", "ref", "return",
   "Self", "self", "static", "struct", "super", "trait", "true", "try", "type", "typeof", "unsafe",
   "unsized", "use", "virtual", "where", "while", "yield"]

/-- The keywords that may stand in a path. -/
def pathKeywords : List String :=
  ["super", "self", "Self", "crate"]

/-- Whether a token is one of the given words, written without `r#`. -/
def isWordIn (words : List String) : Token → Bool
  | .ident name false => words.contains (String.ofList name)
  | _ => false

/-- Whether a token is a plain identifier. -/
def isName : Token → Bool
  | .ident name raw => raw || !keywords.contains (String.ofList name)
  | _ => false

/-- Whether a token may be a segment of a path. -/
def isSegment (token : Token) : Bool :=
  isName token || isWordIn pathKeywords token

/-- The tokens after a given word. -/
def word? (name : String) : List Token → Option (List Token)
  | token :: rest => if isWordIn [name] token then some rest else none
  | [] => none

/-- The tokens after a given mark. -/
def mark? (c : Char) : List Token → Option (List Token)
  | .punct mark _ :: rest => if mark = c then some rest else none
  | _ => none

/-- The tokens after a given mark, or all of them when they do not begin with it. -/
def dropMark (c : Char) (tokens : List Token) : List Token :=
  (mark? c tokens).getD tokens

/-- The tokens after a given word, or all of them when they do not begin with it. -/
def dropWord (name : String) (tokens : List Token) : List Token :=
  (word? name tokens).getD tokens

/-- The tokens after two colons that belong together. -/
def colons? : List Token → Option (List Token)
  | .punct ':' true :: .punct ':' _ :: rest => some rest
  | _ => none

/-- The tokens after an arrow. -/
def arrow? : List Token → Option (List Token)
  | .punct '-' true :: .punct '>' _ :: rest => some rest
  | _ => none

/-- The tokens after a lifetime, or all of them when they do not begin with one. -/
def dropLifetime : List Token → List Token
  | .lifetime _ :: rest => rest
  | tokens => tokens

/-- The tokens after the angle bracket that closes `depth` open ones and one more. The head of an
    arrow closes nothing. -/
def afterAngles? (depth : Nat) : List Token → Option (List Token)
  | [] => none
  | .punct '-' true :: .punct '>' _ :: rest => afterAngles? depth rest
  | .punct '<' _ :: rest => afterAngles? (depth + 1) rest
  | .punct '>' _ :: rest =>
    match depth with
    | 0 => some rest
    | depth + 1 => afterAngles? depth rest
  | _ :: rest => afterAngles? depth rest

/-- The tokens after the bound lifetimes of a `for<...>`, or all of them when there are none. -/
def dropBinder? (tokens : List Token) : Option (List Token) :=
  match word? "for" tokens with
  | some rest => (mark? '<' rest).bind (afterAngles? 0)
  | none => some tokens

/-- The part of a sequence before its end `rest`. -/
def beforeTokens (tokens rest : List Token) : List Token :=
  tokens.take (tokens.length - rest.length)

/-- A literal, a negative number, a truth value or a block that stands for a constant, and the
    tokens after it. -/
def constant? : List Token → Option (List Token)
  | .literal _ _ :: rest => some rest
  | .punct '-' _ :: .literal _ _ :: rest => some rest
  | .group .brace _ :: rest => some rest
  | token :: rest => if isWordIn ["true", "false"] token then some rest else none
  | [] => none

/-- The arguments in angle brackets at the end of a path. -/
inductive PathEnd where
  /-- The path ends without arguments, or its first argument is no type. -/
  | plain
  /-- The first argument is a type: the tokens before the name, the name, the tokens up to the
      argument, the argument, and the tokens after it. -/
  | applied (front : List Token) (name : Token) (opening : List Token) (argument : TypeExpr)
      (rest : List Token)

/-- Whether a path may go on with a name after two colons. -/
def startsSegment : List Token → Bool
  | token :: _ => isSegment token
  | [] => false

/-- Whether a token may begin a bound. -/
def startsBound : Token → Bool
  | .ident _ _ => true
  | .lifetime _ => true
  | .group .paren _ => true
  | .punct mark _ => mark == '?' || mark == ':'
  | _ => false

/-- The type that a path makes, read from `tokens` up to `rest`. -/
def PathEnd.type (tokens rest : List Token) : PathEnd → TypeExpr
  | plain => .other (beforeTokens tokens rest)
  | applied front name opening argument more => .applied front name opening argument more

mutual

/-- A type, and the tokens after it. A sum of bounds is read only when `sums` is set. -/
def type? : Nat → Bool → List Token → Option (TypeExpr × List Token)
  | 0, _, _ => none
  | fuel + 1, sums, tokens =>
    match tokens with
    | .group .paren [] :: rest => some (.unit, rest)
    | .group .paren inner :: rest =>
      if (inner.head?.any fun token => token matches .lifetime _) ∨ (mark? '?' inner).isSome then
        if (bounds? fuel true inner).any List.isEmpty then
          some (.other [.group .paren inner], rest)
        else none
      else
        match type? fuel true inner with
        | some (_, []) =>
          match if sums then mark? '+' rest else none with
          | some more =>
            (bounds? fuel true more).map fun rest => (.other (beforeTokens tokens rest), rest)
          | none => some (.other [.group .paren inner], rest)
        | some (_, more) =>
          if types? fuel more then some (.other [.group .paren inner], rest) else none
        | none => none
    | .group .square inner :: rest =>
      match type? fuel true inner with
      | some (_, []) => some (.other [.group .square inner], rest)
      | some (_, .punct ';' _ :: _ :: _) => some (.other [.group .square inner], rest)
      | _ => none
    | .punct '&' _ :: rest =>
      (type? fuel false (dropWord "mut" (dropLifetime rest))).map fun (_, rest) =>
        (.other (beforeTokens tokens rest), rest)
    | .punct '*' _ :: rest => do
      let rest ← word? "const" rest <|> word? "mut" rest
      let (_, rest) ← type? fuel false rest
      return (.other (beforeTokens tokens rest), rest)
    | .punct '!' _ :: rest => some (.other (beforeTokens tokens rest), rest)
    | token :: rest =>
      if isWordIn ["_"] token then some (.other [token], rest)
      else if isWordIn ["dyn", "impl"] token then
        (bounds? fuel sums (dropMark '*' rest)).map fun rest =>
          (.other (beforeTokens tokens rest), rest)
      else do
        let start ← dropBinder? tokens
        if start.head?.any (isWordIn ["fn", "unsafe", "extern"]) then
          let rest ← function? fuel start
          return (.other (beforeTokens tokens rest), rest)
        else
          let (pathEnd, rest) ← path? fuel start
          match rest, if sums then mark? '+' rest else none with
          | .punct '!' _ :: .group _ _ :: rest, _ =>
            return (.other (beforeTokens tokens rest), rest)
          | _, some more =>
            let rest ← bounds? fuel true more
            return (.other (beforeTokens tokens rest), rest)
          | _, none =>
            let isBound := (word? "for" tokens).isSome
            return (if isBound then .other (beforeTokens tokens rest) else pathEnd.type tokens rest,
              rest)
    | [] => none

/-- Whether the tokens are further members of a tuple, each after a comma. -/
def types? : Nat → List Token → Bool
  | 0, _ => false
  | fuel + 1, tokens =>
    match tokens with
    | [] => true
    | [.punct ',' _] => true
    | .punct ',' _ :: rest =>
      match type? fuel true rest with
      | some (_, more) => types? fuel more
      | none => false
    | _ => false

/-- The tokens after the type of a function pointer. -/
def function? : Nat → List Token → Option (List Token)
  | 0, _ => none
  | fuel + 1, tokens => do
    let tokens := dropWord "unsafe" tokens
    let tokens :=
      match word? "extern" tokens with
      | some (.literal _ (some _) :: rest) => rest
      | some rest => rest
      | none => tokens
    match ← word? "fn" tokens with
    | .group .paren _ :: rest => result? fuel rest
    | _ => none

/-- The tokens after the result type of a function type, or all of them when there is none. -/
def result? : Nat → List Token → Option (List Token)
  | 0, _ => none
  | fuel + 1, tokens =>
    match arrow? tokens with
    | some rest => (type? fuel false rest).map Prod.snd
    | none => some tokens

/-- A path, which may begin with a type in angle brackets, and the tokens after it. -/
def path? : Nat → List Token → Option (PathEnd × List Token)
  | 0, _ => none
  | fuel + 1, tokens =>
    match mark? '<' tokens with
    | some rest => do
      let (_, rest) ← type? fuel true rest
      let rest ←
        match word? "as" rest with
        | some rest => (path? fuel rest).map Prod.snd
        | none => some rest
      let rest ← colons? (← mark? '>' rest)
      segments? fuel tokens rest
    | none => segments? fuel tokens ((colons? tokens).getD tokens)

/-- The segments of a path that begins with `start`. -/
def segments? : Nat → List Token → List Token → Option (PathEnd × List Token)
  | 0, _, _ => none
  | fuel + 1, start, tokens =>
    match tokens with
    | [] => none
    | name :: rest =>
      if !isSegment name then none
      else do
        let front := beforeTokens start tokens
        let (pathEnd, rest) ← arguments? fuel front name rest
        match colons? rest with
        | some more => if startsSegment more then segments? fuel start more else none
        | none => return (pathEnd, rest)

/-- The arguments of the segment `name`, if there are any, and the tokens after them. -/
def arguments? : Nat → List Token → Token → List Token → Option (PathEnd × List Token)
  | 0, _, _, _ => none
  | fuel + 1, front, name, tokens =>
    let inside := ((colons? tokens).bind (mark? '<')) <|> mark? '<' tokens
    match inside with
    | some inside =>
      match mark? '>' inside with
      | some rest => some (.plain, rest)
      | none => do
        let (argument, rest) ← argument? fuel inside
        let rest ← furtherArguments? fuel rest
        match argument with
        | some type =>
          let afterType := inside.drop type.tokens.length
          return (.applied front name (beforeTokens tokens inside) type
            (beforeTokens afterType rest), rest)
        | none => return (.plain, rest)
    | none =>
      match tokens with
      | .group .paren _ :: rest => (result? fuel rest).map fun rest => (.plain, rest)
      | _ => some (.plain, tokens)

/-- The tokens after the arguments that follow the first one. -/
def furtherArguments? : Nat → List Token → Option (List Token)
  | 0, _ => none
  | fuel + 1, tokens =>
    match tokens with
    | .punct '>' _ :: rest => some rest
    | .punct ',' _ :: .punct '>' _ :: rest => some rest
    | .punct ',' _ :: rest => do
      let (_, rest) ← argument? fuel rest
      furtherArguments? fuel rest
    | _ => none

/-- One argument in angle brackets, given if it is a type, and the tokens after it. -/
def argument? : Nat → List Token → Option (Option TypeExpr × List Token)
  | 0, _ => none
  | fuel + 1, tokens =>
    match tokens, constant? tokens with
    | .lifetime _ :: rest, _ => some (none, rest)
    | _, some rest => some (none, rest)
    | _, none => do
      let (type, rest) ← type? fuel true tokens
      match rest with
      | .punct '=' _ :: rest =>
        match constant? rest with
        | some rest => return (none, rest)
        | none => return (none, (← type? fuel true rest).2)
      | .punct ':' _ :: rest => return (none, ← bounds? fuel true rest)
      | _ => return (some type, rest)

/-- The tokens after one or more bounds. More than one is read only when `sums` is set. -/
def bounds? : Nat → Bool → List Token → Option (List Token)
  | 0, _, _ => none
  | fuel + 1, sums, tokens => do
    let rest ←
      match tokens with
      | .lifetime _ :: rest => some rest
      | .group .paren _ :: rest => some rest
      | _ => ((dropBinder? (dropMark '?' tokens)).bind (path? fuel)).map Prod.snd
    match if sums then mark? '+' rest else none with
    | some more =>
      if more.head?.any startsBound then bounds? fuel sums more else return more
    | none => return rest

end

/-- The type at the start of a sequence of tokens, and the tokens after it. -/
def TypeExpr.read? (tokens : List Token) : Option (TypeExpr × List Token) :=
  type? (8 * (Token.weightOf tokens + 1)) true tokens

/-- The tokens after one or more bounds. -/
def readBounds? (tokens : List Token) : Option (List Token) :=
  bounds? (8 * (Token.weightOf tokens + 1)) true tokens

end Item

end CallSchema
