import CallSchema.Proofs.TypeHint.Bars
import CallSchema.Text.Word

/-!
# Type expressions

The type texts that signatures and docstrings are written in, as a grammar: paths and generic
types, wrappers, references, unions, slices and tuples. `Expr.meaning` is the kind of an
expression, read off its structure.

## Main definitions

* `Word`, `Path`, `ReferenceMark`, `Brackets`, `Wrapper` -- what expressions are written with
* `Expr` -- type expressions
* `Expr.text` -- the text of an expression
* `Expr.meaning` -- the kind that an expression means
* `Expr.WellFormed` -- where references and unions may stand
-/

namespace CallSchema.TypeHint

open Text

/-- A name made of word characters. -/
structure Word where
  chars : Text
  ne_nil : chars ≠ []
  isWord : ∀ c ∈ chars, isWord c = true

/-- The name in lower case. -/
def Word.lower (name : Word) : Word where
  chars := Text.lower name.chars
  ne_nil := mt lower_eq_nil_iff.1 name.ne_nil
  isWord := by
    intro c hc
    obtain ⟨d, hd, rfl⟩ := List.mem_map.1 hc
    rw [isWord_toLower]
    exact name.isWord d hd

/-- The kind that the name stands for in lower case. -/
def Word.kind? (name : Word) : Option Kind :=
  Kind.ofName? (String.ofList name.lower.chars)

/-- What joins the segments of a path. -/
inductive Joiner where
  | colons
  | dot
deriving DecidableEq, Repr

def Joiner.text : Joiner → Text
  | colons => [':', ':']
  | dot => ['.']

/-- The segments in front of the last one of a path, each with what follows it. -/
abbrev Scopes := List (Word × Joiner)

def Scopes.text (scopes : Scopes) : Text :=
  scopes.flatMap fun (segment, joiner) => segment.chars ++ joiner.text

/-- A name with the path that leads to it. -/
structure Path where
  scopes : Scopes
  name : Word

def Path.text (p : Path) : Text :=
  p.scopes.text ++ p.name.chars

def Scopes.lower (scopes : Scopes) : Scopes :=
  scopes.map fun (segment, joiner) => (segment.lower, joiner)

def Path.lower (p : Path) : Path where
  scopes := p.scopes.lower
  name := p.name.lower

theorem Scopes.lower_text (scopes : Scopes) : scopes.lower.text = Text.lower scopes.text := by
  induction scopes with
  | nil => rfl
  | cons scope scopes ih =>
    obtain ⟨segment, joiner⟩ := scope
    have hjoiner : Text.lower joiner.text = joiner.text := by cases joiner <;> decide
    show (segment.lower.chars ++ joiner.text) ++ Scopes.text (Scopes.lower scopes) =
      Text.lower ((segment.chars ++ joiner.text) ++ Scopes.text scopes)
    rw [ih, lower_append, lower_append, hjoiner]
    rfl

theorem Path.lower_text (p : Path) : p.lower.text = Text.lower p.text := by
  show Scopes.text (Scopes.lower p.scopes) ++ Text.lower p.name.chars = _
  rw [Scopes.lower_text, Path.text, lower_append]

/-- The brackets around the arguments of a type. -/
inductive Brackets where
  | square
  | angle
deriving DecidableEq, Repr

def Brackets.opening : Brackets → Char
  | square => '['
  | angle => '<'

def Brackets.closing : Brackets → Char
  | square => ']'
  | angle => '>'

def Brackets.around (b : Brackets) (s : Text) : Text :=
  b.opening :: (s ++ [b.closing])

theorem Brackets.lower_around (b : Brackets) (s : Text) :
    Text.lower (b.around s) = b.around (Text.lower s) := by
  cases b <;> simp [around, opening, closing]

/-- The wrappers with one argument whose values are those of the argument. -/
inductive Wrapper where
  | optional
  | option
  | box
  | rc
  | arc
deriving DecidableEq, Repr

def Wrapper.text : Wrapper → Text
  | optional => "Optional".toList
  | option => "Option".toList
  | box => "Box".toList
  | rc => "Rc".toList
  | arc => "Arc".toList

def Wrapper.name (w : Wrapper) : Word where
  chars := w.text
  ne_nil := by cases w <;> decide
  isWord := by cases w <;> decide +kernel

/-- The wrapper with a lifetime in front of its argument. -/
def cowName : Word where
  chars := "Cow".toList
  ne_nil := by decide
  isWord := by decide +kernel

/-- A lifetime and the argument behind it. -/
def cowArguments (lifetime : Word) (s : Text) : Text :=
  '\'' :: (lifetime.chars ++ ',' :: ' ' :: s)

theorem lower_cowArguments (lifetime : Word) (s : Text) :
    Text.lower (cowArguments lifetime s) = cowArguments lifetime.lower (Text.lower s) := by
  simp [cowArguments, Word.lower]

/-- The mark of a reference, with its lifetime if it has one. -/
structure ReferenceMark where
  lifetime : Option Word := none
  isMut : Bool := false

def ReferenceMark.lifetimeText (m : ReferenceMark) : Text :=
  m.lifetime.elim [] fun name => '\'' :: (name.chars ++ [' '])

def ReferenceMark.mutText (m : ReferenceMark) : Text :=
  if m.isMut then "mut ".toList else []

def ReferenceMark.text (m : ReferenceMark) : Text :=
  '&' :: (m.lifetimeText ++ m.mutText)

def ReferenceMark.lower (m : ReferenceMark) : ReferenceMark :=
  { m with lifetime := m.lifetime.map Word.lower }

theorem ReferenceMark.lower_text (m : ReferenceMark) : m.lower.text = Text.lower m.text := by
  have hlifetime : m.lower.lifetimeText = Text.lower m.lifetimeText := by
    cases h : m.lifetime with
    | none => simp [lower, lifetimeText, h]
    | some name => simp [lower, lifetimeText, h, Word.lower]
  have hmut : m.mutText = Text.lower m.mutText := by
    cases h : m.isMut with
    | false => simp [mutText, h]
    | true => simp [mutText, h]
  show '&' :: (m.lower.lifetimeText ++ m.mutText) =
    Text.lower ('&' :: (m.lifetimeText ++ m.mutText))
  rw [hlifetime, lower_cons, lower_append, ← hmut]
  rfl

/-- A type expression. What stands between brackets behind a name, or behind the first member of a
    tuple, may be any text with balanced brackets. -/
inductive Expr where
  /-- `None`, as a member of a union. -/
  | absent
  | path (p : Path)
  | generic (p : Path) (b : Brackets) (args : { s : Text // Balanced s })
  | wrapper (scopes : Scopes) (w : Wrapper) (b : Brackets) (e : Expr)
  /-- `Cow<'a, e>` -/
  | cow (scopes : Scopes) (lifetime : Word) (e : Expr)
  | reference (m : ReferenceMark) (e : Expr)
  /-- The members from the first one to the last one are nested on the right. -/
  | union (e : Expr) (bar : Bar) (rest : Expr)
  | slice (e : Expr)
  | tuple (e : Expr) (rest : { s : Text // Balanced s })
  | unit

/-- The lower-case words that are no paths: the null types, and the word between the members of a
    union. -/
def reservedWords : List String :=
  ["none", "null", "nonetype", "or"]

namespace Expr

def text : Expr → Text
  | absent => "None".toList
  | path p => p.text
  | generic p b args => p.text ++ b.around args.1
  | wrapper scopes w b e => Path.text ⟨scopes, w.name⟩ ++ b.around e.text
  | cow scopes lifetime e =>
    Path.text ⟨scopes, cowName⟩ ++ Brackets.angle.around (cowArguments lifetime e.text)
  | reference m e => m.text ++ e.text
  | union e bar rest => e.text ++ (bar.text ++ rest.text)
  | slice e => Brackets.square.around e.text
  | tuple e rest => '(' :: ((e.text ++ rest.1) ++ [')'])
  | unit => ['(', ')']

/-- The kind that an expression means: that of the last segment of a path or generic type, that of
    the argument of a wrapper or reference, and that of the first member of a union that is not
    `None`. Slices and tuples are arrays, and the empty tuple means nothing. -/
def meaning : Expr → Option Kind
  | absent => none
  | path p => p.name.kind?
  | generic p _ _ => p.name.kind?
  | wrapper _ _ _ e => e.meaning
  | cow _ _ e => e.meaning
  | reference _ e => e.meaning
  | union absent _ rest => rest.meaning
  | union e _ _ => e.meaning
  | slice _ => some .array
  | tuple _ _ => some .array
  | unit => none

def isReference : Expr → Bool
  | reference _ _ => true
  | _ => false

def isUnion : Expr → Bool
  | union _ _ _ => true
  | _ => false

/-- What stands behind all reference marks. -/
def target : Expr → Expr
  | reference _ e => e.target
  | e => e

/-- The expression follows the grammar: a path on its own is no null type and not the word `or`, a
    generic type is no wrapper, a reference is to something that is neither a reference nor a
    union, and the members of a union are no unions. -/
def WellFormed : Expr → Prop
  | absent => True
  | path p => String.ofList p.lower.text ∉ reservedWords
  | generic p _ _ => String.ofList p.lower.name.chars ∉ wrapperNames
  | wrapper _ _ _ e => e.WellFormed
  | cow _ _ e => e.WellFormed
  | reference _ e => e.isReference = false ∧ e.isUnion = false ∧ e.WellFormed
  | union e _ rest => e.isUnion = false ∧ e.WellFormed ∧ rest.WellFormed
  | slice e => e.WellFormed
  | tuple e _ => e.WellFormed
  | unit => True

/-- Whether the grammar is followed can be computed. -/
def decideWellFormed : (e : Expr) → Decidable e.WellFormed
  | absent => inferInstanceAs (Decidable True)
  | path _ => inferInstanceAs (Decidable (_ ∉ _))
  | generic _ _ _ => inferInstanceAs (Decidable (_ ∉ _))
  | wrapper _ _ _ e => e.decideWellFormed
  | cow _ _ e => e.decideWellFormed
  | reference _ e =>
    have := e.decideWellFormed
    inferInstanceAs (Decidable (_ ∧ _ ∧ _))
  | union e _ rest =>
    have := e.decideWellFormed
    have := rest.decideWellFormed
    inferInstanceAs (Decidable (_ ∧ _ ∧ _))
  | slice e => e.decideWellFormed
  | tuple e _ => e.decideWellFormed
  | unit => inferInstanceAs (Decidable True)

instance (e : Expr) : Decidable e.WellFormed :=
  e.decideWellFormed

end Expr

end CallSchema.TypeHint
