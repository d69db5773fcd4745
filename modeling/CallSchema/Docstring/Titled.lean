import CallSchema.Docstring.Section
import CallSchema.Text.Word
import CallSchema.TypeHint.Written

/-!
# Docstrings with titled sections

A section begins with a line that consists of a known title and a colon, such as `Args:`. Its body
is a list of indented entries. A parameter entry begins with `name (type): text` or `name: text`;
the body of a section on the returned value begins with `type: text` or plain text. Sections with
other known titles say nothing, but they too end the section above them.

## Main definitions

* `ParamHead` -- the parts of the line that opens a parameter entry
* `Titled.topic?` -- the topic of a title line
* `Titled.format` -- how the entries of a section are read
* `Titled.read?` -- the docstring that a text with titled sections gives
-/

namespace CallSchema

open Text

/-- The parts of the line that opens a parameter entry. -/
structure ParamHead where
  /-- The name, without stars. -/
  name : Text
  /-- The text between the parentheses, if there are any. -/
  typeText : Option Text
  /-- The text after the colon, without blanks at its start. -/
  text : Text
deriving DecidableEq, Inhabited

namespace ParamHead

/-- What stands before and after the first closing parenthesis that a colon follows, with nothing
    but blanks between the two. The colon and the blanks after it are dropped. -/
def closeBeforeColon? : Text → Option (Text × Text)
  | [] => none
  | c :: s =>
    match c, trimStart s with
    | ')', ':' :: rest => some ([], trimStart rest)
    | _, _ => (closeBeforeColon? s).map fun (before, rest) => (c :: before, rest)

/-- The text without one star at its start. -/
def dropStar : Text → Text
  | '*' :: s => s
  | s => s

/-- Reads the line that opens a parameter entry: at most two stars, a name, an optional type in
    parentheses, and a colon. -/
def ofLine? (l : Text) : Option ParamHead :=
  let s := dropStar (dropStar l)
  let name := s.takeWhile isWord
  if name.isEmpty then none
  else
    match trimStart (s.dropWhile isWord) with
    | ':' :: rest => some ⟨name, none, trimStart rest⟩
    | '(' :: rest =>
      (closeBeforeColon? rest).map fun (typeText, text) => ⟨name, some typeText, text⟩
    | _ => none

end ParamHead

namespace Titled

/-- The titles of each topic. -/
def titles : SectionTopic → List String
  | .params => ["Args", "Arguments"]
  | .returned => ["Returns", "Return"]
  | .aside =>
    ["Attributes", "Example", "Examples", "Keyword Args", "Keyword Arguments", "Methods", "Note",
     "Notes", "Other Parameters", "Raises", "References", "See Also", "Todo", "Warning",
     "Warnings", "Warns", "Yield", "Yields"]

/-- The topic of a line that consists of a known title and a colon. -/
def topic? (l : Text) : Option SectionTopic :=
  if l.getLast? = some ':' then
    [.params, .returned, .aside].find? fun topic => String.ofList l.dropLast ∈ titles topic
  else none

/-- Adds what a parameter entry says. An entry without the form of one says nothing. -/
def noteParam (doc : Docstring) (entry : Entry) : Docstring :=
  match ParamHead.ofLine? entry.head with
  | none => doc
  | some head =>
    doc.onParam (String.ofList head.name) fun _ =>
      { description := String.ofList (unwrap (head.text :: entry.body))
        hint := head.typeText.bind fun typeText =>
          TypeHint.ofText? (TypeHint.withoutOptional typeText) }

/-- The type and the text in the line that opens a section on the returned value: the text before
    the first colon is the type, unless the colon is directly followed by more text. -/
def typeAndText (head : Text) : Option Text × Text :=
  match cut? ':' head with
  | some (typeText, rest) =>
    if !typeText.isEmpty ∧ (rest.isEmpty ∨ rest.head?.any isBlank) then
      (some typeText, trimStart rest)
    else (none, head)
  | none => (none, head)

/-- What the entries of a section say about the returned value, if there are any. The entries after
    the first one go on with its text. -/
def returned? : List Entry → Option DocEntry
  | [] => none
  | first :: later =>
    let (typeText, text) := typeAndText first.head
    let laterLines := later.flatMap fun entry => entry.head :: entry.body
    some
      { description := String.ofList (unwrap (text :: (first.body ++ laterLines)))
        hint := typeText.bind TypeHint.ofText? }

def format : SectionFormat :=
  ⟨.google, noteParam, returned?⟩

/-- The sections of a text, after the lines before the first of them. -/
def outline (ls : List Text) : Outline Text SectionTopic :=
  Outline.ofItems topic? ls

/-- The docstring that a text with titled sections gives, or `none` when no section is about the
    parameters or the returned value. -/
def read? (ls : List Text) : Option Docstring :=
  format.read? (outline ls)

end Titled

end CallSchema
