import CallSchema.Docstring.Section
import CallSchema.Text.Word
import CallSchema.TypeHint.Written

/-!
# Docstrings with underlined sections

A section begins with a title line and a line of dashes below it. Its body is a list of indented
entries. A parameter entry begins with `name : type`, `name :` or `name`, where several names may
share the entry; the body of a section on the returned value begins with its type, which a name may
precede. Sections with other titles say nothing, but they too end the section above them.

## Main definitions

* `Underlined.isUnderline`, `Underlined.topic?` -- the lines that begin a section
* `SharedHead` -- the parts of the line that opens a parameter entry
* `Underlined.format` -- how the entries of a section are read
* `Underlined.read?` -- the docstring that a text with underlined sections gives
-/

namespace CallSchema

open Text

/-- The parts of the line that opens a parameter entry. -/
structure SharedHead where
  /-- The names that share the entry, without stars. -/
  names : List Text
  /-- The text after the colon, if there is a colon. -/
  typeText : Option Text
deriving DecidableEq, Inhabited

namespace SharedHead

/-- Whether a character may begin a list of names. -/
def isNameStart (c : Char) : Bool :=
  isWord c || c == '*'

/-- Whether a character may stand in a list of names. -/
def isNameListChar (c : Char) : Bool :=
  isNameStart c || c == ',' || c == ' '

/-- Reads the line that opens a parameter entry: a list of names, and a colon with a type after it
    if there is a colon. -/
def ofLine? (l : Text) : Option SharedHead :=
  let (before, typeText) :=
    match cut? ':' l with
    | some (before, rest) => (before, some (trimStart rest))
    | none => (l, none)
  let nameList := trimEnd before
  if nameList.head?.any isNameStart ∧ nameList.all isNameListChar then
    some ⟨((nameList.splitOn ',').map Entry.bareName).filter (!·.isEmpty), typeText⟩
  else none

end SharedHead

namespace Underlined

/-- Whether a line consists of three or more dashes. -/
def isUnderline (l : Text) : Bool :=
  3 ≤ l.length && l.all (· == '-')

/-- Whether a line can be the title of a section. -/
def isTitle (l : Text) : Bool :=
  !allBlank l && indent l == 0 && !isUnderline l

/-- The topic of a title. -/
def topicOf (title : Text) : SectionTopic :=
  if trim title = "Parameters".toList then .params
  else if trim title = "Returns".toList then .returned
  else .aside

/-- The topic of the section that begins where the given lines begin. -/
def topic? : List Text → Option SectionTopic
  | title :: underline :: _ =>
    if isTitle title && isUnderline underline then some (topicOf title) else none
  | _ => none

/-- Adds what a parameter entry says, for each of the names that share it. An entry without the
    form of one says nothing. -/
def noteParams (doc : Docstring) (entry : Entry) : Docstring :=
  match SharedHead.ofLine? entry.head with
  | none => doc
  | some head =>
    let said : DocEntry :=
      { description := String.ofList (unwrap entry.body)
        hint := head.typeText.bind fun typeText =>
          TypeHint.ofText? (TypeHint.withoutOptional typeText) }
    head.names.foldl (fun doc name => doc.onParam (String.ofList name) fun _ => said) doc

/-- The text after the first colon that stands between single spaces. -/
def afterSpacedColon? : Text → Option Text
  | [] => none
  | c :: s => after? [' ', ':', ' '] (c :: s) <|> afterSpacedColon? s

/-- The type in the line that opens a section on the returned value: what follows the name, if a
    name is given. -/
def returnedType (head : Text) : Text :=
  match afterSpacedColon? head with
  | some typeText => typeText
  | none => if head.getLast? = some ':' then [] else head

/-- What the entries of a section say about the returned value, if there are any. -/
def returned? (entries : List Entry) : Option DocEntry :=
  entries.head?.map fun first =>
    { description := String.ofList (unwrap first.body)
      hint := TypeHint.ofText? (returnedType first.head) }

/-- How the entries of an underlined section are read. -/
def format : SectionFormat :=
  ⟨.numpy, noteParams, returned?⟩

/-- The titled parts of a text, after the lines before the first of them. The first line of each
    part is the underline. -/
def underlinedParts (ls : List Text) : Outline Text SectionTopic :=
  Outline.of topic? ls

/-- The sections of a text, after the lines before the first of them. -/
def outline (ls : List Text) : Outline Text SectionTopic :=
  let parts := underlinedParts ls
  ⟨parts.preamble, parts.sections.map fun (topic, body) => (topic, body.tail)⟩

/-- The docstring that a text with underlined sections gives, or `none` when no section is about
    the parameters or the returned value. -/
def read? (ls : List Text) : Option Docstring :=
  format.read? (outline ls)

end Underlined

end CallSchema
