import CallSchema.Docstring.FieldList
import CallSchema.Proofs.Layout.Bare
import CallSchema.Proofs.Rendering.Content

/-!
# Content written down in a style

`Content.render` writes content down in each of the three styles. A rendering consists of parts
with an empty line between them: the paragraphs of the description, and then the marked parts. A
marked part is made of blocks, each a head line with description lines wrapped below it. Cleaning
gives back the lines of a rendering.

## Main definitions

* `Spacing` -- the widths that a rendering is free to choose
* `Block`, `Block.lines` -- a head line with description lines below it, and how it is laid out
* `FieldText` -- a field with its description lines
* `Content.markup` -- the marked parts of each style
* `Content.lines`, `Content.render` -- the lines of a rendering, and its text
-/

namespace CallSchema

open Text

/-- The widths that a rendering is free to choose. -/
structure Spacing where
  /-- The spaces in front of an entry of a titled section. -/
  entry : Nat
  entry_pos : 0 < entry
  /-- The further spaces in front of the lines below the head of a block. -/
  deeper : Nat
  deeper_pos : 0 < deeper
  /-- The number of dashes in an underline. -/
  dashes : Nat
  three_le_dashes : 3 ≤ dashes

/-- A head line with the description lines below it. -/
structure Block where
  head : Text
  below : List Line

namespace Block

/-- The lines of a block whose head is indented by `entry` spaces. -/
def lines (entry deeper : Nat) (b : Block) : List Text :=
  (List.replicate entry ' ' ++ b.head) ::
    b.below.map fun l => List.replicate (entry + deeper) ' ' ++ l.text

/-- The block whose first description line, if there is one, stands behind its label. -/
def labelled (label : Text) : List Line → Block
  -- no blank stands behind a label without text
  | [] => ⟨label, []⟩
  | first :: later => ⟨label ++ [' '] ++ first.text, later⟩

end Block

/-- A field with its description lines. -/
structure FieldText where
  topic : FieldTopic
  /-- The parameter that the field names, if it names one. -/
  about : Option ParamDoc
  lines : List Line

/-- The key with which fields of a topic are written. -/
def FieldTopic.key : FieldTopic → Text
  | param => "param".toList
  | paramType => "type".toList
  | returned => "return".toList
  | returnedType => "rtype".toList

namespace FieldText

/-- What stands between the key of a field and its second colon. -/
def argument (field : FieldText) : Text :=
  match field.about with
  | some p => ' ' :: p.written
  | none => []

/-- The block of a field. -/
def block (field : FieldText) : Block :=
  .labelled ([':'] ++ field.topic.key ++ (field.argument ++ [':'])) field.lines

end FieldText

namespace ParamDoc

/-- The fields about a parameter. -/
def fields (p : ParamDoc) : List FieldText :=
  ⟨.param, some p, p.lines⟩ ::
    (p.type?.map fun t => ⟨.paramType, some p, [t.toLine]⟩ : Option FieldText).toList

/-- The entry about a parameter in a titled section. -/
def titledBlock (p : ParamDoc) : Block :=
  match p.type? with
  | some t => .labelled (p.written ++ " (".toList ++ t.text ++ "):".toList) p.lines
  | none => .labelled (p.written ++ [':']) p.lines

/-- The entry about a parameter in an underlined section. -/
def underlinedBlock (p : ParamDoc) : Block :=
  match p.type? with
  | some t => ⟨p.written ++ " : ".toList ++ t.text, p.lines⟩
  | none => ⟨p.written ++ " :".toList, p.lines⟩

end ParamDoc

namespace ReturnDoc

/-- The fields about the returned value. -/
def fields (r : ReturnDoc) : List FieldText :=
  [⟨.returned, none, r.lines⟩, ⟨.returnedType, none, [r.type.toLine]⟩]

/-- The entry about the returned value in a titled section. -/
def titledBlock (r : ReturnDoc) : Block :=
  .labelled (r.type.text ++ [':']) r.lines

/-- The entry about the returned value in an underlined section. -/
def underlinedBlock (r : ReturnDoc) : Block :=
  ⟨r.type.text, r.lines⟩

end ReturnDoc

/-- The part made of a heading and blocks, unless there are no blocks. -/
def headed (heading : List Text) (entry deeper : Nat) : List Block → List (List Text)
  | [] => []
  | blocks => [heading ++ blocks.flatMap (Block.lines entry deeper)]

/-- The parts, each behind an empty line. -/
def below (parts : List (List Text)) : List Text :=
  parts.flatMap ([] :: ·)

/-- The title and the underline of a section. -/
def underlined (dashes : Nat) (title : String) : List Text :=
  [title.toList, List.replicate dashes '-']

namespace Content

/-- All fields about the parameters and the returned value. -/
def fields (content : Content) : List FieldText :=
  content.params.flatMap ParamDoc.fields ++ content.returns.toList.flatMap ReturnDoc.fields

/-- The marked parts of each style. -/
def markup (content : Content) (spacing : Spacing) : Style → List (List Text)
  | .rest => headed [] 0 spacing.deeper (content.fields.map FieldText.block)
  | .google =>
    headed ["Args:".toList] spacing.entry spacing.deeper
        (content.params.map ParamDoc.titledBlock) ++
      headed ["Returns:".toList] spacing.entry spacing.deeper
        (content.returns.toList.map ReturnDoc.titledBlock)
  | .numpy =>
    headed (underlined spacing.dashes "Parameters") 0 spacing.deeper
        (content.params.map ParamDoc.underlinedBlock) ++
      headed (underlined spacing.dashes "Returns") 0 spacing.deeper
        (content.returns.toList.map ReturnDoc.underlinedBlock)

/-- The lines of a paragraph. -/
def paragraphLines (paragraph : List ProseLine) : List Text :=
  paragraph.map (·.text)

/-- The lines of the description. -/
def description (content : Content) : List Text :=
  paragraphLines content.short ++ below (content.long.map paragraphLines)

/-- The lines of the content in a style. -/
def lines (content : Content) (spacing : Spacing) (style : Style) : List Text :=
  content.description ++ below (content.markup spacing style)

/-- The content in a style. -/
def render (content : Content) (spacing : Spacing) (style : Style) : String :=
  String.ofList (unlines (content.lines spacing style))

end Content

end CallSchema
