import CallSchema.Docstring.Section
import CallSchema.Proofs.Docstring.Grouping
import CallSchema.Proofs.Rendering.Description

/-!
# Reading back sections

The two styles with sections differ in where a section begins and in how its entries are read. The
rest is here: the entries of a section are the blocks that it was made of, a text is divided into
the sections that it was put together from, and noting these adds what the entries say.

## Main definitions

* `Block.entry` -- a block as an entry of a section
* `SectionMarks` -- how the sections of a style begin
* `SectionMarks.Quiet` -- lines among which no section begins
* `Content.IsMarked` -- whether there is anything to mark up
-/

namespace CallSchema

open Text

/-! ### Entries -/

/-- The block as an entry of a section. -/
def Block.entry (b : Block) : Entry :=
  ⟨b.head, b.below.map (·.text)⟩

namespace Entry

variable {entry deeper : Nat} {blocks : List Block} {trailing : List Text}

/-- The entries of a section are the blocks that it was made of, with or without an empty line below
    them. -/
theorem ofLines_flatMap (hdeeper : 0 < deeper) (hblocks : ∀ b ∈ blocks, IsLine b.head)
    (htrailing : trailing = [] ∨ trailing = [[]]) :
    Entry.ofLines (blocks.flatMap (Block.lines entry deeper) ++ trailing) =
      blocks.map Block.entry := by
  have hblank : ∀ l ∈ trailing, allBlank l = true := by
    rcases htrailing with rfl | rfl <;> simp
  have hlines : ∀ b ∈ blocks, ∀ l ∈ b.lines entry deeper, allBlank l = false := fun b hb l hl =>
    (b.isIndented_of_mem_lines (hblocks b hb) l hl).not_allBlank
  have hhead : ∀ b ∈ blocks, allBlank (List.replicate entry ' ' ++ b.head) = false ∧
      indent (List.replicate entry ' ' ++ b.head) = entry := fun b hb => by
    refine ⟨hlines b hb _ List.mem_cons_self, ?_⟩
    rw [indent_replicate_append, (hblocks b hb).indent_eq_zero, Nat.add_zero]
  have hbelow : ∀ b ∈ blocks,
      ∀ l ∈ b.below.map fun l => List.replicate (entry + deeper) ' ' ++ l.text,
        allBlank l = true ∨ entry < indent l := fun b _ l hl => by
    obtain ⟨m, -, rfl⟩ := List.mem_map.1 hl
    right
    rw [indent_replicate_append]
    omega
  have hofLines := ofLines_blocks (List.forall_mem_nil _) hblank hhead hbelow
  rw [List.nil_append] at hofLines
  refine hofLines.trans (List.map_congr_left fun b hb => ?_)
  have hfilter : (b.below.map fun l => List.replicate (entry + deeper) ' ' ++ l.text).filter
      (!allBlank ·) = b.below.map fun l => List.replicate (entry + deeper) ' ' ++ l.text := by
    refine List.filter_eq_self.2 fun l hl => ?_
    rw [hlines b hb l (List.mem_cons_of_mem _ hl), Bool.not_false]
  rw [hfilter, map_trim_below, trim_of_allBlank_append _ (allBlank_replicate_space entry),
    (hblocks b hb).trim_eq, Block.entry]

end Entry

/-! ### Sections -/

/-- How the sections of a style begin. -/
structure SectionMarks where
  /-- The topic of the section that begins where the given lines begin. -/
  heading? : List Text → Option SectionTopic
  /-- The title of a section. -/
  title : SectionTopic → Text
  /-- The lines between the title and the entries. -/
  under : List Text
  /-- No section begins with an empty line. -/
  heading?_nil : ∀ rest, heading? ([] :: rest) = none
  /-- A section begins with its title. -/
  heading?_title : ∀ topic, topic ≠ .aside → ∀ rest,
    heading? (title topic :: (under ++ rest)) = some topic

namespace SectionMarks

variable (marks : SectionMarks)

/-- Among these lines no section begins, whatever parts follow them. -/
def Quiet (ls : List Text) : Prop :=
  ∀ s a t, ls = s ++ a :: t → ∀ parts, marks.heading? (a :: (t ++ below parts)) = none

/-- The part that is the section about a topic. -/
def part (topic : SectionTopic) (entry deeper : Nat) (blocks : List Block) : List (List Text) :=
  headed (marks.title topic :: marks.under) entry deeper blocks

/-- What stands below the title of a section. -/
def body (entry deeper : Nat) (blocks : List Block) : List Text :=
  marks.under ++ blocks.flatMap (Block.lines entry deeper)

variable {marks} {entry deeper : Nat} {blocks : List Block} {topic : SectionTopic}

@[simp] theorem part_nil : marks.part topic entry deeper [] = [] := rfl

/-- A part that is a section is divided from what follows it. -/
theorem of_below_part (htopic : topic ≠ .aside) (hne : blocks ≠ [])
    (hquiet : marks.Quiet (marks.body entry deeper blocks)) (parts : List (List Text)) :
    Outline.of marks.heading? (below (marks.part topic entry deeper blocks ++ parts)) =
      ⟨[[]], (topic, marks.body entry deeper blocks ++
          (Outline.of marks.heading? (below parts)).preamble) ::
        (Outline.of marks.heading? (below parts)).sections⟩ := by
  have htitle := marks.heading?_title topic htopic
    (blocks.flatMap (Block.lines entry deeper) ++ below parts)
  rw [← List.append_assoc] at htitle
  change marks.heading? (_ :: (marks.body entry deeper blocks ++ below parts)) = _ at htitle
  have hbody := Outline.of_append fun s a t hs => hquiet s a t hs parts
  rw [part, headed_of_ne_nil hne, List.singleton_append, below_cons, List.cons_append,
    List.cons_append, ← body, Outline.of_cons_none (marks.heading?_nil _),
    Outline.of_cons_some htitle, hbody]

/-- The section made of blocks, if there are any. -/
def sections (marks : SectionMarks) (topic : SectionTopic) (entry deeper : Nat)
    (blocks : List Block) (trailing : List Text) : List (SectionTopic × List Text) :=
  if blocks = [] then [] else [(topic, marks.body entry deeper blocks ++ trailing)]

theorem sections_of_ne_nil (hne : blocks ≠ []) (trailing : List Text) :
    marks.sections topic entry deeper blocks trailing =
      [(topic, marks.body entry deeper blocks ++ trailing)] :=
  if_neg hne

/-- The sections of a text that is put together from a preamble and two sections. -/
theorem of_sections {pre : List Text} {params returns : List Block} (hpre : marks.Quiet pre)
    (hparams : marks.Quiet (marks.body entry deeper params))
    (hreturns : marks.Quiet (marks.body entry deeper returns)) :
    ∃ trailing trailing', (trailing = [] ∨ trailing = [[]]) ∧
      (trailing' = [] ∨ trailing' = [[]]) ∧
      Outline.of marks.heading? (pre ++ below (marks.part .params entry deeper params ++
          marks.part .returned entry deeper returns)) =
        ⟨pre ++ trailing, marks.sections .params entry deeper params trailing' ++
          marks.sections .returned entry deeper returns []⟩ := by
  -- from the last section upwards: the empty line above a section goes to what stands before it
  have hlast : ∃ trailing, (trailing = [] ∨ trailing = [[]]) ∧
      Outline.of marks.heading? (below (marks.part .returned entry deeper returns)) =
        ⟨trailing, marks.sections .returned entry deeper returns []⟩ := by
    by_cases hne : returns = []
    · subst hne
      exact ⟨[], .inl rfl, rfl⟩
    · have htopic : SectionTopic.returned ≠ .aside := by decide
      have hpart := of_below_part htopic hne hreturns []
      rw [List.append_nil] at hpart
      refine ⟨[[]], .inr rfl, ?_⟩
      rw [hpart, sections_of_ne_nil hne]
      rfl
  obtain ⟨trailing', htrailing', hlast⟩ := hlast
  rw [Outline.of_append fun s a t hs => hpre s a t hs _]
  by_cases hne : params = []
  · subst hne
    refine ⟨trailing', trailing', htrailing', htrailing', ?_⟩
    rw [part_nil, List.nil_append, hlast]
    rfl
  · have htopic : SectionTopic.params ≠ .aside := by decide
    refine ⟨[[]], trailing', .inr rfl, htrailing', ?_⟩
    rw [of_below_part htopic hne hparams, hlast, sections_of_ne_nil hne]
    rfl

/-- A section without the lines between its title and its entries. -/
def dropLead (marks : SectionMarks) (part : SectionTopic × List Text) :
    SectionTopic × List Text :=
  (part.1, part.2.drop marks.under.length)

/-- The entries of a section are the blocks that it was made of. -/
theorem ofLines_body (hdeeper : 0 < deeper) (hblocks : ∀ b ∈ blocks, IsLine b.head)
    {trailing : List Text} (htrailing : trailing = [] ∨ trailing = [[]]) :
    Entry.ofLines ((marks.body entry deeper blocks ++ trailing).drop marks.under.length) =
      blocks.map Block.entry := by
  rw [body, List.append_assoc, List.drop_left, Entry.ofLines_flatMap hdeeper hblocks htrailing]

/-- A section about the parameters adds what its blocks say. -/
theorem foldl_note_params (format : SectionFormat) (hdeeper : 0 < deeper)
    (hblocks : ∀ b ∈ blocks, IsLine b.head) {trailing : List Text}
    (htrailing : trailing = [] ∨ trailing = [[]]) (doc : Docstring) :
    ((marks.sections .params entry deeper blocks trailing).map marks.dropLead).foldl
      format.note doc = (blocks.map Block.entry).foldl format.noteParam doc := by
  unfold sections
  split
  · next h =>
    subst h
    rfl
  · rw [List.map_singleton, List.foldl_cons, List.foldl_nil, dropLead, SectionFormat.note,
      ofLines_body hdeeper hblocks htrailing]

/-- A section about the returned value adds what its blocks say. -/
theorem foldl_note_returned (format : SectionFormat) (hnone : format.returned? [] = none)
    (hdeeper : 0 < deeper) (hblocks : ∀ b ∈ blocks, IsLine b.head) {trailing : List Text}
    (htrailing : trailing = [] ∨ trailing = [[]]) (doc : Docstring) :
    ((marks.sections .returned entry deeper blocks trailing).map marks.dropLead).foldl
        format.note doc =
      { doc with returns := format.returned? (blocks.map Block.entry) <|> doc.returns } := by
  unfold sections
  split
  · next h =>
    subst h
    rw [List.map_nil, List.map_nil, List.foldl_nil, hnone]
    rfl
  · rw [List.map_singleton, List.foldl_cons, List.foldl_nil, dropLead, SectionFormat.note,
      ofLines_body hdeeper hblocks htrailing]

end SectionMarks

namespace Content

variable {content : Content} {marks : SectionMarks} {format : SectionFormat} {entry deeper : Nat}
  {paramBlock : ParamDoc → Block} {returnBlock : ReturnDoc → Block}
  {hintOf : Text → Option TypeHint}

/-- Whether there is anything to mark up. -/
def IsMarked (content : Content) : Prop :=
  content.params ≠ [] ∨ content.returns ≠ none

/-- The content in two sections. -/
def sectionLines (content : Content) (marks : SectionMarks) (entry deeper : Nat)
    (paramBlock : ParamDoc → Block) (returnBlock : ReturnDoc → Block) : List Text :=
  content.description ++ below
    (marks.part .params entry deeper (content.params.map paramBlock) ++
      marks.part .returned entry deeper (content.returns.toList.map returnBlock))

/-- The sections of a text, each without the lines between its title and its entries. -/
def sectionOutline (marks : SectionMarks) (ls : List Text) : Outline Text SectionTopic :=
  let parts := Outline.of marks.heading? ls
  ⟨parts.preamble, parts.sections.map marks.dropLead⟩

/-- Some section of marked content is about the parameters or the returned value. -/
theorem any_sections (hmarked : content.IsMarked) (trailing : List Text) :
    ((marks.sections .params entry deeper (content.params.map paramBlock) trailing ++
      marks.sections .returned entry deeper (content.returns.toList.map returnBlock) []).map
        marks.dropLead).any (·.1 ≠ .aside) = true := by
  rw [List.any_map, List.any_append, Bool.or_eq_true]
  rcases hmarked with hne | hne
  · left
    rw [SectionMarks.sections_of_ne_nil (by simpa using hne)]
    rfl
  · right
    rw [SectionMarks.sections_of_ne_nil (by simpa using hne)]
    rfl

/-- The entries about the parameters add all but the returned value to the description. -/
theorem foldl_noteParam {trailing : List Text} (htrailing : trailing = [] ∨ trailing = [[]])
    (hnote : ∀ doc p, format.noteParam doc (paramBlock p).entry =
      doc.onParam (String.ofList p.name.text) fun _ => p.entry hintOf) :
    ((content.params.map paramBlock).map Block.entry).foldl format.noteParam
        (Docstring.ofDescription (some format.style) (content.description ++ trailing)) =
      { content.docstring hintOf (some format.style) with returns := none } := by
  have hempty : (Docstring.ofDescription (some format.style)
      (content.description ++ trailing)).params = Table.empty := rfl
  rw [List.foldl_map, List.foldl_map, content.foldl_step hnote (fun _ => rfl) hempty,
    content.ofDescription_description htrailing _ hintOf]
  rfl

/-- **Reading back sections**: when each entry about a parameter notes what the content says about
    it, and likewise for the returned value, the sections give the content. -/
theorem read?_sections (hmarked : content.IsMarked) (hdeeper : 0 < deeper)
    (hparamHead : ∀ p, IsLine (paramBlock p).head)
    (hreturnHead : ∀ r, IsLine (returnBlock r).head)
    (hpre : marks.Quiet content.description)
    (hparams : marks.Quiet (marks.body entry deeper (content.params.map paramBlock)))
    (hreturns : marks.Quiet (marks.body entry deeper (content.returns.toList.map returnBlock)))
    (hnote : ∀ doc p, format.noteParam doc (paramBlock p).entry =
      doc.onParam (String.ofList p.name.text) fun _ => p.entry hintOf)
    (hnone : format.returned? [] = none)
    (hsome : ∀ r, format.returned? [(returnBlock r).entry] = some r.entry) :
    format.read? (sectionOutline marks
        (content.sectionLines marks entry deeper paramBlock returnBlock)) =
      some (content.docstring hintOf (some format.style)) := by
  obtain ⟨trailing, trailing', htrailing, htrailing', hof⟩ :=
    SectionMarks.of_sections hpre hparams hreturns
  have hparamBlocks : ∀ b ∈ content.params.map paramBlock, IsLine b.head :=
    List.forall_mem_map.2 fun p _ => hparamHead p
  have hreturnBlocks : ∀ b ∈ content.returns.toList.map returnBlock, IsLine b.head :=
    List.forall_mem_map.2 fun r _ => hreturnHead r
  have hreturned : format.returned? ((content.returns.toList.map returnBlock).map Block.entry) =
      content.returns.map ReturnDoc.entry := by
    cases content.returns with
    | none => exact hnone
    | some r => exact hsome r
  rw [sectionOutline, sectionLines, hof, SectionFormat.read?,
    if_pos (any_sections hmarked trailing')]
  simp only [List.map_append, List.foldl_append]
  rw [SectionMarks.foldl_note_params format hdeeper hparamBlocks htrailing',
    foldl_noteParam htrailing hnote,
    SectionMarks.foldl_note_returned format hnone hdeeper hreturnBlocks (.inl rfl), hreturned]
  unfold docstring
  cases content.returns <;> rfl

end Content

end CallSchema
