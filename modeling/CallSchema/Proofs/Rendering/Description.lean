import CallSchema.Docstring.Entry
import CallSchema.Docstring.Paragraph
import CallSchema.Proofs.Rendering.CleanRender
import CallSchema.Proofs.Table

/-!
# Reading back the description

The description of a rendering, with or without the empty line that a marked part puts below it, is
read as the paragraphs of the content. The lines of a block, however they are indented, unwrap to
the text of one description. What the marked parts add to the docstring is a value for each
parameter in turn.

## Main definitions

* `firstText`, `Block.behind` -- the first description line of a block, and how it is put behind a
  label
-/

namespace CallSchema

open Text

namespace Paragraph

theorem runs_append {paragraph : List Text} (hne : paragraph ≠ [])
    (h : ∀ l ∈ paragraph, allBlank l = false) (rest : List Text) :
    runs (paragraph ++ [] :: rest) = paragraph :: runs rest := by
  rw [runs, List.splitOnP_append_cons_of_forall_mem h [] rfl, List.filter_cons_of_pos, runs]
  simpa using hne

theorem runs_of_not_blank {paragraph : List Text} (hne : paragraph ≠ [])
    (h : ∀ l ∈ paragraph, allBlank l = false) : runs paragraph = [paragraph] := by
  rw [runs, List.splitOnP_eq_singleton h]
  simpa using hne

/-- Parts with empty lines between them, and possibly below them, are the runs of their lines. -/
theorem runs_append_below {part : List Text} {parts : List (List Text)} {trailing : List Text}
    (hpart : IsPart part) (hparts : ∀ p ∈ parts, IsPart p)
    (htrailing : trailing = [] ∨ trailing = [[]]) :
    runs (part ++ (below parts ++ trailing)) = part :: parts := by
  have hne : ∀ p, IsPart p → p ≠ [] ∧ ∀ l ∈ p, allBlank l = false := by
    intro p hp
    constructor
    · obtain ⟨first, later, rfl, -, -⟩ := hp
      exact List.cons_ne_nil first later
    · exact fun l hl => (hp.isIndented_of_mem l hl).not_allBlank
  -- on the later parts: the empty line in front of each ends the run before it
  induction parts generalizing part with
  | nil =>
    obtain ⟨hpart, hlines⟩ := hne part hpart
    rcases htrailing with rfl | rfl
    · simpa using runs_of_not_blank hpart hlines
    · exact runs_append hpart hlines []
  | cons next parts ih =>
    obtain ⟨hpart, hlines⟩ := hne part hpart
    have ih := ih (hparts next List.mem_cons_self) fun p hp => hparts p (List.mem_cons_of_mem _ hp)
    rw [below_cons, List.cons_append, runs_append hpart hlines, List.append_assoc, ih]

end Paragraph

namespace Content

variable (content : Content)

theorem map_trim_paragraphLines (paragraph : List ProseLine) :
    (paragraphLines paragraph).map trim = paragraphLines paragraph := by
  rw [paragraphLines, List.map_map]
  exact List.map_congr_left fun l _ => l.isLine.trim_eq

/-- The paragraphs of the description are those of the content. -/
theorem all_description {trailing : List Text} (htrailing : trailing = [] ∨ trailing = [[]]) :
    Paragraph.all (content.description ++ trailing) = content.paragraphs.map paragraphText := by
  have hlong : ∀ part ∈ content.long.map paragraphLines, IsPart part := by
    intro part hpart
    obtain ⟨paragraph, hmem, rfl⟩ := List.mem_map.1 hpart
    exact isPart_paragraphLines (content.long_ne_nil paragraph hmem)
  have hruns : Paragraph.runs (content.description ++ trailing) =
      content.paragraphs.map paragraphLines := by
    rw [description, List.append_assoc,
      Paragraph.runs_append_below (isPart_paragraphLines content.short_ne_nil) hlong htrailing]
    rfl
  rw [Paragraph.all, hruns, List.map_map]
  apply List.map_congr_left
  intro paragraph _
  change [' '].intercalate ((paragraphLines paragraph).map trim) = paragraphText paragraph
  rw [map_trim_paragraphLines, paragraphText, joined, List.map_map]
  rfl

theorem mem_description {l : Text} (hl : l ∈ content.description) :
    l = [] ∨ ∃ m : ProseLine, l = m.text := by
  rcases List.mem_append.1 hl with hl | hl
  · obtain ⟨m, -, rfl⟩ := List.mem_map.1 hl
    exact .inr ⟨m, rfl⟩
  · obtain ⟨part, hpart, hl⟩ := List.mem_flatMap.1 hl
    obtain ⟨paragraph, -, rfl⟩ := List.mem_map.1 hpart
    rcases List.mem_cons.1 hl with rfl | hl
    · exact .inl rfl
    · obtain ⟨m, -, rfl⟩ := List.mem_map.1 hl
      exact .inr ⟨m, rfl⟩

/-- What the description gives when it is all that there is to read. -/
theorem ofDescription_description {trailing : List Text}
    (htrailing : trailing = [] ∨ trailing = [[]]) (style : Option Style)
    (hintOf : Text → Option TypeHint) :
    Docstring.ofDescription style (content.description ++ trailing) =
      { content.docstring hintOf style with params := Table.empty, returns := none } := by
  have hall := content.all_description htrailing
  unfold Docstring.ofDescription docstring
  congr 1
  · rw [Paragraph.short, hall]
    rfl
  · rw [Paragraph.long?, hall, paragraphs, List.map_cons, List.tail_cons]
    cases content.long with
    | nil => rfl
    | cons paragraph later => rfl

end Content

/-! ### The text of a block -/

/-- The first of several description lines, or nothing. -/
def firstText : List Line → Text
  | [] => []
  | first :: _ => first.text

namespace Block

/-- What stands behind the label of a block. -/
def behind : List Line → Text
  | [] => []
  | first :: _ => ' ' :: first.text

theorem labelled_head (label : Text) (ls : List Line) :
    (labelled label ls).head = label ++ behind ls := by
  cases ls with
  | nil => exact (List.append_nil label).symm
  | cons first later => exact List.append_assoc label [' '] first.text

theorem labelled_below (label : Text) (ls : List Line) : (labelled label ls).below = ls.tail := by
  cases ls <;> rfl

theorem trimStart_behind (ls : List Line) : trimStart (behind ls) = firstText ls := by
  cases ls with
  | nil => rfl
  | cons first later =>
    rw [behind, trimStart_cons_of_blank _ isBlank_space, first.isLine.trimStart_eq, firstText]

end Block

/-- Lines unwrap to their joined text, however they are indented. -/
theorem unwrap_eq_joined {pieces : List Text} {ls : List Line}
    (h : pieces.map trim = ls.map (·.text)) : unwrap pieces = joined ls := by
  have hfilter : (ls.map (·.text)).filter (!·.isEmpty) = ls.map (·.text) := by
    apply List.filter_eq_self.2
    intro l hl
    obtain ⟨m, -, rfl⟩ := List.mem_map.1 hl
    simpa using m.isLine.ne_nil
  rw [unwrap, h, hfilter, joined]

/-- The text of a block, with the lines below it, unwraps to the joined text. -/
theorem unwrap_firstText {pieces : List Text} {ls : List Line}
    (h : pieces.map trim = ls.tail.map (·.text)) : unwrap (firstText ls :: pieces) = joined ls := by
  cases ls with
  | nil =>
    obtain rfl : pieces = [] := List.map_eq_nil_iff.1 h
    rfl
  | cons first later =>
    apply unwrap_eq_joined
    rw [List.map_cons, firstText, first.isLine.trim_eq, h, List.map_cons, List.tail_cons]

theorem map_trim_text (ls : List Line) : (ls.map (·.text)).map trim = ls.map (·.text) := by
  rw [List.map_map]
  exact List.map_congr_left fun l _ => l.isLine.trim_eq

theorem map_trim_below (width : Nat) (ls : List Line) :
    (ls.map fun l => List.replicate width ' ' ++ l.text).map trim = ls.map (·.text) := by
  rw [List.map_map]
  apply List.map_congr_left
  intro l _
  change trim (List.replicate width ' ' ++ l.text) = l.text
  rw [trim_of_allBlank_append _ (allBlank_replicate_space width), l.isLine.trim_eq]

namespace ParamDoc

variable (p : ParamDoc)

theorem mem_written {c : Char} (hc : c ∈ p.written) : c = '*' ∨ isWord c = true := by
  rcases List.mem_append.1 hc with hc | hc
  · exact .inl (List.mem_replicate.1 hc).2
  · exact .inr (p.name.isWord c hc)

theorem colon_notMem_written : ':' ∉ p.written := by
  intro hc
  rcases p.mem_written hc with h | h
  · cases h
  · exact absurd h (by decide)

/-- The stars are all that stands in front of the name. -/
theorem bareName_written : Entry.bareName p.written = p.name.text :=
  dropWhile_trim_starred p.name.isWord p.stars

end ParamDoc

/-! ### Values for new names -/

namespace Docstring

variable {α : Type}

/-- Two changes of the entry of one parameter are one change. -/
theorem onParam_onParam (doc : Docstring) (name : String) (f g : DocEntry → DocEntry) :
    (doc.onParam name f).onParam name g = doc.onParam name fun entry => g (f entry) := by
  unfold onParam
  rw [Table.alter_alter]
  rfl

/-- Steps that each change the entry of one parameter change nothing but the table of them. -/
theorem foldl_onParam {items : List α} {step : Docstring → α → Docstring} {name : α → String}
    {value : α → DocEntry → DocEntry}
    (hstep : ∀ doc, ∀ a ∈ items, step doc a = doc.onParam (name a) (value a)) (doc : Docstring) :
    items.foldl step doc =
      { doc with
        params := items.foldl
          (fun t a => t.alter (name a) fun entry => value a (entry.getD default)) doc.params } := by
  induction items generalizing doc with
  | nil => rfl
  | cons a items ih =>
    have ih := ih fun doc b hb => hstep doc b (List.mem_cons_of_mem a hb)
    rw [List.foldl_cons, List.foldl_cons, hstep doc a List.mem_cons_self, ih]
    rfl

end Docstring

namespace Content

/-- Steps that each note one parameter turn the description into the whole docstring, but for the
    returned value. -/
theorem foldl_step (content : Content) {step : Docstring → ParamDoc → Docstring}
    {hintOf : Text → Option TypeHint} {value : ParamDoc → DocEntry → DocEntry}
    (hstep : ∀ doc p, step doc p = doc.onParam (String.ofList p.name.text) (value p))
    (hvalue : ∀ p, value p default = p.entry hintOf) {doc : Docstring}
    (hdoc : doc.params = Table.empty) :
    content.params.foldl step doc =
      { doc with params := ⟨content.entries hintOf, content.nodup_names hintOf⟩ } := by
  -- as the names are new and distinct, each step adds its entry at the end of the table
  have hdistinct : (content.params.map fun p => String.ofList p.name.text).Nodup := by
    have hnames := content.nodup_names hintOf
    rwa [entries, List.map_map] at hnames
  rw [Docstring.foldl_onParam fun doc p _ => hstep doc p]
  congr 1
  apply Table.ext
  rw [hdoc, Table.entries_foldl_alter _ hdistinct (by simp)]
  simp only [Option.getD_none, hvalue]
  rfl

end Content

end CallSchema
