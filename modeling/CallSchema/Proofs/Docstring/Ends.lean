import CallSchema.Docstring.Read
import CallSchema.Proofs.Docstring.Grouping
import CallSchema.Proofs.Docstring.Paragraphs
import CallSchema.Proofs.Layout.Bare
import CallSchema.Proofs.Layout.Clean

/-!
# Empty lines at the ends of a text

Cleaning drops the empty lines at both ends of a text. No style would have read anything else from
the text with them (`Docstring.ofLines_dropEmptyEnds`): empty lines above join the description, and
those below join the last part, where blank lines do not count. What a raw text is read as can
therefore be told from its flush lines, in which every line still stands in its place.

## Main definitions

* `Layout.flushLines` -- the lines of a raw text, flush left
* `Outline.dropBlank` -- a section without its blank lines
-/

namespace CallSchema

open Text Layout

/-- The lines of a raw text without their margin, the empty ones at both ends included. -/
def Layout.flushLines (raw : Text) : List Text :=
  dedent ((lines raw).map expandTabs)

theorem Layout.clean_eq_flushLines (raw : Text) : clean raw = dropEmptyEnds (flushLines raw) := rfl

variable {ls ls' es : List Text}

/-! ### Descriptions -/

namespace Paragraph

theorem runs_append_of_forall_eq_nil (ls : List Text) (hes : ∀ l ∈ es, l = []) :
    runs (ls ++ es) = runs ls := by
  cases es with
  | nil => rw [List.append_nil]
  | cons e es =>
    have he : allBlank e = true := by rw [hes e List.mem_cons_self, allBlank_nil]
    have hrest : runs es = [] := runs_eq_nil_iff.2 fun l hl => by
      rw [hes l (List.mem_cons_of_mem e hl), allBlank_nil]
    rw [runs, List.splitOnP_append_cons ls es he, List.filter_append, ← runs, ← runs, hrest,
      List.append_nil]

theorem runs_append_right (ls : List Text) (hes : ∀ l ∈ es, l = []) :
    runs (es ++ ls) = runs ls := by
  induction es with
  | nil => rfl
  | cons e es ih =>
    have he : allBlank e = true := by rw [hes e List.mem_cons_self, allBlank_nil]
    rw [List.cons_append, runs_cons_of_allBlank _ he,
      ih fun l hl => hes l (List.mem_cons_of_mem e hl)]

end Paragraph

theorem Docstring.ofDescription_congr (style : Option Style)
    (h : Paragraph.runs ls' = Paragraph.runs ls) :
    ofDescription style ls' = ofDescription style ls := by
  have hall : Paragraph.all ls' = Paragraph.all ls := by
    rw [Paragraph.all, Paragraph.all, h]
  simp only [ofDescription, Paragraph.short, Paragraph.long?, hall]

/-! ### Outlines -/

namespace Outline

variable {β : Type} {heading? : List Text → Option β}

/-- The section without its blank lines. -/
def dropBlank (part : β × List Text) : β × List Text :=
  (part.1, part.2.filter (!allBlank ·))

theorem dropBlank_append (heading : β) (body : List Text) (hes : ∀ l ∈ es, l = []) :
    dropBlank (heading, body ++ es) = dropBlank (heading, body) := by
  have hfilter : es.filter (!allBlank ·) = [] := by
    rw [List.filter_eq_nil_iff]
    intro l hl
    rw [hes l hl, allBlank_nil]
    decide
  rw [dropBlank, dropBlank, List.filter_append, hfilter, List.append_nil]

/-- Empty lines below a text go to its last part. -/
theorem of_append_of_forall_eq_nil {γ : Type} {g : β × List Text → γ}
    (hempty : ∀ s, heading? ([] :: s) = none)
    (hend : ∀ a s es, (∀ l ∈ es, l = []) → heading? (a :: (s ++ es)) = heading? (a :: s))
    (hg : ∀ heading body es, (∀ l ∈ es, l = []) → g (heading, body ++ es) = g (heading, body))
    (hes : ∀ l ∈ es, l = []) (ls : List Text) :
    (∃ fs, (∀ l ∈ fs, l = []) ∧
        (of heading? (ls ++ es)).preamble = (of heading? ls).preamble ++ fs) ∧
      (of heading? (ls ++ es)).sections.map g = (of heading? ls).sections.map g := by
  induction ls with
  | nil =>
    have hof : of heading? es = ⟨es, []⟩ := by
      have hquiet : ∀ s a t, es = s ++ a :: t → heading? (a :: (t ++ [])) = none := by
        intro s a t hs
        rw [hes a (by simp [hs])]
        exact hempty _
      simpa using of_append hquiet
    rw [List.nil_append, hof]
    exact ⟨⟨es, hes, rfl⟩, rfl⟩
  | cons a ls ih =>
    obtain ⟨⟨fs, hfs, hpreamble⟩, hsections⟩ := ih
    have hsame := hend a ls es hes
    rw [List.cons_append]
    cases hhead : heading? (a :: ls) with
    | none =>
      rw [of_cons_none (hsame.trans hhead), of_cons_none hhead]
      exact ⟨⟨fs, hfs, congrArg (a :: ·) hpreamble⟩, hsections⟩
    | some heading =>
      rw [of_cons_some (hsame.trans hhead), of_cons_some hhead, List.map_cons, List.map_cons,
        hsections, hpreamble, hg heading _ fs hfs]
      exact ⟨⟨[], List.forall_mem_nil _, rfl⟩, rfl⟩

/-- Empty lines above a text go to its preamble. -/
theorem of_append_right (hempty : ∀ s, heading? ([] :: s) = none) (hes : ∀ l ∈ es, l = [])
    (ls : List Text) :
    of heading? (es ++ ls) =
      ⟨es ++ (of heading? ls).preamble, (of heading? ls).sections⟩ := by
  refine of_append fun s a t hs => ?_
  rw [hes a (by simp [hs])]
  exact hempty _

/-- Without its empty ends a text has the same parts, up to the blank lines in them. -/
theorem of_dropEmptyEnds {γ : Type} {g : β × List Text → γ}
    (hempty : ∀ s, heading? ([] :: s) = none)
    (hend : ∀ a s es, (∀ l ∈ es, l = []) → heading? (a :: (s ++ es)) = heading? (a :: s))
    (hg : ∀ heading body es, (∀ l ∈ es, l = []) → g (heading, body ++ es) = g (heading, body))
    (ls : List Text) :
    Paragraph.runs (of heading? (dropEmptyEnds ls)).preamble =
        Paragraph.runs (of heading? ls).preamble ∧
      (of heading? (dropEmptyEnds ls)).sections.map g = (of heading? ls).sections.map g := by
  obtain ⟨above, below, habove, hbelow, hsplit⟩ := exists_append_dropEmptyEnds ls
  obtain ⟨⟨fs, hfs, hpreamble⟩, hsections⟩ :=
    of_append_of_forall_eq_nil hempty hend hg hbelow (dropEmptyEnds ls)
  have hof := of_append_right hempty habove (dropEmptyEnds ls ++ below)
  rw [← hsplit] at hof
  rw [hof]
  refine ⟨?_, hsections.symm⟩
  rw [Paragraph.runs_append_right _ habove, hpreamble, Paragraph.runs_append_of_forall_eq_nil _ hfs]

theorem ofItems_dropEmptyEnds (heading? : Text → Option β) (hempty : heading? [] = none)
    (ls : List Text) :
    Paragraph.runs (ofItems heading? (dropEmptyEnds ls)).preamble =
        Paragraph.runs (ofItems heading? ls).preamble ∧
      (ofItems heading? (dropEmptyEnds ls)).sections.map dropBlank =
        (ofItems heading? ls).sections.map dropBlank :=
  of_dropEmptyEnds (fun _ => hempty) (fun _ _ _ _ => rfl)
    (fun heading body _ hes => dropBlank_append heading body hes) ls

variable {sections sections' : List (β × List Text)}

theorem any_congr (p : β → Bool) (h : sections'.map dropBlank = sections.map dropBlank) :
    (sections'.any fun part => p part.1) = sections.any fun part => p part.1 := by
  have hany : ∀ parts : List (β × List Text), (parts.any fun part => p part.1) =
      (parts.map dropBlank).any fun part => p part.1 := fun parts => by
    rw [List.any_map]
    rfl
  rw [hany, hany sections, h]

/-- Steps that ignore blank lines add the same for sections that differ in blank lines. -/
theorem foldl_congr {γ : Type} {step : γ → β × List Text → γ}
    (hstep : ∀ doc part, step doc (dropBlank part) = step doc part)
    (h : sections'.map dropBlank = sections.map dropBlank) (doc : γ) :
    sections'.foldl step doc = sections.foldl step doc := by
  have hfoldl : ∀ parts : List (β × List Text), parts.foldl step doc =
      (parts.map dropBlank).foldl step doc := fun parts => by
    rw [List.foldl_map]
    simp only [hstep]
  rw [hfoldl, hfoldl sections, h]

end Outline

/-! ### The styles -/

theorem unwrap_filter_not_allBlank (l : Text) (ls : List Text) :
    unwrap (l :: ls.filter (!allBlank ·)) = unwrap (l :: ls) := by
  have hfilter : ((ls.filter (!allBlank ·)).map trim).filter (!·.isEmpty) =
      (ls.map trim).filter (!·.isEmpty) := by
    induction ls with
    | nil => rfl
    | cons m ls ih =>
      by_cases hm : allBlank m = true
      · rw [List.filter_cons_of_neg (by simp [hm]), ih, List.map_cons,
          List.filter_cons_of_neg (by simp [trim_eq_nil_iff.2 hm])]
      · have hne : trim m ≠ [] := fun hnil => hm (trim_eq_nil_iff.1 hnil)
        rw [List.filter_cons_of_pos (by simp [hm]), List.map_cons, List.map_cons,
          List.filter_cons_of_pos (by simp [hne]), List.filter_cons_of_pos (by simp [hne]), ih]
  rw [unwrap, unwrap, List.map_cons, List.map_cons, List.filter_cons, List.filter_cons, hfilter]

namespace FieldList

theorem note_dropBlank (doc : Docstring) (field : Field) :
    note doc (Outline.dropBlank field) = note doc field := by
  have htext : Field.text (Outline.dropBlank field) = field.text :=
    unwrap_filter_not_allBlank field.1.text field.2
  rw [note, note, htext]
  rfl

theorem read?_dropEmptyEnds (ls : List Text) : read? (dropEmptyEnds ls) = read? ls := by
  obtain ⟨hruns, hsections⟩ := Outline.ofItems_dropEmptyEnds FieldLine.ofLine? rfl ls
  have hdescription : Docstring.ofDescription (some .rest) (outline (dropEmptyEnds ls)).preamble =
      Docstring.ofDescription (some .rest) (outline ls).preamble :=
    Docstring.ofDescription_congr _ hruns
  have hany : ((outline (dropEmptyEnds ls)).sections.any fun field => (Field.topic? field).isSome) =
      (outline ls).sections.any fun field => (Field.topic? field).isSome :=
    Outline.any_congr (fun line : FieldLine => (FieldTopic.ofKey? line.key).isSome) hsections
  have hfoldl : ∀ doc, (outline (dropEmptyEnds ls)).sections.foldl note doc =
      (outline ls).sections.foldl note doc :=
    Outline.foldl_congr note_dropBlank hsections
  rw [read?, read?, hany, hfoldl, hdescription]

end FieldList

namespace SectionFormat

theorem note_dropBlank (format : SectionFormat) (doc : Docstring)
    (part : SectionTopic × List Text) :
    format.note doc (Outline.dropBlank part) = format.note doc part := by
  obtain ⟨topic, body⟩ := part
  cases topic with
  | aside => rfl
  | params =>
    change (Entry.ofLines (body.filter (!allBlank ·))).foldl format.noteParam doc = _
    rw [Entry.ofLines_filter_not_allBlank, note]
  | returned =>
    change { doc with
      returns := format.returned? (Entry.ofLines (body.filter (!allBlank ·))) <|> _ } = _
    rw [Entry.ofLines_filter_not_allBlank, note]

theorem read?_congr (format : SectionFormat) {parts parts' : Outline Text SectionTopic}
    (hpreamble : Paragraph.runs parts'.preamble = Paragraph.runs parts.preamble)
    (hsections : parts'.sections.map Outline.dropBlank = parts.sections.map Outline.dropBlank) :
    format.read? parts' = format.read? parts := by
  have hany := Outline.any_congr (fun topic => decide (topic ≠ .aside)) hsections
  rw [read?, read?, hany, Outline.foldl_congr format.note_dropBlank hsections,
    Docstring.ofDescription_congr _ hpreamble]

end SectionFormat

theorem Titled.read?_dropEmptyEnds (ls : List Text) : read? (dropEmptyEnds ls) = read? ls := by
  obtain ⟨hruns, hsections⟩ := Outline.ofItems_dropEmptyEnds topic? rfl ls
  exact format.read?_congr hruns hsections

/-- An underline is not empty, so that no section begins in front of an empty line. -/
theorem Underlined.topic?_append (a : Text) (s : List Text) (hes : ∀ l ∈ es, l = []) :
    topic? (a :: (s ++ es)) = topic? (a :: s) := by
  cases s with
  | cons u s => rfl
  | nil =>
    cases es with
    | nil => rfl
    | cons e es =>
      have hunderline : isUnderline e = false := by
        rw [hes e List.mem_cons_self]
        rfl
      change (if isTitle a && isUnderline e then _ else none) = none
      rw [hunderline, Bool.and_false]
      rfl

theorem Underlined.read?_dropEmptyEnds (ls : List Text) : read? (dropEmptyEnds ls) = read? ls := by
  let g (part : SectionTopic × List Text) : SectionTopic × List Text :=
    Outline.dropBlank (part.1, part.2.tail)
  have hg : ∀ topic body es, (∀ l ∈ es, l = []) → g (topic, body ++ es) = g (topic, body) := by
    intro topic body es hes
    cases body with
    | nil => exact Outline.dropBlank_append topic [] fun l hl => hes l (List.mem_of_mem_tail hl)
    | cons l body => exact Outline.dropBlank_append topic body hes
  have hempty : ∀ s, topic? ([] :: s) = none := fun s => by cases s <;> rfl
  obtain ⟨hruns, hsections⟩ :=
    Outline.of_dropEmptyEnds hempty (fun a s es hes => topic?_append a s hes) hg ls
  refine format.read?_congr hruns ?_
  change ((underlinedParts _).sections.map _).map _ = ((underlinedParts _).sections.map _).map _
  rw [List.map_map, List.map_map]
  exact hsections

theorem Style.read?_dropEmptyEnds (style : Style) (ls : List Text) :
    style.read? (dropEmptyEnds ls) = style.read? ls := by
  cases style with
  | rest => exact FieldList.read?_dropEmptyEnds ls
  | google => exact Titled.read?_dropEmptyEnds ls
  | numpy => exact Underlined.read?_dropEmptyEnds ls

namespace Docstring

/-- **Empty ends**: a text reads the same with and without the empty lines at its ends. -/
theorem ofLines_dropEmptyEnds (style : Option Style) (ls : List Text) :
    ofLines style (dropEmptyEnds ls) = ofLines style ls := by
  have hruns : Paragraph.runs (dropEmptyEnds ls) = Paragraph.runs ls := by
    obtain ⟨above, below, habove, hbelow, hsplit⟩ := exists_append_dropEmptyEnds ls
    conv => rhs; rw [hsplit]
    rw [Paragraph.runs_append_right _ habove, Paragraph.runs_append_of_forall_eq_nil _ hbelow]
  rw [ofLines, ofLines, ofDescription_congr none hruns]
  simp only [Style.read?_dropEmptyEnds]

theorem ofLines_some (style : Style) (ls : List Text) :
    ofLines (some style) ls = (style.read? ls).getD (ofDescription none ls) := by
  rw [ofLines, stylesToTry, List.findSome?_singleton]

theorem ofLines_clean (style : Option Style) (raw : Text) :
    ofLines style (clean raw) = ofLines style (flushLines raw) := by
  rw [clean_eq_flushLines, ofLines_dropEmptyEnds]

end Docstring

end CallSchema
