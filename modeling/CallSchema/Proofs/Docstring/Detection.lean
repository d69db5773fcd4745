import CallSchema.Proofs.Docstring.Marks
import CallSchema.Proofs.Outline

/-!
# Which style is detected

A style claims a text exactly when a part about a parameter or the returned value begins at one of
its lines. Without a choice of style the first of the three that claims the text is reported, and
with a choice only that style can be (`Docstring.style_eq_iff_detected`).

## Main definitions

* `Style.Marks` -- a part about a value begins at some line
* `Style.Detected` -- the style that is reported for a text
* `Style.lead` -- the lines in front of the first part
* `Docstring.withoutEntries` -- a docstring without its parameters and returned value
-/

namespace CallSchema

open Text

namespace Style

/-- A part about a parameter or the returned value begins at some line. -/
def Marks (style : Style) (ls : List Text) : Prop :=
  ∃ rest, rest <:+ ls ∧ style.ValuePartAt rest

/-- The style that is reported, given the one that is asked for and the lines of a text. -/
inductive Detected : Option Style → List Text → Option Style → Prop
  | rest {ls : List Text} (h : rest.Marks ls) : Detected none ls (some rest)
  | google {ls : List Text} (hrest : ¬rest.Marks ls) (h : google.Marks ls) :
      Detected none ls (some google)
  | numpy {ls : List Text} (hrest : ¬rest.Marks ls) (hgoogle : ¬google.Marks ls)
      (h : numpy.Marks ls) : Detected none ls (some numpy)
  | unmarked {ls : List Text} (hrest : ¬rest.Marks ls) (hgoogle : ¬google.Marks ls)
      (hnumpy : ¬numpy.Marks ls) : Detected none ls none
  | chosen {style : Style} {ls : List Text} (h : style.Marks ls) :
      Detected (some style) ls (some style)
  | chosenUnmarked {style : Style} {ls : List Text} (h : ¬style.Marks ls) :
      Detected (some style) ls none

variable {style : Style} {choice : Option Style} {ls : List Text}

theorem Detected.marks (h : Detected choice ls (some style)) : style.Marks ls := by
  cases h <;> assumption

/-- At most one style is reported. -/
theorem Detected.unique {reported other : Option Style} (h : Detected choice ls reported)
    (h' : Detected choice ls other) : reported = other := by
  cases h <;> cases h' <;> first | rfl | contradiction

/-- A style finds its markers exactly when a part about a value begins somewhere. -/
theorem isSome_read?_iff : (style.read? ls).isSome = true ↔ style.Marks ls := by
  have hite : ∀ (p : Bool) (doc : Docstring),
      (if p = true then some doc else none).isSome = p := fun p _ => by cases p <;> rfl
  have hsections : ∀ heading? : List Text → Option SectionTopic, heading? [] = none →
      ((Outline.of heading? ls).sections.any (fun part => decide (part.1 ≠ .aside)) = true ↔
        ∃ rest, rest <:+ ls ∧ ∃ topic, heading? rest = some topic ∧ topic ≠ .aside) := by
    intro heading? hnil
    simpa using Outline.any_sections_iff (p := fun topic => decide (topic ≠ .aside)) hnil
  cases style with
  | rest =>
    have hfields : ((FieldList.outline ls).sections.any
          fun field => (FieldTopic.ofKey? field.1.key).isSome) = true ↔
        ∃ rest, rest <:+ ls ∧ ∃ line, rest.head?.bind FieldLine.ofLine? = some line ∧
          (FieldTopic.ofKey? line.key).isSome = true :=
      Outline.any_sections_iff (p := fun line : FieldLine => (FieldTopic.ofKey? line.key).isSome)
        rfl
    simp only [Marks, FieldList.valuePartAt_iff]
    rw [← hfields]
    change (FieldList.read? ls).isSome = true ↔ _
    rw [FieldList.read?, hite]
    rfl
  | google =>
    simp only [Marks, Titled.valuePartAt_iff]
    rw [← hsections (fun rest => rest.head?.bind Titled.topic?) rfl]
    change (Titled.read? ls).isSome = true ↔ _
    rw [Titled.read?, SectionFormat.read?, hite]
    rfl
  | numpy =>
    simp only [Marks, Underlined.valuePartAt_iff]
    rw [← hsections Underlined.topic? rfl]
    change (Underlined.read? ls).isSome = true ↔ _
    rw [Underlined.read?, SectionFormat.read?, hite, Underlined.outline, List.any_map]
    rfl

theorem read?_eq_none (h : ¬style.Marks ls) : style.read? ls = none := by
  rwa [← isSome_read?_iff, Bool.not_eq_true, Option.isSome_eq_false_iff, Option.isNone_iff_eq_none]
    at h

theorem exists_read?_eq_some (h : style.Marks ls) : ∃ doc, style.read? ls = some doc :=
  Option.isSome_iff_exists.1 (isSome_read?_iff.2 h)

/-! ### The lines in front of the first part -/

/-- The lines in front of the first part. -/
def lead : Style → List Text → List Text
  | rest, ls => (FieldList.outline ls).preamble
  | google, ls => (Titled.outline ls).preamble
  | numpy, ls => (Underlined.outline ls).preamble

/-- The text is divided at headings, which are where the parts begin. -/
theorem exists_heading (style : Style) : ∃ (β : Type) (heading? : List Text → Option β),
    (∀ ls, style.lead ls = (Outline.of heading? ls).preamble) ∧
      ∀ ls, style.PartAt ls ↔ (heading? ls).isSome = true := by
  cases style with
  | rest => exact ⟨FieldLine, _, fun _ => rfl, fun _ => FieldList.partAt_iff⟩
  | google => exact ⟨SectionTopic, _, fun _ => rfl, fun _ => Titled.partAt_iff⟩
  | numpy => exact ⟨SectionTopic, _, fun _ => rfl, fun _ => Underlined.partAt_iff⟩

/-- These lines are in front of the first part, which begins with the rest. -/
structure FirstPart (style : Style) (before rest : List Text) : Prop where
  partAt : style.PartAt rest
  not_partAt : ∀ s t, before = s ++ t → t ≠ [] → ¬style.PartAt (t ++ rest)

theorem FirstPart.lead_eq {before rest : List Text} (h : style.FirstPart before rest) :
    style.lead (before ++ rest) = before := by
  obtain ⟨β, heading?, hlead, hpart⟩ := exists_heading style
  rw [hlead]
  refine Outline.preamble_of_append (fun s a t hs => ?_) ((hpart rest).1 h.partAt)
  have hnot := h.not_partAt s (a :: t) hs (List.cons_ne_nil a t)
  rwa [hpart, Bool.not_eq_true, Option.isSome_eq_false_iff, Option.isNone_iff_eq_none] at hnot

/-- A text with a part about a value has a first part. -/
theorem Marks.exists_firstPart (h : style.Marks ls) :
    ∃ before rest, ls = before ++ rest ∧ style.FirstPart before rest := by
  obtain ⟨β, heading?, -, hpart⟩ := exists_heading style
  obtain ⟨rest, hsplit, hquiet, hmark⟩ := Outline.exists_preamble_append heading? ls
  have hnot : ∀ s t, (Outline.of heading? ls).preamble = s ++ t → t ≠ [] →
      ¬style.PartAt (t ++ rest) := by
    intro s t hs hne
    obtain ⟨a, t, rfl⟩ := List.exists_cons_of_ne_nil hne
    rw [hpart, Bool.not_eq_true, Option.isSome_eq_false_iff, Option.isNone_iff_eq_none]
    exact hquiet s a t hs
  refine ⟨_, rest, hsplit, (hpart rest).2 (hmark ?_), hnot⟩
  -- with nothing left over, the part about a value would begin in the preamble
  rintro rfl
  obtain ⟨found, ⟨s, hfound⟩, hvalue⟩ := h
  rw [List.append_nil] at hsplit
  refine hnot s found (by rw [← hsplit, hfound]) ?_ (by simpa using hvalue.partAt)
  rintro rfl
  cases hvalue

end Style

/-! ### What the parts leave alone -/

namespace Docstring

/-- The docstring without its parameters and its returned value. -/
def withoutEntries (doc : Docstring) : Docstring :=
  { doc with params := Table.empty, returns := none }

variable {α : Type}

theorem withoutEntries_foldl {step : Docstring → α → Docstring}
    (hstep : ∀ doc a, (step doc a).withoutEntries = doc.withoutEntries) (items : List α)
    (doc : Docstring) : (items.foldl step doc).withoutEntries = doc.withoutEntries := by
  induction items generalizing doc with
  | nil => rfl
  | cons a items ih => rw [List.foldl_cons, ih, hstep]

end Docstring

theorem FieldList.withoutEntries_note (doc : Docstring) (field : Field) :
    (note doc field).withoutEntries = doc.withoutEntries := by
  unfold note
  split <;> rfl

theorem Titled.withoutEntries_noteParam (doc : Docstring) (entry : Entry) :
    (noteParam doc entry).withoutEntries = doc.withoutEntries := by
  unfold noteParam
  split <;> rfl

theorem Underlined.withoutEntries_noteParams (doc : Docstring) (entry : Entry) :
    (noteParams doc entry).withoutEntries = doc.withoutEntries := by
  unfold noteParams
  split
  · rfl
  · apply Docstring.withoutEntries_foldl
    intro doc name
    rfl

theorem SectionFormat.withoutEntries_note {format : SectionFormat}
    (hparam : ∀ doc entry, (format.noteParam doc entry).withoutEntries = doc.withoutEntries)
    (doc : Docstring) (part : SectionTopic × List Text) :
    (format.note doc part).withoutEntries = doc.withoutEntries := by
  obtain ⟨topic, body⟩ := part
  cases topic with
  | params => exact Docstring.withoutEntries_foldl hparam _ doc
  | returned => rfl
  | aside => rfl

theorem SectionFormat.withoutEntries_of_read? {format : SectionFormat}
    {parts : Outline Text SectionTopic} {doc : Docstring}
    (hparam : ∀ doc entry, (format.noteParam doc entry).withoutEntries = doc.withoutEntries)
    (h : format.read? parts = some doc) :
    doc.withoutEntries = Docstring.ofDescription (some format.style) parts.preamble := by
  obtain ⟨-, rfl⟩ := read?_eq_some_iff.1 h
  rw [Docstring.withoutEntries_foldl (withoutEntries_note hparam)]
  rfl

/-- Apart from its entries, what a style reads is the description in front of the first part. -/
theorem Style.withoutEntries_of_read? {style : Style} {ls : List Text} {doc : Docstring}
    (h : style.read? ls = some doc) :
    doc.withoutEntries = Docstring.ofDescription (some style) (style.lead ls) := by
  cases style with
  | rest =>
    obtain ⟨-, rfl⟩ := FieldList.read?_eq_some_iff.1 h
    rw [Docstring.withoutEntries_foldl FieldList.withoutEntries_note]
    rfl
  | google => exact SectionFormat.withoutEntries_of_read? Titled.withoutEntries_noteParam h
  | numpy => exact SectionFormat.withoutEntries_of_read? Underlined.withoutEntries_noteParams h

/-! ### What is reported -/

namespace Docstring

variable {choice reported : Option Style} {ls : List Text}

theorem style_of_read? {style : Style} {doc : Docstring} (h : style.read? ls = some doc) :
    doc.style = some style :=
  congrArg Docstring.style (Style.withoutEntries_of_read? h)

/-- A text is read in the style that is reported for it. -/
theorem read?_of_detected {style : Style} (h : Style.Detected choice ls (some style)) :
    style.read? ls = some (ofLines choice ls) := by
  obtain ⟨doc, hdoc⟩ := Style.exists_read?_eq_some h.marks
  rw [hdoc, Option.some.injEq, ofLines]
  cases h with
  | rest h => simp [stylesToTry, Style.all, hdoc]
  | google hrest h => simp [stylesToTry, Style.all, Style.read?_eq_none hrest, hdoc]
  | numpy hrest hgoogle h =>
    simp [stylesToTry, Style.all, Style.read?_eq_none hrest, Style.read?_eq_none hgoogle, hdoc]
  | chosen h => simp [stylesToTry, hdoc]

/-- A text for which no style is reported is a description. -/
theorem ofLines_of_detected_none (h : Style.Detected choice ls none) :
    ofLines choice ls = ofDescription none ls := by
  rw [ofLines]
  cases h with
  | unmarked hrest hgoogle hnumpy =>
    simp [stylesToTry, Style.all, Style.read?_eq_none hrest, Style.read?_eq_none hgoogle,
      Style.read?_eq_none hnumpy]
  | chosenUnmarked h => simp [stylesToTry, Style.read?_eq_none h]

theorem detected_style (choice : Option Style) (ls : List Text) :
    Style.Detected choice ls (ofLines choice ls).style := by
  have hexists : ∃ reported, Style.Detected choice ls reported := by
    cases choice with
    | some style =>
      by_cases h : style.Marks ls
      · exact ⟨_, .chosen h⟩
      · exact ⟨_, .chosenUnmarked h⟩
    | none =>
      by_cases hrest : Style.rest.Marks ls
      · exact ⟨_, .rest hrest⟩
      · by_cases hgoogle : Style.google.Marks ls
        · exact ⟨_, .google hrest hgoogle⟩
        · by_cases hnumpy : Style.numpy.Marks ls
          · exact ⟨_, .numpy hrest hgoogle hnumpy⟩
          · exact ⟨_, .unmarked hrest hgoogle hnumpy⟩
  obtain ⟨reported, h⟩ := hexists
  cases reported with
  | none => rwa [ofLines_of_detected_none h]
  | some style => rwa [style_of_read? (read?_of_detected h)]

theorem style_ofLines_iff : (ofLines choice ls).style = reported ↔
    Style.Detected choice ls reported :=
  ⟨fun h => h ▸ detected_style choice ls, fun h => (detected_style choice ls).unique h⟩

theorem read_eq_ok_iff {function raw : String} {doc : Docstring} :
    read function (some raw) choice = .ok doc ↔
      ofLines choice (Layout.clean raw.toList) = doc ∧ doc.short ≠ "" := by
  rw [read]
  split
  · next h =>
    refine ⟨nofun, ?_⟩
    rintro ⟨rfl, hne⟩
    exact absurd h hne
  · next h =>
    rw [Except.ok.injEq]
    exact ⟨fun hdoc => ⟨hdoc, hdoc ▸ h⟩, And.left⟩

/-- **Detection**: the style of a docstring is the first one that marks a part about a value, or
    the one asked for where it does. Without a style there are no entries, and asking for the style
    that was found gives the same docstring. -/
theorem style_eq_iff_detected {function raw : String} {doc : Docstring}
    (hread : read function (some raw) choice = .ok doc) :
    (∀ reported, doc.style = reported ↔
      Style.Detected choice (Layout.clean raw.toList) reported) ∧
    (doc.style = none → doc.params = Table.empty ∧ doc.returns = none) ∧
    ∀ style, doc.style = some style → read function (some raw) (some style) = .ok doc := by
  obtain ⟨rfl, hshort⟩ := read_eq_ok_iff.1 hread
  refine ⟨fun reported => style_ofLines_iff, fun hnone => ?_, fun style hstyle => ?_⟩
  · rw [ofLines_of_detected_none (style_ofLines_iff.1 hnone)]
    exact ⟨rfl, rfl⟩
  · have hdetected := style_ofLines_iff.1 hstyle
    have hchosen := read?_of_detected (Style.Detected.chosen hdetected.marks)
    rw [read?_of_detected hdetected, Option.some.injEq] at hchosen
    exact read_eq_ok_iff.2 ⟨hchosen.symm, hshort⟩

/-- A field about something else leaves the text to the sections, of which the titled ones come
    first. -/
theorem style_eq_google_of_titled :
    let raw := "Short.\n\nArgs:\n  x: Size.\n\n:raises E: Never.\n\nReturns\n-------\nint"
    ∃ doc, read "f" (some raw) none = .ok doc ∧ doc.style = some .google ∧
      Style.Detected none (Layout.clean raw.toList) (some .google) ∧
      read "f" (some raw) (some .google) = .ok doc := by
  intro raw
  let doc : Docstring :=
    { style := some .google
      short := "Short."
      long := none
      params := .ofList [("x", { description := "Size." })] }
  have hread : read "f" (some raw) none = .ok doc := by decide +kernel
  obtain ⟨hdetected, -, hpinned⟩ := style_eq_iff_detected hread
  exact ⟨doc, hread, rfl, (hdetected _).1 rfl, hpinned .google rfl⟩

end Docstring

end CallSchema
