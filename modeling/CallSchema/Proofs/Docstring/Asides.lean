import CallSchema.Docstring.Titled
import CallSchema.Proofs.Docstring.Marks
import CallSchema.Proofs.Outline

/-!
# Sections that say nothing

A titled section ends where the next known title stands, and sections with a title about something
else say nothing. So lines that begin with such a title, or that stand in such a section, can be
deleted up to the next section on the parameters or the returned value. A line that only looks like
a title does not end a section: it is a line of it.

## Main definitions

* `Outline.valueSections` -- the sections about the parameters or the returned value
* `Titled.IsHeading`, `Titled.IsValueTitle`, `Titled.IsAsideTitle` -- lines that look like a title,
  and the titles about values and about something else
* `Titled.openTopic?` -- the topic of the section that goes on behind some lines

## Main statements

* `SectionFormat.read?_eq_of_valueSections_eq` -- only the description and the sections about values
  are read
* `Titled.valueSections_append_eq_iff` -- which headings can be deleted with the lines below them
-/

namespace CallSchema

open Text

/-! ### What is read of the sections -/

/-- The sections about the parameters or the returned value. -/
def Outline.valueSections (parts : Outline Text SectionTopic) : List (SectionTopic × List Text) :=
  parts.sections.filter (·.1 ≠ .aside)

namespace SectionFormat

theorem foldl_note_valueSections (format : SectionFormat) (parts : Outline Text SectionTopic)
    (doc : Docstring) :
    parts.valueSections.foldl format.note doc = parts.sections.foldl format.note doc := by
  rw [Outline.valueSections, List.foldl_filter]
  congr 1
  funext doc part
  obtain ⟨topic, body⟩ := part
  cases topic <;> rfl

/-- Only the lines before the first section and the sections about values are read. -/
theorem read?_eq_of_valueSections_eq (format : SectionFormat)
    {parts parts' : Outline Text SectionTopic}
    (hpreamble : parts.preamble = parts'.preamble)
    (hsections : parts.valueSections = parts'.valueSections) :
    format.read? parts = format.read? parts' := by
  have hany : ∀ parts : Outline Text SectionTopic,
      parts.sections.any (·.1 ≠ .aside) = !parts.valueSections.isEmpty := fun parts => by
    rw [Bool.eq_iff_iff, Outline.valueSections]
    simp
  rw [read?, read?, hany, hany, ← foldl_note_valueSections,
    ← foldl_note_valueSections format parts', hpreamble, hsections]

end SectionFormat

namespace Titled

/-! ### Titles -/

/-- A line that looks like a title: a capital letter, letters or spaces, and a colon. -/
def IsHeading (l : Text) : Prop :=
  ∃ first name, l = first :: (name ++ [':']) ∧ first.isUpper = true ∧
    name.all (fun c => c.isAlpha || c == ' ') = true

/-- The title of a section about the parameters or the returned value. -/
def IsValueTitle (l : Text) : Prop :=
  ∃ title ∈ ["Args", "Arguments", "Returns", "Return"], l = title.toList ++ [':']

instance (l : Text) : Decidable (IsValueTitle l) :=
  inferInstanceAs (Decidable (∃ title ∈ _, _))

/-- The title of a section about something else. -/
def IsAsideTitle (l : Text) : Prop :=
  ∃ title ∈ titles .aside, l = title.toList ++ [':']

instance (l : Text) : Decidable (IsAsideTitle l) :=
  inferInstanceAs (Decidable (∃ title ∈ _, _))

/-- The topic of the section that goes on behind the lines, if one has begun. -/
def openTopic? (ls : List Text) : Option SectionTopic :=
  (ls.filterMap topic?).getLast?

variable {l : Text}

theorem isValueTitle_iff : IsValueTitle l ↔ ∃ topic, topic? l = some topic ∧ topic ≠ .aside := by
  have hpart : Style.ValuePartAt .google [l] ↔ IsValueTitle l := by
    constructor
    · rintro (_ | ⟨-, h⟩ | _)
      exact ⟨_, h, rfl⟩
    · rintro ⟨title, htitle, rfl⟩
      exact .titled [] htitle
  rw [← hpart]
  exact valuePartAt_iff

theorem isAsideTitle_iff : IsAsideTitle l ↔ topic? l = some .aside :=
  topic?_eq_some_iff.symm

/-- A line that is not about values is no title, or the title of something else. -/
theorem topic?_cases (h : ¬IsValueTitle l) : topic? l = none ∨ topic? l = some .aside := by
  cases htopic : topic? l with
  | none => exact .inl rfl
  | some topic =>
    by_cases haside : topic = .aside
    · exact .inr (by rw [haside])
    · exact absurd (isValueTitle_iff.2 ⟨topic, htopic, haside⟩) h

/-! ### Lines without a title about values -/

variable {above below rest : List Text} {heading : Text} {topic : SectionTopic}

/-- Lines without a title about values begin no section about values. -/
theorem valueSections_below (hbelow : ∀ l ∈ below, ¬IsValueTitle l) (rest : List Text) :
    (outline (below ++ rest)).valueSections = (outline rest).valueSections := by
  induction below with
  | nil => rfl
  | cons l below ih =>
    obtain ⟨hl, hbelow⟩ := List.forall_mem_cons.1 hbelow
    rw [← ih hbelow, outline, List.cons_append]
    obtain hnone | haside := topic?_cases hl
    · rw [Outline.ofItems_cons_none hnone]
      rfl
    · rw [Outline.ofItems_cons_some haside]
      rfl

theorem preamble_of_head (hrest : ∀ l ∈ rest.head?, IsValueTitle l) :
    (outline rest).preamble = [] := by
  cases rest with
  | nil => rfl
  | cons l rest =>
    obtain ⟨topic, htopic, -⟩ := isValueTitle_iff.1 (hrest l rfl)
    rw [outline, Outline.ofItems_cons_some htopic]

/-- The section that goes on behind some lines. -/
theorem exists_open_section (h : openTopic? above = some topic) :
    ∃ init body, (outline above).sections = init ++ [(topic, body)] := by
  rw [openTopic?, ← Outline.ofItems_map_fst] at h
  obtain ⟨tops, htops⟩ := List.getLast?_eq_some_iff.1 h
  obtain ⟨init, last, hsections, -, hlast⟩ := List.map_eq_append_iff.1 htops
  obtain ⟨part, rfl, rfl⟩ := List.map_eq_singleton_iff.1 hlast
  exact ⟨init, part.2, hsections⟩

/-- A section that goes on says nothing, or it has the lines in front of the next title as well. -/
theorem valueSections_append (hopen : openTopic? above = some topic) :
    ∃ init body, ∀ rest, (outline (above ++ rest)).valueSections =
      init ++ ((if topic = .aside then [] else [(topic, body ++ (outline rest).preamble)]) ++
        (outline rest).valueSections) := by
  obtain ⟨init, body, hsections⟩ := exists_open_section hopen
  refine ⟨init.filter (·.1 ≠ .aside), body, fun rest => ?_⟩
  rw [outline, Outline.ofItems_append_of_concat hsections, Outline.valueSections,
    List.filter_append, List.filter_cons]
  by_cases haside : topic = .aside
  · simp [haside, Outline.valueSections, outline]
  · simp [haside, Outline.valueSections, outline]

/-- The preamble is empty exactly when the first line is a title. -/
theorem preamble_cons_eq_nil_iff (l : Text) (ls : List Text) :
    (outline (l :: ls)).preamble = [] ↔ (topic? l).isSome = true := by
  cases htopic : topic? l with
  | none => simp [outline, Outline.ofItems_cons_none htopic]
  | some topic => simp [outline, Outline.ofItems_cons_some htopic]

/-- **Which headings end a section**: the lines from a heading up to the next title about values
    leave all the sections about values as they are exactly when the heading is a known title or
    stands in a section that says nothing. Nothing else changes when they are deleted then. -/
theorem valueSections_append_eq_iff (hopen : openTopic? above = some topic)
    (hheading : ¬IsValueTitle heading) (hbelow : ∀ l ∈ below, ¬IsValueTitle l)
    (hrest : ∀ l ∈ rest.head?, IsValueTitle l) :
    ((outline (above ++ heading :: (below ++ rest))).valueSections =
        (outline (above ++ rest)).valueSections ↔ IsAsideTitle heading ∨ topic = .aside) ∧
      (IsAsideTitle heading ∨ topic = .aside →
        read? (above ++ heading :: (below ++ rest)) = read? (above ++ rest)) := by
  obtain ⟨init, body, happend⟩ := valueSections_append hopen
  have hlines : ∀ l ∈ heading :: below, ¬IsValueTitle l := List.forall_mem_cons.2 ⟨hheading, hbelow⟩
  have hsame := valueSections_below hlines rest
  have htitle : (topic? heading).isSome = true ↔ IsAsideTitle heading := by
    rw [isAsideTitle_iff]
    obtain hnone | haside := topic?_cases hheading
    · simp [hnone]
    · simp [haside]
  have hiff : (outline (above ++ heading :: (below ++ rest))).valueSections =
      (outline (above ++ rest)).valueSections ↔ IsAsideTitle heading ∨ topic = .aside := by
    rw [List.cons_append] at hsame
    rw [happend, happend, hsame, List.append_cancel_left_eq, List.append_cancel_right_eq,
      preamble_of_head hrest, ← htitle, ← preamble_cons_eq_nil_iff heading (below ++ rest)]
    by_cases haside : topic = .aside
    · simp [haside]
    · simp [haside]
  refine ⟨hiff, fun h => format.read?_eq_of_valueSections_eq ?_ (hiff.2 h)⟩
  obtain ⟨_, _, hsections⟩ := exists_open_section hopen
  rw [outline, outline, Outline.ofItems_append_of_concat hsections,
    Outline.ofItems_append_of_concat hsections]

/-- What is said about the parameter of the same name in a section on errors does not count. -/
theorem valueSections_append_eq_iff_raises :
    openTopic? (["Sum.", "", "Args:", "    x (int): Size.", ""].map String.toList) = some .params ∧
      read? (["Sum.", "", "Args:", "    x (int): Size.", "", "Raises:", "    x (str): Bad.", "",
        "Returns:", "    int: Count."].map String.toList) =
      read? (["Sum.", "", "Args:", "    x (int): Size.", "",
        "Returns:", "    int: Count."].map String.toList) := by
  have hopen : openTopic? (["Sum.", "", "Args:", "    x (int): Size.", ""].map String.toList) =
      some .params := by decide
  have hheading : ¬IsValueTitle "Raises:".toList := by decide
  have hbelow : ∀ l ∈ ["    x (str): Bad.", ""].map String.toList, ¬IsValueTitle l := by decide
  have hrest : ∀ l ∈ (["Returns:", "    int: Count."].map String.toList).head?, IsValueTitle l := by
    decide
  have haside : IsAsideTitle "Raises:".toList := by decide
  exact ⟨hopen, (valueSections_append_eq_iff hopen hheading hbelow hrest).2 (.inl haside)⟩

/-- A heading with another name does not end the section on the parameters. -/
theorem not_read?_of_isHeading :
    ¬∀ (above below rest : List Text) (heading : Text) (doc : Docstring),
      (∃ l ∈ above, (topic? l).isSome = true) → IsHeading heading → ¬IsValueTitle heading →
      (∀ l ∈ below, ¬IsValueTitle l) → (∀ l ∈ rest.head?, IsValueTitle l) →
      read? (above ++ heading :: (below ++ rest)) = some doc →
        ∃ doc', read? (above ++ rest) = some doc' ∧ doc'.params = doc.params ∧
          doc'.returns = doc.returns := by
  intro hall
  let above := ["Sum.", "", "Args:", "    x (int): Size.", ""].map String.toList
  let whole := above ++ "Custom:".toList :: (["    x (str): Other."].map String.toList ++ [])
  have hopen : ∃ l ∈ above, (topic? l).isSome = true := ⟨"Args:".toList, by decide, by decide⟩
  have hheading : IsHeading "Custom:".toList :=
    ⟨'C', "ustom".toList, by decide, by decide, by decide⟩
  have hvalue : ¬IsValueTitle "Custom:".toList := by decide
  have hbelow : ∀ l ∈ ["    x (str): Other."].map String.toList, ¬IsValueTitle l := by decide
  have hread : (read? whole).isSome = true := by decide
  have hdiffer : (read? (above ++ [])).map (·.params) ≠ (read? whole).map (·.params) := by decide
  obtain ⟨doc, hdoc⟩ := Option.isSome_iff_exists.1 hread
  obtain ⟨doc', hdoc', hparams, -⟩ := hall above _ [] _ doc hopen hheading hvalue hbelow nofun hdoc
  rw [hdoc, hdoc', Option.map_some, Option.map_some, hparams] at hdiffer
  exact hdiffer rfl

end Titled

end CallSchema
