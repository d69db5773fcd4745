import CallSchema.Docstring.Read
import CallSchema.Proofs.Docstring.Marks
import CallSchema.Proofs.Layout.Bytes
import CallSchema.Proofs.Layout.Clean

/-!
# Reading by position

`Docstring.read` takes a text apart by its shape. The same can be done by position: the parts of a
text are slices between the lines at which they begin. Whatever the text is, all positions are
right and the result is the same (`Docstring.read_without_fault`).

## Main definitions

* `FieldList.readAt`, `Titled.readAt`, `Underlined.readAt` -- the readers of the three styles
* `Titled.placesAt`, `Underlined.placesAt` -- the positions of the titles
* `Docstring.readAt` -- the docstring of a function, or what is missing
-/

namespace CallSchema

open Text Checked

/-! ### Fields -/

namespace FieldList

/-- The docstring that a text with a field list gives: the fields are what begins at the first of
    them, and the description is what ends there. -/
def readAt (ls : List Text) : Checked (Option Docstring) := do
  let some first := ls.findIdx? fun l => (FieldLine.ofLine? l).isSome | return none
  let below ← slice ls first ls.length
  let fields := (outline below).sections
  if fields.any fun field => (Field.topic? field).isSome then
    let lead ← slice ls 0 first
    return some (fields.foldl note (Docstring.ofDescription (some .rest) lead))
  else return none

theorem readAt_eq_ok (ls : List Text) : readAt ls = .ok (read? ls) := by
  obtain ⟨rest, hsplit, hquiet, hmark⟩ :=
    Outline.exists_preamble_append (fun ls => ls.head?.bind FieldLine.ofLine?) ls
  have hnone : ∀ l ∈ (outline ls).preamble, FieldLine.ofLine? l = none := by
    intro l hl
    obtain ⟨s, t, hst⟩ := List.append_of_mem hl
    exact hquiet s l t hst
  have hsections : (outline ls).sections = (outline rest).sections := by
    conv => lhs; rw [hsplit]
    have happend := congrArg Outline.sections (Outline.ofItems_append rest hnone)
    exact happend
  rw [readAt, read?, hsections]
  change ls = (outline ls).preamble ++ rest at hsplit
  generalize (outline ls).preamble = before at *
  have hidx : before.findIdx? (fun l => (FieldLine.ofLine? l).isSome) = none :=
    List.findIdx?_eq_none_iff.2 fun l hl => by rw [hnone l hl]; rfl
  rw [hsplit, List.findIdx?_append, hidx, Option.none_or]
  cases rest with
  | nil => rfl
  | cons l rest =>
    have hl : (FieldLine.ofLine? l).isSome = true := hmark (List.cons_ne_nil l rest)
    rw [List.findIdx?_cons, if_pos hl]
    simp only [Option.map_some, Nat.zero_add, slice_left, slice_right, ok_bind, pure_eq_ok]
    split <;> rfl

end FieldList

/-! ### Sections -/

namespace SectionFormat

/-- The docstring that a text divided into sections gives, where the headings take up a number of
    lines besides their first one. -/
def readAt (format : SectionFormat) (skip : Nat) (places : List (Nat × SectionTopic))
    (ls : List Text) : Checked (Option Docstring) := do
  if places.any (·.2 ≠ .aside) then
    let first ← item places 0
    let lead ← slice ls 0 first.1
    let doc ← Outline.foldSlices ls skip format.note
      (Docstring.ofDescription (some format.style) lead) places
    return some doc
  else return none

variable {heading? : List Text → Option SectionTopic} {ls : List Text} {skip : Nat}

theorem readAt_eq_ok (format : SectionFormat)
    (hlong : ∀ part ∈ (Outline.of heading? ls).sections, skip ≤ part.2.length) :
    format.readAt skip (Outline.placesFrom heading? 0 ls) ls =
      .ok (format.read? ⟨(Outline.of heading? ls).preamble,
        (Outline.of heading? ls).sections.map fun part => (part.1, part.2.drop skip)⟩) := by
  have hany : (Outline.placesFrom heading? 0 ls).any (·.2 ≠ .aside) =
      ((Outline.of heading? ls).sections.map fun part => (part.1, part.2.drop skip)).any
        (·.1 ≠ .aside) := by
    have hmap := congrArg (List.any · (· ≠ .aside)) (Outline.map_snd_placesFrom heading? 0 ls)
    rw [List.any_map, List.any_map] at hmap
    rw [List.any_map]
    exact hmap
  have hstop := Outline.elim_head?_placesFrom heading? 0 ls
  rw [readAt, read?, hany]
  split
  · next hsome =>
    rw [← hany] at hsome
    cases hplaces : Outline.placesFrom heading? 0 ls with
    | nil => simp [hplaces] at hsome
    | cons first later =>
      have hfirst : first.1 = (Outline.of heading? ls).preamble.length := by
        rw [hplaces] at hstop
        exact hstop.trans (Nat.zero_add _)
      rw [item_cons_zero, ok_bind, hfirst, Outline.slice_preamble, ok_bind, ← hplaces,
        Outline.foldSlices_eq_ok _ _ hlong]
      rfl
  · rfl

end SectionFormat

namespace Titled

/-- The positions of the titles, with their topics. -/
def placesAt (ls : List Text) : List (Nat × SectionTopic) :=
  ls.zipIdx.filterMap fun (l, i) => (topic? l).map (i, ·)

def readAt (ls : List Text) : Checked (Option Docstring) :=
  format.readAt 0 (placesAt ls) ls

theorem filterMap_zipIdx (ls : List Text) (start : Nat) :
    ((ls.zipIdx start).filterMap fun (l, i) => (topic? l).map (i, ·)) =
      Outline.placesFrom (fun rest => rest.head?.bind topic?) start ls := by
  induction ls generalizing start with
  | nil => rfl
  | cons l ls ih =>
    rw [List.zipIdx_cons]
    cases htopic : topic? l with
    | some topic =>
      rw [Outline.placesFrom_cons_some (b := topic) htopic, ← ih, List.filterMap_cons_some]
      simp [htopic]
    | none =>
      rw [Outline.placesFrom_cons_none htopic, ← ih, List.filterMap_cons_none]
      simp [htopic]

theorem readAt_eq_ok (ls : List Text) : readAt ls = .ok (read? ls) := by
  have hplaces : placesAt ls = _ := filterMap_zipIdx ls 0
  rw [readAt, hplaces, SectionFormat.readAt_eq_ok _ fun _ _ => Nat.zero_le _]
  simp only [List.drop_zero, List.map_id']
  rfl

end Titled

namespace Underlined

/-- The pairs of neighbouring lines. -/
def windows : List Text → List (List Text)
  | title :: underline :: rest => [title, underline] :: windows (underline :: rest)
  | _ => []

/-- The position of a title with its topic, given a pair of lines and the position of the first. -/
def placeAt? (pair : List Text) (i : Nat) : Checked (Option (Nat × SectionTopic)) := do
  let title ← item pair 0
  let underline ← item pair 1
  return if isTitle title && isUnderline underline then some (i, topicOf title) else none

/-- The positions of the titles, with their topics. -/
def placesAt (ls : List Text) : Checked (List (Nat × SectionTopic)) :=
  (windows ls).zipIdx.filterMapM fun (pair, i) => placeAt? pair i

def readAt (ls : List Text) : Checked (Option Docstring) := do
  let places ← placesAt ls
  format.readAt 1 places ls

theorem placeAt?_eq_ok (title underline : Text) (below : List Text) (i : Nat) :
    placeAt? [title, underline] i = .ok ((topic? (title :: underline :: below)).map (i, ·)) := by
  rw [placeAt?, topic?, item_cons_succ, item_cons_zero, item_cons_zero, ok_bind, ok_bind]
  split <;> rfl

theorem placesAt_eq_ok (ls : List Text) : placesAt ls = .ok (Outline.placesFrom topic? 0 ls) := by
  rw [placesAt]
  generalize 0 = start
  induction ls generalizing start with
  | nil => rfl
  | cons title ls ih =>
    cases ls with
    | nil => rfl
    | cons underline ls =>
      rw [windows, List.zipIdx_cons, List.filterMapM_cons, ih]
      simp only [placeAt?_eq_ok title underline ls, ok_bind]
      cases htopic : topic? (title :: underline :: ls) with
      | some topic => rw [Outline.placesFrom_cons_some htopic]; rfl
      | none => rw [Outline.placesFrom_cons_none htopic]; rfl

/-- A line of dashes is no title, so that it stays in the part above it. -/
theorem one_le_length_of_mem_sections (ls : List Text) :
    ∀ part ∈ (Outline.of topic? ls).sections, 1 ≤ part.2.length := by
  induction ls with
  | nil => exact fun part hpart => nomatch hpart
  | cons title ls ih =>
    cases htopic : topic? (title :: ls) with
    | none =>
      rw [Outline.of_cons_none htopic]
      exact ih
    | some topic =>
      obtain ⟨_, rule, below, heq, hform, -⟩ := topic?_eq_some_iff.1 htopic
      obtain ⟨rfl, rfl⟩ := List.cons.inj heq
      have hrule : topic? (rule :: below) = none := by
        rw [Option.eq_none_iff_forall_ne_some]
        intro other hother
        obtain ⟨_, _, _, heq, hrule, -⟩ := topic?_eq_some_iff.1 hother
        obtain ⟨rfl, -⟩ := List.cons.inj heq
        exact hrule.title_not_isRule hform.isRule
      rw [Outline.of_cons_some htopic]
      rintro part (_ | ⟨_, hpart⟩)
      · rw [Outline.of_cons_none hrule]
        exact Nat.succ_le_succ (Nat.zero_le _)
      · exact ih part hpart

theorem readAt_eq_ok (ls : List Text) : readAt ls = .ok (read? ls) := by
  rw [readAt, placesAt_eq_ok, ok_bind,
    SectionFormat.readAt_eq_ok _ (one_le_length_of_mem_sections ls)]
  simp only [List.drop_one]
  rfl

end Underlined

/-! ### Docstrings -/

/-- The docstring that a style finds in a text. -/
def Style.readAt (style : Style) (text : Text) : Checked (Option Docstring) :=
  match style with
  | .rest => FieldList.readAt (lines text)
  | .google => Titled.readAt (lines text)
  | .numpy => Underlined.readAt (lines text)

theorem Style.readAt_eq_ok (style : Style) (text : Text) :
    style.readAt text = .ok (style.read? (lines text)) := by
  cases style with
  | rest => exact FieldList.readAt_eq_ok _
  | google => exact Titled.readAt_eq_ok _
  | numpy => exact Underlined.readAt_eq_ok _

namespace Docstring

/-- The docstring of a function, or what is missing. -/
def readAt (function : String) (raw : Option String) (choice : Option Style) :
    Checked (Except Failure Docstring) := do
  let some raw := raw | return .error ⟨function, .documentation⟩
  let ls ← Layout.cleanAt raw.toList
  let text := unlines ls
  let found ← (stylesToTry choice).findSomeM? fun candidate => candidate.readAt text
  let doc := found.getD (ofDescription none (lines text))
  return if doc.short = "" then .error ⟨function, .shortDescription⟩ else .ok doc

/-- **Positions**: for no text is a position wrong that a reader goes by. The margin can be cut off,
    the parts of a text can be taken as slices, and an underlined title has its line of dashes
    between itself and the next title or the end. -/
theorem read_without_fault :
    (∀ raw, Layout.cleanAt raw = .ok (Layout.clean raw)) ∧
    (∀ style text, Style.readAt style text = .ok (style.read? (lines text))) ∧
    (∀ ls, ∃ places, Underlined.placesAt ls = .ok places ∧
      places.IsChain (fun p q => p.1 + 2 ≤ q.1) ∧ ∀ p ∈ places, p.1 + 2 ≤ ls.length) ∧
    ∀ function raw choice, readAt function raw choice = .ok (read function raw choice) := by
  refine ⟨Layout.cleanAt_eq_ok, Style.readAt_eq_ok, fun ls => ?_, fun function raw choice => ?_⟩
  · have hlong := Underlined.one_le_length_of_mem_sections ls
    refine ⟨_, Underlined.placesAt_eq_ok ls, Outline.isChain_placesFrom hlong 0, fun p hp => ?_⟩
    have hle := Outline.add_le_of_mem_placesFrom hlong hp
    omega
  · cases raw with
    | none => rfl
    | some raw =>
      have hstyles : (fun candidate => Style.readAt candidate (unlines (Layout.clean raw.toList))) =
          fun candidate => pure (candidate.read? (Layout.clean raw.toList)) := by
        funext candidate
        rw [Style.readAt_eq_ok, Layout.lines_unlines_clean]
        rfl
      rw [readAt]
      simp only [Layout.cleanAt_eq_ok, ok_bind, hstyles, List.findSomeM?_pure,
        Layout.lines_unlines_clean]
      rfl

end Docstring

end CallSchema
