import CallSchema.Docstring.Paragraph
import CallSchema.Proofs.Text.Trim
import Mathlib.Data.List.Basic

/-!
# Counting paragraphs

The paragraphs of a description are the runs of its lines that are not blank. There is one as soon
as some line is not blank, and there are two as soon as a blank line stands between two others.

## Main definitions

* `Paragraph.Several` -- there are at least two paragraphs
-/

namespace CallSchema.Paragraph

open Text

/-- There are at least two paragraphs: a blank line stands somewhere between two lines that are
    not blank. -/
def Several (ls : List Text) : Prop :=
  ∃ l e m, [l, e, m].Sublist ls ∧ allBlank l = false ∧ allBlank e = true ∧ allBlank m = false

variable {l : Text} {ls : List Text}

/-! ### Runs, line by line -/

@[simp] theorem runs_nil : runs [] = [] := rfl

theorem runs_cons_of_allBlank (ls : List Text) (h : allBlank l = true) :
    runs (l :: ls) = runs ls := by
  rw [runs, List.splitOnP_cons_eq_if_modifyHead, if_pos h, List.filter_cons_of_neg (by simp), runs]

/-- A line that is not blank opens a run, which goes on to the next blank line. -/
theorem runs_cons_of_not_allBlank (ls : List Text) (h : allBlank l = false) :
    runs (l :: ls) =
      (l :: ls.takeWhile (!allBlank ·)) :: runs (ls.dropWhile (!allBlank ·)) := by
  have hrun : ∀ m ∈ l :: ls.takeWhile (!allBlank ·), allBlank m = false := by
    intro m hm
    rcases List.mem_cons.1 hm with rfl | hm
    · exact h
    · simpa using List.mem_takeWhile_imp hm
  have hsplit : l :: ls = (l :: ls.takeWhile (!allBlank ·)) ++ ls.dropWhile (!allBlank ·) := by
    rw [List.cons_append, List.takeWhile_append_dropWhile]
  conv => lhs; rw [hsplit]
  cases hd : ls.dropWhile (!allBlank ·) with
  | nil => rw [List.append_nil, runs, List.splitOnP_eq_singleton hrun]; rfl
  | cons e r =>
    have he : allBlank e = true := by
      have hhead := List.head?_dropWhile_not (!allBlank ·) ls
      rw [hd] at hhead
      simpa using hhead
    rw [runs_cons_of_allBlank r he, runs, List.splitOnP_append_cons_of_forall_mem hrun e he,
      List.filter_cons_of_pos (by simp), runs]

theorem runs_eq_nil_iff : runs ls = [] ↔ ∀ l ∈ ls, allBlank l = true := by
  induction ls with
  | nil => simp
  | cons l ls ih =>
    by_cases h : allBlank l = true
    · rw [runs_cons_of_allBlank ls h, ih, List.forall_mem_cons, and_iff_right h]
    · rw [Bool.not_eq_true] at h
      simp [runs_cons_of_not_allBlank ls h, h]

theorem of_mem_splitOnP {α : Type} {p : α → Bool} {s part : List α} (h : part ∈ s.splitOnP p) :
    ∀ a ∈ part, p a = false := by
  induction s generalizing part with
  | nil =>
    rw [List.splitOnP_nil, List.mem_singleton] at h
    simp [h]
  | cons b s ih =>
    rw [List.splitOnP_cons_eq_if_modifyHead] at h
    split at h
    · rcases List.mem_cons.1 h with rfl | h
      · simp
      · exact ih h
    · next hb =>
      obtain ⟨first, later, hsplit⟩ := List.exists_cons_of_ne_nil (List.splitOnP_ne_nil p s)
      rw [hsplit, List.modifyHead_cons, List.mem_cons] at h
      obtain rfl | h := h
      · refine List.forall_mem_cons.2 ⟨by simpa using hb, ih ?_⟩
        rw [hsplit]
        exact List.mem_cons_self
      · exact ih (by rw [hsplit]; exact List.mem_cons_of_mem first h)

/-- A run has lines, none of which is blank. -/
theorem of_mem_runs {run : List Text} (h : run ∈ runs ls) :
    run ≠ [] ∧ ∀ l ∈ run, allBlank l = false := by
  rw [runs, List.mem_filter] at h
  exact ⟨by simpa using h.2, of_mem_splitOnP h.1⟩

/-! ### Two paragraphs -/

/-- The first of the three lines is not the blank one at the top. -/
theorem several_cons_of_allBlank (h : allBlank l = true) : Several (l :: ls) ↔ Several ls := by
  constructor
  · rintro ⟨a, e, m, hsub, ha, hrest⟩
    rw [List.cons_sublist_cons'] at hsub
    obtain hsub | ⟨rfl, -⟩ := hsub
    · exact ⟨a, e, m, hsub, ha, hrest⟩
    · rw [h] at ha
      cases ha
  · rintro ⟨a, e, m, hsub, hrest⟩
    exact ⟨a, e, m, hsub.cons l, hrest⟩

/-- A second paragraph begins below the blank line that ends the first. -/
theorem several_cons_of_not_allBlank (h : allBlank l = false) :
    Several (l :: ls) ↔ ∃ m ∈ ls.dropWhile (!allBlank ·), allBlank m = false := by
  constructor
  · rintro ⟨a, e, m, hsub, -, he, hm⟩
    have hsub : [e, m].Sublist (ls.takeWhile (!allBlank ·) ++ ls.dropWhile (!allBlank ·)) := by
      rw [List.takeWhile_append_dropWhile]
      exact List.Sublist.tail hsub
    -- the blank line is not among those of the first paragraph, so both stand further down
    obtain ⟨s, t, heq, hs, ht⟩ := List.sublist_append_iff.1 hsub
    cases s with
    | nil =>
      rw [List.nil_append] at heq
      refine ⟨m, ht.subset ?_, hm⟩
      rw [← heq]
      simp
    | cons d s =>
      obtain rfl : e = d := (List.cons.inj heq).1
      have htake := List.mem_takeWhile_imp (hs.subset List.mem_cons_self)
      rw [he] at htake
      cases htake
  · rintro ⟨m, hmem, hm⟩
    cases hd : ls.dropWhile (!allBlank ·) with
    | nil =>
      rw [hd] at hmem
      cases hmem
    | cons e r =>
      have hhead := List.head?_dropWhile_not (!allBlank ·) ls
      rw [hd] at hhead hmem
      have he : allBlank e = true := by simpa using hhead
      obtain rfl | hmem := List.mem_cons.1 hmem
      · rw [he] at hm
        cases hm
      · have hsub : [e, m].Sublist ls := by
          refine List.Sublist.trans ?_ (List.dropWhile_sublist (!allBlank ·))
          rw [hd]
          exact (List.singleton_sublist.2 hmem).cons_cons e
        exact ⟨l, e, m, hsub.cons_cons l, h, he, hm⟩

/-- There are two runs exactly when a blank line stands between two lines that are not. -/
theorem two_le_length_runs_iff : 2 ≤ (runs ls).length ↔ Several ls := by
  induction ls with
  | nil => simp [Several]
  | cons l ls ih =>
    by_cases h : allBlank l = true
    · rw [runs_cons_of_allBlank ls h, ih, several_cons_of_allBlank h]
    · rw [Bool.not_eq_true] at h
      have hlater : runs (ls.dropWhile (!allBlank ·)) = [] ↔
          ¬∃ m ∈ ls.dropWhile (!allBlank ·), allBlank m = false := by
        rw [runs_eq_nil_iff]
        simp
      rw [several_cons_of_not_allBlank h, runs_cons_of_not_allBlank ls h, List.length_cons,
        ← not_iff_not, ← hlater, ← List.length_eq_zero_iff]
      omega

/-! ### The text of a paragraph -/

theorem allBlank_intercalate_space (l : Text) (ls : List Text) (h : allBlank l = false) :
    allBlank ([' '].intercalate (l :: ls)) = false := by
  cases ls with
  | nil => simpa using h
  | cons m ls => simp [List.intercalate_cons_of_ne_nil, h]

theorem not_allBlank_of_mem_all {p : Text} (h : p ∈ all ls) : allBlank p = false := by
  obtain ⟨run, hrun, rfl⟩ := List.mem_map.1 h
  obtain ⟨hne, hlines⟩ := of_mem_runs hrun
  obtain ⟨first, later, rfl⟩ := List.exists_cons_of_ne_nil hne
  apply allBlank_intercalate_space
  rw [allBlank_trim]
  exact hlines first List.mem_cons_self

theorem short_eq_nil_iff : short ls = [] ↔ ∀ l ∈ ls, allBlank l = true := by
  rw [← runs_eq_nil_iff, short]
  cases hall : all ls with
  | nil => simpa [all] using hall
  | cons p later =>
    have hmem : p ∈ all ls := by
      rw [hall]
      exact List.mem_cons_self
    have hp := not_allBlank_of_mem_all hmem
    have hruns : runs ls ≠ [] := by
      intro hnil
      simp [all, hnil] at hall
    simp only [List.head?_cons, Option.getD_some, hruns, iff_false]
    rintro rfl
    cases hp

theorem long?_eq_none_iff : long? ls = none ↔ ¬Several ls := by
  have hlength : (runs ls).length = (all ls).length := (List.length_map _).symm
  rw [← two_le_length_runs_iff, hlength, long?]
  cases all ls with
  | nil => simp
  | cons p later => cases later <;> simp

theorem not_allBlank_of_long? {t : Text} (h : long? ls = some t) : allBlank t = false := by
  rw [long?] at h
  cases htail : (all ls).tail with
  | nil => simp [htail] at h
  | cons p later =>
    have hmem : p ∈ all ls := by
      apply List.mem_of_mem_tail
      rw [htail]
      exact List.mem_cons_self
    have hp := not_allBlank_of_mem_all hmem
    rw [htail] at h
    obtain rfl := Option.some.inj h
    cases later with
    | nil => simpa using hp
    | cons q later => simp [List.intercalate_cons_of_ne_nil, hp]

end CallSchema.Paragraph
