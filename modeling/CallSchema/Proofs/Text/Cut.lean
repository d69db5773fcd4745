import CallSchema.Text.Cut

/-!
# What a cut leaves

`Text.cut?` cuts at the first occurrence of a mark, and `Text.cutLast?` at the last character of a
class, so that the text behind the cut has none of them. What `Text.after?` leaves is an end of the
text.
-/

namespace CallSchema.Text

/-- Exactly a text with the mark in it is cut. -/
theorem cut?_eq_none_iff {mark : Char} {s : Text} : cut? mark s = none ↔ mark ∉ s := by
  induction s with
  | nil => simp [cut?]
  | cons c s ih =>
    rw [cut?]
    split
    · next hc => simp [hc]
    · next hc => simp [ih, Ne.symm hc]

variable {isMark : Char → Bool}

theorem cutLast?_eq_none {s : Text} (h : ∀ c ∈ s, isMark c = false) : cutLast? isMark s = none := by
  induction s with
  | nil => rfl
  | cons c s ih =>
    rw [cutLast?, ih fun d hd => h d (List.mem_cons_of_mem c hd)]
    simp [h c List.mem_cons_self]

/-- The cut is at a mark that no other mark follows. -/
theorem cutLast?_append {c : Char} (s : Text) {t : Text} (hc : isMark c = true)
    (ht : ∀ d ∈ t, isMark d = false) : cutLast? isMark (s ++ c :: t) = some (s, t) := by
  induction s with
  | nil =>
    rw [List.nil_append, cutLast?, cutLast?_eq_none ht]
    simp [hc]
  | cons d s ih => rw [List.cons_append, cutLast?, ih]

/-- Exactly a text with a mark in it is cut. -/
theorem cutLast?_eq_none_iff {s : Text} :
    cutLast? isMark s = none ↔ ∀ c ∈ s, isMark c = false := by
  refine ⟨fun h c hc => ?_, cutLast?_eq_none⟩
  induction s with
  | nil => cases hc
  | cons d s ih =>
    rw [cutLast?] at h
    split at h
    · cases h
    · next hs =>
      obtain rfl | hc := List.mem_cons.1 hc
      · exact Bool.eq_false_iff.2 fun hmark => by simp [hmark] at h
      · exact ih hs hc

/-- A cut gives back the text when a mark is put between the two parts, and the second part is
    free of marks. -/
theorem cutLast?_eq_some_iff {s before rest : Text} :
    cutLast? isMark s = some (before, rest) ↔
      ∃ c, isMark c = true ∧ s = before ++ c :: rest ∧ ∀ d ∈ rest, isMark d = false := by
  constructor
  · intro h
    induction s generalizing before with
    | nil => cases h
    | cons d s ih =>
      rw [cutLast?] at h
      split at h
      · next b r hs =>
        cases h
        obtain ⟨c, hc, rfl, hrest⟩ := ih hs
        exact ⟨c, hc, rfl, hrest⟩
      · next hs =>
        split at h
        · next hd =>
          cases h
          exact ⟨d, hd, rfl, cutLast?_eq_none_iff.1 hs⟩
        · cases h
  · rintro ⟨c, hc, rfl, hrest⟩
    exact cutLast?_append before hc hrest

theorem after?_suffix {lead s rest : Text} (h : after? lead s = some rest) : rest <:+ s :=
  ⟨lead, (after?_eq_some_iff.1 h).symm⟩

theorem getD_after?_suffix (lead s : Text) : (after? lead s).getD s <:+ s := by
  cases h : after? lead s with
  | none => exact List.suffix_rfl
  | some rest => exact after?_suffix h

end CallSchema.Text
