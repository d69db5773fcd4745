import CallSchema.Text.Line
import CallSchema.TypeHint.Brackets

/-!
# Splitting what is put together

What `Text.splitOutside` makes of an append: the parts of the first text, of which the last goes on
with the first part of the second text, read at the depth that the first text leaves open.

## Main definitions

* `Text.openDepth` -- the number of brackets that a text leaves open
-/

namespace CallSchema.Text

/-- The number of brackets that a text leaves open. -/
def openDepth (s : Text) : Nat :=
  s.foldl depthAfter 0

variable {separator : Char}

/-- The parts of an append, in front of which `depth` brackets are open. -/
theorem splitOutsideFrom_append (separator : Char) (depth : Nat) (s : Text) :
    ∃ init last,
      (splitOutsideFrom separator depth s).1 :: (splitOutsideFrom separator depth s).2 =
        init ++ [last] ∧
      ∀ t, (splitOutsideFrom separator depth (s ++ t)).1 ::
          (splitOutsideFrom separator depth (s ++ t)).2 =
        init ++ (last ++ (splitOutsideFrom separator (s.foldl depthAfter depth) t).1) ::
          (splitOutsideFrom separator (s.foldl depthAfter depth) t).2 := by
  induction s generalizing depth with
  | nil => exact ⟨[], [], rfl, fun t => rfl⟩
  | cons c s ih =>
    obtain ⟨init, last, hs, happend⟩ := ih (depthAfter depth c)
    by_cases hc : c = separator ∧ depth = 0 ∧ !isOpening c ∧ !isClosing c
    · refine ⟨[] :: init, last, ?_, fun t => ?_⟩
      · rw [splitOutsideFrom, if_pos hc, hs]
        rfl
      · rw [List.cons_append, splitOutsideFrom, if_pos hc, happend]
        rfl
    · -- `c` joins the first part, which is the last one when `init` is empty
      cases init with
      | nil =>
        refine ⟨[], c :: last, ?_, fun t => ?_⟩
        · rw [splitOutsideFrom, if_neg hc]
          exact congrArg (consHead c) hs
        · rw [List.cons_append, splitOutsideFrom, if_neg hc]
          exact congrArg (consHead c) (happend t)
      | cons first init =>
        refine ⟨(c :: first) :: init, last, ?_, fun t => ?_⟩
        · rw [splitOutsideFrom, if_neg hc]
          exact congrArg (consHead c) hs
        · rw [List.cons_append, splitOutsideFrom, if_neg hc]
          exact congrArg (consHead c) (happend t)

theorem splitOutside_append (separator : Char) (s : Text) :
    ∃ init last, splitOutside separator s = init ++ [last] ∧
      ∀ t, splitOutside separator (s ++ t) =
        init ++ (last ++ (splitOutsideFrom separator (openDepth s) t).1) ::
          (splitOutsideFrom separator (openDepth s) t).2 :=
  splitOutsideFrom_append separator 0 s

/-- A text without brackets and separators that count is a part of its own. -/
theorem splitOutsideFrom_eq_self {depth : Nat} {s : Text}
    (h : ∀ c ∈ s, isOpening c = false ∧ isClosing c = false ∧ (c ≠ separator ∨ 0 < depth)) :
    splitOutsideFrom separator depth s = (s, []) := by
  induction s with
  | nil => rfl
  | cons c s ih =>
    obtain ⟨hopen, hclose, hc⟩ := h c List.mem_cons_self
    have hdepth : depthAfter depth c = depth := by simp [depthAfter, hopen, hclose]
    have hsep : ¬(c = separator ∧ depth = 0 ∧ !isOpening c ∧ !isClosing c) := by
      rintro ⟨heq, hzero, -⟩
      rcases hc with hc | hc
      · exact hc heq
      · omega
    rw [splitOutsideFrom, if_neg hsep, hdepth, ih fun d hd => h d (List.mem_cons_of_mem c hd)]

/-- A text that is not split is its only part. -/
theorem splitOutsideFrom_of_nil {depth : Nat} {s : Text}
    (h : (splitOutsideFrom separator depth s).2 = []) :
    (splitOutsideFrom separator depth s).1 = s := by
  induction s generalizing depth with
  | nil => rfl
  | cons c s ih =>
    rw [splitOutsideFrom] at h ⊢
    split at h
    · cases h
    · next hc =>
      rw [if_neg hc]
      exact congrArg (c :: ·) (ih h)

theorem splitOutside_eq_self {s p : Text} (h : splitOutside separator s = [p]) : p = s := by
  obtain ⟨hfirst, hrest⟩ := List.cons.inj h
  rw [← hfirst]
  exact splitOutsideFrom_of_nil hrest

end CallSchema.Text
