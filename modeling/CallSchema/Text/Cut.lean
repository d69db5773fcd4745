import CallSchema.Text.Blank

/-!
# Cutting text at a mark

`Text.cut?` cuts at the first occurrence of a character and `Text.cutLast?` at the last character
of a class; both drop the character itself. `Text.after?` removes a fixed beginning, and
`Text.afterLast` keeps what follows the last occurrence of a fixed text.
-/

namespace CallSchema.Text

/-- What stands before and after the first `mark`, or `none` when there is no `mark`. -/
def cut? (mark : Char) : Text → Option (Text × Text)
  | [] => none
  | c :: s =>
    if c = mark then some ([], s) else (cut? mark s).map fun (before, rest) => (c :: before, rest)

/-- What stands before and after the last character that satisfies `isMark`, or `none` when there
    is no such character. -/
def cutLast? (isMark : Char → Bool) : Text → Option (Text × Text)
  | [] => none
  | c :: s =>
    match cutLast? isMark s with
    | some (before, rest) => some (c :: before, rest)
    | none => if isMark c then some ([], s) else none

/-- What follows the fixed beginning `lead`, or `none` when the text does not begin with it. -/
def after? : Text → Text → Option Text
  | [], s => some s
  | _ :: _, [] => none
  | m :: lead, c :: s => if m = c then after? lead s else none

/-- What follows the last occurrence of `mark`, or `none` when there is none. -/
def afterLast? (mark : Text) : Text → Option Text
  | [] => none
  | c :: s =>
    match afterLast? mark s with
    | some rest => some rest
    | none => after? mark (c :: s)

/-- What follows the last occurrence of `mark`, or the whole text when there is none. -/
def afterLast (mark : Text) (s : Text) : Text :=
  (afterLast? mark s).getD s

/-- Exactly the texts that begin with `lead` have a rest after it. -/
theorem after?_eq_some_iff {lead s rest : Text} :
    after? lead s = some rest ↔ s = lead ++ rest := by
  induction lead generalizing s with
  | nil => simp [after?]
  | cons m lead ih =>
    cases s with
    | nil => simp [after?]
    | cons c s =>
      by_cases h : m = c
      · simp [after?, h, ih]
      · simp [after?, h, Ne.symm h]

/-- A cut gives back the text when the mark is put between the two parts, and the first part is
    free of the mark. -/
theorem cut?_eq_some_iff {mark : Char} {s before rest : Text} :
    cut? mark s = some (before, rest) ↔ s = before ++ mark :: rest ∧ mark ∉ before := by
  induction s generalizing before with
  | nil => simp [cut?]
  | cons c s ih =>
    by_cases h : c = mark
    · subst h
      cases before with
      | nil => simp [cut?]
      | cons d b =>
        simp only [cut?, if_true, Option.some.injEq, Prod.mk.injEq, List.cons_append,
          List.cons.injEq, List.mem_cons, not_or]
        constructor
        · rintro ⟨h, -⟩; cases h
        · rintro ⟨⟨rfl, -⟩, h, -⟩; exact absurd rfl h
    · cases before with
      | nil =>
        simp only [cut?, h, if_false, Option.map_eq_some_iff, List.nil_append, List.cons.injEq,
          false_and, iff_false, not_exists, not_and]
        rintro ⟨a, b⟩ - heq
        cases heq
      | cons d b =>
        simp only [cut?, h, if_false, Option.map_eq_some_iff, List.cons_append, List.cons.injEq,
          List.mem_cons, not_or]
        constructor
        · rintro ⟨⟨a, r⟩, hs, heq⟩
          obtain ⟨⟨rfl, rfl⟩, rfl⟩ : (c = d ∧ a = b) ∧ r = rest := by simpa using heq
          obtain ⟨hs, hm⟩ := ih.1 hs
          exact ⟨⟨rfl, hs⟩, fun e => h e.symm, hm⟩
        · rintro ⟨⟨rfl, hs⟩, -, hm⟩
          exact ⟨(b, rest), ih.2 ⟨hs, hm⟩, rfl⟩

theorem cut?_length_lt {mark : Char} {s before rest : Text}
    (h : cut? mark s = some (before, rest)) : rest.length < s.length := by
  rw [(cut?_eq_some_iff.1 h).1]
  simp
  omega

end CallSchema.Text
