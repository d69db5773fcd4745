import CallSchema.Proofs.TypeHint.Atoms

/-!
# Wrappers and names in front of brackets

What one round of the reduction leaves is looked up, unless it is a wrapper, whose argument goes
through the next round. Which of the two happens, and which kind is found, is decided by the last
segment of the name in front of the first bracket.

## Main definitions

* `TypeHint.kindIn?` -- the kind that a text means when one round has left it
-/

namespace CallSchema.TypeHint

open Text

/-- The kind that a text means when one round of the reduction has left it. -/
def kindIn? (s : Text) : Option Kind :=
  match unwrap? s with
  | some inner => kindOf? inner
  | none => Kind.ofName? (outerName s)

theorem kindOf?_eq_kindIn? (s : Text) : kindOf? s = kindIn? (focus s) := by
  rw [kindIn?]
  cases h : unwrap? (focus s) with
  | some inner => exact kindOf?_of_unwrap?_eq_some h
  | none => exact kindOf?_of_unwrap?_eq_none h

/-- The kind that the last segment of a name stands for. -/
def nameKind? (s : Text) : Option Kind :=
  Kind.ofName? (String.ofList (lastSegment (trim s)))

/-- Whether the last segment of a name is that of a wrapper. -/
def IsWrapperName (s : Text) : Prop :=
  String.ofList (lastSegment (trim s)) ∈ wrapperNames

instance (s : Text) : Decidable (IsWrapperName s) :=
  inferInstanceAs (Decidable (_ ∈ _))

/-! ### Brackets behind a name -/

theorem Brackets.isPair (b : Brackets) : IsPair b.opening b.closing := by
  cases b <;> exact ⟨rfl, rfl, rfl⟩

theorem isPair_round : IsPair '(' ')' := ⟨rfl, rfl, rfl⟩

theorem IsPathText.noOpening {s : Text} (h : IsPathText s) : NoOpening s := fun c hc =>
  isOpening_of_isPathChar (h c hc)

/-- A round bracket at the end is not that of a wrapper. -/
theorem unwrap?_round (s body : Text) : unwrap? (s ++ '(' :: (body ++ [')'])) = none := by
  refine unwrap?_eq_none fun c hc => ?_
  rw [← List.cons_append, ← List.append_assoc, List.getLast?_concat] at hc
  obtain rfl := Option.some.inj hc
  decide

/-- What stands behind the first bracket is the argument of a wrapper when the name in front of it
    is one and the bracket is closed at the end. -/
theorem unwrap?_append_of_forall {s : Text} (h : ∀ c ∈ s, c ≠ '[' ∧ c ≠ '<') (b : Brackets)
    (t : Text) :
    unwrap? (s ++ b.opening :: t) =
      if IsWrapperName s ∧ t.getLast? = some b.closing then some (trim (lastOutside ',' t.dropLast))
      else none := by
  have hplain : ∀ c ∈ s, (!(c == '[' || c == '<')) = true := by
    intro c hc
    obtain ⟨hsquare, hangle⟩ := h c hc
    simp [hsquare, hangle]
  have hopening : ¬ (!(b.opening == '[' || b.opening == '<')) = true := by
    cases b <;> decide
  have hcloser : closer b.opening = b.closing := by
    cases b <;> rfl
  have hdrop : (s ++ b.opening :: t).dropWhile (fun c => !(c == '[' || c == '<')) =
      b.opening :: t := by
    rw [List.dropWhile_append_of_pos hplain]
    exact List.dropWhile_cons_of_neg hopening
  have htake : (s ++ b.opening :: t).takeWhile (fun c => !(c == '[' || c == '<')) = s := by
    have hnil : (b.opening :: t).takeWhile (fun c => !(c == '[' || c == '<')) = [] :=
      List.takeWhile_cons_of_neg hopening
    rw [List.takeWhile_append_of_pos hplain, hnil, List.append_nil]
  rw [unwrap?, hdrop, htake]
  simp only [hcloser, List.contains_iff_mem]
  rfl

section

variable {s : Text} (h : NoOpening s)
include h

theorem ne_of_noOpening {c : Char} (hc : c ∈ s) : c ≠ '[' ∧ c ≠ '<' := by
  refine ⟨?_, ?_⟩
  · rintro rfl
    cases h _ hc
  · rintro rfl
    cases h _ hc

theorem unwrap?_eq_none_of_noOpening : unwrap? s = none :=
  unwrap?_of_forall fun _ hc => ne_of_noOpening h hc

/-- What stands behind a name is the argument of a wrapper when the name is one and the bracket is
    closed at the end. -/
theorem unwrap?_append (b : Brackets) (t : Text) :
    unwrap? (s ++ b.opening :: t) =
      if IsWrapperName s ∧ t.getLast? = some b.closing then some (trim (lastOutside ',' t.dropLast))
      else none :=
  unwrap?_append_of_forall (fun _ hc => ne_of_noOpening h hc) b t

/-- The brackets behind a name are those of a wrapper exactly when the name is one. -/
theorem unwrap?_around (b : Brackets) (body : Text) :
    unwrap? (s ++ b.around body) =
      if IsWrapperName s then some (trim (lastOutside ',' body)) else none := by
  rw [Brackets.around, unwrap?_append h]
  simp only [List.getLast?_concat, List.dropLast_concat, and_true]

/-- The kind is that of the name when nothing stands behind it. -/
theorem kindIn?_of_noOpening : kindIn? s = nameKind? s := by
  rw [kindIn?, unwrap?_eq_none_of_noOpening h]
  exact congrArg Kind.ofName? (outerName_of_noOpening h)

theorem kindIn?_around (hne : s ≠ []) (b : Brackets) (body : Text) :
    kindIn? (s ++ b.around body) =
      if IsWrapperName s then kindOf? (trim (lastOutside ',' body)) else nameKind? s := by
  have hname : outerName (s ++ b.around body) = String.ofList (lastSegment (trim s)) :=
    outerName_append_cons h hne b.isPair.isOpening _
  rw [kindIn?, unwrap?_around h]
  split_ifs with hwrapper
  · rfl
  · exact congrArg Kind.ofName? hname

/-- Behind a name a pair of round brackets changes nothing. -/
theorem kindIn?_round (hne : s ≠ []) (body : Text) :
    kindIn? (s ++ '(' :: (body ++ [')'])) = nameKind? s := by
  have hname : outerName (s ++ '(' :: (body ++ [')'])) = String.ofList (lastSegment (trim s)) :=
    outerName_append_cons h hne rfl _
  rw [kindIn?, unwrap?_round]
  exact congrArg Kind.ofName? hname

end

end CallSchema.TypeHint
