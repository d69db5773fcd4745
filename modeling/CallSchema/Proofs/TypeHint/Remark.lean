import CallSchema.Proofs.Text.Cut
import CallSchema.Proofs.Text.Lines
import CallSchema.Proofs.Text.Word
import CallSchema.Proofs.TypeHint.Choices
import CallSchema.Proofs.TypeHint.Rounds
import CallSchema.TypeHint.Written

/-!
# A remark behind a type

A type text may end in the remark `, optional`. `TypeHint.withoutOptional` takes it off again.
Where that is not done, the text is no closed set of strings any more, and the kind that it means
is looked up with the remark in place: the comma usually cuts it off, unless a bracket is left open
in front of it.

## Main definitions

* `TypeHint.remark`, `TypeHint.remarked` -- the remark, and a type text with it
* `TypeHint.RemarkStays` -- whether no comma outside brackets and no member of a union cuts it off
-/

namespace CallSchema

open Text

namespace TypeHint

/-- The remark that a value is optional. -/
def remark : Text :=
  ',' :: " optional".toList

/-- The type text with the remark behind it. -/
def remarked (t : Text) : Text :=
  t ++ remark

theorem trim_remarked (t : Text) : trim (remarked t) = trimStart t ++ remark := by
  have hremark : trimEnd remark = remark := by decide
  have hblank : allBlank remark = false := by decide
  by_cases h : allBlank t = true
  · rw [remarked, trim_of_allBlank_append _ h, trimStart_eq_nil_iff.2 h]
    rfl
  · rw [remarked, trim, trimStart_append_of_not_allBlank _ (Bool.eq_false_iff.2 h),
      trimEnd_append_of_not_allBlank _ hblank, hremark]

theorem trim_remarked_eq {t : Text} (h : trim t = t) : trim (remarked t) = remarked t := by
  rw [trim_remarked, (trim_eq_self_iff.1 h).1, remarked]

/-- Taking the remark off gives the type text back. -/
theorem withoutOptional_remarked {t : Text} (h : trim t = t) :
    withoutOptional (remarked t) = t := by
  have hsplit : remarked t = t ++ ',' :: " optional".toList := rfl
  have hcut : cutLast? (· == ',') (remarked t) = some (t, " optional".toList) := by
    rw [hsplit]
    exact cutLast?_append t rfl (by simp)
  have hoptional : isOptionalRemark " optional".toList = true := by decide
  rw [withoutOptional, trim_remarked_eq h, hcut]
  simp only [hoptional, if_true]
  exact (trim_eq_self_iff.1 h).2

theorem getLast?_remarked (t : Text) : (remarked t).getLast? = some 'l' := by
  rw [remarked, List.getLast?_append_of_ne_nil _ (by decide)]
  rfl

/-- The end of a text with the remark is the end of the remark. -/
theorem getLast?_of_suffix_remarked {s t : Text} (h : s <:+ remarked t) {c : Char}
    (hc : s.getLast? = some c) : c = 'l' := by
  obtain ⟨lead, hlead⟩ := h
  have hne : s ≠ [] := by
    rintro rfl
    cases hc
  have hlast := getLast?_remarked t
  rw [← hlead, List.getLast?_append_of_ne_nil _ hne, hc] at hlast
  exact Option.some.inj hlast

/-- With the remark behind it no text is a closed set. -/
theorem ofText?_remarked {t : Text} (h : trim t = t) :
    ofText? (remarked t) = some (named (String.ofList (remarked t))) := by
  have hbody : literalBody? (remarked t) = none := by
    apply literalBody?_eq_none
    rw [getLast?_remarked]
    decide
  have hne : (remarked t).isEmpty = false := by simp [remarked, remark]
  rw [ofText?, trim_remarked_eq h, hbody]
  simp [hne]

/-! ### One round of the reduction -/

theorem barsForOr_remarked (s : Text) : barsForOr (remarked s) = remarked (barsForOr s) := by
  have hrest : barsForOr " optional".toList = " optional".toList := by decide
  rw [remarked, remark, barsForOr_append_cons (by decide), hrest]
  rfl

theorem splitOutsideFrom_remark {separator : Char} {depth : Nat}
    (h : separator = '|' ∨ separator = ',' ∧ 0 < depth) :
    splitOutsideFrom separator depth remark = (remark, []) := by
  have hplain : ∀ c ∈ remark, isOpening c = false ∧ isClosing c = false ∧ c ≠ '|' := by
    have hall : remark.all (fun c => !isOpening c && !isClosing c && c != '|') = true := by decide
    simpa [and_assoc] using hall
  apply splitOutsideFrom_eq_self
  intro c hc
  obtain ⟨hopen, hclose, hbar⟩ := hplain c hc
  refine ⟨hopen, hclose, ?_⟩
  rcases h with rfl | ⟨-, hdepth⟩
  · exact .inl hbar
  · exact .inr hdepth

/-- The remark goes on the last member of a union. -/
theorem alternatives_remarked (s : Text) :
    alternatives (remarked s) =
      (alternatives s).dropLast ++ [trim (remarked (lastOutside '|' (barsForOr s)))] := by
  obtain ⟨init, last, hsplit, happend⟩ := splitOutside_append '|' (barsForOr s)
  have hlast : lastOutside '|' (barsForOr s) = last := by
    simp [lastOutside, hsplit]
  rw [alternatives, barsForOr_remarked, remarked, happend, splitOutsideFrom_remark (.inl rfl),
    alternatives, hsplit, hlast]
  simp [remarked]

/-- Whether the remark stays a part of a type: a bracket is left open, no comma stands outside of
    all brackets, and all members of the union before the last one are null types. -/
def RemarkStays (s : Text) : Prop :=
  0 < openDepth s ∧ splitOutside ',' s = [s] ∧
    ∀ a ∈ (alternatives s).dropLast, isNullName a = true

instance (s : Text) : Decidable (RemarkStays s) :=
  inferInstanceAs (Decidable (_ ∧ _ ∧ _))

/-- The comma of the remark cuts it off, unless a bracket is open and no other comma does. -/
theorem firstOutside_remarked (s : Text) :
    firstOutside ',' (remarked s) =
      if 0 < openDepth s ∧ splitOutside ',' s = [s] then remarked s else firstOutside ',' s := by
  obtain ⟨init, last, hsplit, happend⟩ := splitOutside_append ',' s
  by_cases hdepth : 0 < openDepth s
  · have hremarked : splitOutside ',' (remarked s) = init ++ [last ++ remark] := by
      rw [remarked, happend, splitOutsideFrom_remark (.inr ⟨rfl, hdepth⟩)]
    cases init with
    | nil =>
      obtain rfl := splitOutside_eq_self hsplit
      rw [if_pos ⟨hdepth, hsplit⟩]
      simp only [firstOutside, hremarked]
      rfl
    | cons first init =>
      have hne : splitOutside ',' s ≠ [s] := by
        rw [hsplit]
        simp
      rw [if_neg fun h => hne h.2]
      simp [firstOutside, hremarked, hsplit]
  · have hremark : splitOutsideFrom ',' 0 remark = ([], [" optional".toList]) := by decide
    have hzero : openDepth s = 0 := by omega
    have hremarked : splitOutside ',' (remarked s) = init ++ last :: [" optional".toList] := by
      rw [remarked, happend, hzero, hremark, List.append_nil]
    rw [if_neg fun h => hdepth h.1]
    cases init <;> simp [firstOutside, hremarked, hsplit]

theorem not_isNullName_remarked (s : Text) : isNullName (trim (remarked s)) = false := by
  have hcomma : ∀ name ∈ ["none", "null", "nonetype"], ',' ∉ name.toList := by decide
  by_contra hnull
  rw [Bool.not_eq_false, isNullName, List.contains_iff_mem] at hnull
  have hmem := hcomma _ hnull
  rw [String.toList_ofList, trim_remarked] at hmem
  exact hmem (List.mem_append_right _ List.mem_cons_self)

/-- One round of the reduction leaves the same as without the remark, or the last member of a union
    with the remark on it. -/
theorem focus_remarked {s : Text} (h : trim s = s) :
    focus (remarked s) =
      if RemarkStays s then withoutReference (trim (remarked (lastOutside '|' (barsForOr s))))
      else focus s := by
  by_cases hfirst : 0 < openDepth s ∧ splitOutside ',' s = [s]
  · have hsame : firstOutside ',' s = s := by
      simp [firstOutside, hfirst.2]
    rw [focus, firstOutside_remarked, if_pos hfirst, trim_remarked_eq h, focus, hsame, h,
      firstAlternative, alternatives_remarked, List.find?_append]
    -- the remark is on the last member, which counts only when all others are null types
    split
    · next hstays =>
      have hnone : (alternatives s).dropLast.find? (!isNullName ·) = none :=
        find?_not_isNullName_eq_none_iff.2 hstays.2.2
      rw [hnone, Option.none_or, List.find?_cons_of_pos (by simp [not_isNullName_remarked]),
        Option.getD_some]
    · next hstays =>
      have hsome : ∃ a, (alternatives s).dropLast.find? (!isNullName ·) = some a := by
        by_contra hnot
        have hnone := Option.eq_none_iff_forall_ne_some.2 fun a ha => hnot ⟨a, ha⟩
        exact hstays ⟨hfirst.1, hfirst.2, find?_not_isNullName_eq_none_iff.1 hnone⟩
      obtain ⟨a, ha⟩ := hsome
      have hall : (alternatives s).find? (!isNullName ·) = some a := by
        obtain ⟨last, hlast⟩ := List.dropLast_prefix (alternatives s)
        rw [← hlast, List.find?_append, ha, Option.some_or]
      rw [ha, Option.some_or, Option.getD_some, firstAlternative, hall, Option.getD_some]
  · have hstays : ¬ RemarkStays s := fun hstays => hfirst ⟨hstays.1, hstays.2.1⟩
    rw [focus, firstOutside_remarked, if_neg hfirst, if_neg hstays, focus]

/-! ### The whole reduction -/

theorem trimEnd_of_suffix {s t : Text} (h : s <:+ t) (ht : trimEnd t = t) : trimEnd s = s := by
  obtain ⟨lead, rfl⟩ := h
  apply trimEnd_eq_self_iff.2
  intro c hc
  have hne : s ≠ [] := by
    rintro rfl
    cases hc
  apply trimEnd_eq_self_iff.1 ht
  rw [List.getLast?_append_of_ne_nil _ hne, hc]

/-- Removing a reference mark leaves an end of the text. -/
theorem withoutReference_suffix {s : Text} (h : trimEnd s = s) : withoutReference s <:+ s := by
  unfold withoutReference
  split
  · next s =>
    have hlifetime : afterLifetime (trimStart s) <:+ s := by
      unfold afterLifetime
      split
      · exact ((List.dropWhile_suffix _).trans (List.dropWhile_suffix _)).trans
          (List.dropWhile_suffix _)
      · exact List.dropWhile_suffix _
    have htarget := ((getD_after?_suffix "mut ".toList _).trans hlifetime).trans
      (List.suffix_cons '&' s)
    have hstart : trimStart ((after? "mut ".toList (afterLifetime (trimStart s))).getD
        (afterLifetime (trimStart s))) <:+ '&' :: s :=
      (List.dropWhile_suffix _).trans htarget
    rw [trim, trimEnd_of_suffix hstart h]
    exact hstart
  · exact List.suffix_rfl

/-- **The remark and the name that decides the kind**: the name is the same without the remark, or
    it is the one in front of the first bracket of the last member of a union. -/
theorem baseName_remarked {t : Text} (h : trim t = t) :
    baseName (remarked t) =
      if RemarkStays (t.map Char.toLower) then
        outerName (withoutReference
          (trim (remarked (lastOutside '|' (barsForOr (t.map Char.toLower))))))
      else baseName t := by
  have hlower : (remarked t).map Char.toLower = remarked (t.map Char.toLower) := by
    have hremark : remark.map Char.toLower = remark := by decide
    rw [remarked, List.map_append, hremark, remarked]
  have hfocus := focus_remarked (trim_map_toLower h)
  rw [baseName_eq_outerName, baseName_eq_outerName, trim_remarked_eq h, hlower, h]
  split
  · next hstays =>
    rw [if_pos hstays] at hfocus
    -- the text still ends with the remark, so that it is no wrapper and the rounds end
    have htrim := trim_remarked (lastOutside '|' (barsForOr (t.map Char.toLower)))
    have hend : trimEnd (trim (remarked (lastOutside '|' (barsForOr (t.map Char.toLower))))) =
        trim (remarked (lastOutside '|' (barsForOr (t.map Char.toLower)))) := trimEnd_idem _
    have hsuffix := withoutReference_suffix hend
    rw [htrim] at hsuffix
    have hunwrap : unwrap? (focus (remarked (t.map Char.toLower))) = none := by
      rw [hfocus, htrim]
      refine unwrap?_eq_none fun c hc => ?_
      rw [getLast?_of_suffix_remarked hsuffix hc]
      decide
    rw [core_of_unwrap?_eq_none hunwrap, hfocus]
  · next hstays =>
    rw [if_neg hstays] at hfocus
    rw [core_congr hfocus]

end TypeHint

end CallSchema
