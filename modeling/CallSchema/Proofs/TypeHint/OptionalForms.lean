import CallSchema.Proofs.TypeHint.Choices
import CallSchema.Proofs.TypeHint.Meaning

/-!
# Types that may be left out

There are four ways to write in a docstring that a value of a type may be left out. None of them
changes the kind of a type that is given by name. A closed set of strings is recognised only when
nothing is written around it: around one, all four forms name the type `Literal`, which has no kind
and no strings.

## Main definitions

* `TypeHint.OptionalForm` -- the ways to write that a value of a type may be left out
-/

namespace CallSchema.TypeHint

open Text

/-- The ways to write that a value of a type may be left out. -/
inductive OptionalForm where
  | optional
  | option
  | bar
  | word
deriving DecidableEq, Repr

namespace OptionalForm

def write : OptionalForm → Text → Text
  | optional, s => "Optional[".toList ++ (s ++ "]".toList)
  | option, s => "Option<".toList ++ (s ++ ">".toList)
  | bar, s => s ++ " | None".toList
  | word, s => s ++ " or None".toList

/-- The form writes a union with `None`. -/
def isUnion : OptionalForm → Bool
  | optional => false
  | option => false
  | bar => true
  | word => true

end OptionalForm

/-! ### Names of closed sets -/

/-- A name in front of a square bracket decides, wherever the bracket is closed. -/
theorem kindOf?_append_bracket {s t : Text} (hs : IsPathText s) (hne : s ≠ [])
    (hwrapper : ¬ IsWrapperName s) (h : IsTypeText (s ++ '[' :: t)) :
    kindOf? (s ++ '[' :: t) = nameKind? s := by
  have hbars : barsForOr (s ++ '[' :: t) = s ++ '[' :: barsForOr t := by
    rw [hs.barsForOr_append, barsForOr_cons_of_ne (by decide)]
  obtain ⟨part, parts, hsplit⟩ : ∃ part parts,
      splitOutside '|' (s ++ '[' :: barsForOr t) = (s ++ '[' :: part) :: parts := by
    have hbar : Unsplit '|' s := hs.unsplit (by decide)
    rw [splitOutside, splitOutsideFrom_append_of_nil hs.balanced (unsplit_iff.1 hbar),
      splitOutsideFrom, if_neg (by decide)]
    exact ⟨_, _, rfl⟩
  obtain ⟨rest, htrim⟩ := exists_trim_append_cons hs.trimmed hne (c := '[') (by decide) part
  have hnull : isNullName (s ++ '[' :: rest) = false :=
    isNullName_eq_false (notMem_reservedWords_of_mem (c := '[')
      (List.mem_append_right s List.mem_cons_self) (by decide))
  have hfirst : firstAlternative (s ++ '[' :: t) = s ++ '[' :: rest := by
    rw [firstAlternative, alternatives, hbars, hsplit, List.map_cons, htrim,
      List.find?_cons_of_pos (by simp [hnull]), Option.getD_some]
  have hhead : (s ++ '[' :: rest).head? ≠ some '&' := by
    rw [List.head?_append_of_ne_nil _ hne]
    exact fun hmark => hs.not_mem (by decide) (List.mem_of_mem_head? hmark)
  have hfocus : focus (s ++ '[' :: t) = s ++ '[' :: rest := by
    rw [focus_of_unsplit h.trimmed h.unsplit, hfirst, withoutReference_of_head?_ne hhead]
  have hunwrap : unwrap? (s ++ '[' :: rest) = none := by
    have hnone := unwrap?_append hs.noOpening .square rest
    rwa [if_neg fun hboth => hwrapper hboth.1] at hnone
  have hname : outerName (s ++ '[' :: rest) = String.ofList (lastSegment (trim s)) :=
    outerName_append_cons hs.noOpening hne rfl rest
  rw [kindOf?_of_unwrap?_eq_none (by rw [hfocus, hunwrap]), hfocus, hname, nameKind?]

/-- The name of a closed set is that of no kind. -/
theorem kindOf?_lower_of_literalBody? {s body : Text} (h : IsTypeText s)
    (hbody : literalBody? s = some body) : kindOf? (lower s) = none := by
  obtain ⟨name, hname, rfl⟩ := exists_of_literalBody?_eq_some hbody
  have hnames : ∀ name ∈ literalNames, IsPathText (lower name) ∧ lower name ≠ [] ∧
      ¬ IsWrapperName (lower name) ∧ nameKind? (lower name) = none := by
    decide +kernel
  obtain ⟨hpath, hne, hwrapper, hkind⟩ := hnames name hname
  have htext := h.lower
  rw [lower_append, lower_cons] at htext ⊢
  exact (kindOf?_append_bracket hpath hne hwrapper htext).trans hkind

namespace OptionalForm

/-! ### The kind behind a form -/

/-- None of the forms changes the kind of a type text. -/
theorem kindOf?_lower_write (form : OptionalForm) {s : Text} (h : IsTypeText s) (hne : s ≠ [])
    (hend : form.isUnion = true → NoOrEnd (lower s)) :
    kindOf? (lower (form.write s)) = kindOf? (lower s) := by
  have hnone : IsTypeText "none".toList := ⟨by decide, by decide, rfl⟩
  have hunion : ∀ bar : Bar, NoOrEnd (lower s) →
      kindOf? (lower s ++ (bar.text ++ "none".toList)) = kindOf? (lower s) := by
    intro bar hend
    rw [kindOf?_union h.lower (mt lower_eq_nil_iff.1 hne) hend bar hnone (by decide) (by decide)]
    split_ifs with hnull
    · -- a union of null types has no kind, like `None` itself
      rw [kindOf?_eq_none h.lower.trimmed h.lower.unsplit hnull,
        kindOf?_eq_none hnone.trimmed hnone.unsplit (by decide)]
    · rfl
  cases form with
  | optional =>
    show kindOf? (lower ("Optional[".toList ++ (s ++ "]".toList))) = _
    rw [lower_append, lower_append]
    exact kindOf?_wrapper [] .optional .square h.lower
  | option =>
    show kindOf? (lower ("Option<".toList ++ (s ++ ">".toList))) = _
    rw [lower_append, lower_append]
    exact kindOf?_wrapper [] .option .angle h.lower
  | bar =>
    show kindOf? (lower (s ++ " | None".toList)) = _
    rw [lower_append]
    exact hunion .spaced (hend rfl)
  | word =>
    show kindOf? (lower (s ++ " or None".toList)) = _
    rw [lower_append]
    exact hunion .word (hend rfl)

/-! ### Reading a form -/

theorem trim_write (form : OptionalForm) {s : Text} (h : trim s = s) (hne : s ≠ []) :
    trim (form.write s) = form.write s := by
  cases form with
  | optional => exact trim_append_append (by decide) (by decide) (by decide) (by decide) s
  | option => exact trim_append_append (by decide) (by decide) (by decide) (by decide) s
  | bar =>
    exact trim_append_append (t := "None".toList) h (by decide) hne (by decide) " | ".toList
  | word =>
    exact trim_append_append (t := "None".toList) h (by decide) hne (by decide) " or ".toList

/-- No form begins with the name of a closed set and ends with its bracket. -/
theorem literalBody?_write (form : OptionalForm) (s : Text) :
    literalBody? (form.write s) = none := by
  have hletter : ∀ t : Text, literalBody? ('O' :: t) = none := by
    intro t
    rw [Option.eq_none_iff_forall_ne_some]
    intro body hbody
    obtain ⟨name, hname, heq⟩ := exists_of_literalBody?_eq_some hbody
    have hnames : ∀ name ∈ literalNames, name ≠ [] ∧ name.head? ≠ some 'O' := by decide
    obtain ⟨hne, hhead⟩ := hnames name hname
    rw [← List.head?_append_of_ne_nil name hne, ← heq] at hhead
    exact hhead rfl
  cases form with
  | optional => exact hletter _
  | option => exact hletter _
  | bar =>
    apply literalBody?_eq_none
    show (s ++ " | None".toList).getLast? ≠ some ']'
    rw [List.getLast?_append_of_ne_nil _ (by decide)]
    decide
  | word =>
    apply literalBody?_eq_none
    show (s ++ " or None".toList).getLast? ≠ some ']'
    rw [List.getLast?_append_of_ne_nil _ (by decide)]
    decide

theorem write_ne_nil (form : OptionalForm) {s : Text} (hne : s ≠ []) : form.write s ≠ [] := by
  cases form with
  | optional => nofun
  | option => nofun
  | bar => exact List.append_ne_nil_of_left_ne_nil hne _
  | word => exact List.append_ne_nil_of_left_ne_nil hne _

/-- Every form is read as a type that is given by name. -/
theorem ofText?_write (form : OptionalForm) {s : Text} (h : trim s = s) (hne : s ≠ []) :
    ofText? (form.write s) = some (named (String.ofList (form.write s))) := by
  obtain ⟨body, values, hbody, -⟩ | hnamed :=
    ofText?_cases (form.trim_write h hne) (form.write_ne_nil hne)
  · rw [form.literalBody?_write] at hbody
    cases hbody
  · exact hnamed

/-- **Types that may be left out**: every form of a type text is read as a hint without strings.
    Its kind is that of the type when the type is given by name. A closed set of strings loses its
    kind along with its strings. A union is formed only with a text that does not end with the word
    `or`, which the space behind it would make a bar. -/
theorem exists_ofText?_write (form : OptionalForm) {s : Text} (h : IsTypeText s) (hne : s ≠ [])
    (hend : form.isUnion = true → NoOrEnd (lower s)) :
    ∃ hint written, ofText? s = some hint ∧ ofText? (form.write s) = some written ∧
      written.choices? = none ∧
      written.kind? = if hint.choices? = none then hint.kind? else none := by
  have hkind : (named (String.ofList (form.write s))).kind? = kindOf? (lower s) := by
    rw [kind?_named_eq_kindOf?, String.toList_ofList, form.trim_write h.trimmed hne,
      form.kindOf?_lower_write h hne hend]
  have hwritten := form.ofText?_write h.trimmed hne
  obtain ⟨body, values, hbody, hset⟩ | hnamed := ofText?_cases h.trimmed hne
  · refine ⟨_, _, hset, hwritten, rfl, ?_⟩
    rw [hkind, kindOf?_lower_of_literalBody? h hbody, if_neg (by simp)]
  · refine ⟨_, _, hnamed, hwritten, rfl, ?_⟩
    rw [hkind, choices?_named, if_pos rfl, kind?_named_eq_kindOf?, String.toList_ofList, h.trimmed]

theorem exists_ofText?_write_mode :
    let mode := "Literal[\"a\", \"b\"]".toList
    IsTypeText mode ∧ mode ≠ [] ∧ (OptionalForm.bar.isUnion = true → NoOrEnd (lower mode)) ∧
      ofText? mode = some (literal ["a", "b"]) ∧
      (∃ written, ofText? "Optional[Literal[\"a\", \"b\"]]".toList = some written ∧
        written.choices? = none ∧ written.kind? = none) ∧
      ∃ written, ofText? "Literal[\"a\", \"b\"] | None".toList = some written ∧
        written.choices? = none ∧ written.kind? = none := by
  intro mode
  have htext : IsTypeText mode := ⟨by decide, by decide, rfl⟩
  have hend : NoOrEnd (lower mode) := by decide
  have hmode : ofText? mode = some (literal ["a", "b"]) := by decide +kernel
  obtain ⟨hint, written, hhint, hwritten, hchoices, hkind⟩ :=
    exists_ofText?_write .optional htext (by decide) fun _ => hend
  obtain ⟨hint', written', hhint', hwritten', hchoices', hkind'⟩ :=
    exists_ofText?_write .bar htext (by decide) fun _ => hend
  rw [hmode] at hhint hhint'
  obtain rfl := Option.some.inj hhint
  obtain rfl := Option.some.inj hhint'
  exact ⟨htext, by decide, fun _ => hend, hmode, ⟨written, hwritten, hchoices, hkind⟩,
    written', hwritten', hchoices', hkind'⟩

end OptionalForm

end CallSchema.TypeHint
