import CallSchema.Proofs.TypeHint.Meaning

/-!
# References over references

A round of the reduction removes one reference mark, and the reduction goes on only when a wrapper
was opened. So a mark on a type that has no mark yet changes nothing, and further marks stay in
front of the name: a path between them and the name hides them again, because its last segment is
what is looked up, while a name without a path is not found any more.

## Main definitions

* `TypeHint.Expr.isQualified` -- a path stands in front of the outermost name
* `TypeHint.Expr.isPlainReference` -- one mark on a name without a path
-/

namespace CallSchema.TypeHint

open Text

namespace Expr

/-- What stands in front of the outermost name. -/
def scopes : Expr → Scopes
  | path p => p.scopes
  | generic p _ _ => p.scopes
  | wrapper scopes _ _ _ => scopes
  | cow scopes _ _ => scopes
  | _ => []

/-- A path stands in front of the outermost name. -/
def isQualified (e : Expr) : Bool :=
  !e.scopes.isEmpty

/-- One reference mark, on a type whose name has no path in front of it or that has no name. -/
def isPlainReference : Expr → Bool
  | reference _ e => !e.isReference && !e.isQualified
  | _ => false

end Expr

/-! ### Names and brackets -/

/-- A word, which may be empty, or a path of several segments. -/
inductive IsOuterName : Bool → Text → Prop where
  | word {s : Text} (h : ∀ c ∈ s, isWord c = true) : IsOuterName false s
  | path (p : Path) (h : p.scopes ≠ []) : IsOuterName true p.text

/-- What may stand behind a name. -/
inductive IsTail : Text → Prop where
  | nil : IsTail []
  | around (b : Brackets) (body : Text) : IsTail (b.around body)
  | round (body : Text) : IsTail ('(' :: (body ++ [')']))

theorem IsOuterName.lower {qualified : Bool} {s : Text} (h : IsOuterName qualified s) :
    IsOuterName qualified (lower s) := by
  cases h with
  | word h =>
    refine .word fun c hc => ?_
    obtain ⟨d, hd, rfl⟩ := List.mem_map.1 hc
    rw [isWord_toLower]
    exact h d hd
  | path p h =>
    rw [← p.lower_text]
    refine .path p.lower fun hnil => h ?_
    exact List.map_eq_nil_iff.1 hnil

theorem IsOuterName.isPathText {qualified : Bool} {s : Text} (h : IsOuterName qualified s) :
    IsPathText s := by
  cases h with
  | word h =>
    intro c hc
    simp [isPathChar, h c hc]
  | path p h => exact p.isPathText

theorem IsTail.lower {s : Text} (h : IsTail s) : IsTail (lower s) := by
  cases h with
  | nil => exact .nil
  | around b body =>
    rw [b.lower_around]
    exact .around b _
  | round body =>
    show IsTail ('(' :: Text.lower (body ++ [')']))
    rw [lower_append]
    exact .round _

theorem IsTail.barsForOr {s : Text} (h : IsTail s) : IsTail (barsForOr s) := by
  cases h with
  | nil => exact .nil
  | around b body =>
    rw [Brackets.around, barsForOr_pair b.isPair]
    exact .around b _
  | round body =>
    rw [barsForOr_pair isPair_round]
    exact .round (TypeHint.barsForOr body)

/-- What is neither a reference nor a union is a name with brackets behind it. -/
theorem Expr.exists_text_eq_append {e : Expr} (hreference : e.isReference = false)
    (hunion : e.isUnion = false) :
    ∃ s t, e.text = s ++ t ∧ IsOuterName e.isQualified s ∧ IsTail t := by
  have hpath : ∀ p : Path, IsOuterName (!p.scopes.isEmpty) p.text := by
    intro p
    obtain ⟨scopes, name⟩ := p
    cases scopes with
    | nil => exact .word name.isWord
    | cons scope scopes => exact .path _ (List.cons_ne_nil _ _)
  have hnone : IsOuterName false [] := .word nofun
  cases e with
  | absent => exact ⟨"None".toList, [], rfl, .word (by decide +kernel), .nil⟩
  | path p => exact ⟨p.text, [], (List.append_nil _).symm, hpath p, .nil⟩
  | generic p b args => exact ⟨p.text, b.around args.1, rfl, hpath p, .around b _⟩
  | wrapper scopes w b e =>
    exact ⟨Path.text ⟨scopes, w.name⟩, b.around e.text, rfl, hpath ⟨scopes, w.name⟩, .around b _⟩
  | cow scopes lifetime e =>
    exact ⟨Path.text ⟨scopes, cowName⟩, _, rfl, hpath ⟨scopes, cowName⟩,
      .around .angle _⟩
  | reference m e => cases hreference
  | union e bar rest => cases hunion
  | slice e => exact ⟨[], _, rfl, hnone, .around .square _⟩
  | tuple e rest => exact ⟨[], _, rfl, hnone, .round _⟩
  | unit => exact ⟨[], _, rfl, hnone, .round []⟩

/-! ### Marks that are left -/

/-- One reference mark or several. -/
structure IsMarkText (s : Text) : Prop where
  head : s.head? = some '&'
  noOpening : NoOpening s
  colon : ':' ∉ s
  dot : '.' ∉ s

theorem ReferenceMark.isMarkText (m : ReferenceMark) : IsMarkText m.text where
  head := rfl
  noOpening _ hc := (m.plain_of_mem_text hc).1
  colon := m.notMem_text (by decide +kernel) (by decide)
  dot := m.notMem_text (by decide +kernel) (by decide)

namespace IsMarkText

variable {s t : Text}

theorem append (hs : IsMarkText s) (ht : IsMarkText t) : IsMarkText (s ++ t) where
  head := by
    have hne : s ≠ [] := List.ne_nil_of_mem (List.mem_of_mem_head? hs.head)
    rw [List.head?_append_of_ne_nil _ hne, hs.head]
  noOpening c hc := (List.mem_append.1 hc).elim (hs.noOpening c) (ht.noOpening c)
  colon hc := (List.mem_append.1 hc).elim hs.colon ht.colon
  dot hc := (List.mem_append.1 hc).elim hs.dot ht.dot

theorem trim_append (hs : IsMarkText s) (ht : trim t = t) (hne : t ≠ []) :
    trim (s ++ t) = s ++ t := by
  refine trim_eq_self_iff_ends.2 ⟨fun c hc => ?_, fun c hc => ?_⟩
  · rw [List.head?_append, hs.head] at hc
    obtain rfl : '&' = c := Option.some.inj hc
    decide
  · rw [List.getLast?_append_of_ne_nil _ hne] at hc
    exact (trim_eq_self_iff_ends.1 ht).2 c hc

end IsMarkText

/-- What is found depends on the last segment in front of the brackets. -/
theorem kindIn?_append_congr {s s' t : Text} (hs : NoOpening s) (hs' : NoOpening s') (hne : s ≠ [])
    (hne' : s' ≠ []) (hsegment : lastSegment (trim s) = lastSegment (trim s')) (ht : IsTail t) :
    kindIn? (s ++ t) = kindIn? (s' ++ t) := by
  have hkind : nameKind? s = nameKind? s' := by rw [nameKind?, hsegment, nameKind?]
  cases ht with
  | nil =>
    rw [List.append_nil, List.append_nil, kindIn?_of_noOpening hs, kindIn?_of_noOpening hs', hkind]
  | around b body =>
    have hwrapper : IsWrapperName s ↔ IsWrapperName s' := by
      rw [IsWrapperName, hsegment, IsWrapperName]
    rw [kindIn?_around hs hne, kindIn?_around hs' hne', hkind]
    exact if_congr hwrapper rfl rfl
  | round body => rw [kindIn?_round hs hne, kindIn?_round hs' hne', hkind]

/-- No name has a reference mark in it. -/
theorem kindIn?_append_eq_none {s t : Text} (hs : NoOpening s) (hne : s ≠ [])
    (hmark : '&' ∈ lastSegment (trim s)) (ht : IsTail t) : kindIn? (s ++ t) = none := by
  have hwrapper : ¬ IsWrapperName s := by
    have hnames : ∀ name ∈ wrapperNames, '&' ∉ name.toList := by decide
    intro hname
    have hnot := hnames _ hname
    rw [String.toList_ofList] at hnot
    exact hnot hmark
  have hkind : nameKind? s = none := by
    have hnames : ∀ k ∈ Kind.all, ∀ name ∈ k.typeNames, '&' ∉ name.toList := by decide +kernel
    rw [Option.eq_none_iff_forall_ne_some]
    intro k hk
    have hname := List.find?_some hk
    rw [decide_eq_true_eq] at hname
    have hnot := hnames k k.mem_all _ hname
    rw [String.toList_ofList] at hnot
    exact hnot hmark
  cases ht with
  | nil => rw [List.append_nil, kindIn?_of_noOpening hs, hkind]
  | around b body => rw [kindIn?_around hs hne, if_neg hwrapper, hkind]
  | round body => rw [kindIn?_round hs hne, hkind]

/-- In front of a path of several segments, what has no colon does not count. -/
theorem lastSegment_append_text {s : Text} (hs : ':' ∉ s) {p : Path} (hp : p.scopes ≠ []) :
    lastSegment (s ++ p.text) = p.name.chars := by
  obtain ⟨scopes, name⟩ := p
  cases scopes with
  | nil => exact absurd rfl hp
  | cons scope scopes =>
    obtain ⟨segment, joiner⟩ := scope
    have hcolon : ':' ∉ s ++ segment.chars := by
      rw [List.mem_append, not_or]
      exact ⟨hs, segment.notMem_chars (by decide +kernel)⟩
    have htext : s ++ Path.text ⟨(segment, joiner) :: scopes, name⟩ =
        (s ++ segment.chars) ++ (joiner.text ++ Path.text ⟨scopes, name⟩) := by
      show s ++ (((segment.chars ++ joiner.text) ++ Scopes.text scopes) ++ name.chars) =
        (s ++ segment.chars) ++ (joiner.text ++ (Scopes.text scopes ++ name.chars))
      simp only [List.append_assoc]
    rw [htext, lastSegment_append_joiner joiner hcolon (Path.head?_text_ne _), lastSegment_text]

/-- Marks in front of a name are found out unless the name has a path. -/
theorem kindIn?_marks_append {marks s t : Text} {qualified : Bool} (hmarks : IsMarkText marks)
    (hs : IsOuterName qualified s) (ht : IsTail t) :
    kindIn? (marks ++ (s ++ t)) = if qualified then kindIn? (s ++ t) else none := by
  have hopen : NoOpening (marks ++ s) := fun c hc =>
    (List.mem_append.1 hc).elim (hmarks.noOpening c) (hs.isPathText.noOpening c)
  have hmark : '&' ∈ marks := List.mem_of_mem_head? hmarks.head
  have hne : marks ++ s ≠ [] := List.ne_nil_of_mem (List.mem_append_left s hmark)
  rw [← List.append_assoc]
  cases hs with
  | word hword =>
    apply kindIn?_append_eq_none hopen hne _ ht
    have hplain : ∀ c, isWord c = false → c ∉ marks → c ∉ trim (marks ++ s) := by
      intro c hc hnot hmem
      obtain hmem | hmem := List.mem_append.1 (mem_of_mem_trim hmem)
      · exact hnot hmem
      · rw [hword c hmem] at hc
        cases hc
    rw [lastSegment_of_not_mem (hplain ':' (by decide +kernel) hmarks.colon)
      (hplain '.' (by decide +kernel) hmarks.dot)]
    exact (isBlank_or_mem_trim (List.mem_append_left s hmark)).resolve_left (by decide)
  | path p hp =>
    have htrim : trim (marks ++ p.text) = marks ++ p.text :=
      hmarks.trim_append p.isPathText.trimmed p.text_ne_nil
    refine kindIn?_append_congr hopen p.isPathText.noOpening hne p.text_ne_nil ?_ ht
    rw [htrim, lastSegment_append_text hmarks.colon hp, p.isPathText.trimmed, lastSegment_text]

namespace Expr

theorem barsForOr_lower_reference {e : Expr} (h : e.target.isUnion = false) (m : ReferenceMark) :
    barsForOr (lower (reference m e).text) = m.lower.text ++ barsForOr (lower e.text) := by
  show barsForOr (lower (m.text ++ e.text)) = _
  rw [lower_append, ← m.lower_text, (isMember_text h).lower.barsForOr_reference m.lower]

/-- However many marks are left in front of a type, it is found exactly behind a path. -/
theorem kindIn?_marks {e : Expr} (h : e.target.isUnion = false) {marks : Text}
    (hmarks : IsMarkText marks) :
    kindIn? (marks ++ barsForOr (lower e.text)) =
      if e.target.isQualified then kindIn? (barsForOr (lower e.target.text)) else none := by
  induction e generalizing marks with
  | reference m e ih =>
    change e.target.isUnion = false at h
    rw [barsForOr_lower_reference h, ← List.append_assoc]
    exact ih h (hmarks.append m.lower.isMarkText)
  | absent | path | generic | wrapper | cow | union | slice | tuple | unit =>
    obtain ⟨s, t, htext, hs, ht⟩ := exists_text_eq_append rfl h
    have hbars : barsForOr (lower (s ++ t)) = lower s ++ barsForOr (lower t) := by
      rw [lower_append, hs.lower.isPathText.barsForOr_append]
    simp only [target] at htext ⊢
    rw [htext, hbars]
    exact kindIn?_marks_append hmarks hs.lower ht.lower.barsForOr

theorem target_eq_self {e : Expr} (h : e.isReference = false) : e.target = e := by
  cases e with
  | reference m e => cases h
  | _ => rfl

/-- What is no reference is looked up as it is. -/
theorem kindOf?_target {e : Expr} (h : e.target.isUnion = false) :
    kindOf? (lower e.target.text) = kindIn? (barsForOr (lower e.target.text)) := by
  rw [kindOf?_eq_kindIn?, (isAtom_text e.target_isReference h).lower.focus_eq]

/-- A round takes the mark of a reference away. -/
theorem kindOf?_reference_text {e : Expr} (h : e.target.isUnion = false) (m : ReferenceMark) :
    kindOf? (lower (reference m e).text) = kindIn? (barsForOr (lower e.text)) := by
  show kindOf? (lower (m.text ++ e.text)) = _
  rw [lower_append, ← m.lower_text, kindOf?_eq_kindIn?, (isMember_text h).lower.focus_reference]

/-- Behind one mark a type means what it means, behind more of them only with a path. -/
theorem kindOf?_lower_reference {e : Expr} (h : e.target.isUnion = false) (m : ReferenceMark) :
    kindOf? (lower (reference m e).text) =
      if e.isReference = false ∨ e.target.isQualified then kindOf? (lower e.target.text)
      else none := by
  rw [kindOf?_reference_text h, kindOf?_target h]
  cases e with
  | reference m' e =>
    change e.target.isUnion = false at h
    rw [barsForOr_lower_reference h, kindIn?_marks h m'.lower.isMarkText]
    exact if_congr (by simp [isReference, target]) rfl rfl
  | absent | path | generic | wrapper | cow | union | slice | tuple | unit =>
    exact (if_pos (.inl rfl)).symm

theorem kind?_text {e : Expr} (h : e.target.isUnion = false) :
    (named (String.ofList e.text)).kind? = kindOf? (lower e.text) := by
  rw [kind?_named_eq_kindOf?, String.toList_ofList, (isMember_text h).trimmed]

/-- **References and kinds**: a reference has the kind of what it is to, unless that has a reference
    mark already, which stands in front of a name without a path. Then no kind is found. -/
theorem kind?_reference {e : Expr} (h : e.target.isUnion = false) (m : ReferenceMark) :
    (named (String.ofList (reference m e).text)).kind? =
      if e.isPlainReference then none else (named (String.ofList e.text)).kind? := by
  have hreference : (reference m e).target.isUnion = false := h
  rw [kind?_text hreference, kind?_text h, kindOf?_lower_reference h]
  cases e with
  | reference m' e =>
    change e.target.isUnion = false at h
    have hplain : (reference m' e).isPlainReference = (!e.isReference && !e.isQualified) := rfl
    have hmarks : ((reference m' e).isReference = false ∨ e.target.isQualified) ↔
        e.target.isQualified = true := by
      simp [isReference]
    rw [kindOf?_lower_reference h, hplain, target, if_congr hmarks rfl rfl]
    cases hinner : e.isReference with
    | true => simp
    | false =>
      rw [target_eq_self hinner]
      cases e.isQualified <;> simp
  | absent | path | generic | wrapper | cow | union | slice | tuple | unit =>
    rfl

theorem kind?_reference_i32 :
    let e : Expr := .path ⟨[], ⟨"i32".toList, by decide, by decide +kernel⟩⟩
    e.target.isUnion = false ∧ (named "&i32").kind? = (named "i32").kind? ∧
      (reference {} e).target.isUnion = false ∧ (named "&&i32").kind? = none := by
  intro e
  exact ⟨rfl, kind?_reference (e := e) rfl {}, rfl, kind?_reference (e := reference {} e) rfl {}⟩

end Expr

end CallSchema.TypeHint
