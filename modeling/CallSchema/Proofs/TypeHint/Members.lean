import CallSchema.Proofs.TypeHint.Wrappers

/-!
# Members of a union

A member of a union is an atom behind any number of reference marks. A round of the reduction
removes one mark, and an atom keeps its path and its brackets, so that what is left is a member
again.

## Main definitions

* `TypeHint.IsMember` -- an atom behind any number of reference marks
-/

namespace CallSchema.TypeHint

open Text

/-- An atom behind any number of reference marks. -/
inductive IsMember : Text → Prop where
  | atom {s : Text} (h : IsAtom s) : IsMember s
  | reference (m : ReferenceMark) {s : Text} (h : IsMember s) : IsMember (m.text ++ s)

/-! ### Reference marks -/

namespace ReferenceMark

variable (m : ReferenceMark)

theorem of_mem_text {c : Char} (h : c ∈ m.text) : isWord c = true ∨ c ∈ "&' ".toList := by
  have hmut : ∀ d ∈ "mut ".toList, isWord d = true ∨ d ∈ "&' ".toList := by decide +kernel
  obtain rfl | hc := List.mem_cons.1 h
  · exact .inr (by decide)
  · obtain hc | hc := List.mem_append.1 hc
    · rw [lifetimeText] at hc
      cases hlifetime : m.lifetime with
      | none =>
        rw [hlifetime] at hc
        cases hc
      | some name =>
        rw [hlifetime] at hc
        obtain rfl | hc := List.mem_cons.1 hc
        · exact .inr (by decide)
        · obtain hc | hc := List.mem_append.1 hc
          · exact .inl (name.isWord c hc)
          · rw [List.mem_singleton.1 hc]
            exact .inr (by decide)
    · rw [mutText] at hc
      split at hc
      · exact hmut c hc
      · cases hc

theorem notMem_text {c : Char} (hword : isWord c = false) (hmark : c ∉ "&' ".toList) :
    c ∉ m.text := by
  intro hmem
  obtain hc | hc := m.of_mem_text hmem
  · rw [hword] at hc
    cases hc
  · exact hmark hc

theorem plain_of_mem_text {c : Char} (h : c ∈ m.text) :
    isOpening c = false ∧ isClosing c = false := by
  have hmark : ∀ d ∈ "&' ".toList, isOpening d = false ∧ isClosing d = false := by decide
  obtain hc | hc := m.of_mem_text h
  · have hpath : isPathChar c = true := by simp [isPathChar, hc]
    exact ⟨isOpening_of_isPathChar hpath, isClosing_of_isPathChar hpath⟩
  · exact hmark c hc

theorem balanced_text : Balanced m.text :=
  balanced_of_forall fun _ hc => m.plain_of_mem_text hc

theorem unsplit_text {separator : Char} (hsep : separator ∈ ",|".toList) :
    Unsplit separator m.text := by
  have hplain : ∀ d ∈ ",|".toList, isWord d = false ∧ d ∉ "&' ".toList := by decide +kernel
  refine unsplit_of_forall fun c hc => ⟨(m.plain_of_mem_text hc).1, (m.plain_of_mem_text hc).2, ?_⟩
  rintro rfl
  exact m.notMem_text (hplain c hsep).1 (hplain c hsep).2 hc

/-- A mark that no word `or` follows has none that it is a part of. -/
theorem barsForOr_text_append {s : Text} (h : NoOrStart s) :
    barsForOr (m.text ++ s) = m.text ++ barsForOr s := by
  have hmut : barsForOr (m.mutText ++ s) = m.mutText ++ barsForOr s := by
    rw [mutText]
    split
    · show barsForOr ("mut".toList ++ ' ' :: s) = "mut".toList ++ ' ' :: barsForOr s
      rw [barsForOr_append_of_not_mem (by decide), barsForOr_space_cons h]
    · rfl
  have hstart : NoOrStart (m.mutText ++ s) := by
    rw [mutText]
    split
    · rintro ⟨rest, heq⟩
      cases heq
    · exact h
  have hlifetime : barsForOr (m.lifetimeText ++ (m.mutText ++ s)) =
      m.lifetimeText ++ (m.mutText ++ barsForOr s) := by
    rw [lifetimeText]
    cases m.lifetime with
    | none => exact hmut
    | some name =>
      have hname : ' ' ∉ '\'' :: name.chars := by
        rw [List.mem_cons, not_or]
        exact ⟨by decide, name.notMem_chars (by decide)⟩
      show barsForOr ('\'' :: ((name.chars ++ [' ']) ++ (m.mutText ++ s))) = _
      rw [List.append_assoc, ← List.cons_append, barsForOr_append_of_not_mem hname,
        List.singleton_append, barsForOr_space_cons hstart, hmut]
      simp
  show barsForOr ('&' :: ((m.lifetimeText ++ m.mutText) ++ s)) = _
  rw [barsForOr_cons_of_ne (by decide), List.append_assoc, hlifetime, text, List.cons_append,
    List.append_assoc]

/-- The lifetime and the space behind it are taken off. -/
theorem afterLifetime_lifetimeText_append {s : Text} (hstart : trimStart s = s)
    (hquote : s.head? ≠ some '\'') : afterLifetime (trimStart (m.lifetimeText ++ s)) = s := by
  rw [lifetimeText]
  cases m.lifetime with
  | none =>
    show afterLifetime (trimStart s) = s
    rw [hstart, afterLifetime, if_neg hquote]
  | some name =>
    have hname : ∀ c ∈ '\'' :: name.chars, (!isBlank c) = true := by
      intro c hc
      obtain rfl | hc := List.mem_cons.1 hc
      · decide
      · rw [isBlank_of_isWord (name.isWord c hc)]
        rfl
    have hdrop : ('\'' :: (name.chars ++ ' ' :: s)).dropWhile (!isBlank ·) = ' ' :: s := by
      rw [← List.cons_append, List.dropWhile_append_of_pos hname]
      exact List.dropWhile_cons_of_neg (by decide)
    show afterLifetime (trimStart ('\'' :: ((name.chars ++ [' ']) ++ s))) = s
    rw [List.append_assoc, List.singleton_append, trimStart_cons_of_not_blank _ (by decide),
      afterLifetime, List.head?_cons, if_pos rfl, hdrop, trimStart_cons_of_blank _ (by decide),
      hstart]

theorem getD_after?_mutText_append {s : Text} (hmut : ¬ "mut ".toList <+: s) :
    (after? "mut ".toList (m.mutText ++ s)).getD (m.mutText ++ s) = s := by
  rw [mutText]
  split
  · rw [after?_eq_some_iff.2 rfl, Option.getD_some]
  · have hnone : after? "mut ".toList s = none := by
      rw [Option.eq_none_iff_forall_ne_some]
      intro rest heq
      exact hmut ⟨rest, (after?_eq_some_iff.1 heq).symm⟩
    rw [List.nil_append, hnone, Option.getD_none]

/-- Removing a mark leaves what the reference is to. -/
theorem withoutReference_text_append {s : Text} (htrim : trim s = s)
    (hquote : s.head? ≠ some '\'') (hmut : ¬ "mut ".toList <+: s) :
    withoutReference (m.text ++ s) = s := by
  have hstart : trimStart (m.mutText ++ s) = m.mutText ++ s := by
    rw [mutText]
    split
    · rfl
    · exact (trim_eq_self_iff.1 htrim).1
  have hhead : (m.mutText ++ s).head? ≠ some '\'' := by
    rw [mutText]
    split
    · show some 'm' ≠ some '\''
      decide
    · exact hquote
  show withoutReference ('&' :: ((m.lifetimeText ++ m.mutText) ++ s)) = s
  rw [List.append_assoc, withoutReference]
  simp only [m.afterLifetime_lifetimeText_append hstart hhead, m.getD_after?_mutText_append hmut]
  exact htrim

end ReferenceMark

/-! ### Members -/

namespace IsMember

theorem ne_nil {s : Text} (h : IsMember s) : s ≠ [] := by
  cases h with
  | atom h => exact h.ne_nil
  | reference m h => exact List.cons_ne_nil _ _

theorem balanced {s : Text} (h : IsMember s) : Balanced s := by
  induction h with
  | atom h => exact h.balanced
  | reference m h ih => exact m.balanced_text.append ih

theorem unsplit {s : Text} (h : IsMember s) {separator : Char} (hsep : separator ∈ ",|".toList) :
    Unsplit separator s := by
  have hmem : ∀ c ∈ ",|".toList, c ∈ structureCharacters := by decide
  induction h with
  | atom h => exact h.unsplit (hmem separator hsep)
  | reference m h ih => exact (m.unsplit_text hsep).append m.balanced_text ih

theorem trimmed {s : Text} (h : IsMember s) : trim s = s := by
  induction h with
  | atom h => exact h.trimmed
  | @reference m s h ih =>
    refine trim_eq_self_iff.2 ⟨trimStart_cons_of_not_blank _ (by decide),
      trimEnd_eq_self_iff.2 fun c hc => ?_⟩
    rw [List.getLast?_append_of_ne_nil _ h.ne_nil] at hc
    exact (trim_eq_self_iff_ends.1 ih).2 c hc

theorem isTypeText {s : Text} (h : IsMember s) : IsTypeText s where
  trimmed := h.trimmed
  balanced := h.balanced
  unsplit := h.unsplit (by decide)

/-- No space follows the path that a member begins with. -/
theorem not_prefix {s word : Text} (h : IsMember s) (hword : IsPathText word) (hne : word ≠ []) :
    ¬ word ++ [' '] <+: s := by
  cases h with
  | atom h => exact h.not_prefix hword
  | reference m h =>
    obtain ⟨c, word, rfl⟩ := List.exists_cons_of_ne_nil hne
    intro hprefix
    have hc : c = '&' := (List.cons_prefix_cons.1 hprefix).1
    exact ne_of_isPathChar (hword c List.mem_cons_self) (by decide) hc

theorem noOrStart {s : Text} (h : IsMember s) : NoOrStart s := by
  have hword : IsPathText ['o', 'r'] := by decide +kernel
  exact h.not_prefix hword (List.cons_ne_nil _ _)

theorem withoutReference {s : Text} (h : IsMember s) (m : ReferenceMark) :
    withoutReference (m.text ++ s) = s := by
  have hword : IsPathText ['m', 'u', 't'] := by decide +kernel
  refine m.withoutReference_text_append h.trimmed ?_ (h.not_prefix hword (List.cons_ne_nil _ _))
  cases h with
  | atom h => exact h.head?_ne (by decide)
  | reference m h => nofun

theorem barsForOr_reference {s : Text} (h : IsMember s) (m : ReferenceMark) :
    barsForOr (m.text ++ s) = m.text ++ barsForOr s :=
  m.barsForOr_text_append h.noOrStart

theorem barsForOr {s : Text} (h : IsMember s) : IsMember (barsForOr s) := by
  induction h with
  | atom h => exact .atom h.barsForOr
  | reference m h ih =>
    rw [h.barsForOr_reference m]
    exact .reference m ih

theorem lower {s : Text} (h : IsMember s) : IsMember (lower s) := by
  induction h with
  | atom h => exact .atom h.lower
  | reference m h ih =>
    rw [lower_append, ← m.lower_text]
    exact .reference m.lower ih

/-- A member is a union of one member. -/
theorem alternatives {s : Text} (h : IsMember s) : alternatives s = [TypeHint.barsForOr s] :=
  alternatives_of_unsplit h.trimmed (h.barsForOr.unsplit (by decide))

theorem focus_eq {s : Text} (h : IsMember s) :
    focus s = TypeHint.withoutReference (TypeHint.barsForOr s) := by
  rw [focus_of_unsplit h.trimmed (h.unsplit (by decide)), firstAlternative_of_singleton]
  exact h.alternatives

/-- One round of the reduction removes one mark. -/
theorem focus_reference {s : Text} (h : IsMember s) (m : ReferenceMark) :
    focus (m.text ++ s) = TypeHint.barsForOr s := by
  rw [(IsMember.reference m h).focus_eq, h.barsForOr_reference m, h.barsForOr.withoutReference m]

end IsMember

theorem IsAtom.focus_eq {s : Text} (h : IsAtom s) : focus s = TypeHint.barsForOr s := by
  have hhead : (TypeHint.barsForOr s).head? ≠ some '&' := h.barsForOr.head?_ne (by decide)
  rw [(IsMember.atom h).focus_eq, withoutReference_of_head?_ne hhead]

/-- A reference to an atom means what the atom means. -/
theorem IsAtom.kindOf?_reference {s : Text} (h : IsAtom s) (m : ReferenceMark) :
    kindOf? (m.text ++ s) = kindOf? s :=
  kindOf?_congr (((IsMember.atom h).focus_reference m).trans h.focus_eq.symm)

end CallSchema.TypeHint
