import CallSchema.Proofs.TypeHint.Members

/-!
# The texts of expressions

The text of every type expression is balanced, and it is a member of a union unless it is a union
itself. In lower case, the text of an expression that follows the grammar neither begins nor ends
with the word `or`, so that no word is made where texts are put together.

## Main definitions

* `TypeHint.IsExprText` -- what the texts of all expressions have in common
-/

namespace CallSchema.TypeHint

open Text

/-! ### Shapes -/

theorem Bar.balanced_text (bar : Bar) : Balanced bar.text := by
  cases bar <;> decide

theorem Bar.unsplit_text (bar : Bar) : Unsplit ',' bar.text := by
  cases bar <;> rfl

theorem Bar.lower_text (bar : Bar) : lower bar.text = bar.text := by
  cases bar <;> decide

theorem balanced_cowArguments (lifetime : Word) {s : Text} (h : Balanced s) :
    Balanced (cowArguments lifetime s) := by
  show Balanced (['\''] ++ (lifetime.chars ++ ([',', ' '] ++ s)))
  exact .append (by decide) (lifetime.isPathText.balanced.append (.append (by decide) h))

namespace Expr

theorem balanced_text (e : Expr) : Balanced e.text := by
  induction e with
  | absent => decide
  | path p => exact p.isPathText.balanced
  | generic p b args => exact p.isPathText.balanced.append (b.isPair.balanced args.2)
  | wrapper scopes w b e ih => exact (Path.isPathText _).balanced.append (b.isPair.balanced ih)
  | cow scopes lifetime e ih =>
    exact (Path.isPathText _).balanced.append
      (Brackets.angle.isPair.balanced (balanced_cowArguments lifetime ih))
  | reference m e ih => exact m.balanced_text.append ih
  | union e bar rest ih ihrest => exact ih.append (bar.balanced_text.append ihrest)
  | slice e ih => exact Brackets.square.isPair.balanced ih
  | tuple e rest ih => exact isPair_round.balanced (ih.append rest.2)
  | unit => decide

/-- Expressions with commas between them, as the arguments of a type are written. -/
def commaSeparated (e : Expr) : List Expr → { s : Text // Balanced s }
  | [] => ⟨e.text, e.balanced_text⟩
  | next :: es =>
    ⟨e.text ++ ([',', ' '] ++ (commaSeparated next es).1),
      e.balanced_text.append (.append (by decide) (commaSeparated next es).2)⟩

/-- What is neither a reference nor a union is a path, or a pair of brackets. -/
theorem isAtom_text {e : Expr} (hreference : e.isReference = false) (hunion : e.isUnion = false) :
    IsAtom e.text := by
  have hnone : IsPathText ([] : Text) := nofun
  cases e with
  | absent => exact .name (by decide +kernel) (by decide)
  | path p => exact .name p.isPathText p.text_ne_nil
  | generic p b args => exact .bracketed p.isPathText b.isPair args.2
  | wrapper scopes w b e => exact .bracketed (Path.isPathText _) b.isPair e.balanced_text
  | cow scopes lifetime e =>
    exact .bracketed (Path.isPathText _) Brackets.angle.isPair
      (balanced_cowArguments lifetime e.balanced_text)
  | reference m e => cases hreference
  | union e bar rest => cases hunion
  | slice e => exact .bracketed hnone Brackets.square.isPair e.balanced_text
  | tuple e rest => exact .bracketed hnone isPair_round (e.balanced_text.append rest.2)
  | unit => exact .bracketed hnone isPair_round balanced_nil

theorem target_isReference (e : Expr) : e.target.isReference = false := by
  induction e with
  | reference m e ih => exact ih
  | absent | path | generic | wrapper | cow | union | slice | tuple | unit => rfl

/-- A reference to anything but a union is a member of a union. -/
theorem isMember_text {e : Expr} (h : e.target.isUnion = false) : IsMember e.text := by
  induction e with
  | reference m e ih => exact .reference m (ih h)
  | absent | path | generic | wrapper | cow | union | slice | tuple | unit =>
    exact .atom (isAtom_text rfl h)

end Expr

/-! ### Words at the ends -/

theorem NoOrEnd.append_left {s t : Text} (ht : NoOrEnd t) (hne : t ≠ []) (hor : t ≠ ['o', 'r'])
    (hs : s.getLast? ≠ some 'o') : NoOrEnd (s ++ t) := by
  rintro ⟨init, heq⟩
  obtain ⟨u, rfl, hword⟩ | ⟨u, -, rfl⟩ := List.append_eq_append_iff.1 heq
  · -- the second text is an end of the word with its space
    match u, hword with
    | [], hword =>
      obtain rfl : t = [' ', 'o', 'r'] := hword.symm
      exact ht List.suffix_rfl
    | [_], hword => exact hor (List.cons.inj hword).2.symm
    | [_, _], hword =>
      obtain ⟨-, rfl, -⟩ : ' ' = _ ∧ 'o' = _ ∧ ['r'] = t := by simpa using hword
      rw [List.getLast?_append_of_ne_nil _ (List.cons_ne_nil _ _)] at hs
      exact hs rfl
    | _ :: _ :: _ :: u, hword =>
      obtain ⟨-, -, -, -, rfl⟩ : ' ' = _ ∧ 'o' = _ ∧ 'r' = _ ∧ u = [] ∧ t = [] := by
        simpa using hword
      exact hne rfl
  · exact ht (List.suffix_append u _)

theorem NoOrStart.append_right {s t : Text} (hs : NoOrStart s) (hne : s ≠ [])
    (hor : s ≠ ['o', 'r']) (ht : t.head? ≠ some 'r') : NoOrStart (s ++ t) := by
  rintro ⟨rest, heq⟩
  obtain ⟨u, rfl, -⟩ | ⟨u, hword, rfl⟩ := List.append_eq_append_iff.1 heq
  · exact hs (List.prefix_append _ _)
  · -- the first text is a beginning of the word with its space
    match s, hword with
    | [], _ => exact hne rfl
    | [_], hword =>
      obtain ⟨-, rfl⟩ : 'o' = _ ∧ ['r', ' '] = u := by simpa using hword
      exact ht rfl
    | [_, _], hword =>
      obtain ⟨rfl, rfl, -⟩ : 'o' = _ ∧ 'r' = _ ∧ [' '] = u := by simpa using hword
      exact hor rfl
    | _ :: _ :: _ :: s, hword =>
      obtain ⟨rfl, rfl, rfl, rfl, -⟩ : 'o' = _ ∧ 'r' = _ ∧ ' ' = _ ∧ s = [] ∧ u = [] := by
        simpa using hword
      exact hs List.prefix_rfl

/-- What the texts of all expressions have in common. -/
structure IsExprText (s : Text) : Prop extends IsTypeText s where
  ne_nil : s ≠ []
  ne_orWord : s ≠ ['o', 'r']
  noOrStart : NoOrStart s
  noOrEnd : NoOrEnd s

theorem IsAtom.isExprText {s : Text} (h : IsAtom s) (hor : s ≠ ['o', 'r']) : IsExprText s where
  toIsTypeText := h.isTypeText
  ne_nil := h.ne_nil
  ne_orWord := hor
  noOrStart := (IsMember.atom h).noOrStart
  noOrEnd := h.noOrEnd

theorem ReferenceMark.getLast?_text_ne (m : ReferenceMark) : m.text.getLast? ≠ some 'o' := by
  have hlifetime : ('&' :: m.lifetimeText).getLast? ≠ some 'o' := by
    rw [lifetimeText]
    cases m.lifetime with
    | none => decide
    | some name =>
      show ('&' :: '\'' :: (name.chars ++ [' '])).getLast? ≠ some 'o'
      rw [← List.cons_append, ← List.cons_append, List.getLast?_concat]
      decide
  show (('&' :: m.lifetimeText) ++ m.mutText).getLast? ≠ some 'o'
  rw [mutText]
  split
  · rw [List.getLast?_append_of_ne_nil _ (by decide)]
    decide
  · rwa [List.append_nil]

theorem IsAtom.isExprText_reference {s : Text} (h : IsAtom s) (hor : s ≠ ['o', 'r'])
    (m : ReferenceMark) : IsExprText (m.text ++ s) where
  toIsTypeText := (IsMember.reference m (.atom h)).isTypeText
  ne_nil := List.cons_ne_nil _ _
  ne_orWord := nofun
  noOrStart := (IsMember.reference m (.atom h)).noOrStart
  noOrEnd := h.noOrEnd.append_left h.ne_nil hor m.getLast?_text_ne

theorem IsTypeText.union {s t : Text} (hs : IsTypeText s) (hsne : s ≠ []) (bar : Bar)
    (ht : IsTypeText t) (htne : t ≠ []) : IsTypeText (s ++ (bar.text ++ t)) where
  trimmed := trim_append_append hs.trimmed ht.trimmed hsne htne bar.text
  balanced := hs.balanced.append (bar.balanced_text.append ht.balanced)
  unsplit := hs.unsplit.append hs.balanced (bar.unsplit_text.append bar.balanced_text ht.unsplit)

theorem IsExprText.union {s t : Text} (hs : IsExprText s) (bar : Bar) (ht : IsExprText t) :
    IsExprText (s ++ (bar.text ++ t)) where
  toIsTypeText := hs.toIsTypeText.union hs.ne_nil bar ht.toIsTypeText ht.ne_nil
  ne_nil := List.append_ne_nil_of_left_ne_nil hs.ne_nil _
  ne_orWord := by
    have hbar : ∃ c ∈ bar.text, c ∉ ['o', 'r'] := by cases bar <;> decide
    obtain ⟨c, hc, hor⟩ := hbar
    intro heq
    rw [← heq] at hor
    exact hor (List.mem_append_right s (List.mem_append_left t hc))
  noOrStart := hs.noOrStart.append_right hs.ne_nil hs.ne_orWord (by cases bar <;> nofun)
  noOrEnd := by
    have hbar : (s ++ bar.text).getLast? ≠ some 'o' := by
      rw [List.getLast?_append_of_ne_nil _ (by cases bar <;> nofun)]
      cases bar <;> decide
    rw [← List.append_assoc]
    exact ht.noOrEnd.append_left ht.ne_nil ht.ne_orWord hbar

/-! ### Reserved words -/

/-- The characters that a reference, or a type with brackets, has. -/
def markCharacters : Text :=
  "[<(&".toList

theorem notMem_reservedWords_of_mem {s : Text} {c : Char} (hc : c ∈ s)
    (hmark : c ∈ markCharacters) : String.ofList s ∉ reservedWords := by
  have hwords : ∀ word ∈ reservedWords, ∀ d ∈ markCharacters, d ∉ word.toList := by decide
  intro hword
  have hnone := hwords _ hword c hmark
  rw [String.toList_ofList] at hnone
  exact hnone hc

namespace Expr

theorem exists_markCharacter {e : Expr} (habsent : e ≠ absent) (hpath : ∀ p, e ≠ path p)
    (hunion : e.isUnion = false) : ∃ c ∈ markCharacters, c ∈ e.text := by
  have hbrackets : ∀ (b : Brackets) (s t : Text), ∃ c ∈ markCharacters, c ∈ s ++ b.around t := by
    intro b s t
    have hopening : b.opening ∈ markCharacters := by cases b <;> decide
    exact ⟨b.opening, hopening, List.mem_append_right s List.mem_cons_self⟩
  cases e with
  | absent => exact absurd rfl habsent
  | path p => exact absurd rfl (hpath p)
  | generic p b args => exact hbrackets b _ _
  | wrapper scopes w b e => exact hbrackets b _ _
  | cow scopes lifetime e => exact hbrackets .angle _ _
  | reference m e => exact ⟨'&', by decide, List.mem_cons_self⟩
  | union e bar rest => cases hunion
  | slice e => exact hbrackets .square [] _
  | tuple e rest => exact ⟨'(', by decide, List.mem_cons_self⟩
  | unit => exact ⟨'(', by decide, List.mem_cons_self⟩

/-- No member but `None` is a null type or the word `or`. -/
theorem notMem_reservedWords {e : Expr} (h : e.WellFormed) (habsent : e ≠ absent)
    (hunion : e.isUnion = false) : String.ofList (barsForOr (lower e.text)) ∉ reservedWords := by
  by_cases hpath : ∃ p, e = path p
  · obtain ⟨p, rfl⟩ := hpath
    have hspace : ' ' ∉ p.lower.text := p.lower.isPathText.not_mem (by decide)
    show String.ofList (barsForOr (lower p.text)) ∉ reservedWords
    rw [← p.lower_text, barsForOr_of_not_mem hspace]
    exact h
  · obtain ⟨c, hc, hmem⟩ := exists_markCharacter habsent (fun p hp => hpath ⟨p, hp⟩) hunion
    have hplain : ∀ d ∈ markCharacters, d.toLower = d ∧ d ∉ orWord := by decide
    have hlower : c ∈ lower e.text := by
      rw [← (hplain c hc).1]
      exact List.mem_map_of_mem hmem
    obtain hword | hbars := mem_barsForOr hlower
    · exact absurd hword (hplain c hc).2
    · exact notMem_reservedWords_of_mem hbars hc

theorem lower_text_ne_orWord {e : Expr} (h : e.WellFormed) (hunion : e.isUnion = false) :
    lower e.text ≠ ['o', 'r'] := by
  by_cases habsent : e = absent
  · rw [habsent]
    decide
  · intro heq
    have hnot := notMem_reservedWords h habsent hunion
    rw [heq] at hnot
    exact hnot (by decide)

theorem isExprText_lower_text {e : Expr} (h : e.WellFormed) : IsExprText (lower e.text) := by
  induction e with
  | reference m e ih =>
    obtain ⟨hreference, hunion, h⟩ := h
    show IsExprText (lower (m.text ++ e.text))
    rw [lower_append, ← m.lower_text]
    exact (isAtom_text hreference hunion).lower.isExprText_reference (lower_text_ne_orWord h hunion)
      m.lower
  | union e bar rest ih ihrest =>
    obtain ⟨-, he, hrest⟩ := h
    show IsExprText (lower (e.text ++ (bar.text ++ rest.text)))
    rw [lower_append, lower_append, bar.lower_text]
    exact (ih he).union bar (ihrest hrest)
  | absent | path | generic | wrapper | cow | slice | tuple | unit =>
    exact (isAtom_text rfl rfl).lower.isExprText (lower_text_ne_orWord h rfl)

end Expr

end CallSchema.TypeHint
