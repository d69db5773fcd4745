import CallSchema.Proofs.Text.Word
import CallSchema.Proofs.TypeHint.Expr
import CallSchema.Proofs.TypeHint.Rounds

/-!
# Names and brackets

An atom is a path, or a pair of brackets with or without a path in front of it: what is left of a
type expression when its references and the other members of its union are gone. One round of the
reduction changes an atom in its words `or` only, and the path decides what happens then.

## Main definitions

* `TypeHint.IsPathText` -- made of the characters of paths
* `TypeHint.IsAtom` -- a path, or a pair of brackets behind a path or on its own
-/

namespace CallSchema.TypeHint

open Text

/-! ### Characters of paths -/

/-- The characters of paths. -/
def isPathChar (c : Char) : Bool :=
  isWord c || c == ':' || c == '.'

/-- The characters of type expressions that stand between paths. -/
def structureCharacters : Text :=
  "[]<>()|,&' ".toList

theorem ne_of_isPathChar {c d : Char} (hc : isPathChar c = true) (hd : d ∈ structureCharacters) :
    c ≠ d := by
  have hnone : ∀ d ∈ structureCharacters, isPathChar d = false := by decide +kernel
  rintro rfl
  rw [hnone c hd] at hc
  cases hc

theorem isOpening_of_isPathChar {c : Char} (h : isPathChar c = true) : isOpening c = false := by
  have hsquare : c ≠ '[' := ne_of_isPathChar h (by decide)
  have hangle : c ≠ '<' := ne_of_isPathChar h (by decide)
  have hround : c ≠ '(' := ne_of_isPathChar h (by decide)
  simp [isOpening, hsquare, hangle, hround]

theorem isClosing_of_isPathChar {c : Char} (h : isPathChar c = true) : isClosing c = false := by
  have hsquare : c ≠ ']' := ne_of_isPathChar h (by decide)
  have hangle : c ≠ '>' := ne_of_isPathChar h (by decide)
  have hround : c ≠ ')' := ne_of_isPathChar h (by decide)
  simp [isClosing, hsquare, hangle, hround]

theorem isBlank_of_isPathChar {c : Char} (h : isPathChar c = true) : isBlank c = false := by
  rw [isPathChar, Bool.or_eq_true, Bool.or_eq_true, beq_iff_eq, beq_iff_eq] at h
  obtain (hword | rfl) | rfl := h
  · exact isBlank_of_isWord hword
  · decide
  · decide

theorem isBlank_of_isOpening {c : Char} (h : isOpening c = true) : isBlank c = false := by
  simp only [isOpening, Bool.or_eq_true, beq_iff_eq] at h
  obtain (rfl | rfl) | rfl := h <;> decide

theorem isBlank_of_isClosing {c : Char} (h : isClosing c = true) : isBlank c = false := by
  simp only [isClosing, Bool.or_eq_true, beq_iff_eq] at h
  obtain (rfl | rfl) | rfl := h <;> decide

/-- Made of the characters of paths. -/
def IsPathText (s : Text) : Prop :=
  ∀ c ∈ s, isPathChar c = true

instance (s : Text) : Decidable (IsPathText s) :=
  inferInstanceAs (Decidable (∀ _ ∈ _, _))

namespace IsPathText

variable {s : Text} (h : IsPathText s)
include h

theorem not_mem {c : Char} (hc : c ∈ structureCharacters) : c ∉ s := fun hmem =>
  ne_of_isPathChar (h c hmem) hc rfl

theorem balanced : Balanced s :=
  balanced_of_forall fun c hc =>
    ⟨isOpening_of_isPathChar (h c hc), isClosing_of_isPathChar (h c hc)⟩

theorem unsplit {separator : Char} (hsep : separator ∈ structureCharacters) :
    Unsplit separator s :=
  unsplit_of_forall fun c hc => ⟨isOpening_of_isPathChar (h c hc), isClosing_of_isPathChar (h c hc),
    ne_of_isPathChar (h c hc) hsep⟩

theorem trimmed : trim s = s :=
  trim_eq_self_of_forall fun c hc => isBlank_of_isPathChar (h c hc)

theorem barsForOr_append (t : Text) : barsForOr (s ++ t) = s ++ barsForOr t :=
  barsForOr_append_of_not_mem (h.not_mem (by decide)) t

theorem lower : IsPathText (lower s) := by
  intro c hc
  obtain ⟨d, hd, rfl⟩ := List.mem_map.1 hc
  have hcase : isPathChar d.toLower = isPathChar d := congr_toLower isPathChar (by decide +kernel) d
  rw [hcase]
  exact h d hd

end IsPathText

/-! ### Paths -/

theorem Scopes.isPathText (scopes : Scopes) : IsPathText scopes.text := by
  intro c hc
  obtain ⟨⟨segment, joiner⟩, -, hc⟩ := List.mem_flatMap.1 hc
  have hjoiner : ∀ d ∈ joiner.text, isPathChar d = true := by
    cases joiner <;> decide +kernel
  obtain hc | hc := List.mem_append.1 hc
  · simp [isPathChar, segment.isWord c hc]
  · exact hjoiner c hc

theorem Word.isPathText (name : Word) : IsPathText name.chars := by
  intro c hc
  simp [isPathChar, name.isWord c hc]

theorem IsPathText.append {s t : Text} (hs : IsPathText s) (ht : IsPathText t) :
    IsPathText (s ++ t) := by
  intro c hc
  obtain hc | hc := List.mem_append.1 hc
  · exact hs c hc
  · exact ht c hc

theorem Path.isPathText (p : Path) : IsPathText p.text :=
  p.scopes.isPathText.append p.name.isPathText

theorem Path.text_ne_nil (p : Path) : p.text ≠ [] :=
  List.append_ne_nil_of_right_ne_nil _ p.name.ne_nil

theorem Word.notMem_chars (name : Word) {c : Char} (hc : Text.isWord c = false) :
    c ∉ name.chars := by
  intro hmem
  rw [name.isWord c hmem] at hc
  cases hc

/-- A path begins with a character of a name. -/
theorem Path.head?_text_ne (p : Path) : p.text.head? ≠ some ':' := by
  have hcolon : ∀ (name : Word) (t : Text), (name.chars ++ t).head? ≠ some ':' := by
    intro name t h
    rw [List.head?_append_of_ne_nil _ name.ne_nil] at h
    exact name.notMem_chars (by decide +kernel) (List.mem_of_mem_head? h)
  obtain ⟨scopes, name⟩ := p
  cases scopes with
  | nil =>
    show name.chars.head? ≠ some ':'
    simpa using hcolon name []
  | cons scope scopes =>
    obtain ⟨segment, joiner⟩ := scope
    show (((segment.chars ++ joiner.text) ++ Scopes.text scopes) ++ name.chars).head? ≠ some ':'
    rw [List.append_assoc, List.append_assoc]
    exact hcolon segment _

/-! ### The last segment -/

theorem afterLast?_append {mark t rest : Text} (h : afterLast? mark t = some rest) (s : Text) :
    afterLast? mark (s ++ t) = some rest := by
  induction s with
  | nil => exact h
  | cons c s ih => rw [List.cons_append, afterLast?, ih]

theorem afterLast?_append_eq_none {m : Char} {mark s t : Text} (hs : m ∉ s)
    (ht : afterLast? (m :: mark) t = none) : afterLast? (m :: mark) (s ++ t) = none := by
  induction s with
  | nil => exact ht
  | cons c s ih =>
    rw [List.mem_cons, not_or] at hs
    rw [List.cons_append, afterLast?, ih hs.2, after?, if_neg hs.1]

/-- What follows the last mark is in the last part of a text that has a mark in front of it. -/
theorem afterLast_append_of_eq {mark t u : Text}
    (h : afterLast? mark u = some (afterLast mark t)) (s : Text) :
    afterLast mark (s ++ u) = afterLast mark t := by
  rw [afterLast, afterLast?_append h, Option.getD_some]

theorem afterLast?_dot_cons (t : Text) :
    afterLast? ['.'] ('.' :: t) = some (afterLast ['.'] t) := by
  rw [afterLast?, afterLast]
  cases afterLast? ['.'] t with
  | some rest => rfl
  | none => rfl

theorem afterLast?_colons_cons {t : Text} (h : t.head? ≠ some ':') :
    afterLast? [':', ':'] (':' :: ':' :: t) = some (afterLast [':', ':'] t) := by
  rw [afterLast?, afterLast?, afterLast]
  cases afterLast? [':', ':'] t with
  | some rest => rfl
  | none =>
    have hnone : after? [':', ':'] (':' :: t) = none := by
      cases t with
      | nil => rfl
      | cons c t =>
        have hc : ':' ≠ c := by
          rintro rfl
          exact h rfl
        rw [after?, if_pos rfl, after?, if_neg hc]
    rw [hnone]
    rfl

/-- The last segment is behind every joiner. -/
theorem lastSegment_append_joiner {s t : Text} (joiner : Joiner) (hs : ':' ∉ s)
    (ht : t.head? ≠ some ':') : lastSegment (s ++ (joiner.text ++ t)) = lastSegment t := by
  cases joiner with
  | colons =>
    show afterLast ['.'] (afterLast [':', ':'] (s ++ ':' :: ':' :: t)) = lastSegment t
    rw [afterLast_append_of_eq (afterLast?_colons_cons ht), lastSegment]
  | dot =>
    show afterLast ['.'] (afterLast [':', ':'] (s ++ '.' :: t)) = lastSegment t
    cases h : afterLast? [':', ':'] t with
    | some rest =>
      have hdot : afterLast? [':', ':'] (['.'] ++ t) = some (afterLast [':', ':'] t) := by
        rw [afterLast?_append h, afterLast, h, Option.getD_some]
      have hall : afterLast [':', ':'] (s ++ '.' :: t) = afterLast [':', ':'] t :=
        afterLast_append_of_eq hdot s
      rw [hall, lastSegment]
    | none =>
      -- without colons, the last dot counts
      have hdot : afterLast? [':', ':'] (s ++ (['.'] ++ t)) = none :=
        afterLast?_append_eq_none hs (afterLast?_append_eq_none (by decide) h)
      have hall : afterLast [':', ':'] (s ++ '.' :: t) = s ++ '.' :: t := by
        rw [afterLast]
        exact congrArg (Option.getD · _) hdot
      have ht : afterLast [':', ':'] t = t := by rw [afterLast, h, Option.getD_none]
      rw [hall, afterLast_append_of_eq (afterLast?_dot_cons t), lastSegment, ht]

theorem lastSegment_text (p : Path) : lastSegment p.text = p.name.chars := by
  obtain ⟨scopes, name⟩ := p
  induction scopes with
  | nil =>
    show lastSegment name.chars = name.chars
    exact lastSegment_of_not_mem (name.notMem_chars (by decide +kernel))
      (name.notMem_chars (by decide +kernel))
  | cons scope scopes ih =>
    obtain ⟨segment, joiner⟩ := scope
    show lastSegment (((segment.chars ++ joiner.text) ++ Scopes.text scopes) ++ name.chars) = _
    rw [List.append_assoc, List.append_assoc]
    exact (lastSegment_append_joiner joiner (segment.notMem_chars (by decide +kernel))
      (Path.head?_text_ne ⟨scopes, name⟩)).trans ih

/-! ### Atoms -/

/-- A path, or a pair of brackets behind a path or on its own. -/
inductive IsAtom : Text → Prop where
  | name {s : Text} (hs : IsPathText s) (hne : s ≠ []) : IsAtom s
  | bracketed {s body : Text} {opening closing : Char} (hs : IsPathText s)
      (hpair : IsPair opening closing) (hbody : Balanced body) :
      IsAtom (s ++ opening :: (body ++ [closing]))

namespace IsAtom

theorem ne_nil {s : Text} (h : IsAtom s) : s ≠ [] := by
  cases h with
  | name hs hne => exact hne
  | bracketed hs hpair hbody => exact List.append_ne_nil_of_right_ne_nil _ (List.cons_ne_nil _ _)

theorem lower {s : Text} (h : IsAtom s) : IsAtom (lower s) := by
  cases h with
  | name hs hne => exact .name hs.lower (mt lower_eq_nil_iff.1 hne)
  | bracketed hs hpair hbody =>
    rw [lower_append, lower_cons, lower_append]
    exact .bracketed hs.lower hpair.lower (balanced_lower_iff.2 hbody)

theorem barsForOr {s : Text} (h : IsAtom s) : IsAtom (barsForOr s) := by
  cases h with
  | name hs hne =>
    rw [barsForOr_of_not_mem (hs.not_mem (by decide))]
    exact .name hs hne
  | bracketed hs hpair hbody =>
    rw [hs.barsForOr_append, barsForOr_pair hpair]
    exact .bracketed hs hpair (balanced_barsForOr_iff.2 hbody)

theorem unsplit {s : Text} (h : IsAtom s) {separator : Char}
    (hsep : separator ∈ structureCharacters) : Unsplit separator s := by
  cases h with
  | name hs hne => exact hs.unsplit hsep
  | bracketed hs hpair hbody => exact (hs.unsplit hsep).append hs.balanced (hpair.unsplit hbody)

theorem balanced {s : Text} (h : IsAtom s) : Balanced s := by
  cases h with
  | name hs hne => exact hs.balanced
  | bracketed hs hpair hbody => exact hs.balanced.append (hpair.balanced hbody)

/-- An atom begins with a path or a bracket. -/
theorem of_head? {s : Text} (h : IsAtom s) {c : Char} (hc : s.head? = some c) :
    isPathChar c = true ∨ isOpening c = true := by
  cases h with
  | name hs hne => exact .inl (hs c (List.mem_of_mem_head? hc))
  | @bracketed s body opening closing hs hpair hbody =>
    cases s with
    | nil =>
      obtain rfl := Option.some.inj hc
      exact .inr hpair.isOpening
    | cons d s =>
      obtain rfl := Option.some.inj hc
      exact .inl (hs d List.mem_cons_self)

theorem of_getLast? {s : Text} (h : IsAtom s) {c : Char} (hc : s.getLast? = some c) :
    IsPathText s ∨ isClosing c = true := by
  cases h with
  | name hs hne => exact .inl hs
  | @bracketed s body opening closing hs hpair hbody =>
    rw [← List.cons_append, ← List.append_assoc, List.getLast?_concat] at hc
    rw [← Option.some.inj hc]
    exact .inr hpair.isClosing

theorem trimmed {s : Text} (h : IsAtom s) : trim s = s := by
  refine trim_eq_self_iff_ends.2 ⟨fun c hc => ?_, fun c hc => ?_⟩
  · obtain hpath | hopen := h.of_head? hc
    · exact isBlank_of_isPathChar hpath
    · exact isBlank_of_isOpening hopen
  · obtain hpath | hclose := h.of_getLast? hc
    · exact isBlank_of_isPathChar (hpath c (List.mem_of_getLast? hc))
    · exact isBlank_of_isClosing hclose

theorem isTypeText {s : Text} (h : IsAtom s) : IsTypeText s where
  trimmed := h.trimmed
  balanced := h.balanced
  unsplit := h.unsplit (by decide)

theorem head?_ne {s : Text} (h : IsAtom s) {c : Char} (hc : c ∈ "&' ".toList) :
    s.head? ≠ some c := by
  intro hhead
  have hmem : ∀ d ∈ "&' ".toList, d ∈ structureCharacters ∧ isOpening d = false := by decide
  obtain hpath | hopen := h.of_head? hhead
  · exact ne_of_isPathChar hpath (hmem c hc).1 rfl
  · rw [(hmem c hc).2] at hopen
    cases hopen

/-- No space follows the path that an atom begins with. -/
theorem not_prefix {s word : Text} (h : IsAtom s) (hword : IsPathText word) :
    ¬ word ++ [' '] <+: s := by
  have hspace : ¬ isPathChar ' ' = true := by decide +kernel
  rintro ⟨rest, heq⟩
  have hdrop : s.dropWhile isPathChar = ' ' :: rest := by
    rw [← heq, List.append_assoc, List.dropWhile_append_of_pos hword]
    exact List.dropWhile_cons_of_neg hspace
  cases h with
  | name hs hne =>
    rw [List.dropWhile_eq_nil_iff.2 hs] at hdrop
    cases hdrop
  | @bracketed s body opening closing hs hpair hbody =>
    have hopening : ¬ isPathChar opening = true := fun hpath => by
      have hopen := isOpening_of_isPathChar hpath
      rw [hpair.isOpening] at hopen
      cases hopen
    rw [List.dropWhile_append_of_pos hs, List.dropWhile_cons_of_neg hopening] at hdrop
    obtain rfl := (List.cons.inj hdrop).1
    cases hpair.isOpening

theorem noOrEnd {s : Text} (h : IsAtom s) : NoOrEnd s := by
  rintro ⟨init, heq⟩
  have hlast : s.getLast? = some 'r' := by
    rw [← heq, List.getLast?_append_of_ne_nil _ (by decide)]
    rfl
  obtain hpath | hclose := h.of_getLast? hlast
  · refine hpath.not_mem (c := ' ') (by decide) ?_
    rw [← heq]
    exact List.mem_append_right init List.mem_cons_self
  · cases hclose

end IsAtom

end CallSchema.TypeHint
