import CallSchema.Proofs.TypeHint.Balanced
import CallSchema.TypeHint.Meaning

/-!
# Bars for the word between members

`TypeHint.barsForOr` writes a bar for every ` or ` of a text, from left to right. It changes no
bracket, no comma and neither end of a trimmed text, and it acts on the two parts of an append
separately unless a ` or ` lies across the place where they meet.

## Main definitions

* `TypeHint.orWord` -- the word that is written as a bar
* `TypeHint.Across` -- a word that two texts have only together
-/

namespace CallSchema.TypeHint

open Text

/-- The word `or` between single spaces. -/
def orWord : Text :=
  [' ', 'o', 'r', ' ']

@[simp] theorem barsForOr_nil : barsForOr [] = [] := rfl

@[simp] theorem barsForOr_orWord_append (s : Text) : barsForOr (orWord ++ s) = '|' :: barsForOr s :=
  rfl

theorem barsForOr_cons {c : Char} {s : Text} (h : ¬ orWord <+: c :: s) :
    barsForOr (c :: s) = c :: barsForOr s := by
  refine barsForOr.eq_2 c s fun rest hc hs => h ⟨rest, ?_⟩
  rw [hc, hs]
  rfl

theorem barsForOr_cons_of_ne {c : Char} (h : c ≠ ' ') (s : Text) :
    barsForOr (c :: s) = c :: barsForOr s :=
  barsForOr_cons fun hword => h (List.cons_prefix_cons.1 hword).1.symm

/-- A text is read from the left, the word that is written as a bar at once. -/
theorem barsForOr_induction {motive : Text → Prop} (nil : motive [])
    (word : ∀ s, motive s → motive (orWord ++ s))
    (char : ∀ c s, ¬ orWord <+: c :: s → motive s → motive (c :: s)) (s : Text) : motive s := by
  fun_induction barsForOr s with
  | case1 s ih => exact word s ih
  | case2 c s hne ih =>
    refine char c s ?_ ih
    rintro ⟨rest, heq⟩
    obtain ⟨hc, hs⟩ := List.cons.inj heq
    exact hne rest hc.symm hs.symm
  | case3 => exact nil

/-! ### Appends -/

/-- The word begins in the first text and ends in the second one. -/
def Across (s t : Text) : Prop :=
  ∃ u v, u ≠ [] ∧ v ≠ [] ∧ orWord = u ++ v ∧ u <:+ s ∧ v <+: t

theorem barsForOr_append {s t : Text} (h : ¬ Across s t) :
    barsForOr (s ++ t) = barsForOr s ++ barsForOr t := by
  induction s using barsForOr_induction with
  | nil => rfl
  | word s ih =>
    have hs : ¬ Across s t := by
      rintro ⟨u, v, hu, hv, hword, hsuffix, hstart⟩
      exact h ⟨u, v, hu, hv, hword, hsuffix.trans (List.suffix_append _ s), hstart⟩
    rw [List.append_assoc, barsForOr_orWord_append, ih hs, barsForOr_orWord_append,
      List.cons_append]
  | char c s hne ih =>
    have hs : ¬ Across s t := by
      rintro ⟨u, v, hu, hv, hword, hsuffix, hstart⟩
      exact h ⟨u, v, hu, hv, hword, hsuffix.trans (List.suffix_cons c s), hstart⟩
    have hnone : ¬ orWord <+: c :: (s ++ t) := by
      rintro ⟨rest, heq⟩
      rw [← List.cons_append] at heq
      obtain ⟨later, hlater, -⟩ | ⟨v, hword, ht⟩ := List.append_eq_append_iff.1 heq
      · exact hne ⟨later, hlater.symm⟩
      · -- the part of the word in `t` would be empty or make the word lie across
        by_cases hv : v = []
        · rw [hv, List.append_nil] at hword
          exact hne (hword ▸ List.prefix_rfl)
        · exact h ⟨c :: s, v, List.cons_ne_nil c s, hv, hword, List.suffix_rfl, rest, ht.symm⟩
    rw [List.cons_append, barsForOr_cons hnone, ih hs, barsForOr_cons hne, List.cons_append]

/-- The word begins with a space. -/
theorem space_mem_of_across {s t : Text} (h : Across s t) : ' ' ∈ s := by
  obtain ⟨u, v, hu, -, hword, hsuffix, -⟩ := h
  obtain ⟨c, u, rfl⟩ := List.exists_cons_of_ne_nil hu
  obtain rfl : ' ' = c := (List.cons.inj hword).1
  exact hsuffix.subset List.mem_cons_self

/-- The second text begins with a character of the word. -/
theorem mem_orWord_of_across {s t : Text} {c : Char} (h : Across s (c :: t)) : c ∈ orWord := by
  obtain ⟨u, v, -, hv, hword, -, hstart⟩ := h
  obtain ⟨d, v, rfl⟩ := List.exists_cons_of_ne_nil hv
  obtain rfl : d = c := (List.cons_prefix_cons.1 hstart).1
  rw [hword]
  exact List.mem_append_right u List.mem_cons_self

theorem barsForOr_of_not_mem {s : Text} (h : ' ' ∉ s) : barsForOr s = s := by
  induction s with
  | nil => rfl
  | cons c s ih =>
    rw [List.mem_cons, not_or] at h
    rw [barsForOr_cons_of_ne (Ne.symm h.1), ih h.2]

theorem barsForOr_append_of_not_mem {s : Text} (h : ' ' ∉ s) (t : Text) :
    barsForOr (s ++ t) = s ++ barsForOr t := by
  rw [barsForOr_append fun hacross => h (space_mem_of_across hacross), barsForOr_of_not_mem h]

theorem barsForOr_append_cons {c : Char} (h : c ∉ orWord) (s t : Text) :
    barsForOr (s ++ c :: t) = barsForOr s ++ c :: barsForOr t := by
  have hne : c ≠ ' ' := by
    rintro rfl
    exact h List.mem_cons_self
  rw [barsForOr_append fun hacross => h (mem_orWord_of_across hacross), barsForOr_cons_of_ne hne]

/-- Between a pair of brackets the words are written as bars, and the brackets stay. -/
theorem barsForOr_pair {opening closing : Char} (h : IsPair opening closing) (body : Text) :
    barsForOr (opening :: (body ++ [closing])) = opening :: (barsForOr body ++ [closing]) := by
  have hplain : ∀ c ∈ orWord, isOpening c = false ∧ isClosing c = false := by decide
  have hopening : opening ≠ ' ' := by
    rintro rfl
    cases h.isOpening
  have hclosing : closing ∉ orWord := fun hmem => by
    have hc := (hplain closing hmem).2
    rw [h.isClosing] at hc
    cases hc
  rw [barsForOr_cons_of_ne hopening, barsForOr_append_cons hclosing, barsForOr_nil]

/-- A text does not end in the word `or`, so that a space behind it makes no member of it. -/
def NoOrEnd (s : Text) : Prop :=
  ¬ [' ', 'o', 'r'] <:+ s

/-- A text does not begin with the word `or` and a space. -/
def NoOrStart (s : Text) : Prop :=
  ¬ ['o', 'r', ' '] <+: s

instance (s : Text) : Decidable (NoOrEnd s) :=
  inferInstanceAs (Decidable (¬ _))

instance (s : Text) : Decidable (NoOrStart s) :=
  inferInstanceAs (Decidable (¬ _))

theorem barsForOr_space_cons {s : Text} (h : NoOrStart s) :
    barsForOr (' ' :: s) = ' ' :: barsForOr s :=
  barsForOr_cons fun hword => h (List.cons_prefix_cons.1 hword).2

theorem not_across_space {s : Text} (h : NoOrEnd s) (t : Text) : ¬ Across s (' ' :: t) := by
  rintro ⟨u, v, hu, hv, hword, hsuffix, hstart⟩
  obtain ⟨d, v, rfl⟩ := List.exists_cons_of_ne_nil hv
  obtain rfl : d = ' ' := (List.cons_prefix_cons.1 hstart).1
  -- the only space behind the first one is the last character of the word
  match u, hu, hword with
  | [_], _, hword => simp [orWord] at hword
  | [_, _], _, hword => simp [orWord] at hword
  | [a, b, c], _, hword =>
    simp only [orWord, List.cons_append, List.nil_append, List.cons.injEq] at hword
    obtain ⟨rfl, rfl, rfl, -⟩ := hword
    exact h hsuffix
  | _ :: _ :: _ :: _ :: u, _, hword => simp [orWord] at hword

/-- The word between two texts is written as a bar. -/
theorem barsForOr_append_orWord {s : Text} (h : NoOrEnd s) (t : Text) :
    barsForOr (s ++ (orWord ++ t)) = barsForOr s ++ '|' :: barsForOr t :=
  barsForOr_append (not_across_space h _)

/-! ### Members of a union -/

/-- The ways to separate the members of a union. -/
inductive Bar where
  | tight
  | spaced
  | word
deriving DecidableEq, Repr

def Bar.text : Bar → Text
  | tight => ['|']
  | spaced => [' ', '|', ' ']
  | word => orWord

/-! ### Brackets and commas -/

theorem levelAfter?_orWord_append (depth : Nat) (s : Text) :
    levelAfter? depth (orWord ++ s) = levelAfter? depth s := by
  have hplain : ∀ d, levelAfter? d orWord = some d := (show Balanced orWord by decide).levelAfter?
  rw [levelAfter?_append, hplain, Option.bind_some]

theorem levelAfter?_barsForOr (depth : Nat) (s : Text) :
    levelAfter? depth (barsForOr s) = levelAfter? depth s := by
  induction s using barsForOr_induction generalizing depth with
  | nil => rfl
  | word s ih =>
    rw [barsForOr_orWord_append, levelAfter?_cons_of_plain rfl rfl, ih, levelAfter?_orWord_append]
  | char c s hne ih => rw [barsForOr_cons hne, levelAfter?, levelAfter?, ih]

theorem balanced_barsForOr_iff {s : Text} : Balanced (barsForOr s) ↔ Balanced s := by
  rw [Text.Balanced, levelAfter?_barsForOr, Text.Balanced]

theorem unsplit_comma_barsForOr {s : Text} (h : Unsplit ',' s) : Unsplit ',' (barsForOr s) := by
  rw [unsplit_iff] at h ⊢
  generalize 0 = depth at h
  induction s using barsForOr_induction generalizing depth with
  | nil => rfl
  | word s ih =>
    have hword : (splitOutsideFrom ',' depth orWord).2 = [] := by
      rw [splitOutsideFrom_eq_self]
      simp [orWord, isOpening, isClosing]
    rw [splitOutsideFrom_append_of_nil (by decide) hword] at h
    rw [barsForOr_orWord_append, splitOutsideFrom_cons_of_plain rfl rfl (by decide)]
    exact ih depth h
  | char c s hne ih =>
    obtain ⟨hc, h⟩ := splitOutsideFrom_cons_eq_nil_iff.1 h
    rw [barsForOr_cons hne, splitOutsideFrom_cons_eq_nil_iff]
    exact ⟨hc, ih _ h⟩

/-! ### Ends -/

/-- A text without bars at the start was there before. -/
theorem prefix_of_prefix_barsForOr {u s : Text} (hu : '|' ∉ u) (h : u <+: barsForOr s) :
    u <+: s := by
  induction s using barsForOr_induction generalizing u with
  | nil => exact h
  | word s ih =>
    cases u with
    | nil => exact List.nil_prefix
    | cons c u =>
      rw [barsForOr_orWord_append] at h
      obtain rfl : c = '|' := (List.cons_prefix_cons.1 h).1
      exact absurd List.mem_cons_self hu
  | char c s hne ih =>
    cases u with
    | nil => exact List.nil_prefix
    | cons d u =>
      rw [barsForOr_cons hne, List.cons_prefix_cons] at h
      rw [List.cons_prefix_cons]
      exact ⟨h.1, ih (fun hmem => hu (List.mem_cons_of_mem d hmem)) h.2⟩

/-- No word is left. -/
theorem barsForOr_idem (s : Text) : barsForOr (barsForOr s) = barsForOr s := by
  induction s using barsForOr_induction with
  | nil => rfl
  | word s ih => rw [barsForOr_orWord_append, barsForOr_cons_of_ne (by decide), ih]
  | char c s hne ih =>
    have hnone : ¬ orWord <+: c :: barsForOr s := by
      intro hword
      rw [← barsForOr_cons hne] at hword
      exact hne (prefix_of_prefix_barsForOr (by decide) hword)
    rw [barsForOr_cons hne, barsForOr_cons hnone, ih]

theorem barsForOr_eq_self {s : Text} (h : '|' ∉ barsForOr s) : barsForOr s = s := by
  induction s using barsForOr_induction with
  | nil => rfl
  | word s ih =>
    rw [barsForOr_orWord_append] at h
    exact absurd List.mem_cons_self h
  | char c s hne ih =>
    rw [barsForOr_cons hne] at h ⊢
    rw [ih fun hmem => h (List.mem_cons_of_mem c hmem)]

theorem barsForOr_eq_nil_iff {s : Text} : barsForOr s = [] ↔ s = [] := by
  cases s with
  | nil => rfl
  | cons c s =>
    refine iff_of_false (fun hnil => ?_) (List.cons_ne_nil c s)
    by_cases hword : orWord <+: c :: s
    · obtain ⟨rest, hrest⟩ := hword
      rw [← hrest, barsForOr_orWord_append] at hnil
      cases hnil
    · rw [barsForOr_cons hword] at hnil
      cases hnil

theorem getLast?_barsForOr {s : Text} {c : Char} (h : s.getLast? = some c) (hc : c ≠ ' ') :
    (barsForOr s).getLast? = some c := by
  induction s using barsForOr_induction with
  | nil => cases h
  | word s ih =>
    have hne : s ≠ [] := by
      rintro rfl
      exact hc (Option.some.inj h).symm
    rw [List.getLast?_append_of_ne_nil _ hne] at h
    rw [barsForOr_orWord_append, ← List.singleton_append,
      List.getLast?_append_of_ne_nil _ (mt barsForOr_eq_nil_iff.1 hne)]
    exact ih h
  | char d s hne ih =>
    rw [barsForOr_cons hne]
    cases s with
    | nil => exact h
    | cons e s =>
      rw [← List.singleton_append, List.getLast?_append_of_ne_nil _ (List.cons_ne_nil e s)] at h
      rw [← List.singleton_append,
        List.getLast?_append_of_ne_nil _ (mt barsForOr_eq_nil_iff.1 (List.cons_ne_nil e s))]
      exact ih h

theorem trim_barsForOr {s : Text} (h : trim s = s) : trim (barsForOr s) = barsForOr s := by
  obtain ⟨hstart, hend⟩ := trim_eq_self_iff_ends.1 h
  refine trim_eq_self_iff_ends.2 ⟨fun c hc => ?_, fun c hc => ?_⟩
  · obtain ⟨rest, hrest⟩ := List.head?_eq_some_iff.1 hc
    have hprefix : [c] <+: barsForOr s := ⟨rest, hrest.symm⟩
    by_cases hbar : c = '|'
    · rw [hbar]
      decide
    · obtain ⟨rest, rfl⟩ := prefix_of_prefix_barsForOr (by simpa using Ne.symm hbar) hprefix
      exact hstart c rfl
  · cases hlast : s.getLast? with
    | none =>
      obtain rfl := List.getLast?_eq_none_iff.1 hlast
      cases hc
    | some d =>
      have hd := hend d hlast
      have hne : d ≠ ' ' := by
        rintro rfl
        simp at hd
      rw [getLast?_barsForOr hlast hne] at hc
      rwa [← Option.some.inj hc]

theorem mem_barsForOr {s : Text} {c : Char} (h : c ∈ s) : c ∈ orWord ∨ c ∈ barsForOr s := by
  induction s using barsForOr_induction with
  | nil => cases h
  | word s ih =>
    rw [barsForOr_orWord_append]
    obtain hword | hs := List.mem_append.1 h
    · exact .inl hword
    · exact (ih hs).imp_right (List.mem_cons_of_mem '|')
  | char d s hne ih =>
    rw [barsForOr_cons hne]
    obtain rfl | hs := List.mem_cons.1 h
    · exact .inr List.mem_cons_self
    · exact (ih hs).imp_right (List.mem_cons_of_mem d)

/-! ### Alternatives -/

theorem alternatives_barsForOr (s : Text) : alternatives (barsForOr s) = alternatives s := by
  rw [alternatives, barsForOr_idem, alternatives]

/-- The members of a union that is put together from two texts are those of both. -/
theorem alternatives_append (bar : Bar) {s t : Text} (hs : Balanced s) (hend : NoOrEnd s)
    (hstart : NoOrStart t) :
    alternatives (s ++ (bar.text ++ t)) = alternatives s ++ alternatives t := by
  have hbalanced : Balanced (barsForOr s) := balanced_barsForOr_iff.2 hs
  have hmeet : (splitOutside '|' (barsForOr s ++ '|' :: barsForOr t)).map trim =
      alternatives s ++ alternatives t := by
    rw [splitOutside_append_cons hbalanced rfl rfl, List.map_append, alternatives, alternatives]
  cases bar with
  | tight =>
    show (splitOutside '|' (barsForOr (s ++ '|' :: t))).map trim = _
    rw [barsForOr_append_cons (by decide), hmeet]
  | word =>
    show (splitOutside '|' (barsForOr (s ++ (orWord ++ t)))).map trim = _
    rw [barsForOr_append_orWord hend, hmeet]
  | spaced =>
    -- the spaces beside the bar go to the members, which are trimmed
    have hbars : barsForOr (s ++ ' ' :: '|' :: ' ' :: t) =
        (barsForOr s ++ [' ']) ++ '|' :: ' ' :: barsForOr t := by
      rw [barsForOr_append (not_across_space hend _), barsForOr_cons (by simp [orWord]),
        barsForOr_cons_of_ne (by decide), barsForOr_space_cons hstart, List.append_assoc]
      rfl
    show (splitOutside '|' (barsForOr (s ++ ' ' :: '|' :: ' ' :: t))).map trim = _
    rw [hbars, splitOutside_append_cons (hbalanced.append (by decide)) rfl rfl, List.map_append,
      map_trim_splitOutside_append_space (by decide), map_trim_splitOutside_space_cons (by decide),
      alternatives, alternatives]

/-- A trimmed text without bars outside of brackets is its only alternative. -/
theorem alternatives_of_unsplit {s : Text} (h : trim s = s) (hbar : Unsplit '|' (barsForOr s)) :
    alternatives s = [barsForOr s] := by
  rw [alternatives, hbar, List.map_singleton, trim_barsForOr h]

end CallSchema.TypeHint
