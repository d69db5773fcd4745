import CallSchema.Proofs.Text.LowerCase
import CallSchema.Proofs.TypeHint.Brackets

/-!
# Balanced brackets

In a balanced text every closing bracket closes a bracket, and none is left open; the three sorts
of brackets count alike. Between a pair of brackets a balanced text is never split, and a balanced
text that is not split anywhere leaves the splitting of what follows it alone.

## Main definitions

* `Text.levelAfter?` -- how many brackets are open after a text, if it closes none in vain
* `Text.Balanced` -- every bracket has its partner
* `Text.Unsplit` -- no separator stands outside of brackets
-/

namespace CallSchema.Text

/-! ### The number of open brackets -/

/-- The number of open brackets after a text in front of which `depth` of them are open, or `none`
    when a bracket closes nothing. -/
def levelAfter? : Nat → Text → Option Nat
  | depth, [] => some depth
  | depth, c :: s =>
    if depth = 0 ∧ !isOpening c ∧ isClosing c then none else levelAfter? (depthAfter depth c) s

theorem levelAfter?_cons_eq_some_iff {depth level : Nat} {c : Char} {s : Text} :
    levelAfter? depth (c :: s) = some level ↔
      ¬(depth = 0 ∧ !isOpening c ∧ isClosing c) ∧
        levelAfter? (depthAfter depth c) s = some level := by
  rw [levelAfter?]
  split
  · next hc => exact iff_of_false nofun fun h => h.1 hc
  · next hc => exact ⟨fun h => ⟨hc, h⟩, fun h => h.2⟩

theorem depthAfter_of_plain {c : Char} (hopen : isOpening c = false) (hclose : isClosing c = false)
    (depth : Nat) : depthAfter depth c = depth := by
  simp [depthAfter, hopen, hclose]

theorem levelAfter?_cons_of_plain {c : Char} (hopen : isOpening c = false)
    (hclose : isClosing c = false) (depth : Nat) (s : Text) :
    levelAfter? depth (c :: s) = levelAfter? depth s := by
  rw [levelAfter?, if_neg (by simp [hclose]), depthAfter_of_plain hopen hclose]

/-- A bracket that closes something does so below more open brackets. -/
theorem depthAfter_add {depth : Nat} {c : Char}
    (h : ¬(depth = 0 ∧ !isOpening c ∧ isClosing c)) (more : Nat) :
    depthAfter (depth + more) c = depthAfter depth c + more := by
  rw [depthAfter, depthAfter]
  split
  · omega
  · next hopen =>
    split
    · next hclose =>
      have hpos : depth ≠ 0 := fun hzero => h ⟨hzero, by simp [hopen], hclose⟩
      omega
    · rfl

theorem levelAfter?_add {depth level : Nat} {s : Text} (h : levelAfter? depth s = some level)
    (more : Nat) : levelAfter? (depth + more) s = some (level + more) := by
  induction s generalizing depth with
  | nil =>
    obtain rfl := Option.some.inj h
    rfl
  | cons c s ih =>
    obtain ⟨hc, h⟩ := levelAfter?_cons_eq_some_iff.1 h
    refine levelAfter?_cons_eq_some_iff.2 ⟨fun hzero => hc ⟨by omega, hzero.2⟩, ?_⟩
    rw [depthAfter_add hc]
    exact ih h

theorem levelAfter?_append (depth : Nat) (s t : Text) :
    levelAfter? depth (s ++ t) = (levelAfter? depth s).bind fun d => levelAfter? d t := by
  induction s generalizing depth with
  | nil => rfl
  | cons c s ih =>
    rw [List.cons_append, levelAfter?, levelAfter?]
    split
    · rfl
    · exact ih _

theorem levelAfter?_lower (depth : Nat) (s : Text) :
    levelAfter? depth (lower s) = levelAfter? depth s := by
  induction s generalizing depth with
  | nil => rfl
  | cons c s ih =>
    rw [lower_cons, levelAfter?, levelAfter?, depthAfter, isOpening_toLower, isClosing_toLower, ih]
    rfl

/-- The number of open brackets is the one that counts for the splitting. -/
theorem foldl_depthAfter {depth level : Nat} {s : Text} (h : levelAfter? depth s = some level) :
    s.foldl depthAfter depth = level := by
  induction s generalizing depth with
  | nil => exact Option.some.inj h
  | cons c s ih => exact ih (levelAfter?_cons_eq_some_iff.1 h).2

/-! ### Balanced texts -/

/-- Every closing bracket closes one, and none is left open. -/
def Balanced (s : Text) : Prop :=
  levelAfter? 0 s = some 0

instance (s : Text) : Decidable (Balanced s) :=
  inferInstanceAs (Decidable (_ = _))

theorem Balanced.levelAfter? {s : Text} (h : Balanced s) (depth : Nat) :
    levelAfter? depth s = some depth := by
  have hlevel := levelAfter?_add h depth
  rwa [Nat.zero_add] at hlevel

theorem balanced_nil : Balanced [] := rfl

theorem Balanced.append {s t : Text} (hs : Balanced s) (ht : Balanced t) : Balanced (s ++ t) := by
  rw [Balanced, levelAfter?_append, hs, Option.bind_some]
  exact ht

theorem balanced_lower_iff {s : Text} : Balanced (lower s) ↔ Balanced s := by
  rw [Balanced, levelAfter?_lower, Balanced]

/-- A text without brackets is balanced. -/
theorem balanced_of_forall {s : Text} (h : ∀ c ∈ s, isOpening c = false ∧ isClosing c = false) :
    Balanced s := by
  induction s with
  | nil => rfl
  | cons c s ih =>
    obtain ⟨hopen, hclose⟩ := h c List.mem_cons_self
    rw [Balanced, levelAfter?_cons_of_plain hopen hclose]
    exact ih fun d hd => h d (List.mem_cons_of_mem c hd)

/-- A pair of brackets. -/
structure IsPair (opening closing : Char) : Prop where
  isOpening : isOpening opening = true
  isClosing : isClosing closing = true
  not_isOpening : Text.isOpening closing = false

namespace IsPair

variable {opening closing : Char} (h : IsPair opening closing)
include h

theorem depthAfter_opening (depth : Nat) : depthAfter depth opening = depth + 1 := by
  rw [depthAfter, if_pos h.isOpening]

theorem depthAfter_closing (depth : Nat) : depthAfter (depth + 1) closing = depth := by
  rw [depthAfter, if_neg (by simp [h.not_isOpening]), if_pos h.isClosing, Nat.add_sub_cancel]

theorem lower : IsPair opening.toLower closing.toLower where
  isOpening := by rw [isOpening_toLower, h.isOpening]
  isClosing := by rw [isClosing_toLower, h.isClosing]
  not_isOpening := by rw [isOpening_toLower, h.not_isOpening]

/-- A balanced text between a pair of brackets is balanced. -/
theorem balanced {body : Text} (hbody : Balanced body) :
    Balanced (opening :: (body ++ [closing])) := by
  have hclosing : levelAfter? 1 [closing] = some 0 :=
    levelAfter?_cons_eq_some_iff.2 ⟨by simp, by rw [h.depthAfter_closing]; rfl⟩
  refine levelAfter?_cons_eq_some_iff.2 ⟨by simp [h.isOpening], ?_⟩
  rw [h.depthAfter_opening, levelAfter?_append, hbody.levelAfter?, Option.bind_some]
  exact hclosing

end IsPair

/-! ### Splitting -/

variable {separator : Char}

/-- No separator stands outside of brackets. -/
def Unsplit (separator : Char) (s : Text) : Prop :=
  splitOutside separator s = [s]

theorem Unsplit.splitOutside_eq {s : Text} (h : Unsplit separator s) :
    splitOutside separator s = [s] := h

theorem unsplit_iff {s : Text} : Unsplit separator s ↔ (splitOutsideFrom separator 0 s).2 = [] := by
  constructor
  · intro h
    exact (List.cons.inj h).2
  · intro h
    rw [Unsplit, splitOutside, splitOutsideFrom_of_nil h, h]

theorem splitOutsideFrom_cons_eq_nil_iff {depth : Nat} {c : Char} {s : Text} :
    (splitOutsideFrom separator depth (c :: s)).2 = [] ↔
      ¬(c = separator ∧ depth = 0 ∧ !isOpening c ∧ !isClosing c) ∧
        (splitOutsideFrom separator (depthAfter depth c) s).2 = [] := by
  rw [splitOutsideFrom]
  split
  · next hc => exact iff_of_false (List.cons_ne_nil _ _) fun h => h.1 hc
  · next hc => exact ⟨fun h => ⟨hc, h⟩, fun h => h.2⟩

theorem splitOutsideFrom_cons_of_plain {c : Char} (hopen : isOpening c = false)
    (hclose : isClosing c = false) (hne : c ≠ separator) (depth : Nat) (s : Text) :
    splitOutsideFrom separator depth (c :: s) =
      (c :: (splitOutsideFrom separator depth s).1, (splitOutsideFrom separator depth s).2) := by
  rw [splitOutsideFrom, if_neg fun h => hne h.1, depthAfter_of_plain hopen hclose]

/-- Between a pair of brackets nothing is split as long as the pair stays open. -/
theorem splitOutsideFrom_succ {depth level : Nat} {s : Text}
    (h : levelAfter? depth s = some level) :
    (splitOutsideFrom separator (depth + 1) s).2 = [] := by
  induction s generalizing depth with
  | nil => rfl
  | cons c s ih =>
    obtain ⟨hc, h⟩ := levelAfter?_cons_eq_some_iff.1 h
    refine splitOutsideFrom_cons_eq_nil_iff.2 ⟨fun hsep => Nat.succ_ne_zero depth hsep.2.1, ?_⟩
    rw [depthAfter_add hc]
    exact ih h

/-- A balanced text that is not split leaves the splitting of what follows it alone. -/
theorem splitOutsideFrom_append_of_nil {depth : Nat} {s : Text} (hs : Balanced s)
    (hnil : (splitOutsideFrom separator depth s).2 = []) (t : Text) :
    splitOutsideFrom separator depth (s ++ t) =
      (s ++ (splitOutsideFrom separator depth t).1, (splitOutsideFrom separator depth t).2) := by
  obtain ⟨init, last, hparts, happend⟩ := splitOutsideFrom_append separator depth s
  rw [splitOutsideFrom_of_nil hnil, hnil] at hparts
  obtain ⟨rfl, rfl⟩ : init = [] ∧ last = s := by
    cases init with
    | nil => exact ⟨rfl, (List.cons.inj hparts).1.symm⟩
    | cons first init => simp at hparts
  have ht := happend t
  rw [foldl_depthAfter (hs.levelAfter? depth)] at ht
  exact Prod.ext (List.cons.inj ht).1 (List.cons.inj ht).2

/-- What is balanced and not split, put behind each other, is not split. -/
theorem Unsplit.append {s t : Text} (hs : Unsplit separator s) (hbalanced : Balanced s)
    (ht : Unsplit separator t) : Unsplit separator (s ++ t) := by
  rw [unsplit_iff] at hs ht ⊢
  rw [splitOutsideFrom_append_of_nil hbalanced hs]
  exact ht

/-- A balanced text between a pair of brackets is not split. -/
theorem IsPair.unsplit {opening closing : Char} (h : IsPair opening closing) {body : Text}
    (hbody : Balanced body) : Unsplit separator (opening :: (body ++ [closing])) := by
  have hclosing : (splitOutsideFrom separator 1 [closing]).2 = [] :=
    splitOutsideFrom_cons_eq_nil_iff.2 ⟨by simp, by rw [h.depthAfter_closing]; rfl⟩
  rw [unsplit_iff, splitOutsideFrom_cons_eq_nil_iff]
  refine ⟨by simp [h.isOpening], ?_⟩
  rw [h.depthAfter_opening,
    splitOutsideFrom_append_of_nil hbody (splitOutsideFrom_succ hbody)]
  exact hclosing

/-- A text without brackets and separators is not split. -/
theorem unsplit_of_forall {s : Text}
    (h : ∀ c ∈ s, isOpening c = false ∧ isClosing c = false ∧ c ≠ separator) :
    Unsplit separator s := by
  rw [unsplit_iff, splitOutsideFrom_eq_self]
  intro c hc
  obtain ⟨hopen, hclose, hne⟩ := h c hc
  exact ⟨hopen, hclose, .inl hne⟩

/-- A separator outside of brackets is where the parts of two texts meet. -/
theorem splitOutside_append_cons_of_openDepth {s : Text} (hs : openDepth s = 0)
    (hopen : isOpening separator = false) (hclose : isClosing separator = false) (t : Text) :
    splitOutside separator (s ++ separator :: t) =
      splitOutside separator s ++ splitOutside separator t := by
  obtain ⟨init, last, hparts, happend⟩ := splitOutside_append separator s
  rw [happend, hparts, hs, splitOutsideFrom, if_pos (by simp [hopen, hclose]),
    depthAfter_of_plain hopen hclose, List.append_nil, List.append_assoc]
  rfl

theorem splitOutside_append_cons {s : Text} (hs : Balanced s) (hopen : isOpening separator = false)
    (hclose : isClosing separator = false) (t : Text) :
    splitOutside separator (s ++ separator :: t) =
      splitOutside separator s ++ splitOutside separator t :=
  splitOutside_append_cons_of_openDepth (foldl_depthAfter hs) hopen hclose t

/-- Blanks at an end go to the part at that end, from which they are trimmed. -/
theorem map_trim_splitOutside_append_space (hne : separator ≠ ' ') (s : Text) :
    (splitOutside separator (s ++ [' '])).map trim = (splitOutside separator s).map trim := by
  obtain ⟨init, last, hparts, happend⟩ := splitOutside_append separator s
  have hspace : splitOutsideFrom separator (openDepth s) [' '] = ([' '], []) := by
    rw [splitOutsideFrom_cons_of_plain rfl rfl (Ne.symm hne)]
    rfl
  rw [happend, hparts, hspace, List.map_append, List.map_append, List.map_singleton,
    List.map_singleton, trim_append_of_allBlank _ (by decide)]

theorem map_trim_splitOutside_space_cons (hne : separator ≠ ' ') (s : Text) :
    (splitOutside separator (' ' :: s)).map trim = (splitOutside separator s).map trim := by
  have htrim : ∀ t : Text, trim (' ' :: t) = trim t := fun t =>
    trim_of_allBlank_append (s := [' ']) t (by decide)
  rw [splitOutside, splitOutsideFrom_cons_of_plain rfl rfl (Ne.symm hne), List.map_cons, htrim]
  rfl

/-- Every character is a separator or stands in one of the parts. -/
theorem mem_splitOutsideFrom (depth : Nat) {s : Text} {c : Char} (h : c ∈ s) :
    c = separator ∨ ∃ p ∈ (splitOutsideFrom separator depth s).1 ::
      (splitOutsideFrom separator depth s).2, c ∈ p := by
  induction s generalizing depth with
  | nil => cases h
  | cons d s ih =>
    rw [splitOutsideFrom]
    split
    · next hd =>
      obtain rfl | hs := List.mem_cons.1 h
      · exact .inl hd.1
      · obtain hsep | ⟨p, hp, hc⟩ := ih (depthAfter depth d) hs
        · exact .inl hsep
        · exact .inr ⟨p, List.mem_cons_of_mem [] hp, hc⟩
    · obtain rfl | hs := List.mem_cons.1 h
      · exact .inr ⟨_, List.mem_cons_self, List.mem_cons_self⟩
      · obtain hsep | ⟨p, hp, hc⟩ := ih (depthAfter depth d) hs
        · exact .inl hsep
        · obtain rfl | hp := List.mem_cons.1 hp
          · exact .inr ⟨_, List.mem_cons_self, List.mem_cons_of_mem d hc⟩
          · exact .inr ⟨p, List.mem_cons_of_mem _ hp, hc⟩

theorem mem_splitOutside (separator : Char) {s : Text} {c : Char} (h : c ∈ s) :
    c = separator ∨ ∃ p ∈ splitOutside separator s, c ∈ p :=
  mem_splitOutsideFrom 0 h

theorem unsplit_comma_lower {s : Text} (h : Unsplit ',' s) : Unsplit ',' (lower s) := by
  rw [unsplit_iff] at h ⊢
  generalize 0 = depth at h
  induction s generalizing depth with
  | nil => rfl
  | cons c s ih =>
    obtain ⟨hc, h⟩ := splitOutsideFrom_cons_eq_nil_iff.1 h
    rw [lower_cons, splitOutsideFrom_cons_eq_nil_iff, toLower_eq_comma_iff, depthAfter,
      isOpening_toLower, isClosing_toLower]
    exact ⟨hc, ih _ h⟩

end CallSchema.Text
