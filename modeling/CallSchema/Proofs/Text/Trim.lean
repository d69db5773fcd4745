import CallSchema.Text.Blank
import Mathlib.Data.List.DropRight

/-!
# What trimming leaves of a text

`dropEndWhile` is the recursive form of `List.rdropWhile`. The lemmas here say what
`Text.trimStart`, `Text.trimEnd` and `Text.trim` make of an append, and which texts they leave as
they are: a text is trimmed exactly when neither its first nor its last character is blank.
-/

namespace CallSchema

section DropEndWhile

variable {α β : Type} {p : α → Bool}

@[simp] theorem dropEndWhile_nil : dropEndWhile p [] = [] := rfl

theorem dropEndWhile_eq_rdropWhile (p : α → Bool) (s : List α) :
    dropEndWhile p s = s.rdropWhile p := by
  induction s with
  | nil => rfl
  | cons a s ih =>
    -- seen from the end, `a` is the last item: it is tested only when nothing is kept before it
    rw [dropEndWhile, ih, List.rdropWhile, List.rdropWhile, List.reverse_cons,
      List.dropWhile_append]
    cases s.reverse.dropWhile p with
    | nil =>
      by_cases ha : p a = true
      · simp [ha]
      · simp [ha]
    | cons b r =>
      obtain ⟨c, q, hq⟩ := List.exists_cons_of_ne_nil
        (List.reverse_ne_nil_iff.2 (List.cons_ne_nil b r))
      simp only [hq, List.isEmpty_cons, Bool.false_eq_true, if_false, List.reverse_append,
        List.reverse_singleton, List.singleton_append]

theorem dropEndWhile_eq_nil_iff {s : List α} :
    dropEndWhile p s = [] ↔ ∀ a ∈ s, p a = true := by
  rw [dropEndWhile_eq_rdropWhile, List.rdropWhile_eq_nil_iff]

@[simp] theorem dropEndWhile_idem (s : List α) :
    dropEndWhile p (dropEndWhile p s) = dropEndWhile p s := by
  rw [dropEndWhile_eq_rdropWhile, dropEndWhile_eq_rdropWhile, List.rdropWhile_idempotent]

/-- Exactly the lists whose last item fails the test stay as they are. -/
theorem dropEndWhile_eq_self_iff {s : List α} :
    dropEndWhile p s = s ↔ ∀ a, s.getLast? = some a → p a = false := by
  rw [dropEndWhile_eq_rdropWhile, List.rdropWhile_eq_self_iff]
  constructor
  · intro h a ha
    have hne : s ≠ [] := by rintro rfl; simp at ha
    rw [List.getLast?_eq_some_getLast hne, Option.some.injEq] at ha
    simpa [ha] using h hne
  · intro h hne
    simpa using h (s.getLast hne) (List.getLast?_eq_some_getLast hne)

/-- An end that satisfies the test throughout is dropped. -/
theorem dropEndWhile_append_of_all (s : List α) {t : List α} (h : ∀ a ∈ t, p a = true) :
    dropEndWhile p (s ++ t) = dropEndWhile p s := by
  induction s with
  | nil => simpa using dropEndWhile_eq_nil_iff.2 h
  | cons a s ih => rw [List.cons_append, dropEndWhile, dropEndWhile, ih]

/-- What stands before an item that is kept is kept too. -/
theorem dropEndWhile_append_of_ne_nil (s : List α) {t : List α} (h : dropEndWhile p t ≠ []) :
    dropEndWhile p (s ++ t) = s ++ dropEndWhile p t := by
  induction s with
  | nil => rfl
  | cons a s ih =>
    obtain ⟨b, r, hb⟩ := List.exists_cons_of_ne_nil (List.append_ne_nil_of_right_ne_nil s h)
    rw [List.cons_append, dropEndWhile, ih, hb, List.cons_append, hb]

theorem dropEndWhile_cons_dropEndWhile (a : α) (s : List α) :
    dropEndWhile p (a :: dropEndWhile p s) = dropEndWhile p (a :: s) := by
  rw [dropEndWhile, dropEndWhile, dropEndWhile_idem]

/-- What is dropped is an end that satisfies the test throughout. -/
theorem exists_dropEndWhile_append (p : α → Bool) (s : List α) :
    ∃ t, (∀ a ∈ t, p a = true) ∧ s = dropEndWhile p s ++ t := by
  refine ⟨s.rtakeWhile p, fun a ha => List.mem_rtakeWhile_imp ha, ?_⟩
  rw [dropEndWhile_eq_rdropWhile, List.rdropWhile_append_rtakeWhile]

theorem dropEndWhile_map (f : β → α) (s : List β) :
    dropEndWhile p (s.map f) = (dropEndWhile (fun b => p (f b)) s).map f := by
  induction s with
  | nil => rfl
  | cons b s ih =>
    rw [List.map_cons, dropEndWhile, dropEndWhile, ih]
    cases dropEndWhile (fun b => p (f b)) s with
    | nil =>
      by_cases hb : p (f b) = true
      · simp [hb]
      · simp [hb]
    | cons c r => rfl

end DropEndWhile

namespace Text

/-! ### Texts of blanks -/

theorem allBlank_iff {s : Text} : allBlank s = true ↔ ∀ c ∈ s, isBlank c = true :=
  List.all_eq_true

@[simp] theorem allBlank_nil : allBlank [] = true := rfl

theorem ne_nil_of_not_allBlank {s : Text} (h : allBlank s = false) : s ≠ [] := by
  rintro rfl
  cases h

@[simp] theorem allBlank_cons (c : Char) (s : Text) :
    allBlank (c :: s) = (isBlank c && allBlank s) := rfl

@[simp] theorem allBlank_append (s t : Text) :
    allBlank (s ++ t) = (allBlank s && allBlank t) :=
  List.all_append

@[simp] theorem isBlank_space : isBlank ' ' = true := by decide

@[simp] theorem allBlank_replicate_space (n : Nat) : allBlank (List.replicate n ' ') = true := by
  rw [allBlank_iff]
  intro c hc
  rw [(List.mem_replicate.1 hc).2]
  exact isBlank_space

theorem notMem_of_allBlank {s : Text} (h : allBlank s = true) {c : Char}
    (hc : isBlank c = false) : c ∉ s := by
  intro hmem
  rw [allBlank_iff.1 h c hmem] at hc
  cases hc

/-- Trimming the end leaves nothing exactly of a blank text. -/
theorem trimEnd_eq_nil_iff {s : Text} : trimEnd s = [] ↔ allBlank s = true :=
  dropEndWhile_eq_nil_iff.trans allBlank_iff.symm

theorem trimStart_eq_nil_iff {s : Text} : trimStart s = [] ↔ allBlank s = true :=
  List.dropWhile_eq_nil_iff.trans allBlank_iff.symm

/-! ### Trimming one end -/

@[simp] theorem trim_nil : trim [] = [] := rfl

theorem trimEnd_append_of_allBlank (s : Text) {t : Text} (h : allBlank t = true) :
    trimEnd (s ++ t) = trimEnd s :=
  dropEndWhile_append_of_all s (allBlank_iff.1 h)

theorem trimEnd_append_of_not_allBlank (s : Text) {t : Text} (h : allBlank t = false) :
    trimEnd (s ++ t) = s ++ trimEnd t :=
  dropEndWhile_append_of_ne_nil s fun hnil => by simp [trimEnd_eq_nil_iff.1 hnil] at h

@[simp] theorem trimEnd_idem (s : Text) : trimEnd (trimEnd s) = trimEnd s :=
  dropEndWhile_idem s

theorem trimEnd_eq_self_iff {s : Text} :
    trimEnd s = s ↔ ∀ c, s.getLast? = some c → isBlank c = false :=
  dropEndWhile_eq_self_iff

@[simp] theorem trimStart_idem (s : Text) : trimStart (trimStart s) = trimStart s :=
  List.dropWhile_idempotent isBlank s

theorem trimStart_cons_of_not_blank {c : Char} (s : Text) (h : isBlank c = false) :
    trimStart (c :: s) = c :: s := by
  simp [trimStart, h]

theorem trimStart_cons_of_blank {c : Char} (s : Text) (h : isBlank c = true) :
    trimStart (c :: s) = trimStart s := by
  simp [trimStart, h]

theorem trimStart_append_of_allBlank {s : Text} (t : Text) (h : allBlank s = true) :
    trimStart (s ++ t) = trimStart t :=
  List.dropWhile_append_of_pos (allBlank_iff.1 h)

theorem trimStart_append_cons {s : Text} {c : Char} (h : allBlank s = true)
    (hc : isBlank c = false) (t : Text) : trimStart (s ++ c :: t) = c :: t := by
  rw [trimStart_append_of_allBlank _ h, trimStart_cons_of_not_blank _ hc]

theorem trimStart_eq_self_iff {s : Text} :
    trimStart s = s ↔ ∀ c, s.head? = some c → isBlank c = false := by
  unfold trimStart
  rw [List.dropWhile_eq_self_iff]
  cases s with
  | nil => simp
  | cons c s => simp

theorem trimStart_append_of_not_allBlank {s : Text} (t : Text) (h : allBlank s = false) :
    trimStart (s ++ t) = trimStart s ++ t := by
  have hne : trimStart s ≠ [] := fun hnil => by simp [trimStart_eq_nil_iff.1 hnil] at h
  unfold trimStart at hne ⊢
  rw [List.dropWhile_append, if_neg (by simpa [List.isEmpty_iff] using hne)]

/-- What trimming removes at the start of a text is blank. -/
theorem exists_append_trimStart (s : Text) : ∃ b, allBlank b = true ∧ s = b ++ trimStart s :=
  ⟨s.takeWhile isBlank, allBlank_iff.2 fun _ => List.mem_takeWhile_imp,
    List.takeWhile_append_dropWhile.symm⟩

/-- What trimming removes at the end of a text is blank. -/
theorem exists_trimEnd_append (s : Text) : ∃ b, allBlank b = true ∧ s = trimEnd s ++ b := by
  obtain ⟨b, hb, hs⟩ := exists_dropEndWhile_append isBlank s
  exact ⟨b, allBlank_iff.2 hb, hs⟩

/-! ### Trimming both ends -/

/-- A text is trimmed exactly when trimming either end changes nothing. -/
theorem trim_eq_self_iff {s : Text} : trim s = s ↔ trimStart s = s ∧ trimEnd s = s := by
  constructor
  · intro h
    have hle : s.length ≤ (trimStart s).length :=
      calc s.length = (trim s).length := by rw [h]
        _ ≤ (trimStart s).length := trimEnd_length_le _
    have hstart : trimStart s = s := (List.dropWhile_suffix isBlank).eq_of_length_le hle
    refine ⟨hstart, ?_⟩
    rw [trim, hstart] at h
    exact h
  · rintro ⟨hstart, hend⟩
    rw [trim, hstart, hend]

/-- A text is trimmed when no blank stands at either end. -/
theorem trim_eq_self_iff_ends {s : Text} :
    trim s = s ↔ (∀ c, s.head? = some c → isBlank c = false) ∧
      ∀ c, s.getLast? = some c → isBlank c = false := by
  rw [trim_eq_self_iff, trimStart_eq_self_iff, trimEnd_eq_self_iff]

/-- A text without blank characters is trimmed. -/
theorem trim_eq_self_of_forall {s : Text} (h : ∀ c ∈ s, isBlank c = false) : trim s = s :=
  trim_eq_self_iff_ends.2
    ⟨fun c hc => h c (List.mem_of_mem_head? hc), fun c hc => h c (List.mem_of_mem_getLast? hc)⟩

/-- A text between two trimmed texts does not matter for the ends. -/
theorem trim_append_append {s t : Text} (hs : trim s = s) (ht : trim t = t) (hsne : s ≠ [])
    (htne : t ≠ []) (u : Text) : trim (s ++ (u ++ t)) = s ++ (u ++ t) := by
  refine trim_eq_self_iff_ends.2 ⟨fun c hc => ?_, fun c hc => ?_⟩
  · rw [List.head?_append_of_ne_nil _ hsne] at hc
    exact (trim_eq_self_iff_ends.1 hs).1 c hc
  · rw [← List.append_assoc, List.getLast?_append_of_ne_nil _ htne] at hc
    exact (trim_eq_self_iff_ends.1 ht).2 c hc

theorem trim_append_of_allBlank (s : Text) {t : Text} (h : allBlank t = true) :
    trim (s ++ t) = trim s := by
  by_cases hs : allBlank s = true
  · have hst : allBlank (s ++ t) = true := by simp [hs, h]
    rw [trim, trim, trimStart_eq_nil_iff.2 hs, trimStart_eq_nil_iff.2 hst]
  · rw [Bool.not_eq_true] at hs
    rw [trim, trim, trimStart_append_of_not_allBlank t hs, trimEnd_append_of_allBlank _ h]

/-- Trimming leaves a character that is not blank, and what is in front of it. -/
theorem exists_trim_append_cons {s : Text} (h : trim s = s) (hne : s ≠ []) {c : Char}
    (hc : isBlank c = false) (t : Text) : ∃ rest, trim (s ++ c :: t) = s ++ c :: rest := by
  have htrim : trim (c :: trimEnd t) = c :: trimEnd t := by
    refine trim_eq_self_iff.2 ⟨trimStart_cons_of_not_blank _ hc,
      trimEnd_eq_self_iff.2 fun d hd => ?_⟩
    by_cases hnil : trimEnd t = []
    · rw [hnil] at hd
      rwa [← Option.some.inj hd]
    · rw [← List.singleton_append, List.getLast?_append_of_ne_nil _ hnil] at hd
      exact trimEnd_eq_self_iff.1 (trimEnd_idem t) d hd
  obtain ⟨b, hb, ht⟩ := exists_trimEnd_append t
  have hall : s ++ c :: t = (s ++ ([] ++ c :: trimEnd t)) ++ b := by
    conv_lhs => rw [ht]
    simp
  refine ⟨trimEnd t, ?_⟩
  rw [hall, trim_append_of_allBlank _ hb, trim_append_append h htrim hne (List.cons_ne_nil _ _),
    List.nil_append]

theorem trim_of_allBlank_append {s : Text} (t : Text) (h : allBlank s = true) :
    trim (s ++ t) = trim t := by
  rw [trim, trim, trimStart_append_of_allBlank t h]

theorem allBlank_trimEnd (s : Text) : allBlank (trimEnd s) = allBlank s := by
  rw [Bool.eq_iff_iff, ← trimEnd_eq_nil_iff, ← trimEnd_eq_nil_iff, trimEnd_idem]

theorem allBlank_trimStart (s : Text) : allBlank (trimStart s) = allBlank s := by
  rw [Bool.eq_iff_iff, ← trimStart_eq_nil_iff, ← trimStart_eq_nil_iff, trimStart_idem]

theorem allBlank_trim (s : Text) : allBlank (trim s) = allBlank s := by
  rw [trim, allBlank_trimEnd, allBlank_trimStart]

theorem trim_eq_nil_iff {s : Text} : trim s = [] ↔ allBlank s = true := by
  rw [trim, trimEnd_eq_nil_iff, allBlank_trimStart]

theorem trim_sublist (s : Text) : (trim s).Sublist s := by
  obtain ⟨b, -, hs⟩ := exists_trimEnd_append (trimStart s)
  have hstart : (trim s).Sublist (trimStart s) := by
    conv => rhs; rw [hs]
    exact List.sublist_append_left _ b
  exact hstart.trans (List.dropWhile_sublist isBlank)

theorem mem_of_mem_trim {s : Text} {c : Char} (h : c ∈ trim s) : c ∈ s :=
  (trim_sublist s).subset h

/-- Trimming removes blanks only. -/
theorem exists_append_trim_append (s : Text) :
    ∃ before after, allBlank before = true ∧ allBlank after = true ∧
      s = before ++ (trim s ++ after) := by
  obtain ⟨before, hbefore, hstart⟩ := exists_append_trimStart s
  obtain ⟨after, hafter, hend⟩ := exists_trimEnd_append (trimStart s)
  exact ⟨before, after, hbefore, hafter, hstart.trans (congrArg (before ++ ·) hend)⟩

theorem isBlank_or_mem_trim {s : Text} {c : Char} (h : c ∈ s) : isBlank c = true ∨ c ∈ trim s := by
  obtain ⟨before, after, hbefore, hafter, hs⟩ := exists_append_trim_append s
  rw [hs, List.mem_append, List.mem_append] at h
  obtain hstart | h | hend := h
  · exact .inl (allBlank_iff.1 hbefore c hstart)
  · exact .inr h
  · exact .inl (allBlank_iff.1 hafter c hend)

/-- A trimmed text stays as it is when it is trimmed again. -/
@[simp] theorem trim_idem (s : Text) : trim (trim s) = trim s := by
  by_cases hs : allBlank s = true
  · rw [trim_eq_nil_iff.2 hs, trim_nil]
  · rw [Bool.not_eq_true] at hs
    obtain ⟨b, hb, heq⟩ := exists_trimEnd_append (trimStart s)
    refine trim_eq_self_iff.2 ⟨?_, trimEnd_idem _⟩
    -- what is left begins as the text with a trimmed start does, so not with a blank
    rw [trimStart_eq_self_iff]
    intro c hc
    apply trimStart_eq_self_iff.1 (trimStart_idem s) c
    change (trimEnd (trimStart s)).head? = some c at hc
    rw [heq, List.head?_append, hc, Option.some_or]

end Text

end CallSchema
