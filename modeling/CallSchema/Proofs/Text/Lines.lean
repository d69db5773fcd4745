import CallSchema.Proofs.Text.Trim
import CallSchema.Text.Line

/-!
# Lines, indentation and tabs

`Text.lines` is determined by what it makes of a text without line feed and of a text with a first
line feed; `Text.newline_induction` is the induction that goes with these two cases. The other
lemmas follow `Text.indent` and `Text.expandTabs` through appends.

## Main definitions

* `Text.dropCr` -- a line without the carriage return of its line break
-/

namespace CallSchema.Text

/-! ### Cutting at line feeds -/

/-- The line without one carriage return at its end. -/
def dropCr (l : Text) : Text :=
  if l.getLast? = some '\r' then l.dropLast else l

theorem dropCr_of_getLast?_ne {l : Text} (h : l.getLast? ≠ some '\r') : dropCr l = l := by
  rw [dropCr, if_neg h]

theorem dropCr_cons (c : Char) {l : Text} (h : l ≠ []) : dropCr (c :: l) = c :: dropCr l := by
  have hlast : (c :: l).getLast? = l.getLast? := by
    rw [List.getLast?_eq_some_getLast h, List.getLast?_eq_some_getLast (List.cons_ne_nil c l),
      List.getLast_cons h]
  unfold dropCr
  rw [hlast]
  split
  · exact List.dropLast_cons_of_ne_nil h
  · rfl

/-- A line is its shortened form, or that form with a carriage return. -/
theorem dropCr_cases (l : Text) : l = dropCr l ∨ l = dropCr l ++ ['\r'] := by
  unfold dropCr
  split
  · next h =>
    right
    obtain ⟨r, rfl⟩ := List.getLast?_eq_some_iff.1 h
    rw [List.dropLast_concat]
  · left
    rfl

theorem dropCr_of_trimEnd {l : Text} (h : trimEnd l = l) : dropCr l = l := by
  apply dropCr_of_getLast?_ne
  intro hcr
  exact absurd (trimEnd_eq_self_iff.1 h '\r' hcr) (by decide)

@[simp] theorem trim_dropCr (l : Text) : trim (dropCr l) = trim l := by
  rcases dropCr_cases l with h | h
  · rw [← h]
  · conv => rhs; rw [h]
    exact (trim_append_of_allBlank _ (by decide)).symm

theorem lines_newline (s : Text) : lines ('\n' :: s) = [] :: lines s := rfl

theorem lines_crlf (s : Text) : lines ('\r' :: '\n' :: s) = [] :: lines s := rfl

theorem lines_cons {c : Char} {s : Text} (hc : c ≠ '\n') (hs : c = '\r' → s.head? ≠ some '\n') :
    lines (c :: s) = consHead c (lines s) := by
  rw [lines]
  · exact hc
  · rintro r rfl rfl
    exact hs rfl rfl

/-- A text without line feed is one line. -/
theorem lines_of_not_mem {l : Text} (h : '\n' ∉ l) (hne : l ≠ []) : lines l = [l] := by
  induction l with
  | nil => exact absurd rfl hne
  | cons c l ih =>
    rw [List.mem_cons, not_or] at h
    have hhead : l.head? ≠ some '\n' := fun hl => h.2 (List.mem_of_head? hl)
    rw [lines_cons (fun hc => h.1 hc.symm) fun _ => hhead]
    cases l with
    | nil => rfl
    | cons d l => rw [ih h.2 (List.cons_ne_nil d l), consHead]

/-- The first line feed ends the first line. -/
theorem lines_append_newline {l : Text} (h : '\n' ∉ l) (s : Text) :
    lines (l ++ '\n' :: s) = dropCr l :: lines s := by
  induction l with
  | nil => rfl
  | cons c l ih =>
    rw [List.mem_cons, not_or] at h
    have hc : c ≠ '\n' := fun hc => h.1 hc.symm
    -- right in front of the line feed, a carriage return belongs to the line break
    cases l with
    | nil =>
      by_cases hcr : c = '\r'
      · rw [hcr]
        exact lines_crlf s
      · rw [List.singleton_append, lines_cons hc fun hr => absurd hr hcr, lines_newline,
          dropCr_of_getLast?_ne (by simpa using hcr), consHead]
    | cons d l =>
      have hhead : (d :: l ++ '\n' :: s).head? ≠ some '\n' := by
        intro hd
        exact h.2 (by simpa using Or.inl hd.symm)
      rw [List.cons_append, lines_cons hc fun _ => hhead, ih h.2, consHead,
        dropCr_cons c (List.cons_ne_nil d l)]

/-- A text is one line, or a first line followed by a line feed and a text. -/
theorem newline_induction {motive : Text → Prop} (last : ∀ l, '\n' ∉ l → motive l)
    (step : ∀ l s, '\n' ∉ l → motive s → motive (l ++ '\n' :: s)) (s : Text) : motive s := by
  -- on the length, as the text behind a line feed can be any number of characters shorter
  induction hn : s.length using Nat.strongRecOn generalizing s with
  | _ n ih =>
    by_cases hs : '\n' ∈ s
    · obtain ⟨l, r, rfl, hl⟩ := List.eq_append_cons_of_mem hs
      refine step l r hl (ih r.length ?_ r rfl)
      rw [← hn, List.length_append, List.length_cons]
      omega
    · exact last s hs

theorem dropCr_sublist (l : Text) : (dropCr l).Sublist l := by
  unfold dropCr
  split
  · exact List.dropLast_sublist l
  · exact List.Sublist.refl l

/-- The lines have no other characters than the text. -/
theorem mem_of_mem_lines {s l : Text} {c : Char} (hl : l ∈ lines s) (hc : c ∈ l) : c ∈ s := by
  induction s using newline_induction with
  | last m hm =>
    by_cases hnil : m = []
    · rw [hnil] at hl
      cases hl
    · rw [lines_of_not_mem hm hnil, List.mem_singleton] at hl
      exact hl ▸ hc
  | step m s hm ih =>
    rw [lines_append_newline hm, List.mem_cons] at hl
    rcases hl with rfl | hl
    · exact List.mem_append_left _ ((dropCr_sublist m).subset hc)
    · exact List.mem_append_right _ (List.mem_cons_of_mem _ (ih hl))

/-- A text is blank exactly when its lines are. -/
theorem allBlank_iff_lines {s : Text} : allBlank s = true ↔ ∀ l ∈ lines s, allBlank l = true := by
  induction s using newline_induction with
  | last l hl =>
    by_cases hnil : l = []
    · simp [hnil, lines]
    · simp [lines_of_not_mem hl hnil]
  | step l s hl ih =>
    have hcr : allBlank (dropCr l) = allBlank l := by
      rw [← allBlank_trim, trim_dropCr, allBlank_trim]
    have hnewline : isBlank '\n' = true := by decide
    rw [lines_append_newline hl, List.forall_mem_cons, ← ih, hcr, allBlank_append, allBlank_cons,
      hnewline, Bool.true_and, Bool.and_eq_true]

/-! ### Joining with line feeds -/

@[simp] theorem unlines_singleton (l : Text) : unlines [l] = l := by
  simp [unlines]

theorem unlines_cons {ls : List Text} (l : Text) (h : ls ≠ []) :
    unlines (l :: ls) = l ++ '\n' :: unlines ls := by
  rw [unlines, List.intercalate_cons_of_ne_nil h, List.append_assoc]
  rfl

theorem mem_unlines {ls : List Text} {c : Char} (h : c ∈ unlines ls) :
    c = '\n' ∨ ∃ l ∈ ls, c ∈ l := by
  induction ls with
  | nil => cases h
  | cons l ls ih =>
    by_cases hnil : ls = []
    · rw [hnil, unlines_singleton] at h
      exact .inr ⟨l, List.mem_cons_self, h⟩
    · rw [unlines_cons l hnil, List.mem_append, List.mem_cons] at h
      obtain h | rfl | h := h
      · exact .inr ⟨l, List.mem_cons_self, h⟩
      · exact .inl rfl
      · refine (ih h).imp_right fun ⟨m, hm, hc⟩ => ⟨m, List.mem_cons_of_mem l hm, hc⟩

/-- Cutting undoes joining, for lines without line breaks of which the last one is not empty. -/
theorem lines_unlines {ls : List Text} (hline : ∀ l ∈ ls, '\n' ∉ l)
    (hcr : ∀ l ∈ ls, l.getLast? ≠ some '\r') (hlast : ls.getLast? ≠ some []) :
    lines (unlines ls) = ls := by
  induction ls with
  | nil => rfl
  | cons l ls ih =>
    cases ls with
    | nil =>
      rw [unlines_singleton]
      exact lines_of_not_mem (hline l (by simp)) (by simpa using hlast)
    | cons m ls =>
      rw [unlines_cons l (List.cons_ne_nil m ls), lines_append_newline (hline l (by simp)),
        dropCr_of_getLast?_ne (hcr l (by simp)),
        ih (fun k hk => hline k (List.mem_cons_of_mem l hk))
          (fun k hk => hcr k (List.mem_cons_of_mem l hk)) (by simpa using hlast)]

/-! ### Indentation -/

theorem indent_cons_space (s : Text) : indent (' ' :: s) = indent s + 1 := by
  rw [indent, List.takeWhile_cons_of_pos (by decide), List.length_cons, indent]

theorem indent_cons_of_ne {c : Char} (s : Text) (h : c ≠ ' ') : indent (c :: s) = 0 := by
  rw [indent, List.takeWhile_cons_of_neg (by simpa using h), List.length_nil]

theorem indent_eq_zero {s : Text} (h : s.head? ≠ some ' ') : indent s = 0 := by
  cases s with
  | nil => rfl
  | cons c s => exact indent_cons_of_ne s (by simpa using h)

theorem indent_replicate_append (k : Nat) (s : Text) :
    indent (List.replicate k ' ' ++ s) = k + indent s := by
  induction k with
  | zero => simp
  | succ k ih =>
    rw [List.replicate_succ, List.cons_append, indent_cons_space, ih]
    omega

theorem head?_replicate_append {k : Nat} (hk : 0 < k) (s : Text) :
    (List.replicate k ' ' ++ s).head? = some ' ' := by
  obtain ⟨n, rfl⟩ := Nat.exists_eq_succ_of_ne_zero hk.ne'
  rfl

theorem indent_le_length (s : Text) : indent s ≤ s.length :=
  (List.takeWhile_sublist _).length_le

theorem take_of_le_indent {n : Nat} {s : Text} (h : n ≤ indent s) :
    s.take n = List.replicate n ' ' := by
  induction s generalizing n with
  | nil =>
    obtain rfl := Nat.le_zero.1 h
    rfl
  | cons c s ih =>
    cases n with
    | zero => rfl
    | succ n =>
      by_cases hc : c = ' '
      · rw [hc, indent_cons_space] at h
        rw [hc, List.take_succ_cons, ih (Nat.le_of_succ_le_succ h), List.replicate_succ]
      · rw [indent_cons_of_ne s hc] at h
        cases h

/-- Only the spaces in front of the first other character count. -/
theorem indent_append {s : Text} (t : Text) (h : allBlank s = false) :
    indent (s ++ t) = indent s := by
  induction s with
  | nil => simp at h
  | cons c s ih =>
    by_cases hc : c = ' '
    · subst hc
      rw [List.cons_append, indent_cons_space, indent_cons_space, ih (by simpa using h)]
    · rw [List.cons_append, indent_cons_of_ne _ hc, indent_cons_of_ne _ hc]

theorem indent_trimEnd {s : Text} (h : allBlank s = false) : indent (trimEnd s) = indent s := by
  obtain ⟨b, -, hs⟩ := exists_trimEnd_append s
  conv => rhs; rw [hs]
  rw [indent_append b (by rw [allBlank_trimEnd, h])]

/-! ### Tabs -/

theorem expandTabsFrom_of_not_mem (column : Nat) {s : Text} (h : '\t' ∉ s) :
    expandTabsFrom column s = s := by
  induction s generalizing column with
  | nil => rfl
  | cons c s ih =>
    rw [List.mem_cons, not_or] at h
    rw [expandTabsFrom, if_neg fun hc => h.1 hc.symm, ih (column + 1) h.2]

theorem expandTabsFrom_append (column : Nat) (s : Text) {t : Text} (h : '\t' ∉ t) :
    expandTabsFrom column (s ++ t) = expandTabsFrom column s ++ t := by
  induction s generalizing column with
  | nil => exact expandTabsFrom_of_not_mem column h
  | cons c s ih =>
    rw [List.cons_append, expandTabsFrom, expandTabsFrom]
    split
    · simp only [ih, List.append_assoc]
    · rw [ih, List.cons_append]

theorem expandTabsFrom_replicate_append (column k : Nat) (s : Text) :
    expandTabsFrom column (List.replicate k ' ' ++ s) =
      List.replicate k ' ' ++ expandTabsFrom (column + k) s := by
  induction k generalizing column with
  | zero => rfl
  | succ k ih =>
    rw [List.replicate_succ, List.cons_append, expandTabsFrom, if_neg (by decide), ih,
      List.cons_append, Nat.add_assoc, Nat.add_comm 1 k]

/-- Tab stops repeat, so a column counts only up to whole tab widths. -/
theorem expandTabsFrom_congr {m n : Nat} (h : m % tabWidth = n % tabWidth) (s : Text) :
    expandTabsFrom m s = expandTabsFrom n s := by
  induction s generalizing m n with
  | nil => rfl
  | cons c s ih =>
    have hadd : ∀ k, (m + k) % tabWidth = (n + k) % tabWidth := fun k => by
      rw [Nat.add_mod, h, ← Nat.add_mod]
    rw [expandTabsFrom, expandTabsFrom]
    split
    · simp only [h, ih (hadd _)]
    · rw [ih (hadd 1)]

theorem expandTabs_of_not_mem {s : Text} (h : '\t' ∉ s) : expandTabs s = s :=
  expandTabsFrom_of_not_mem 0 h

theorem tab_notMem_expandTabs (l : Text) : '\t' ∉ expandTabs l := by
  have hfrom : ∀ column, '\t' ∉ expandTabsFrom column l := by
    induction l with
    | nil => exact fun _ => List.not_mem_nil
    | cons c l ih =>
      intro column h
      rw [expandTabsFrom] at h
      split at h
      · obtain h | h := List.mem_append.1 h
        · cases (List.mem_replicate.1 h).2
        · exact ih _ h
      · next hc =>
        obtain heq | h := List.mem_cons.1 h
        · exact hc heq.symm
        · exact ih _ h
  exact hfrom 0

theorem allBlank_expandTabs (l : Text) : allBlank (expandTabs l) = allBlank l := by
  have hfrom : ∀ column, allBlank (expandTabsFrom column l) = allBlank l := by
    induction l with
    | nil => exact fun _ => rfl
    | cons c l ih =>
      intro column
      rw [expandTabsFrom]
      split
      · next hc =>
        have htab : isBlank c = true := by
          rw [hc]
          decide
        rw [allBlank_append, allBlank_replicate_space, ih, allBlank_cons, htab]
      · rw [allBlank_cons, ih, allBlank_cons]
  exact hfrom 0

/-- Spaces put in front of a line do not change its tabs when they fill whole tab widths. -/
theorem expandTabs_replicate_append {k : Nat} {s : Text} (h : '\t' ∉ s ∨ tabWidth ∣ k) :
    expandTabs (List.replicate k ' ' ++ s) = List.replicate k ' ' ++ expandTabs s := by
  rw [expandTabs, expandTabsFrom_replicate_append, Nat.zero_add, expandTabs]
  rcases h with h | h
  · rw [expandTabsFrom_of_not_mem k h, expandTabsFrom_of_not_mem 0 h]
  · rw [expandTabsFrom_congr (n := 0) (by rw [Nat.mod_eq_zero_of_dvd h, Nat.zero_mod]) s]

end CallSchema.Text
