import CallSchema.Docstring.Layout
import CallSchema.Proofs.Text.Lines

/-!
# Layout through bare lines

`Layout.clean` looks at the lines of a raw text only after their tabs are expanded, and what stands
at the end of a line or of the text never reaches its result. `Layout.bareLines` keeps exactly what
matters, and `Layout.clean_eq_bareLines` says so; two texts with the same bare lines have the same
cleaned lines.

## Main definitions

* `Layout.bare` -- a line with its tabs expanded and without blanks at its end
* `Layout.bareLines` -- the bare lines of a text up to the last one that is not empty
* `Layout.shift` -- a bare line moved to the right
-/

namespace CallSchema.Layout

open Text

/-- The line with its tabs expanded and without blanks at its end. -/
def bare (l : Text) : Text :=
  trimEnd (expandTabs l)

/-- The bare lines of a text, without the empty ones at its end. -/
def bareLines (raw : Text) : List Text :=
  dropEndWhile List.isEmpty ((lines raw).map bare)

/-- A bare line moved to the right; an empty line stays empty. -/
def shift (k : Nat) (l : Text) : Text :=
  if l = [] then [] else List.replicate k ' ' ++ l

/-! ### Bare lines -/

@[simp] theorem shift_nil (k : Nat) : shift k [] = [] := rfl

theorem shift_of_ne_nil (k : Nat) {l : Text} (h : l ≠ []) :
    shift k l = List.replicate k ' ' ++ l := by
  rw [shift, if_neg h]

theorem shift_eq_nil_iff {k : Nat} {l : Text} : shift k l = [] ↔ l = [] := by
  by_cases h : l = []
  · simp [h]
  · simp [shift_of_ne_nil k h, h]

@[simp] theorem allBlank_shift (k : Nat) (l : Text) : allBlank (shift k l) = allBlank l := by
  by_cases h : l = []
  · rw [h, shift_nil]
  · rw [shift_of_ne_nil k h, allBlank_append, allBlank_replicate_space, Bool.true_and]

theorem indent_shift (k : Nat) {l : Text} (h : allBlank l = false) :
    indent (shift k l) = k + indent l := by
  rw [shift_of_ne_nil k (ne_nil_of_not_allBlank h), indent_replicate_append]

theorem bare_append_of_allBlank (l : Text) {t : Text} (hblank : allBlank t = true)
    (htab : '\t' ∉ t) : bare (l ++ t) = bare l := by
  rw [bare, expandTabs, expandTabsFrom_append 0 l htab, trimEnd_append_of_allBlank _ hblank, bare,
    expandTabs]

@[simp] theorem bare_append_spaces (l : Text) (k : Nat) :
    bare (l ++ List.replicate k ' ') = bare l := by
  apply bare_append_of_allBlank l (allBlank_replicate_space k)
  intro h
  cases (List.mem_replicate.1 h).2

/-- The carriage return of a line break does not reach the bare line. -/
@[simp] theorem bare_append_cr (l : Text) : bare (l ++ ['\r']) = bare l :=
  bare_append_of_allBlank l (by decide) (by decide)

@[simp] theorem bare_dropCr (l : Text) : bare (dropCr l) = bare l := by
  rcases dropCr_cases l with h | h
  · rw [← h]
  · rw [← bare_append_cr, ← h]

/-- Spaces in front of a line shift its bare form, if they do not move its tabs to other stops. -/
theorem bare_replicate_append {k : Nat} {l : Text} (h : '\t' ∉ l ∨ tabWidth ∣ k) :
    bare (List.replicate k ' ' ++ l) = shift k (bare l) := by
  rw [bare, expandTabs_replicate_append h]
  by_cases hb : allBlank (expandTabs l) = true
  · have hnil : bare l = [] := trimEnd_eq_nil_iff.2 hb
    rw [hnil, shift_nil, trimEnd_eq_nil_iff, allBlank_append, hb, allBlank_replicate_space]
    rfl
  · have hne : bare l ≠ [] := fun hnil => hb (trimEnd_eq_nil_iff.1 hnil)
    rw [Bool.not_eq_true] at hb
    rw [shift_of_ne_nil k hne, trimEnd_append_of_not_allBlank _ hb, bare]

/-! ### The margin -/

theorem mem_filter_indent {n : Nat} {ls : List Text} :
    n ∈ (ls.filter (!allBlank ·)).map indent ↔ ∃ l ∈ ls, allBlank l = false ∧ indent l = n := by
  simp [and_assoc]

/-- No line that is not blank is indented less than the margin. -/
theorem margin_le {ls : List Text} {l : Text} (hl : l ∈ ls) (hb : allBlank l = false) :
    margin ls ≤ indent l := by
  have hmem : indent l ∈ (ls.filter (!allBlank ·)).map indent :=
    mem_filter_indent.2 ⟨l, hl, hb, rfl⟩
  unfold margin
  cases hm : ((ls.filter (!allBlank ·)).map indent).min? with
  | none => simp
  | some m => exact (List.min?_eq_some_iff.1 hm).2 _ hmem

/-- The margin is the indentation that some line has and no line falls short of. -/
theorem margin_eq {n : Nat} {ls : List Text} {l : Text} (hl : l ∈ ls) (hb : allBlank l = false)
    (hn : indent l = n) (hle : ∀ m ∈ ls, allBlank m = false → n ≤ indent m) : margin ls = n := by
  have hmin : ((ls.filter (!allBlank ·)).map indent).min? = some n := by
    rw [List.min?_eq_some_iff]
    refine ⟨mem_filter_indent.2 ⟨l, hl, hb, hn⟩, ?_⟩
    intro k hk
    obtain ⟨m, hm, hmb, rfl⟩ := mem_filter_indent.1 hk
    exact hle m hm hmb
  rw [margin, hmin, Option.getD_some]

theorem exists_indent_eq_margin {ls : List Text} (h : ∃ l ∈ ls, allBlank l = false) :
    ∃ l ∈ ls, allBlank l = false ∧ indent l = margin ls := by
  obtain ⟨l, hl, hb⟩ := h
  have hmem : indent l ∈ (ls.filter (!allBlank ·)).map indent :=
    mem_filter_indent.2 ⟨l, hl, hb, rfl⟩
  cases hm : ((ls.filter (!allBlank ·)).map indent).min? with
  | none => simp [List.min?_eq_none_iff.1 hm] at hmem
  | some m =>
    rw [margin, hm, Option.getD_some]
    exact mem_filter_indent.1 (List.min?_eq_some_iff.1 hm).1

/-- Moving every line to the right moves the margin along. -/
theorem margin_map_shift (k : Nat) {ls : List Text} (h : ∃ l ∈ ls, allBlank l = false) :
    margin (ls.map (shift k)) = k + margin ls := by
  obtain ⟨l, hl, hb, hi⟩ := exists_indent_eq_margin h
  apply margin_eq (List.mem_map_of_mem hl)
  · rw [allBlank_shift, hb]
  · rw [indent_shift k hb, hi]
  · intro m hm hmb
    obtain ⟨n, hn, rfl⟩ := List.mem_map.1 hm
    rw [allBlank_shift] at hmb
    rw [indent_shift k hmb]
    exact Nat.add_le_add_left (margin_le hn hmb) k

theorem margin_append_of_all_allBlank (ls : List Text) {es : List Text}
    (h : ∀ e ∈ es, allBlank e = true) : margin (ls ++ es) = margin ls := by
  have hes : es.filter (!allBlank ·) = [] := by
    simpa using h
  rw [margin, margin, List.filter_append, hes, List.append_nil]

/-- The margin depends on the lines only through their trimmed ends. -/
theorem margin_map_trimEnd (ls : List Text) : margin (ls.map trimEnd) = margin ls := by
  unfold margin
  congr 2
  induction ls with
  | nil => rfl
  | cons l ls ih =>
    rw [List.map_cons]
    by_cases hb : allBlank l = true
    · rw [List.filter_cons_of_neg (by simp [allBlank_trimEnd, hb]),
        List.filter_cons_of_neg (by simp [hb]), ih]
    · rw [Bool.not_eq_true] at hb
      rw [List.filter_cons_of_pos (by simp [allBlank_trimEnd, hb]),
        List.filter_cons_of_pos (by simp [hb]), List.map_cons, List.map_cons, ih,
        indent_trimEnd hb]

/-! ### Flush lines -/

theorem flush_of_allBlank (w : Nat) {l : Text} (h : allBlank l = true) : flush w l = [] := by
  rw [flush, if_pos h]

theorem flush_of_not_allBlank (w : Nat) {l : Text} (h : allBlank l = false) :
    flush w l = trimEnd (l.drop w) := by
  rw [flush, if_neg (by simp [h])]

theorem flush_trimEnd {w : Nat} {l : Text} (h : allBlank l = false → w ≤ indent l) :
    flush w (trimEnd l) = flush w l := by
  by_cases hb : allBlank l = true
  · rw [flush_of_allBlank w hb, flush_of_allBlank w (by rw [allBlank_trimEnd, hb])]
  · rw [Bool.not_eq_true] at hb
    obtain ⟨b, hblank, hl⟩ := exists_trimEnd_append l
    have hw : w ≤ (trimEnd l).length :=
      calc w ≤ indent l := h hb
        _ = indent (trimEnd l) := (indent_trimEnd hb).symm
        _ ≤ (trimEnd l).length := indent_le_length _
    rw [flush_of_not_allBlank w hb, flush_of_not_allBlank w (by rw [allBlank_trimEnd, hb])]
    conv => rhs; rw [hl]
    rw [List.drop_append_of_le_length hw, trimEnd_append_of_allBlank _ hblank]

theorem flush_shift (k w : Nat) (l : Text) : flush (k + w) (shift k l) = flush w l := by
  by_cases hl : l = []
  · rw [hl, shift_nil, flush_of_allBlank _ allBlank_nil, flush_of_allBlank _ allBlank_nil]
  · rw [shift_of_ne_nil k hl]
    by_cases hb : allBlank l = true
    · rw [flush_of_allBlank w hb, flush_of_allBlank _ (by simp [hb])]
    · rw [Bool.not_eq_true] at hb
      rw [flush_of_not_allBlank w hb, flush_of_not_allBlank _ (by simp [hb]), ← List.drop_drop,
        List.drop_left' List.length_replicate]

/-- Blank lines are flush with any margin. -/
theorem map_flush_of_forall_allBlank (v w : Nat) {ls : List Text}
    (h : ¬∃ l ∈ ls, allBlank l = false) : ls.map (flush v) = ls.map (flush w) := by
  refine List.map_congr_left fun l hl => ?_
  have hb : allBlank l = true := by
    by_contra hb
    exact h ⟨l, hl, Bool.eq_false_iff.2 hb⟩
  rw [flush_of_allBlank v hb, flush_of_allBlank w hb]

/-- The lines that are flush with their margin do not show where the margin was. -/
theorem map_flush_map_shift (k : Nat) (ls : List Text) :
    (ls.map (shift k)).map (flush (margin (ls.map (shift k)))) = ls.map (flush (margin ls)) := by
  have hflush : (ls.map (shift k)).map (flush (k + margin ls)) = ls.map (flush (margin ls)) := by
    rw [List.map_map]
    exact List.map_congr_left fun l _ => flush_shift k (margin ls) l
  by_cases h : ∃ l ∈ ls, allBlank l = false
  · rw [margin_map_shift k h, hflush]
  · -- without a line to measure there is no margin to move, but any width will do
    rw [← hflush]
    apply map_flush_of_forall_allBlank
    simpa using h

/-! ### Cleaning through bare lines -/

theorem dedent_map_trimEnd (ls : List Text) : dedent (ls.map trimEnd) = dedent ls := by
  cases ls with
  | nil => rfl
  | cons first rest =>
    have htrim : trim (trimEnd first) = trim first := by
      obtain ⟨b, hb, hf⟩ := exists_trimEnd_append first
      conv => rhs; rw [hf]
      exact (trim_append_of_allBlank _ hb).symm
    rw [List.map_cons, dedent, dedent, htrim, margin_map_trimEnd, List.map_map]
    congr 1
    exact List.map_congr_left fun l hl => flush_trimEnd fun hb => margin_le hl hb

theorem dropEmptyEnds_append (ls : List Text) {es : List Text} (h : ∀ e ∈ es, e.isEmpty = true) :
    dropEmptyEnds (ls ++ es) = dropEmptyEnds ls := by
  unfold dropEmptyEnds
  by_cases hall : ∀ l ∈ ls, l.isEmpty = true
  · rw [List.dropWhile_append_of_pos hall, List.dropWhile_eq_nil_iff.2 h,
      List.dropWhile_eq_nil_iff.2 hall]
  · have hne : ls.dropWhile List.isEmpty ≠ [] := fun hnil => hall (List.dropWhile_eq_nil_iff.1 hnil)
    rw [List.dropWhile_append, if_neg (by simpa [List.isEmpty_iff] using hne),
      dropEndWhile_append_of_all _ h]

/-- Empty lines at the end of a text do not count. -/
theorem dropEmptyEnds_dedent_append (ls : List Text) {es : List Text}
    (h : ∀ e ∈ es, e.isEmpty = true) :
    dropEmptyEnds (dedent (ls ++ es)) = dropEmptyEnds (dedent ls) := by
  have hblank : ∀ e ∈ es, allBlank e = true := fun e he => by
    rw [List.isEmpty_iff.1 (h e he), allBlank_nil]
  have hflush : ∀ w, ∀ l ∈ es.map (flush w), l.isEmpty = true := fun w l hl => by
    obtain ⟨e, he, rfl⟩ := List.mem_map.1 hl
    rw [flush_of_allBlank w (hblank e he), List.isEmpty_nil]
  cases ls with
  | nil =>
    cases es with
    | nil => rfl
    | cons e es =>
      have hempty : ∀ l ∈ dedent (e :: es), l.isEmpty = true := by
        intro l hl
        rw [dedent, List.mem_cons] at hl
        rcases hl with rfl | hl
        · rw [List.isEmpty_iff.1 (h e (by simp)), trim_nil, List.isEmpty_nil]
        · exact hflush _ l (List.map_subset _ (List.subset_cons_self e es) hl)
      rw [List.nil_append]
      exact dropEmptyEnds_append [] hempty
  | cons first rest =>
    rw [List.cons_append, dedent, margin_append_of_all_allBlank rest hblank, List.map_append,
      ← List.cons_append]
    exact dropEmptyEnds_append _ (hflush _)

theorem dropEmptyEnds_dedent_dropEndWhile (ls : List Text) :
    dropEmptyEnds (dedent (dropEndWhile List.isEmpty ls)) = dropEmptyEnds (dedent ls) := by
  obtain ⟨es, hes, hsplit⟩ := exists_dropEndWhile_append List.isEmpty ls
  conv => rhs; rw [hsplit]
  exact (dropEmptyEnds_dedent_append _ hes).symm

/-- Cleaning sees a text through its bare lines only. -/
theorem clean_eq_bareLines (raw : Text) : clean raw = dropEmptyEnds (dedent (bareLines raw)) := by
  have hmap : ((lines raw).map expandTabs).map trimEnd = (lines raw).map bare := by
    rw [List.map_map]
    rfl
  rw [clean, ← dedent_map_trimEnd, hmap, bareLines, dropEmptyEnds_dedent_dropEndWhile]

end CallSchema.Layout
