import CallSchema.Docstring.Layout
import CallSchema.Proofs.Text.Lines

/-!
# Cleaned lines

Whatever the raw text is, its cleaned lines hold no line break and end in no blank, a line among
them that is not empty is not blank either, and neither the first nor the last of them is empty.
Joined with line feeds they are cut again as they were (`Layout.lines_unlines_clean`).
-/

namespace CallSchema.Layout

open Text

variable {raw l : Text} {ls : List Text}

/-! ### Single lines -/

theorem mem_of_mem_expandTabs {c : Char} (h : c ∈ expandTabs l) : c = ' ' ∨ c ∈ l := by
  have hfrom : ∀ column, c ∈ expandTabsFrom column l → c = ' ' ∨ c ∈ l := by
    clear h
    induction l with
    | nil => exact fun _ h => .inr h
    | cons d l ih =>
      intro column h
      rw [expandTabsFrom] at h
      split at h
      · obtain h | h := List.mem_append.1 h
        · exact .inl (List.mem_replicate.1 h).2
        · exact (ih _ h).imp_right (List.mem_cons_of_mem d)
      · obtain rfl | h := List.mem_cons.1 h
        · exact .inr List.mem_cons_self
        · exact (ih _ h).imp_right (List.mem_cons_of_mem d)
  exact hfrom 0 h

theorem newline_notMem_of_mem_lines (h : l ∈ lines raw) : '\n' ∉ l := by
  induction raw using newline_induction with
  | last m hm =>
    cases m with
    | nil => cases h
    | cons c m =>
      rw [lines_of_not_mem hm (List.cons_ne_nil c m), List.mem_singleton] at h
      rwa [h]
  | step m s hm ih =>
    rw [lines_append_newline hm] at h
    obtain rfl | h := List.mem_cons.1 h
    · exact fun hc => hm ((dropCr_sublist m).subset hc)
    · exact ih h

/-- A line of the dedented text comes from a line of the text, trimmed at its end. -/
theorem of_mem_dedent (h : l ∈ dedent ls) :
    trimEnd l = l ∧ (l ≠ [] → allBlank l = false) ∧ ∃ m ∈ ls, l.Sublist m := by
  have hflush : ∀ w m, trimEnd (flush w m) = flush w m ∧ (flush w m).Sublist m := by
    intro w m
    unfold flush
    split
    · exact ⟨rfl, List.nil_sublist m⟩
    · obtain ⟨b, -, hb⟩ := exists_trimEnd_append (m.drop w)
      refine ⟨trimEnd_idem _, List.Sublist.trans ?_ (List.drop_sublist w m)⟩
      conv => rhs; rw [hb]
      exact List.sublist_append_left _ b
  have hline : trimEnd l = l ∧ ∃ m ∈ ls, l.Sublist m := by
    cases ls with
    | nil => cases h
    | cons first rest =>
      obtain rfl | h := List.mem_cons.1 h
      · exact ⟨trimEnd_idem _, first, List.mem_cons_self, trim_sublist first⟩
      · obtain ⟨m, hm, rfl⟩ := List.mem_map.1 h
        exact ⟨(hflush _ m).1, m, List.mem_cons_of_mem first hm, (hflush _ m).2⟩
  refine ⟨hline.1, fun hne => ?_, hline.2⟩
  by_contra hb
  rw [Bool.not_eq_false] at hb
  exact hne (hline.1.symm.trans (trimEnd_eq_nil_iff.2 hb))

/-! ### The cleaned text -/

/-- What stands around the lines that are left when the empty ends are dropped. -/
theorem exists_append_dropEmptyEnds (ls : List Text) :
    ∃ above below, (∀ l ∈ above, l = []) ∧ (∀ l ∈ below, l = []) ∧
      ls = above ++ (dropEmptyEnds ls ++ below) := by
  obtain ⟨below, hbelow, hsplit⟩ :=
    exists_dropEndWhile_append List.isEmpty (ls.dropWhile List.isEmpty)
  refine ⟨ls.takeWhile List.isEmpty, below, fun l hl => ?_,
    fun l hl => List.isEmpty_iff.1 (hbelow l hl), ?_⟩
  · exact List.isEmpty_iff.1 (List.mem_takeWhile_imp hl)
  · rw [dropEmptyEnds, ← hsplit, List.takeWhile_append_dropWhile]

theorem dropEmptyEnds_sublist (ls : List Text) : (dropEmptyEnds ls).Sublist ls := by
  obtain ⟨above, below, -, -, hsplit⟩ := exists_append_dropEmptyEnds ls
  conv => rhs; rw [hsplit]
  exact (List.sublist_append_left _ below).trans (List.sublist_append_right above _)

theorem head?_dropEmptyEnds_ne (ls : List Text) : (dropEmptyEnds ls).head? ≠ some [] := by
  intro h
  obtain ⟨es, -, hes⟩ := exists_dropEndWhile_append List.isEmpty (ls.dropWhile List.isEmpty)
  have hhead : (ls.dropWhile List.isEmpty).head? = some [] := by
    rw [hes, List.head?_append]
    exact congrArg (Option.or · es.head?) h
  have hnot := List.head?_dropWhile_not List.isEmpty ls
  rw [hhead] at hnot
  cases hnot

theorem getLast?_dropEmptyEnds_ne (ls : List Text) : (dropEmptyEnds ls).getLast? ≠ some [] := by
  intro h
  have hself : dropEndWhile List.isEmpty (dropEmptyEnds ls) = dropEmptyEnds ls :=
    dropEndWhile_idem _
  have hempty := dropEndWhile_eq_self_iff.1 hself [] h
  cases hempty

theorem mem_dedent_of_mem_clean (h : l ∈ clean raw) :
    l ∈ dedent ((lines raw).map expandTabs) :=
  (dropEmptyEnds_sublist _).subset h

theorem trimEnd_of_mem_clean (h : l ∈ clean raw) : trimEnd l = l :=
  (of_mem_dedent (mem_dedent_of_mem_clean h)).1

theorem newline_notMem_of_mem_clean (h : l ∈ clean raw) : '\n' ∉ l := by
  intro hc
  obtain ⟨-, -, m, hm, hsub⟩ := of_mem_dedent (mem_dedent_of_mem_clean h)
  obtain ⟨k, hk, rfl⟩ := List.mem_map.1 hm
  obtain hc | hc := mem_of_mem_expandTabs (hsub.subset hc)
  · cases hc
  · exact newline_notMem_of_mem_lines hk hc

/-- The first cleaned line, if there is any, is not blank. -/
theorem not_allBlank_of_clean_eq_cons {first : Text} {rest : List Text}
    (h : clean raw = first :: rest) : allBlank first = false := by
  have hmem : first ∈ clean raw := by
    rw [h]
    exact List.mem_cons_self
  refine (of_mem_dedent (mem_dedent_of_mem_clean hmem)).2.1 ?_
  rintro rfl
  apply head?_dropEmptyEnds_ne (dedent ((lines raw).map expandTabs))
  change (clean raw).head? = some []
  rw [h]
  rfl

/-- The cleaned lines come back when they are joined and cut again. -/
theorem lines_unlines_clean (raw : Text) : lines (unlines (clean raw)) = clean raw := by
  refine lines_unlines (fun l => newline_notMem_of_mem_clean) (fun l hl hcr => ?_)
    (getLast?_dropEmptyEnds_ne _)
  have hblank := trimEnd_eq_self_iff.1 (trimEnd_of_mem_clean hl) '\r' hcr
  cases hblank

end CallSchema.Layout
