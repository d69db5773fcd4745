import CallSchema.Docstring.Entry
import CallSchema.Proofs.Outline
import CallSchema.Proofs.Text.Lines

/-!
# Grouping lines into entries

What `Entry.ofLines` makes of a section that is put together from blocks, each a head with deeper
lines below it: when the heads are indented alike, the entries are the blocks
(`Entry.ofLines_blocks`). Blank lines may stand anywhere among them. Blocks in the midst of other
lines are entries of their own too (`Entry.ofLinesAt_blocks`).

## Main definitions

* `Entry.ofLinesAt` -- the entries among lines, when the width of the section is known
-/

namespace CallSchema.Entry

open Text

/-- Blank lines do not count. -/
theorem ofLines_filter_not_allBlank (ls : List Text) :
    ofLines (ls.filter (!allBlank ·)) = ofLines ls := by
  rw [ofLines, List.filter_filter]
  simp only [Bool.and_self]
  rw [ofLines]

/-- The entries among lines of which those indented by `width` at most are heads. -/
def ofLinesAt (width : Nat) (ls : List Text) : List Entry :=
  (Outline.ofItems (head? width) (ls.filter (!allBlank ·))).sections.map fun (head, body) =>
    ⟨head, body.map trim⟩

/-- The first line that is not blank sets the width. -/
theorem ofLines_eq_ofLinesAt {ls : List Text} {first : Text}
    (h : ls.find? (!allBlank ·) = some first) : ofLines ls = ofLinesAt (indent first) ls := by
  rw [← List.head?_filter] at h
  obtain ⟨rest, hfilter⟩ := List.head?_eq_some_iff.1 h
  rw [ofLines, ofLinesAt, hfilter]

theorem filter_not_allBlank_eq_nil {ls : List Text} (h : ∀ l ∈ ls, allBlank l = true) :
    ls.filter (!allBlank ·) = [] := by
  simpa using h

theorem ofLinesAt_of_forall_allBlank (width : Nat) {ls : List Text}
    (h : ∀ l ∈ ls, allBlank l = true) : ofLinesAt width ls = [] := by
  rw [ofLinesAt, filter_not_allBlank_eq_nil h]
  rfl

variable {γ : Type} {blocks : List γ} {head : γ → Text} {below : γ → List Text} {width : Nat}

/-- Blocks are entries of their own in the midst of other lines, when their heads are indented by
    `width` at most and another head comes next below them. -/
theorem ofLinesAt_blocks {tail : List Text}
    (hhead : ∀ b ∈ blocks, allBlank (head b) = false ∧ indent (head b) ≤ width)
    (hbelow : ∀ b ∈ blocks, ∀ l ∈ below b, allBlank l = true ∨ width < indent l)
    (htail : ∀ l, tail.find? (!allBlank ·) = some l → indent l ≤ width) (lead : List Text) :
    ofLinesAt width (lead ++ (blocks.flatMap (fun b => head b :: below b) ++ tail)) =
      ofLinesAt width lead ++
        (blocks.map (fun b => ⟨trim (head b), ((below b).filter (!allBlank ·)).map trim⟩) ++
          ofLinesAt width tail) := by
  have hfilter : (blocks.flatMap fun b => head b :: below b).filter (!allBlank ·) =
      blocks.flatMap fun b => head b :: (below b).filter (!allBlank ·) := by
    rw [List.filter_flatMap]
    refine List.flatMap_congr fun b hb => ?_
    exact List.filter_cons_of_pos (by simp [(hhead b hb).1])
  have hheads : ∀ b ∈ blocks, head? width (head b) = some (trim (head b)) := fun b hb => by
    rw [head?, if_pos (hhead b hb).2]
  have hdeeper : ∀ b ∈ blocks, ∀ l ∈ (below b).filter (!allBlank ·), head? width l = none := by
    intro b hb l hl
    obtain ⟨hl, hnot⟩ := List.mem_filter.1 hl
    rcases hbelow b hb l hl with h | h
    · rw [h] at hnot
      cases hnot
    · rw [head?, if_neg (Nat.not_le.2 h)]
  have hblocks := Outline.ofItems_flatMap hheads hdeeper
  have hpreamble : (Outline.ofItems (head? width) (tail.filter (!allBlank ·))).preamble = [] := by
    cases hlines : tail.filter (!allBlank ·) with
    | nil => rfl
    | cons l ls =>
      have hfirst : tail.find? (!allBlank ·) = some l := by
        rw [← List.head?_filter, hlines, List.head?_cons]
      have hheading : head? width l = some (trim l) := by rw [head?, if_pos (htail l hfirst)]
      rw [Outline.ofItems_cons_some hheading]
  -- the blocks begin with a heading too, as the lines below them do
  have hwith := Outline.ofItems_append_of_preamble hpreamble
    (blocks.flatMap fun b => head b :: (below b).filter (!allBlank ·))
  rw [hblocks] at hwith
  rw [ofLinesAt, List.filter_append, List.filter_append, hfilter,
    Outline.ofItems_append_of_preamble (by rw [hwith]), hwith, List.map_append, List.map_append,
    List.map_map]
  rfl

/-- The blocks of a section are its entries, whatever blank lines stand above and below them. -/
theorem ofLines_blocks {gap trailing : List Text} (hgap : ∀ l ∈ gap, allBlank l = true)
    (htrailing : ∀ l ∈ trailing, allBlank l = true)
    (hhead : ∀ b ∈ blocks, allBlank (head b) = false ∧ indent (head b) = width)
    (hbelow : ∀ b ∈ blocks, ∀ l ∈ below b, allBlank l = true ∨ width < indent l) :
    ofLines (gap ++ (blocks.flatMap (fun b => head b :: below b) ++ trailing)) =
      blocks.map fun b => ⟨trim (head b), ((below b).filter (!allBlank ·)).map trim⟩ := by
  have hnone : trailing.find? (!allBlank ·) = none := by simpa using htrailing
  have hnext : ∀ l, trailing.find? (!allBlank ·) = some l → indent l ≤ width := by
    rw [hnone]
    exact nofun
  have hlines := ofLinesAt_blocks (fun b hb => ⟨(hhead b hb).1, (hhead b hb).2.le⟩) hbelow hnext gap
  rw [ofLinesAt_of_forall_allBlank width hgap, ofLinesAt_of_forall_allBlank width htrailing,
    List.nil_append, List.append_nil] at hlines
  cases blocks with
  | nil =>
    rw [ofLines, filter_not_allBlank_eq_nil (by simpa [or_imp, forall_and] using ⟨hgap, htrailing⟩)]
    rfl
  | cons b blocks =>
    -- the indentation of the first head is that of all heads
    have hfirst : (gap ++ ((b :: blocks).flatMap (fun b => head b :: below b) ++ trailing)).find?
        (!allBlank ·) = some (head b) := by
      have hgapNone : gap.find? (!allBlank ·) = none := by simpa using hgap
      rw [List.find?_append, hgapNone, Option.none_or, List.flatMap_cons, List.cons_append,
        List.cons_append]
      exact List.find?_cons_of_pos (by simp [(hhead b List.mem_cons_self).1])
    rw [ofLines_eq_ofLinesAt hfirst, (hhead b List.mem_cons_self).2, hlines]

end CallSchema.Entry
