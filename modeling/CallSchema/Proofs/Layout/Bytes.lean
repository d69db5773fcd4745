import CallSchema.Proofs.Layout.Bare
import CallSchema.Proofs.Places

/-!
# Cutting the margin by bytes

`Layout.clean` takes the margin off by characters. By bytes it comes to the same
(`Layout.cleanAt_eq_ok`): the margin is never longer than a line that it is taken off, and as it
consists of spaces it never ends inside a character.

## Main definitions

* `Text.dropBytes` -- what follows a number of bytes
* `Text.byteIndent` -- the indentation in bytes
* `Layout.cleanAt` -- the cleaned lines, with the margin cut off by bytes
-/

namespace CallSchema

open Text Checked

namespace Text

/-- The number of bytes of a text in UTF-8. -/
def byteLength : Text → Nat
  | [] => 0
  | c :: s => c.utf8Size + byteLength s

/-- What follows a number of bytes, which must end with a character. -/
def dropBytes : Nat → Text → Checked Text
  | 0, s => .ok s
  | _ + 1, [] => .error .outOfRange
  | n + 1, c :: s =>
    if c.utf8Size ≤ n + 1 then dropBytes (n + 1 - c.utf8Size) s else .error .insideCharacter

/-- The number of bytes before the first character that is no space. -/
def byteIndent (s : Text) : Nat :=
  byteLength s - byteLength (s.dropWhile (· == ' '))

theorem byteLength_cons (c : Char) (s : Text) :
    byteLength (c :: s) = c.utf8Size + byteLength s := rfl

/-- A text with a first character has bytes, of which that character takes the first. -/
theorem exists_byteLength_cons (c : Char) (s : Text) :
    ∃ n, byteLength (c :: s) = n + 1 ∧ c.utf8Size ≤ n + 1 ∧ n + 1 - c.utf8Size = byteLength s := by
  have hpos := c.utf8Size_pos
  refine ⟨byteLength (c :: s) - 1, ?_⟩
  rw [byteLength_cons]
  omega

theorem byteLength_append (s t : Text) : byteLength (s ++ t) = byteLength s + byteLength t := by
  induction s with
  | nil => exact (Nat.zero_add _).symm
  | cons c s ih => rw [List.cons_append, byteLength_cons, byteLength_cons, ih, Nat.add_assoc]

theorem byteLength_of_spaces {s : Text} (h : ∀ c ∈ s, c = ' ') : byteLength s = s.length := by
  induction s with
  | nil => rfl
  | cons c s ih =>
    rw [byteLength_cons, h c List.mem_cons_self, ih fun d hd => h d (List.mem_cons_of_mem c hd),
      List.length_cons, Nat.add_comm]
    rfl

/-- The bytes of the first part of a text end with a character. -/
theorem dropBytes_append (s t : Text) : dropBytes (byteLength s) (s ++ t) = .ok t := by
  induction s with
  | nil => rw [byteLength, List.nil_append, dropBytes]
  | cons c s ih =>
    obtain ⟨n, hn, hle, hrest⟩ := exists_byteLength_cons c s
    rw [List.cons_append, hn, dropBytes, if_pos hle, hrest, ih]

/-- A cut inside a character of two bytes. -/
example : dropBytes 1 ['é', ' '] = .error .insideCharacter := by decide

theorem eq_space_of_mem_takeWhile {s : Text} {c : Char} (h : c ∈ s.takeWhile (· == ' ')) :
    c = ' ' :=
  beq_iff_eq.1 (List.all_eq_true.1 List.all_takeWhile c h)

theorem byteIndent_eq (s : Text) : byteIndent s = indent s := by
  have hsplit := List.takeWhile_append_dropWhile (p := (· == ' ')) (l := s)
  have hlength := congrArg byteLength hsplit
  rw [byteLength_append, byteLength_of_spaces fun c => eq_space_of_mem_takeWhile] at hlength
  rw [byteIndent, indent]
  omega

/-- As long as there are spaces only, a cut by bytes is a cut by characters. -/
theorem dropBytes_of_le_indent {n : Nat} {s : Text} (h : n ≤ indent s) :
    dropBytes n s = .ok (s.drop n) := by
  have hlength : byteLength (s.take n) = n := by
    rw [take_of_le_indent h, byteLength_of_spaces fun c hc => (List.mem_replicate.1 hc).2,
      List.length_replicate]
  have hdrop := dropBytes_append (s.take n) (s.drop n)
  rwa [hlength, List.take_append_drop] at hdrop

end Text

/-! ### The margin -/

namespace Layout

/-- The line without the margin, given its position. -/
def flushAt (width : Nat) : Text × Nat → Checked Text
  | (l, 0) => .ok (trim l)
  | (l, _ + 1) =>
    if allBlank l then .ok []
    else do
      let below ← dropBytes width l
      return trimEnd below

/-- The cleaned lines of a raw text, with the margin cut off by bytes. -/
def cleanAt (raw : Text) : Checked (List Text) := do
  let expanded := (lines raw).map expandTabs
  let indents := ((expanded.drop 1).filter (!allBlank ·)).map byteIndent
  let ls ← expanded.zipIdx.mapM (flushAt (indents.min?.getD 0))
  return dropEmptyEnds ls

theorem flushAt_succ {width : Nat} {l : Text} (h : allBlank l = false → width ≤ indent l)
    (i : Nat) : flushAt width (l, i + 1) = .ok (flush width l) := by
  rw [flushAt, flush]
  split
  · rfl
  · next hblank =>
    rw [dropBytes_of_le_indent (h (Bool.eq_false_iff.2 hblank))]
    rfl

/-- The margin is within each line that it is cut off, and ends with a character there. -/
theorem cleanAt_eq_ok (raw : Text) : cleanAt raw = .ok (clean raw) := by
  rw [cleanAt, clean]
  have hindent : byteIndent = indent := funext byteIndent_eq
  cases (lines raw).map expandTabs with
  | nil => rfl
  | cons first rest =>
    have hrest : (rest.zipIdx 1).mapM (flushAt (margin rest)) =
        .ok (rest.map (flush (margin rest))) := by
      have hflush : ∀ p ∈ rest.zipIdx 1,
          flushAt (margin rest) p = .ok (flush (margin rest) p.1) := by
        rintro ⟨l, i⟩ hp
        obtain ⟨i, rfl⟩ := Nat.exists_eq_add_of_le (List.le_snd_of_mem_zipIdx hp)
        rw [Nat.add_comm]
        exact flushAt_succ (margin_le (List.fst_mem_of_mem_zipIdx hp)) i
      have hmap : (rest.zipIdx 1).map (flush (margin rest) ∘ Prod.fst) =
          rest.map (flush (margin rest)) := by
        rw [← List.map_map, List.zipIdx_map_fst]
      exact (mapM_eq_ok hflush).trans (congrArg Except.ok hmap)
    rw [hindent]
    change (do
      let ls ← ((first, 0) :: rest.zipIdx 1).mapM (flushAt (margin rest))
      return dropEmptyEnds ls) = _
    rw [List.mapM_cons, hrest]
    rfl

end Layout

end CallSchema
