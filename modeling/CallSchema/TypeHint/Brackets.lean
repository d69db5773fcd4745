import CallSchema.Text.Blank

/-!
# Splitting outside brackets

The parts of a type text are separated by commas or bars that stand outside every pair of
brackets. The three sorts of brackets count alike, and a closing bracket that closes nothing is
passed over.

## Main definitions

* `Text.isOpening`, `Text.isClosing` -- the brackets
* `Text.depthAfter` -- the number of brackets left open by a character
* `Text.splitOutside` -- the parts of a text between the separators outside brackets
* `Text.firstOutside`, `Text.lastOutside` -- the first and the last of these parts
-/

namespace CallSchema.Text

def isOpening (c : Char) : Bool :=
  c == '[' || c == '<' || c == '('

def isClosing (c : Char) : Bool :=
  c == ']' || c == '>' || c == ')'

/-- The number of open brackets after `c`, when `depth` of them are open before it. -/
def depthAfter (depth : Nat) (c : Char) : Nat :=
  if isOpening c then depth + 1 else if isClosing c then depth - 1 else depth

/-- Splits a text in which `depth` brackets are already open: the first part, and the parts after
    each separator outside all brackets. -/
def splitOutsideFrom (separator : Char) (depth : Nat) : Text → Text × List Text
  | [] => ([], [])
  | c :: s =>
    let rest := splitOutsideFrom separator (depthAfter depth c) s
    if c = separator ∧ depth = 0 ∧ !isOpening c ∧ !isClosing c then
      ([], rest.1 :: rest.2)
    else
      (c :: rest.1, rest.2)

/-- The parts of a text between the separators outside brackets. -/
def splitOutside (separator : Char) (s : Text) : List Text :=
  let parts := splitOutsideFrom separator 0 s
  parts.1 :: parts.2

theorem splitOutside_ne_nil (separator : Char) (s : Text) : splitOutside separator s ≠ [] := by
  simp [splitOutside]

/-- The part of a text before the first separator outside brackets. -/
def firstOutside (separator : Char) (s : Text) : Text :=
  (splitOutside separator s).head (splitOutside_ne_nil separator s)

/-- The part of a text after the last separator outside brackets. -/
def lastOutside (separator : Char) (s : Text) : Text :=
  (splitOutside separator s).getLast (splitOutside_ne_nil separator s)

theorem splitOutsideFrom_length_le (separator : Char) (depth : Nat) (s : Text) :
    (splitOutsideFrom separator depth s).1.length ≤ s.length ∧
      ∀ p ∈ (splitOutsideFrom separator depth s).2, p.length ≤ s.length := by
  induction s generalizing depth with
  | nil => simp [splitOutsideFrom]
  | cons c s ih =>
    obtain ⟨hfirst, hrest⟩ := ih (depthAfter depth c)
    rw [splitOutsideFrom]
    split
    · refine ⟨Nat.zero_le _, fun p hp => ?_⟩
      rcases List.mem_cons.1 hp with rfl | hp
      · exact Nat.le_succ_of_le hfirst
      · exact Nat.le_succ_of_le (hrest p hp)
    · exact ⟨Nat.succ_le_succ hfirst, fun p hp => Nat.le_succ_of_le (hrest p hp)⟩

theorem length_le_of_mem_splitOutside {separator : Char} {s p : Text}
    (h : p ∈ splitOutside separator s) : p.length ≤ s.length := by
  rcases List.mem_cons.1 h with rfl | h
  · exact (splitOutsideFrom_length_le separator 0 s).1
  · exact (splitOutsideFrom_length_le separator 0 s).2 p h

theorem firstOutside_length_le (separator : Char) (s : Text) :
    (firstOutside separator s).length ≤ s.length :=
  length_le_of_mem_splitOutside (List.head_mem _)

theorem lastOutside_length_le (separator : Char) (s : Text) :
    (lastOutside separator s).length ≤ s.length :=
  length_le_of_mem_splitOutside (List.getLast_mem _)

end CallSchema.Text
