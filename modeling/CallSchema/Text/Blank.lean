/-!
# Blank characters and trimming

Text is worked on as the list of its characters, so that every operation on it is a recursion on
a list. `Text.isBlank` is the Unicode property White_Space, and `Text.trim` removes blank
characters at both ends.

## Main definitions

* `Text` -- text as the list of its characters
* `Text.isBlank` -- the property White_Space
* `Text.trimStart`, `Text.trimEnd`, `Text.trim` -- removal of blank characters at the ends
* `Text.allBlank` -- the test for text that trims to nothing
-/

namespace CallSchema

/-- Text as the list of its characters. -/
abbrev Text := List Char

/-- A list without the longest end all of whose items satisfy `p`. -/
def dropEndWhile {α : Type} (p : α → Bool) : List α → List α
  | [] => []
  | a :: s =>
    match dropEndWhile p s with
    | [] => if p a then [] else [a]
    | b :: r => a :: b :: r

theorem dropEndWhile_length_le {α : Type} (p : α → Bool) (s : List α) :
    (dropEndWhile p s).length ≤ s.length := by
  induction s with
  | nil => simp [dropEndWhile]
  | cons a s ih =>
    rw [dropEndWhile]
    split
    · split <;> simp
    · next h => simp only [h, List.length_cons] at ih ⊢; omega

namespace Text

/-- The property White_Space of the Unicode Character Database. -/
def isBlank (c : Char) : Bool :=
  let n := c.toNat
  (0x09 ≤ n && n ≤ 0x0D) || n == 0x20 || n == 0x85 || n == 0xA0 || n == 0x1680 ||
  (0x2000 ≤ n && n ≤ 0x200A) || n == 0x2028 || n == 0x2029 || n == 0x202F || n == 0x205F ||
  n == 0x3000

/-- The text without the blank characters at its start. -/
def trimStart (s : Text) : Text :=
  s.dropWhile isBlank

/-- The text without the blank characters at its end. -/
def trimEnd (s : Text) : Text :=
  dropEndWhile isBlank s

/-- The text without the blank characters at both ends. -/
def trim (s : Text) : Text :=
  trimEnd (trimStart s)

/-- Whether the text has no character that is not blank. -/
def allBlank (s : Text) : Bool :=
  s.all isBlank

theorem trimStart_length_le (s : Text) : (trimStart s).length ≤ s.length :=
  (List.dropWhile_sublist isBlank).length_le

theorem trimEnd_length_le (s : Text) : (trimEnd s).length ≤ s.length :=
  dropEndWhile_length_le isBlank s

theorem trim_length_le (s : Text) : (trim s).length ≤ s.length :=
  Nat.le_trans (trimEnd_length_le _) (trimStart_length_le s)

end Text

end CallSchema
