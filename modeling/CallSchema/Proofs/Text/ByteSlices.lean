import CallSchema.Proofs.Layout.Bytes
import CallSchema.TypeHint.Brackets

/-!
# Slices by bytes

A part of a text can be taken by the positions of its bytes, which goes wrong where a position lies
outside the text or inside a character. Splitting outside brackets can be done in this way, by one
pass over the characters that remembers where the part at hand began. None of the slices it takes
goes wrong, and they are the parts of the text (`Text.splitOutsideAt_eq_ok`).

## Main definitions

* `Text.bytes` -- the bytes of a text
* `Text.sliceBytes` -- the text from one byte up to another one
* `Text.findByte?`, `Text.charIndices` -- the positions of characters
* `Text.splitOutsideAt` -- the parts of a text as slices
-/

namespace CallSchema.Text

open Checked

/-- The bytes of a text in UTF-8. -/
def bytes (s : Text) : List UInt8 :=
  s.flatMap String.utf8EncodeChar

/-- The first bytes of a text, which must end with a character. -/
def takeBytes : Nat → Text → Checked Text
  | 0, _ => .ok []
  | _ + 1, [] => .error .outOfRange
  | n + 1, c :: s =>
    if c.utf8Size ≤ n + 1 then do
      let rest ← takeBytes (n + 1 - c.utf8Size) s
      return c :: rest
    else .error .insideCharacter

/-- The text from one byte up to another one. -/
def sliceBytes (start stop : Nat) (s : Text) : Checked Text :=
  if start ≤ stop then do
    let front ← takeBytes stop s
    dropBytes start front
  else .error .outOfRange

/-- The position of the first character of a class. -/
def findByte? (isMark : Char → Bool) : Text → Option Nat
  | [] => none
  | c :: s => if isMark c then some 0 else (findByte? isMark s).map (c.utf8Size + ·)

/-- The characters with their positions, given the position of the first one. -/
def charIndices (start : Nat) : Text → List (Nat × Char)
  | [] => []
  | c :: s => (start, c) :: charIndices (start + c.utf8Size) s

/-! ### Positions between characters -/

variable {before middle after : Text}

theorem length_bytes (s : Text) : (bytes s).length = byteLength s := by
  induction s with
  | nil => rfl
  | cons c s ih =>
    change (String.utf8EncodeChar c ++ bytes s).length = _
    rw [List.length_append, String.length_utf8EncodeChar, ih, byteLength_cons]

theorem item_bytes_append (before after : Text) {c : Char} {b : UInt8}
    (hc : String.utf8EncodeChar c = [b]) :
    item (bytes (before ++ c :: after)) (byteLength before) = .ok b := by
  have hsplit : bytes (before ++ c :: after) = bytes before ++ b :: bytes after := by
    rw [bytes, List.flatMap_append, List.flatMap_cons, hc]
    rfl
  rw [item, hsplit, ← length_bytes, List.getElem?_append_right (Nat.le_refl _), Nat.sub_self]
  rfl

/-- The bytes of the first part of a text end with a character. -/
theorem takeBytes_append (s t : Text) : takeBytes (byteLength s) (s ++ t) = .ok s := by
  induction s with
  | nil => rw [byteLength, List.nil_append, takeBytes]
  | cons c s ih =>
    obtain ⟨n, hn, hle, hrest⟩ := exists_byteLength_cons c s
    rw [List.cons_append, hn, takeBytes, if_pos hle, hrest, ih, ok_bind, pure_eq_ok]

/-- A part of a text is the slice between its two ends. -/
theorem sliceBytes_append (before middle after : Text) {start stop : Nat}
    (hstart : start = byteLength before) (hstop : stop = byteLength before + byteLength middle) :
    sliceBytes start stop (before ++ (middle ++ after)) = .ok middle := by
  subst hstart hstop
  have htake := takeBytes_append (before ++ middle) after
  rw [byteLength_append, List.append_assoc] at htake
  rw [sliceBytes, if_pos (Nat.le_add_right _ _), htake, ok_bind, dropBytes_append]

/-- A slice that starts inside a character. -/
example : sliceBytes 1 2 ['é', ' '] = .error .insideCharacter := by decide

theorem findByte?_eq_none {isMark : Char → Bool} {s : Text} (h : ∀ c ∈ s, isMark c = false) :
    findByte? isMark s = none := by
  induction s with
  | nil => rfl
  | cons c s ih =>
    obtain ⟨hc, hs⟩ := List.forall_mem_cons.1 h
    rw [findByte?, if_neg (Bool.eq_false_iff.1 hc), ih hs, Option.map_none]

theorem findByte?_append {isMark : Char → Bool} {c : Char} (hc : isMark c = true)
    (hbefore : ∀ d ∈ before, isMark d = false) (after : Text) :
    findByte? isMark (before ++ c :: after) = some (byteLength before) := by
  induction before with
  | nil => rw [List.nil_append, findByte?, if_pos hc, byteLength]
  | cons d before ih =>
    obtain ⟨hd, hbefore⟩ := List.forall_mem_cons.1 hbefore
    rw [List.cons_append, findByte?, if_neg (Bool.eq_false_iff.1 hd), ih hbefore, Option.map_some,
      byteLength_cons]

theorem byteLength_le_of_sublist {s t : Text} (h : s.Sublist t) : byteLength s ≤ byteLength t := by
  induction h with
  | slnil => exact Nat.le_refl _
  | cons c _ ih =>
    rw [byteLength_cons]
    omega
  | cons_cons c _ ih =>
    rw [byteLength_cons, byteLength_cons]
    omega

theorem splitOutsideFrom_sublist (separator : Char) (depth : Nat) (s : Text) :
    (splitOutsideFrom separator depth s).1.Sublist s ∧
      ∀ p ∈ (splitOutsideFrom separator depth s).2, p.Sublist s := by
  induction s generalizing depth with
  | nil => exact ⟨.slnil, List.forall_mem_nil _⟩
  | cons c s ih =>
    obtain ⟨hfirst, hrest⟩ := ih (depthAfter depth c)
    have hlater : ∀ p ∈ (splitOutsideFrom separator (depthAfter depth c) s).2, p.Sublist (c :: s) :=
      fun p hp => (hrest p hp).cons c
    rw [splitOutsideFrom]
    split
    · exact ⟨List.nil_sublist _, List.forall_mem_cons.2 ⟨hfirst.cons c, hlater⟩⟩
    · exact ⟨hfirst.cons_cons c, hlater⟩

theorem sublist_of_mem_splitOutside {separator : Char} {s p : Text}
    (h : p ∈ splitOutside separator s) : p.Sublist s := by
  obtain ⟨hfirst, hrest⟩ := splitOutsideFrom_sublist separator 0 s
  obtain rfl | h := List.mem_cons.1 h
  · exact hfirst
  · exact hrest p h

/-! ### Splitting by positions -/

/-- What the pass over a text keeps: the parts found so far, the number of open brackets, and where
    the part at hand begins. -/
structure SplitState where
  parts : List Text
  depth : Nat
  start : Nat

/-- Goes past one character. A separator outside brackets ends the part at hand. -/
def splitStep (separator : Char) (s : Text) (state : SplitState) (place : Nat × Char) :
    Checked SplitState :=
  if isOpening place.2 then .ok { state with depth := state.depth + 1 }
  else if isClosing place.2 then .ok { state with depth := state.depth - 1 }
  else if place.2 = separator ∧ state.depth = 0 then do
    let part ← sliceBytes state.start place.1 s
    return { state with parts := state.parts ++ [part], start := place.1 + separator.utf8Size }
  else .ok state

/-- The parts when the text ends: the part at hand is the last one. -/
def splitEnd (s : Text) (state : SplitState) : Checked (List Text) := do
  let last ← sliceBytes state.start (byteLength s) s
  return state.parts ++ [last]

/-- The parts of a text between the separators outside brackets, as slices. -/
def splitOutsideAt (separator : Char) (s : Text) : Checked (List Text) := do
  let state ← (charIndices 0 s).foldlM (splitStep separator s) ⟨[], 0, 0⟩
  splitEnd s state

variable {separator : Char}

/-- A character that separates nothing changes the number of open brackets only. -/
theorem splitStep_of_not_separator {s : Text} {state : SplitState} {i : Nat} {c : Char}
    (h : ¬(c = separator ∧ state.depth = 0 ∧ !isOpening c ∧ !isClosing c)) :
    splitStep separator s state (i, c) = .ok { state with depth := depthAfter state.depth c } := by
  unfold splitStep depthAfter
  by_cases hopening : isOpening c = true
  · simp [hopening]
  by_cases hclosing : isClosing c = true
  · simp [hopening, hclosing]
  have hseparator : ¬(c = separator ∧ state.depth = 0) := fun ⟨hc, hdepth⟩ =>
    h ⟨hc, hdepth, by simp [hopening], by simp [hclosing]⟩
  simp [hopening, hclosing, hseparator]

/-- A separator outside brackets ends the part that began where the state says. -/
theorem splitStep_separator {state : SplitState}
    (h : state.depth = 0 ∧ !isOpening separator ∧ !isClosing separator)
    (hstart : state.start = byteLength before) (pending rest : Text) :
    splitStep separator (before ++ (pending ++ separator :: rest)) state
        (byteLength before + byteLength pending, separator) =
      .ok ⟨state.parts ++ [pending], depthAfter state.depth separator,
        byteLength (before ++ (pending ++ [separator]))⟩ := by
  obtain ⟨hdepth, hopening, hclosing⟩ := h
  have hslice := sliceBytes_append before pending (separator :: rest) hstart rfl
  simp only [Bool.not_eq_true'] at hopening hclosing
  simp only [splitStep, depthAfter, hopening, hclosing, hdepth, hslice, Bool.false_eq_true,
    if_false, and_self, if_true, ok_bind, pure_eq_ok, byteLength_append, byteLength,
    Nat.add_zero, Nat.add_assoc]

/-- The pass over the rest of a text: `before` is behind the last separator, and `pending` is what
    has been read of the part at hand. -/
theorem foldlM_splitStep (before pending rest : Text) (parts : List Text) (depth : Nat) :
    ((charIndices (byteLength before + byteLength pending) rest).foldlM
        (splitStep separator (before ++ (pending ++ rest))) ⟨parts, depth, byteLength before⟩ >>=
      splitEnd (before ++ (pending ++ rest))) =
      .ok (parts ++ (pending ++ (splitOutsideFrom separator depth rest).1) ::
        (splitOutsideFrom separator depth rest).2) := by
  induction rest generalizing before pending parts depth with
  | nil =>
    have hslice := sliceBytes_append before pending [] rfl rfl
    rw [List.append_nil] at hslice
    rw [charIndices, List.foldlM_nil, pure_eq_ok, ok_bind, splitEnd, splitOutsideFrom,
      List.append_nil, byteLength_append]
    simp only [hslice, ok_bind, pure_eq_ok]
  | cons c rest ih =>
    rw [charIndices, List.foldlM_cons, splitOutsideFrom]
    by_cases hc : c = separator ∧ depth = 0 ∧ !isOpening c ∧ !isClosing c
    · obtain ⟨rfl, h⟩ := hc
      have hnext := ih (before ++ (pending ++ [c])) [] (parts ++ [pending]) (depthAfter depth c)
      have hindex : byteLength before + byteLength pending + c.utf8Size =
          byteLength (before ++ (pending ++ [c])) + byteLength [] := by
        simp only [byteLength_append, byteLength]
        omega
      have htext : before ++ (pending ++ c :: rest) =
          before ++ (pending ++ [c]) ++ ([] ++ rest) := by simp
      let state : SplitState := ⟨parts, depth, byteLength before⟩
      have hstart : state.start = byteLength before := rfl
      rw [splitStep_separator h hstart, ok_bind, hindex, htext, hnext, if_pos ⟨rfl, h⟩]
      simp
    · have hnext := ih before (pending ++ [c]) parts (depthAfter depth c)
      have hindex : byteLength before + byteLength pending + c.utf8Size =
          byteLength before + byteLength (pending ++ [c]) := by
        simp only [byteLength_append, byteLength]
        omega
      have htext : before ++ (pending ++ c :: rest) = before ++ (pending ++ [c] ++ rest) := by simp
      rw [splitStep_of_not_separator hc, ok_bind, hindex, htext, hnext, if_neg hc]
      simp

/-- The slices are the parts of the text. -/
theorem splitOutsideAt_eq_ok (separator : Char) (s : Text) :
    splitOutsideAt separator s = .ok (splitOutside separator s) :=
  foldlM_splitStep [] [] s [] 0

end CallSchema.Text
