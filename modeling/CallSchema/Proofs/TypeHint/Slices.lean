import CallSchema.Proofs.Text.ByteSlices
import CallSchema.Proofs.TypeHint.Wrappers

/-!
# Reducing type texts by position

`TypeHint.core` takes a type text apart by its shape. The same can be done by position, in a loop of
which nothing is known beforehand: the parts between separators and the argument of a wrapper are
slices between bytes, and each round goes on with what the last one has left. For no text is a
position wrong, and as every round that goes on leaves a shorter text, the loop ends
(`TypeHint.reduction_without_fault`).

## Main definitions

* `TypeHint.focusAt`, `TypeHint.unwrapAt?` -- one round of the reduction
* `TypeHint.coreAt` -- what a limited number of rounds comes to
* `TypeHint.kindAt` -- the kind that a hint means, within a limited number of rounds
-/

namespace CallSchema.TypeHint

open Text Checked

/-- One round of the reduction of a type text. -/
def focusAt (s : Text) : Checked Text := do
  let arguments ← splitOutsideAt ',' s
  let first := trim (arguments.head?.getD s)
  let members ← splitOutsideAt '|' (barsForOr first)
  return withoutReference (((members.map trim).find? (!isNullName ·)).getD first)

/-- Whether a character opens the arguments of a wrapper. -/
def opensArguments (c : Char) : Bool :=
  c == '[' || c == '<'

/-- The last argument of a transparent wrapper: its name is the slice in front of the first bracket,
    and its arguments are the slice behind the bracket up to the last byte. -/
def unwrapAt? (s : Text) : Checked (Option Text) := do
  let some opening := findByte? opensArguments s | return none
  let bracket ← item (bytes s) opening
  let closing := if bracket = 0x5B then ']' else '>'
  let path ← sliceBytes 0 opening s
  if IsWrapperName path ∧ s.getLast? = some closing then
    let inner ← sliceBytes (opening + 1) (byteLength s - 1) s
    let arguments ← splitOutsideAt ',' inner
    return arguments.getLast?.map trim
  else return none

/-- The text that is left when every transparent wrapper has been opened, or `none` when the rounds
    do not suffice for that. -/
def coreAt : Nat → Text → Checked (Option Text)
  | 0, _ => .ok none
  | rounds + 1, s => do
    let text ← focusAt s
    match ← unwrapAt? text with
    | some inner => coreAt rounds inner
    | none => return some text

/-- The kind that a hint means, or `none` when the rounds do not suffice for its text. -/
def kindAt (rounds : Nat) : TypeHint → Checked (Option (Option Kind))
  | literal _ => .ok (some (some .string))
  | named text => do
    let some text ← coreAt rounds (lower (trim text.toList)) | return none
    return some (Kind.ofName? (outerName text))

/-! ### No position is wrong -/

theorem focusAt_eq_ok (s : Text) : focusAt s = .ok (focus s) := by
  have hfirst : (splitOutside ',' s).head?.getD s = firstOutside ',' s := by
    rw [List.head?_eq_some_head (splitOutside_ne_nil ',' s)]
    rfl
  simp only [focusAt, splitOutsideAt_eq_ok, ok_bind, hfirst]
  rfl

theorem opensArguments_eq_false_iff {c : Char} :
    opensArguments c = false ↔ c ≠ '[' ∧ c ≠ '<' := by
  rw [opensArguments, Bool.or_eq_false_iff, beq_eq_false_iff_ne, beq_eq_false_iff_ne]

/-- A text has no bracket that opens arguments, or there is a first one. -/
theorem opening_cases (s : Text) :
    (∀ c ∈ s, opensArguments c = false) ∨
      ∃ path b rest, s = path ++ Brackets.opening b :: rest ∧
        ∀ c ∈ path, opensArguments c = false := by
  induction s with
  | nil => exact .inl (List.forall_mem_nil _)
  | cons c s ih =>
    by_cases hc : opensArguments c = true
    · right
      simp only [opensArguments, Bool.or_eq_true, beq_iff_eq] at hc
      obtain rfl | rfl := hc
      · exact ⟨[], .square, s, rfl, List.forall_mem_nil _⟩
      · exact ⟨[], .angle, s, rfl, List.forall_mem_nil _⟩
    · rw [Bool.not_eq_true] at hc
      obtain hs | ⟨path, b, rest, rfl, hpath⟩ := ih
      · exact .inl (List.forall_mem_cons.2 ⟨hc, hs⟩)
      · exact .inr ⟨c :: path, b, rest, rfl, List.forall_mem_cons.2 ⟨hc, hpath⟩⟩

variable {path rest : Text} {b : Brackets}

/-- The bytes behind an opening bracket up to the last one are a part of the text, when the text
    ends with the closing bracket. -/
theorem sliceBytes_behind_opening (path : Text) (h : rest.getLast? = some b.closing) :
    sliceBytes (byteLength path + 1) (byteLength (path ++ b.opening :: rest) - 1)
      (path ++ b.opening :: rest) = .ok rest.dropLast := by
  obtain ⟨inner, rfl⟩ := List.getLast?_eq_some_iff.1 h
  have hopening : byteLength [b.opening] = 1 := by cases b <;> rfl
  have hclosing : byteLength [b.closing] = 1 := by cases b <;> rfl
  have hstart : byteLength path + 1 = byteLength (path ++ [b.opening]) := by
    rw [byteLength_append, hopening]
  have hstop : byteLength (path ++ b.opening :: (inner ++ [b.closing])) - 1 =
      byteLength (path ++ [b.opening]) + byteLength inner := by
    rw [← List.singleton_append (l := inner ++ _), byteLength_append, byteLength_append,
      byteLength_append, byteLength_append, hopening, hclosing]
    omega
  have hslice := sliceBytes_append (path ++ [b.opening]) inner [b.closing] hstart hstop
  rw [List.append_assoc, List.singleton_append] at hslice
  rw [List.dropLast_concat, hslice]

theorem unwrapAt?_eq_ok (s : Text) : unwrapAt? s = .ok (unwrap? s) := by
  obtain hs | ⟨path, b, rest, rfl, hpath⟩ := opening_cases s
  · rw [unwrapAt?, findByte?_eq_none hs,
      unwrap?_of_forall fun c hc => opensArguments_eq_false_iff.1 (hs c hc)]
    rfl
  · have hopening : opensArguments b.opening = true := by cases b <;> rfl
    have hbracket : item (bytes (path ++ b.opening :: rest)) (byteLength path) =
        .ok (if b = .square then 0x5B else 0x3C) := by
      cases b with
      | square => exact item_bytes_append path rest rfl
      | angle => exact item_bytes_append path rest rfl
    have hclosing : (if (if b = .square then (0x5B : UInt8) else 0x3C) = 0x5B then ']' else '>') =
        b.closing := by
      cases b <;> rfl
    have hname : sliceBytes 0 (byteLength path) (path ++ b.opening :: rest) = .ok path :=
      sliceBytes_append [] path (b.opening :: rest) rfl (Nat.zero_add _).symm
    have hlast : (path ++ b.opening :: rest).getLast? = some b.closing ↔
        rest.getLast? = some b.closing := by
      cases rest with
      | nil => cases b <;> simp [Brackets.opening, Brackets.closing]
      | cons c rest =>
        rw [List.getLast?_append_of_ne_nil _ (List.cons_ne_nil _ _), List.getLast?_cons_cons]
    rw [unwrapAt?, findByte?_append hopening hpath,
      unwrap?_append_of_forall fun c hc => opensArguments_eq_false_iff.1 (hpath c hc)]
    simp only [hbracket, hname, ok_bind, hclosing, hlast]
    split
    · next h =>
      have hlastOutside : (splitOutside ',' rest.dropLast).getLast?.map trim =
          some (trim (lastOutside ',' rest.dropLast)) := by
        rw [List.getLast?_eq_some_getLast (splitOutside_ne_nil ',' _)]
        rfl
      rw [sliceBytes_behind_opening path h.2, ok_bind, splitOutsideAt_eq_ok, ok_bind, hlastOutside]
      rfl
    · rfl

/-! ### Every round that goes on leaves a shorter text -/

theorem byteLength_barsForOr_le (s : Text) : byteLength (barsForOr s) ≤ byteLength s := by
  fun_induction barsForOr s with
  | case1 s ih =>
    have hword : byteLength (' ' :: 'o' :: 'r' :: ' ' :: s) = 4 + byteLength s :=
      byteLength_append [' ', 'o', 'r', ' '] s
    have hbar : byteLength ('|' :: barsForOr s) = 1 + byteLength (barsForOr s) := rfl
    omega
  | case2 c s _ ih =>
    rw [byteLength_cons, byteLength_cons]
    omega
  | case3 => exact Nat.le_refl _

theorem byteLength_firstAlternative_le (s : Text) :
    byteLength (firstAlternative s) ≤ byteLength s := by
  unfold firstAlternative
  cases h : (alternatives s).find? (!isNullName ·) with
  | none => exact Nat.le_refl _
  | some a =>
    obtain ⟨p, hp, rfl⟩ := List.mem_map.1 (List.mem_of_find?_eq_some h)
    calc byteLength (trim p)
      _ ≤ byteLength p := byteLength_le_of_sublist (trim_sublist p)
      _ ≤ byteLength (barsForOr s) := byteLength_le_of_sublist (sublist_of_mem_splitOutside hp)
      _ ≤ byteLength s := byteLength_barsForOr_le s

theorem withoutReference_sublist (s : Text) : (withoutReference s).Sublist s := by
  unfold withoutReference
  split
  · next s =>
    have hlifetime : (afterLifetime (trimStart s)).Sublist (trimStart s) := by
      unfold afterLifetime
      split
      · exact (List.dropWhile_sublist _).trans (List.dropWhile_sublist _)
      · exact List.Sublist.refl _
    have htarget := hlifetime.trans (List.dropWhile_sublist isBlank)
    exact (((trim_sublist _).trans (getD_after?_suffix _ _).sublist).trans htarget).cons '&'
  · exact List.Sublist.refl _

theorem byteLength_focus_le (s : Text) : byteLength (focus s) ≤ byteLength s :=
  calc byteLength (focus s)
    _ ≤ byteLength (firstAlternative (trim (firstOutside ',' s))) :=
      byteLength_le_of_sublist (withoutReference_sublist _)
    _ ≤ byteLength (trim (firstOutside ',' s)) := byteLength_firstAlternative_le _
    _ ≤ byteLength (firstOutside ',' s) := byteLength_le_of_sublist (trim_sublist _)
    _ ≤ byteLength s := byteLength_le_of_sublist (sublist_of_mem_splitOutside (List.head_mem _))

/-- The argument of a wrapper has fewer bytes than the wrapper. -/
theorem unwrap?_byteLength_lt {s inner : Text} (h : unwrap? s = some inner) :
    byteLength inner < byteLength s := by
  obtain hs | ⟨path, b, rest, rfl, hpath⟩ := opening_cases s
  · rw [unwrap?_of_forall fun c hc => opensArguments_eq_false_iff.1 (hs c hc)] at h
    cases h
  · rw [unwrap?_append_of_forall fun c hc => opensArguments_eq_false_iff.1 (hpath c hc)] at h
    split at h
    · obtain rfl := Option.some.inj h
      have hinner : (trim (lastOutside ',' rest.dropLast)).Sublist rest :=
        ((trim_sublist _).trans (sublist_of_mem_splitOutside (List.getLast_mem _))).trans
          (List.dropLast_sublist rest)
      have hle := byteLength_le_of_sublist hinner
      have hpos := b.opening.utf8Size_pos
      rw [byteLength_append, byteLength_cons]
      omega
    · cases h

/-- As many rounds as the text has characters, and one more, are enough to open every wrapper. -/
theorem coreAt_eq_ok {rounds : Nat} {s : Text} (h : s.length < rounds) :
    coreAt rounds s = .ok (some (core s)) := by
  induction rounds generalizing s with
  | zero => exact absurd h (Nat.not_lt_zero _)
  | succ rounds ih =>
    rw [coreAt, focusAt_eq_ok, ok_bind, unwrapAt?_eq_ok, ok_bind]
    cases hround : unwrap? (focus s) with
    | none => exact congrArg (Except.ok ∘ some) (core_of_unwrap?_eq_none hround).symm
    | some inner =>
      have hshorter := unwrap?_length_lt hround
      have hfocus := focus_length_le s
      rw [core_of_unwrap?_eq_some hround]
      exact ih (by omega)

/-- A wrapper whose bracket is not closed is what is left. -/
example : coreAt 2 "optional[é".toList = .ok (some "optional[é".toList) := by decide

theorem kindAt_eq_ok {rounds : Nat} {text : String} (h : text.toList.length < rounds) :
    kindAt rounds (named text) = .ok (some (named text).kind?) := by
  have hlower : (lower (trim text.toList)).length < rounds := by
    have htrim := trim_length_le text.toList
    rw [lower, List.length_map]
    omega
  rw [kindAt, coreAt_eq_ok hlower, kind?_named_eq_kindOf?]
  rfl

/-- **The reduction of every text**: no position is wrong, whatever the text is; the argument of a
    wrapper is what stands behind its opening bracket and in front of the last byte; a round that
    goes on leaves a shorter text, in bytes and in characters; and so every text comes to an end,
    with the kind that it means. -/
theorem reduction_without_fault :
    (∀ s, focusAt s = .ok (focus s) ∧ unwrapAt? s = .ok (unwrap? s)) ∧
    (∀ (path rest : Text) (b : Brackets), rest.getLast? = some b.closing →
      sliceBytes (byteLength path + 1) (byteLength (path ++ b.opening :: rest) - 1)
        (path ++ b.opening :: rest) = .ok rest.dropLast) ∧
    (∀ s text inner, focusAt s = .ok text → unwrapAt? text = .ok (some inner) →
      byteLength inner < byteLength s ∧ inner.length < s.length) ∧
    ∀ (text : String) (rounds : Nat), text.toList.length < rounds →
      kindAt rounds (named text) = .ok (some (named text).kind?) := by
  refine ⟨fun s => ⟨focusAt_eq_ok s, unwrapAt?_eq_ok s⟩, fun path rest b h =>
    sliceBytes_behind_opening path h, fun s text inner hfocus hunwrap => ?_, fun text rounds h =>
    kindAt_eq_ok h⟩
  obtain rfl := Except.ok.inj ((focusAt_eq_ok s).symm.trans hfocus)
  have hround := Except.ok.inj ((unwrapAt?_eq_ok _).symm.trans hunwrap)
  have hbytes := unwrap?_byteLength_lt hround
  have hbytes' := byteLength_focus_le s
  have hlength := unwrap?_length_lt hround
  have hlength' := focus_length_le s
  exact ⟨by omega, by omega⟩

/-- A wrapper in a wrapper, with a character of two bytes behind the first bracket. -/
theorem reduction_without_fault_nested :
    "é.box<int>]".toList.getLast? = some (Brackets.closing .square) ∧
      sliceBytes 9 20 "optional[é.box<int>]".toList = .ok "é.box<int>".toList ∧
      focusAt "optional[é.box<int>]".toList = .ok "optional[é.box<int>]".toList ∧
      unwrapAt? "optional[é.box<int>]".toList = .ok (some "é.box<int>".toList) ∧
      byteLength "é.box<int>".toList < byteLength "optional[é.box<int>]".toList ∧
      "Optional[é.Box<int>]".toList.length < 21 ∧
      kindAt 21 (named "Optional[é.Box<int>]") =
        .ok (some (named "Optional[é.Box<int>]").kind?) := by
  have hlast : "é.box<int>]".toList.getLast? = some (Brackets.closing .square) := by decide
  have hfocus : focusAt "optional[é.box<int>]".toList = .ok "optional[é.box<int>]".toList := by
    decide
  have hunwrap : unwrapAt? "optional[é.box<int>]".toList = .ok (some "é.box<int>".toList) := by
    decide
  have hrounds : "Optional[é.Box<int>]".toList.length < 21 := by decide
  obtain ⟨-, hslice, hround, hkind⟩ := reduction_without_fault
  have hinner := hslice "optional".toList "é.box<int>]".toList .square hlast
  have htext : "optional".toList ++ Brackets.opening .square :: "é.box<int>]".toList =
      "optional[é.box<int>]".toList := by decide
  have hstart : byteLength "optional".toList + 1 = 9 := by decide
  have hstop : byteLength "optional[é.box<int>]".toList - 1 = 20 := by decide
  have hdrop : "é.box<int>]".toList.dropLast = "é.box<int>".toList := by decide
  rw [htext, hstart, hstop, hdrop] at hinner
  exact ⟨hlast, hinner, hfocus, hunwrap, (hround _ _ _ hfocus hunwrap).1, hrounds,
    hkind _ _ hrounds⟩

end CallSchema.TypeHint
