import CallSchema.Proofs.Text.Cut
import CallSchema.Proofs.TypeHint.Balanced
import CallSchema.TypeHint.Written

/-!
# A remark outside of brackets and quotes

The remark that a value is optional belongs behind the type: behind the last comma that stands
outside of all brackets and quoted strings. `TypeHint.withoutOptional` looks behind the last comma
of all, wherever that one stands. In a text that leaves no bracket and no quoted string open the two
agree, unless the last comma stands inside and the text behind it, or the remark that is really
there, states a default.

## Main definitions

* `TypeHint.Nesting`, `TypeHint.nestingAfter` -- what a text leaves open
* `TypeHint.cutOutside?` -- the cut at the last comma outside of all brackets and quotes
* `TypeHint.withoutOuterRemark` -- a type text without the remark behind that comma
* `TypeHint.Misled` -- whether the last comma of all is the wrong place to look

## Main statements

* `TypeHint.cutOutside?_eq_some_iff`, `TypeHint.cutOutside?_eq_none_iff` -- where the cut is
* `TypeHint.withoutOptional_eq_withoutOuterRemark_iff` -- when the right text is left
-/

namespace CallSchema.TypeHint

open Text

/-! ### What is open in a text -/

/-- What is open at a place in a text: a quoted string, by the mark that opened it, and a number of
    brackets. -/
structure Nesting where
  quote : Option Char
  depth : Nat
deriving DecidableEq, Repr

namespace Nesting

/-- Nothing is open. -/
def outside : Nesting := ⟨none, 0⟩

/-- What is open after a character. A quotation mark opens a string or closes the one that a mark
    of the same sort opened; brackets count outside of strings only. -/
def next (n : Nesting) (c : Char) : Nesting :=
  if isQuote c then
    match n.quote with
    | none => ⟨some c, n.depth⟩
    | some mark => if c = mark then ⟨none, n.depth⟩ else n
  else
    match n.quote with
    | none => ⟨none, depthAfter n.depth c⟩
    | some _ => n

/-- A character that is neither a quotation mark nor a bracket. -/
def isPlain (c : Char) : Bool :=
  !isQuote c && !isOpening c && !isClosing c

theorem next_of_plain {c : Char} (h : isPlain c = true) (n : Nesting) : n.next c = n := by
  obtain ⟨⟨hquote, hopen⟩, hclose⟩ :
      (isQuote c = false ∧ isOpening c = false) ∧ isClosing c = false := by
    simpa [isPlain] using h
  obtain ⟨quote, depth⟩ := n
  rw [next, if_neg (by simp [hquote])]
  cases quote with
  | none => rw [depthAfter_of_plain hopen hclose]
  | some mark => rfl

theorem foldl_next_of_plain {s : Text} (h : ∀ c ∈ s, isPlain c = true) (n : Nesting) :
    s.foldl next n = n := by
  induction s generalizing n with
  | nil => rfl
  | cons c s ih =>
    obtain ⟨hc, hs⟩ := List.forall_mem_cons.1 h
    rw [List.foldl_cons, next_of_plain hc, ih hs]

end Nesting

open Nesting (outside)

/-- What a text leaves open. -/
def nestingAfter (s : Text) : Nesting :=
  s.foldl Nesting.next outside

/-- A comma leaves open what is open in front of it. -/
theorem nestingAfter_append_comma (s t : Text) :
    nestingAfter (s ++ ',' :: t) = t.foldl Nesting.next (nestingAfter s) := by
  rw [nestingAfter, List.foldl_append, List.foldl_cons, Nesting.next_of_plain (by decide),
    nestingAfter]

/-! ### The last comma outside -/

/-- What stands before and after the last comma outside of all brackets and quotes, in a text in
    front of which `n` is open. -/
def cutOutsideFrom? (n : Nesting) : Text → Option (Text × Text)
  | [] => none
  | c :: s =>
    match cutOutsideFrom? (n.next c) s with
    | some (before, rest) => some (c :: before, rest)
    | none => if c = ',' ∧ n = outside then some ([], s) else none

/-- What stands before and after the last comma outside of all brackets and quotes. -/
def cutOutside? (s : Text) : Option (Text × Text) :=
  cutOutsideFrom? outside s

/-- No comma stands outside of all brackets and quotes, in a text in front of which `n` is open. -/
def CommasInside (n : Nesting) (s : Text) : Prop :=
  ∀ before rest, s = before ++ ',' :: rest → before.foldl Nesting.next n ≠ outside

theorem commasInside_of_notMem {s : Text} (h : ',' ∉ s) (n : Nesting) : CommasInside n s := by
  rintro before rest rfl
  exact absurd (List.mem_append_right before List.mem_cons_self) h

theorem commasInside_cons_iff {n : Nesting} {c : Char} {s : Text} :
    CommasInside n (c :: s) ↔ ¬(c = ',' ∧ n = outside) ∧ CommasInside (n.next c) s := by
  constructor
  · intro h
    refine ⟨?_, ?_⟩
    · rintro ⟨rfl, hn⟩
      exact h [] s rfl hn
    · rintro before rest rfl
      exact h (c :: before) rest rfl
  · rintro ⟨hc, hs⟩ before rest heq
    cases before with
    | nil =>
      obtain ⟨rfl, -⟩ := List.cons.inj heq
      exact fun hn => hc ⟨rfl, hn⟩
    | cons d before =>
      obtain ⟨rfl, rfl⟩ := List.cons.inj heq
      exact hs before rest rfl

theorem cutOutsideFrom?_eq_none_iff {n : Nesting} {s : Text} :
    cutOutsideFrom? n s = none ↔ CommasInside n s := by
  induction s generalizing n with
  | nil => exact iff_of_true rfl fun before rest heq => by simp at heq
  | cons c s ih =>
    rw [commasInside_cons_iff, ← ih, cutOutsideFrom?]
    cases cutOutsideFrom? (n.next c) s with
    | none => simp
    | some parts => simp

theorem cutOutsideFrom?_append {n : Nesting} {before rest : Text}
    (hbefore : before.foldl Nesting.next n = outside) (hrest : CommasInside outside rest) :
    cutOutsideFrom? n (before ++ ',' :: rest) = some (before, rest) := by
  induction before generalizing n with
  | nil =>
    obtain rfl : n = outside := hbefore
    have hnext : outside.next ',' = outside := rfl
    rw [List.nil_append, cutOutsideFrom?, hnext, cutOutsideFrom?_eq_none_iff.2 hrest]
    rfl
  | cons c before ih => rw [List.cons_append, cutOutsideFrom?, ih hbefore]

theorem cutOutsideFrom?_eq_some_iff {n : Nesting} {s before rest : Text} :
    cutOutsideFrom? n s = some (before, rest) ↔
      s = before ++ ',' :: rest ∧ before.foldl Nesting.next n = outside ∧
        CommasInside outside rest := by
  constructor
  · intro h
    induction s generalizing n before with
    | nil => cases h
    | cons c s ih =>
      rw [cutOutsideFrom?] at h
      split at h
      · next b r hs =>
        cases h
        obtain ⟨rfl, hn, hrest⟩ := ih hs
        exact ⟨rfl, hn, hrest⟩
      · next hs =>
        split at h
        · next hc =>
          cases h
          obtain ⟨rfl, rfl⟩ := hc
          exact ⟨rfl, rfl, cutOutsideFrom?_eq_none_iff.1 hs⟩
        · cases h
  · rintro ⟨rfl, hn, hrest⟩
    exact cutOutsideFrom?_append hn hrest

/-- The cut is at a comma outside of all brackets and quotes that no other such comma follows. -/
theorem cutOutside?_eq_some_iff {s before rest : Text} :
    cutOutside? s = some (before, rest) ↔
      s = before ++ ',' :: rest ∧ nestingAfter before = outside ∧ CommasInside outside rest :=
  cutOutsideFrom?_eq_some_iff

/-- Exactly a text with a comma outside of all brackets and quotes is cut. -/
theorem cutOutside?_eq_none_iff {s : Text} : cutOutside? s = none ↔ CommasInside outside s :=
  cutOutsideFrom?_eq_none_iff

/-! ### Remarks -/

/-- The trimmed type text without a remark behind the last comma that is outside of all brackets
    and quotes. -/
def withoutOuterRemark (s : Text) : Text :=
  match cutOutside? (trim s) with
  | some (text, remark) => if isOptionalRemark remark then trimEnd text else trim s
  | none => trim s

/-- Whether a text behind a comma states a default. -/
def isDefaultRemark (s : Text) : Bool :=
  (after? "default".toList (trim s)).isSome

/-- The last comma stands inside of brackets or quotes, and a default is stated behind it or behind
    the last comma outside of them. -/
def Misled (t : Text) : Prop :=
  ∃ before rest, cutLast? (· == ',') t = some (before, rest) ∧ nestingAfter before ≠ outside ∧
    (isDefaultRemark rest = true ∨
      ∃ text remark, cutOutside? t = some (text, remark) ∧ isDefaultRemark remark = true)

/-- A remark with a character that is not blank and not in the word `optional` states a default. -/
theorem isOptionalRemark_eq_of_mem {s : Text} {c : Char} (hc : c ∈ s) (hblank : isBlank c = false)
    (hne : c ∉ "optional".toList) : isOptionalRemark s = isDefaultRemark s := by
  have hword : (trim s == "optional".toList) = false := by
    rw [beq_eq_false_iff_ne]
    intro heq
    obtain hb | hmem := isBlank_or_mem_trim hc
    · rw [hblank] at hb
      cases hb
    · exact hne (heq ▸ hmem)
  rw [isOptionalRemark, isDefaultRemark, hword, Bool.false_or]

/-- Behind a comma that stands inside, something is closed. -/
theorem exists_not_isPlain {before rest : Text}
    (hclosed : nestingAfter (before ++ ',' :: rest) = outside)
    (hinside : nestingAfter before ≠ outside) : ∃ c ∈ rest, Nesting.isPlain c = false := by
  by_contra hnot
  have hplain : ∀ c ∈ rest, Nesting.isPlain c = true := fun c hc => by
    by_contra hc'
    exact hnot ⟨c, hc, Bool.eq_false_iff.2 hc'⟩
  rw [nestingAfter_append_comma, Nesting.foldl_next_of_plain hplain] at hclosed
  exact hinside hclosed

/-- Quotation marks and brackets are no blanks and no letters. -/
theorem not_blank_of_not_isPlain {c : Char} (h : Nesting.isPlain c = false) :
    isBlank c = false ∧ c ∉ "optional".toList := by
  have hmark : c = '"' ∨ c = '\'' ∨ c = '[' ∨ c = '<' ∨ c = '(' ∨ c = ']' ∨ c = '>' ∨ c = ')' := by
    simp only [Nesting.isPlain, isQuote, isOpening, isClosing] at h
    grind
  rcases hmark with rfl | rfl | rfl | rfl | rfl | rfl | rfl | rfl <;> decide

/-- Behind a comma that stands inside, only a default makes a remark. -/
theorem isOptionalRemark_inside {before rest : Text}
    (hclosed : nestingAfter (before ++ ',' :: rest) = outside)
    (hinside : nestingAfter before ≠ outside) : isOptionalRemark rest = isDefaultRemark rest := by
  obtain ⟨c, hc, hplain⟩ := exists_not_isPlain hclosed hinside
  obtain ⟨hblank, hne⟩ := not_blank_of_not_isPlain hplain
  exact isOptionalRemark_eq_of_mem hc hblank hne

theorem trimEnd_ne_append_cons {s : Text} (c : Char) (t : Text) : trimEnd s ≠ s ++ c :: t := by
  intro heq
  have hle := trimEnd_length_le s
  rw [heq, List.length_append, List.length_cons] at hle
  omega

/-- A comma is not trimmed away, so that more is left in front of a later one. -/
theorem trimEnd_append_comma_ne {s : Text} (t : Text) : trimEnd (s ++ ',' :: t) ≠ trimEnd s := by
  have hblank : allBlank (',' :: t) = false := by
    rw [allBlank_cons]
    rfl
  have hne : trimEnd (',' :: t) ≠ [] := fun hnil => by
    rw [trimEnd_eq_nil_iff.1 hnil] at hblank
    cases hblank
  obtain ⟨c, rest, hcons⟩ := List.exists_cons_of_ne_nil hne
  rw [trimEnd_append_of_not_allBlank s hblank, hcons]
  exact (trimEnd_ne_append_cons c rest).symm

/-- The last comma of all stands behind the last one outside, when it is another one. -/
theorem exists_of_cutOutside? {before rest text remark : Text} (hrest : ',' ∉ rest)
    (hinside : nestingAfter before ≠ outside)
    (houter : cutOutside? (before ++ ',' :: rest) = some (text, remark)) :
    ∃ between, before = text ++ ',' :: between ∧ remark = between ++ ',' :: rest := by
  obtain ⟨heq, htext, -⟩ := cutOutside?_eq_some_iff.1 houter
  rcases List.append_eq_append_iff.1 heq with ⟨between, htail, hhead⟩ | ⟨between, hhead, htail⟩
  · cases between with
    | nil =>
      rw [List.append_nil] at htail
      exact absurd (htail ▸ htext) hinside
    | cons c between =>
      obtain ⟨-, rfl⟩ := List.cons.inj hhead
      exact absurd (List.mem_append_right between List.mem_cons_self) hrest
  · cases between with
    | nil =>
      rw [List.append_nil] at hhead
      exact absurd (hhead ▸ htext) hinside
    | cons c between =>
      obtain ⟨rfl, rfl⟩ := List.cons.inj htail
      exact ⟨between, hhead, rfl⟩

theorem misled_iff {t before rest : Text} (hcut : cutLast? (· == ',') t = some (before, rest)) :
    Misled t ↔ nestingAfter before ≠ outside ∧
      (isDefaultRemark rest = true ∨
        ∃ text remark, cutOutside? t = some (text, remark) ∧ isDefaultRemark remark = true) := by
  constructor
  · rintro ⟨before', rest', hcut', hmisled⟩
    cases hcut.symm.trans hcut'
    exact hmisled
  · exact fun hmisled => ⟨before, rest, hcut, hmisled⟩

/-- Where the last comma stands inside, what is left is right when no default is stated, neither
    behind it nor behind the last comma outside. -/
theorem withoutOptional_inside_iff {s before rest : Text}
    (hcut : cutLast? (· == ',') (trim s) = some (before, rest))
    (htext : trim s = before ++ ',' :: rest) (hrest : ',' ∉ rest)
    (hclosed : nestingAfter (trim s) = outside) (hinside : nestingAfter before ≠ outside) :
    withoutOptional s = withoutOuterRemark s ↔
      ¬(isDefaultRemark rest = true ∨
        ∃ text remark, cutOutside? (trim s) = some (text, remark) ∧
          isDefaultRemark remark = true) := by
  have hdefault := isOptionalRemark_inside (htext ▸ hclosed) hinside
  have hlong : trimEnd before ≠ trim s := by
    rw [htext]
    exact trimEnd_ne_append_cons ',' rest
  rw [withoutOptional, hcut, withoutOuterRemark]
  simp only [hdefault]
  cases houter : cutOutside? (trim s) with
  | none =>
    by_cases hd : isDefaultRemark rest = true
    · simp [hd, hlong]
    · simp [hd]
  | some outer =>
    obtain ⟨text, remark⟩ := outer
    obtain ⟨between, hbefore, hremark⟩ := exists_of_cutOutside? hrest hinside (htext ▸ houter)
    have houterDefault : isOptionalRemark remark = isDefaultRemark remark := by
      have hmem : ',' ∈ remark := hremark ▸ List.mem_append_right between List.mem_cons_self
      exact isOptionalRemark_eq_of_mem hmem (by decide) (by decide)
    have hshort : trim s ≠ trimEnd text := by
      rw [(cutOutside?_eq_some_iff.1 houter).1]
      exact (trimEnd_ne_append_cons ',' remark).symm
    have hdiffer : trimEnd before ≠ trimEnd text := by
      rw [hbefore]
      exact trimEnd_append_comma_ne between
    -- the whole text and what stands in front of either comma are three different texts
    simp only [houterDefault]
    by_cases hd : isDefaultRemark rest = true
    · by_cases ho : isDefaultRemark remark = true
      · simp [hd, ho, hdiffer]
      · simp [hd, ho, hlong]
    · by_cases ho : isDefaultRemark remark = true
      · simp [hd, ho, hshort]
      · simp [hd, ho]

/-- **The remark is looked for outside of brackets and quotes**, in a text that leaves none open,
    exactly when the last comma of all does not mislead. -/
theorem withoutOptional_eq_withoutOuterRemark_iff {s : Text}
    (hclosed : nestingAfter (trim s) = outside) :
    withoutOptional s = withoutOuterRemark s ↔ ¬Misled (trim s) := by
  cases hcut : cutLast? (· == ',') (trim s) with
  | none =>
    have hcomma : ',' ∉ trim s := fun hmem => by
      simpa using cutLast?_eq_none_iff.1 hcut ',' hmem
    have houter := cutOutside?_eq_none_iff.2 (commasInside_of_notMem hcomma outside)
    refine iff_of_true ?_ ?_
    · rw [withoutOptional, hcut, withoutOuterRemark, houter]
    · rintro ⟨before, rest, hsome, -⟩
      rw [hcut] at hsome
      cases hsome
  | some parts =>
    obtain ⟨before, rest⟩ := parts
    obtain ⟨c, hc, htext, hlast⟩ := cutLast?_eq_some_iff.1 hcut
    obtain rfl : c = ',' := by simpa using hc
    have hrest : ',' ∉ rest := fun hmem => by simpa using hlast ',' hmem
    rw [misled_iff hcut]
    by_cases hinside : nestingAfter before = outside
    · -- the last comma of all stands outside
      have houter : cutOutside? (trim s) = some (before, rest) :=
        cutOutside?_eq_some_iff.2 ⟨htext, hinside, commasInside_of_notMem hrest outside⟩
      refine iff_of_true ?_ fun hmisled => hmisled.1 hinside
      rw [withoutOptional, hcut, withoutOuterRemark, houter]
    · rw [withoutOptional_inside_iff hcut htext hrest hclosed hinside, and_iff_right hinside]

/-- A value in quotes is cut where it goes on with a word that begins as `default` does. -/
theorem withoutOptional_eq_withoutOuterRemark_iff_mode :
    nestingAfter (trim "Literal[\"low\", \"high,default\"]".toList) = outside ∧
      withoutOptional "Literal[\"low\", \"high,default\"]".toList ≠
        withoutOuterRemark "Literal[\"low\", \"high,default\"]".toList ∧
      withoutOptional "dict[str, int], default None".toList =
        withoutOuterRemark "dict[str, int], default None".toList := by
  have hquoted : nestingAfter (trim "Literal[\"low\", \"high,default\"]".toList) = outside := by
    decide
  have hplain : nestingAfter (trim "dict[str, int], default None".toList) = outside := by decide
  refine ⟨hquoted, fun heq => ?_, ?_⟩
  · refine (withoutOptional_eq_withoutOuterRemark_iff hquoted).1 heq ?_
    exact ⟨"Literal[\"low\", \"high".toList, "default\"]".toList, by decide, by decide,
      .inl (by decide)⟩
  · refine (withoutOptional_eq_withoutOuterRemark_iff hplain).2 ?_
    rintro ⟨before, rest, hcut, hinside, -⟩
    have hlast : cutLast? (· == ',') (trim "dict[str, int], default None".toList) =
        some ("dict[str, int]".toList, " default None".toList) := by decide
    cases hlast.symm.trans hcut
    exact hinside (by decide)

end CallSchema.TypeHint
