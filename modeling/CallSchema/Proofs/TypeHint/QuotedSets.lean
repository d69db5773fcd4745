import CallSchema.Proofs.Text.Trim
import CallSchema.Proofs.TypeHint.Choices

/-!
# Closed sets as docstrings write them

A docstring writes a closed set as `Literal["a", 'b']`: its strings stand in quotation marks of
either sort, with commas between them. Every set that is written in this way is read with exactly
its strings, whatever they contain besides newlines and the marks they are written in.

## Main definitions

* `TypeHint.Unpaired` -- whether no quotation mark in a text has a partner
* `TypeHint.QuotedValue` -- a string in quotation marks
* `TypeHint.WrittenSet` -- a closed set as it is written

## Main statements

* `TypeHint.QuotedValue.quotedStrings_text_append` -- reading one string in front of any text
* `TypeHint.WrittenSet.ofText?_text` -- a written set is read with its strings
-/

namespace CallSchema.TypeHint

open Text

/-! ### Quoted strings in a text -/

/-- A string ends at the next mark of the sort that opened it. -/
theorem quotedStrings_quoted {mark : Char} (hmark : isQuote mark = true) {value : Text}
    (hvalue : mark ∉ value) (rest : Text) :
    quotedStrings (mark :: (value ++ mark :: rest)) = value :: quotedStrings rest := by
  have hcut : cut? mark (value ++ mark :: rest) = some (value, rest) :=
    cut?_eq_some_iff.2 ⟨rfl, hvalue⟩
  rw [quotedStrings, if_pos hmark]
  split
  · next found later heq =>
    rw [hcut] at heq
    cases heq
    rfl
  · next heq =>
    rw [hcut] at heq
    cases heq

/-- No quotation mark in `gap` has a partner, in the rest of `gap` or in the text `after` it. -/
def Unpaired : Text → Text → Prop
  | [], _ => True
  | c :: gap, after => (isQuote c = true → c ∉ gap ++ after) ∧ Unpaired gap after

theorem Unpaired.append {lead gap after : Text} (hlead : ∀ c ∈ lead, isQuote c = false)
    (h : Unpaired gap after) : Unpaired (lead ++ gap) after := by
  induction lead with
  | nil => exact h
  | cons c lead ih =>
    obtain ⟨hc, hlead⟩ := List.forall_mem_cons.1 hlead
    exact ⟨fun hquote => by simp [hc] at hquote, ih hlead⟩

theorem unpaired_of_forall {gap : Text} (h : ∀ c ∈ gap, isQuote c = false) (after : Text) :
    Unpaired gap after := by
  have hgap : Unpaired (gap ++ []) after := Unpaired.append h trivial
  rwa [List.append_nil] at hgap

/-- Text in which no quotation mark has a partner is passed over. -/
theorem quotedStrings_append_of_unpaired {gap after : Text} (h : Unpaired gap after) :
    quotedStrings (gap ++ after) = quotedStrings after := by
  induction gap with
  | nil => rfl
  | cons c gap ih =>
    obtain ⟨hc, hgap⟩ := h
    rw [List.cons_append, quotedStrings]
    split
    · next hquote =>
      split
      · next value rest hcut =>
        have hmem : c ∈ gap ++ after := by
          rw [(cut?_eq_some_iff.1 hcut).1]
          exact List.mem_append_right value List.mem_cons_self
        exact absurd hmem (hc hquote)
      · exact ih hgap
    · exact ih hgap

/-- Text without quotation marks is passed over. -/
theorem quotedStrings_append_of_forall {gap : Text} (h : ∀ c ∈ gap, isQuote c = false)
    (rest : Text) : quotedStrings (gap ++ rest) = quotedStrings rest :=
  quotedStrings_append_of_unpaired (unpaired_of_forall h rest)

/-- A string in quotation marks of a sort that does not occur in it. -/
structure QuotedValue where
  value : String
  mark : Char
  isQuote_mark : isQuote mark = true
  mark_notMem : mark ∉ value.toList
  newline_notMem : '\n' ∉ value.toList

namespace QuotedValue

def text (quoted : QuotedValue) : Text :=
  quoted.mark :: (quoted.value.toList ++ [quoted.mark])

theorem quotedStrings_text_append (quoted : QuotedValue) (rest : Text) :
    quotedStrings (quoted.text ++ rest) = quoted.value.toList :: quotedStrings rest := by
  rw [text, List.cons_append, List.append_assoc, List.singleton_append]
  exact quotedStrings_quoted quoted.isQuote_mark quoted.mark_notMem rest

theorem newline_notMem_text (quoted : QuotedValue) : '\n' ∉ quoted.text := by
  have hmark : '\n' ≠ quoted.mark := by
    intro h
    have hquote := quoted.isQuote_mark
    rw [← h] at hquote
    exact absurd hquote (by decide)
  simp [text, hmark, quoted.newline_notMem]

end QuotedValue

/-! ### Written sets -/

/-- A comma between two members, with spaces in front of it and behind it. -/
structure Comma where
  spacesBefore : Nat
  spacesAfter : Nat

def Comma.text (comma : Comma) : Text :=
  List.replicate comma.spacesBefore ' ' ++ ',' :: List.replicate comma.spacesAfter ' '

theorem Comma.mem_text {comma : Comma} {c : Char} (h : c ∈ comma.text) : c = ' ' ∨ c = ',' := by
  simp only [text, List.mem_append, List.mem_cons, List.mem_replicate] at h
  tauto

/-- A closed set as it is written: under one of its names and with at least one member. -/
structure WrittenSet where
  name : Text
  name_mem : name ∈ literalNames
  first : QuotedValue
  others : List (Comma × QuotedValue)

namespace WrittenSet

/-- The strings of the set, in the order in which they are written. -/
def values (written : WrittenSet) : List String :=
  written.first.value :: written.others.map fun member => member.2.value

/-- The members as they stand between the brackets. -/
def body (written : WrittenSet) : Text :=
  written.first.text ++ written.others.flatMap fun member => member.1.text ++ member.2.text

def text (written : WrittenSet) : Text :=
  written.name ++ '[' :: (written.body ++ [']'])

theorem quotedStrings_others (others : List (Comma × QuotedValue)) :
    quotedStrings (others.flatMap fun member => member.1.text ++ member.2.text) =
      others.map fun member => member.2.value.toList := by
  induction others with
  | nil => rw [List.flatMap_nil, quotedStrings, List.map_nil]
  | cons member others ih =>
    have hcomma : ∀ c ∈ member.1.text, isQuote c = false := by
      intro c hc
      obtain rfl | rfl := Comma.mem_text hc
      · decide
      · decide
    rw [List.flatMap_cons, List.append_assoc, quotedStrings_append_of_forall hcomma,
      QuotedValue.quotedStrings_text_append, ih, List.map_cons]

/-- The scan is back in step behind every member: it finds the strings of the set and no others. -/
theorem quotedStrings_body (written : WrittenSet) :
    quotedStrings written.body = written.values.map String.toList := by
  rw [body, QuotedValue.quotedStrings_text_append, quotedStrings_others, values, List.map_cons,
    List.map_map]
  rfl

theorem newline_notMem_body (written : WrittenSet) : '\n' ∉ written.body := by
  rw [body, List.mem_append, List.mem_flatMap]
  rintro (h | ⟨member, -, h⟩)
  · exact written.first.newline_notMem_text h
  · obtain h | h := List.mem_append.1 h
    · exact absurd (Comma.mem_text h) (by decide)
    · exact member.2.newline_notMem_text h

theorem literalBody?_text (written : WrittenSet) : literalBody? written.text = some written.body :=
  literalBody?_eq_some_iff.2 ⟨⟨written.name, written.name_mem, rfl⟩, written.newline_notMem_body⟩

theorem trim_text (written : WrittenSet) : trim written.text = written.text := by
  have hnames : ∀ name ∈ literalNames, trim name = name ∧ name ≠ [] := by decide
  obtain ⟨htrim, hne⟩ := hnames written.name written.name_mem
  have h := trim_append_append htrim (t := [']']) (by decide) hne (by decide) ('[' :: written.body)
  rwa [List.cons_append] at h

/-- **Written sets**: a closed set that is written with blanks around it is read with exactly its
    strings, in their order. -/
theorem ofText?_text (written : WrittenSet) {lead tail : Text} (hlead : allBlank lead = true)
    (htail : allBlank tail = true) :
    ofText? (lead ++ (written.text ++ tail)) = some (literal written.values) := by
  have htrim : trim (lead ++ (written.text ++ tail)) = written.text := by
    rw [trim_of_allBlank_append _ hlead, trim_append_of_allBlank _ htail, trim_text]
  have hne : ¬ written.text.isEmpty = true := by simp [text]
  have hvalues : (written.values.map String.toList).map String.ofList = written.values := by
    simp
  rw [ofText?, htrim, if_neg hne, literalBody?_text, Option.map_some, quotedStrings_body]
  show some (literal ((written.values.map String.toList).map String.ofList)) = _
  rw [hvalues]

/-- Strings with the other mark, with brackets and a comma, and without a character. -/
theorem ofText?_text_marks :
    allBlank "\t ".toList = true ∧ allBlank " \n".toList = true ∧
      ofText? "\t typing.Literal[\"it's\",'' ,   'a], [\"b'] \n".toList =
        some (literal ["it's", "", "a], [\"b"]) := by
  let written : WrittenSet :=
    { name := "typing.Literal".toList
      name_mem := by decide
      first := ⟨"it's", '"', by decide, by decide, by decide⟩
      others := [(⟨0, 0⟩, ⟨"", '\'', by decide, by decide, by decide⟩),
        (⟨1, 3⟩, ⟨"a], [\"b", '\'', by decide, by decide, by decide⟩)] }
  have htext : "\t typing.Literal[\"it's\",'' ,   'a], [\"b'] \n".toList =
      "\t ".toList ++ (written.text ++ " \n".toList) := by decide
  have hlead : allBlank "\t ".toList = true := by decide
  have htail : allBlank " \n".toList = true := by decide
  rw [htext]
  exact ⟨hlead, htail, written.ofText?_text hlead htail⟩

end WrittenSet

end CallSchema.TypeHint
