import CallSchema.Text.Cut
import CallSchema.TypeHint.Basic
import CallSchema.TypeHint.Brackets

/-!
# The kind that a type text means

A type text is reduced to the name of one type, which is then looked up. One round of the
reduction, `TypeHint.focus`, keeps the part before the first comma, chooses the first member of a
union that is not a null type, and removes a leading reference mark. If the result is a wrapper
such as `Optional[T]` or `Box<T>`, whose values are those of `T`, the reduction goes on with `T`.

## Main definitions

* `TypeHint.focus` -- one round of the reduction
* `TypeHint.unwrap?` -- the argument of a transparent wrapper
* `TypeHint.core` -- the text that is left when no wrapper is left
* `TypeHint.baseName` -- the lower-case name that decides the kind
* `TypeHint.kind?` -- the kind that a hint means
-/

namespace CallSchema.TypeHint

open Text

/-! ### Unions -/

/-- The text with each word `or` between single spaces written as a bar. -/
def barsForOr : Text → Text
  | ' ' :: 'o' :: 'r' :: ' ' :: s => '|' :: barsForOr s
  | c :: s => c :: barsForOr s
  | [] => []

/-- Whether a lower-case name stands for the absence of a value. -/
def isNullName (s : Text) : Bool :=
  ["none", "null", "nonetype"].contains (String.ofList s)

/-- The members of a union, trimmed. -/
def alternatives (s : Text) : List Text :=
  (splitOutside '|' (barsForOr s)).map trim

/-- The first member of a union that is not a null type, or the whole text when there is none. -/
def firstAlternative (s : Text) : Text :=
  ((alternatives s).find? (!isNullName ·)).getD s

/-! ### References and wrappers -/

/-- The text after a lifetime, or the text itself when it does not begin with one. -/
def afterLifetime (s : Text) : Text :=
  if s.head? = some '\'' then trimStart (s.dropWhile (!isBlank ·)) else s

/-- The text without a leading reference mark and the lifetime and `mut` that may follow it. -/
def withoutReference : Text → Text
  | '&' :: s =>
    let target := afterLifetime (trimStart s)
    trim ((after? "mut ".toList target).getD target)
  | s => s

/-- One round of the reduction of a type text. -/
def focus (s : Text) : Text :=
  withoutReference (firstAlternative (trim (firstOutside ',' s)))

/-- The last segment of a path. -/
def lastSegment (s : Text) : Text :=
  afterLast ['.'] (afterLast [':', ':'] s)

/-- The lower-case names of the wrappers whose values are those of their last argument. -/
def wrapperNames : List String :=
  ["optional", "option", "box", "rc", "arc", "cow"]

/-- The closing bracket that belongs to an opening one. -/
def closer (c : Char) : Char :=
  if c = '[' then ']' else '>'

/-- The last argument of a transparent wrapper, or `none` when the text is no such wrapper. -/
def unwrap? (s : Text) : Option Text :=
  match s.dropWhile fun c => !(c == '[' || c == '<') with
  | [] => none
  | bracket :: rest =>
    let wrapper := lastSegment (trim (s.takeWhile fun c => !(c == '[' || c == '<')))
    if wrapperNames.contains (String.ofList wrapper) ∧ rest.getLast? = some (closer bracket) then
      some (trim (lastOutside ',' rest.dropLast))
    else none

/-! ### No round makes the text longer -/

theorem barsForOr_length_le (s : Text) : (barsForOr s).length ≤ s.length := by
  fun_induction barsForOr s with
  | case1 s ih => simp only [List.length_cons]; omega
  | case2 c s _ ih => simp only [List.length_cons]; omega
  | case3 => simp

theorem firstAlternative_length_le (s : Text) : (firstAlternative s).length ≤ s.length := by
  unfold firstAlternative
  cases h : (alternatives s).find? (!isNullName ·) with
  | none => simp
  | some a =>
    obtain ⟨p, hp, rfl⟩ := List.mem_map.1 (List.mem_of_find?_eq_some h)
    calc (trim p).length ≤ p.length := trim_length_le p
      _ ≤ (barsForOr s).length := length_le_of_mem_splitOutside hp
      _ ≤ s.length := barsForOr_length_le s

theorem after?_length_le {lead s rest : Text} (h : after? lead s = some rest) :
    rest.length ≤ s.length := by
  rw [after?_eq_some_iff.1 h, List.length_append]
  exact Nat.le_add_left _ _

theorem afterLifetime_length_le (s : Text) : (afterLifetime s).length ≤ s.length := by
  unfold afterLifetime
  split
  · exact Nat.le_trans (trimStart_length_le _) (List.dropWhile_sublist _).length_le
  · exact Nat.le_refl _

theorem withoutReference_length_le (s : Text) : (withoutReference s).length ≤ s.length := by
  unfold withoutReference
  split
  · next s =>
    have htarget : (afterLifetime (trimStart s)).length ≤ s.length :=
      Nat.le_trans (afterLifetime_length_le _) (trimStart_length_le s)
    refine Nat.le_trans (trim_length_le _) (Nat.le_succ_of_le ?_)
    cases h : after? "mut ".toList (afterLifetime (trimStart s)) with
    | none => exact htarget
    | some rest => exact Nat.le_trans (after?_length_le h) htarget
  · exact Nat.le_refl _

theorem focus_length_le (s : Text) : (focus s).length ≤ s.length :=
  calc (focus s).length ≤ (firstAlternative (trim (firstOutside ',' s))).length :=
        withoutReference_length_le _
    _ ≤ (trim (firstOutside ',' s)).length := firstAlternative_length_le _
    _ ≤ (firstOutside ',' s).length := trim_length_le _
    _ ≤ s.length := firstOutside_length_le ',' s

/-- The argument of a wrapper is shorter than the wrapper by its two brackets at least. -/
theorem unwrap?_length_lt {s inner : Text} (h : unwrap? s = some inner) :
    inner.length + 2 ≤ s.length := by
  unfold unwrap? at h
  split at h
  · cases h
  · next bracket rest hdrop =>
    dsimp only at h
    split at h
    · next hc =>
      have hrest : rest ≠ [] := by rintro rfl; simp at hc
      have hs : (bracket :: rest).length ≤ s.length := by
        rw [← hdrop]; exact (List.dropWhile_sublist _).length_le
      have hpos : 0 < rest.length := List.length_pos_iff.2 hrest
      have hinner : (trim (lastOutside ',' rest.dropLast)).length ≤ rest.dropLast.length :=
        Nat.le_trans (trim_length_le _) (lastOutside_length_le ',' _)
      rw [List.length_dropLast] at hinner
      simp only [List.length_cons] at hs
      cases h
      omega
    · cases h

/-! ### The reduction and the look-up -/

/-- The text that is left when every transparent wrapper has been opened. -/
def core (s : Text) : Text :=
  match _h : unwrap? (focus s) with
  | some inner => core inner
  | none => focus s
termination_by s.length
decreasing_by
  have hinner := unwrap?_length_lt _h
  have hfocus := focus_length_le s
  omega

/-- The lower-case name that decides the kind of a type text: bracketed types are arrays, and the
    arguments of a generic type are dropped. -/
def baseName (s : Text) : String :=
  let text := core ((trim s).map Char.toLower)
  if text.head? = some '[' ∨ (text.head? = some '(' ∧ text ≠ ['(', ')']) then Kind.name .array
  else
    String.ofList (lastSegment (trim (text.takeWhile fun c => !(c == '[' || c == '<' || c == '('))))

/-- The kind that a hint means: strings for a closed set, otherwise the kind of its base name. -/
def kind? : TypeHint → Option Kind
  | literal _ => some .string
  | named text => Kind.ofName? (baseName text.toList)

@[simp] theorem kind?_literal (values : List String) : (literal values).kind? = some .string := rfl

end CallSchema.TypeHint
