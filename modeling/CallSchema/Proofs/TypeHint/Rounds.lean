import CallSchema.Proofs.Text.Cut
import CallSchema.Proofs.TypeHint.Bars

/-!
# Rounds of the reduction

What one round of the reduction makes of a text decides the kind that the text means. For a text
without commas outside of brackets this comes down to its first member that is no null type.

## Main definitions

* `TypeHint.outerName` -- the name in front of the first bracket
* `TypeHint.kindOf?` -- the kind that a text in lower case means
-/

namespace CallSchema.TypeHint

open Text

/-! ### From round to round -/

theorem core_of_unwrap?_eq_none {s : Text} (h : unwrap? (focus s) = none) : core s = focus s := by
  rw [core]
  split
  · next inner hinner =>
    rw [h] at hinner
    cases hinner
  · rfl

theorem core_of_unwrap?_eq_some {s inner : Text} (h : unwrap? (focus s) = some inner) :
    core s = core inner := by
  rw [core]
  split
  · next other hother =>
    rw [h] at hother
    rw [Option.some.inj hother]
  · next hnone =>
    rw [h] at hnone
    cases hnone

/-- The reduction depends on the text only through its first round. -/
theorem core_congr {s t : Text} (h : focus s = focus t) : core s = core t := by
  cases ht : unwrap? (focus t) with
  | none =>
    have hs : unwrap? (focus s) = none := by rw [h, ht]
    rw [core_of_unwrap?_eq_none hs, core_of_unwrap?_eq_none ht, h]
  | some inner =>
    have hs : unwrap? (focus s) = some inner := by rw [h, ht]
    rw [core_of_unwrap?_eq_some hs, core_of_unwrap?_eq_some ht]

/-- The name in front of the first bracket of a text, which decides the kind when no wrapper is
    left. -/
def outerName (text : Text) : String :=
  if text.head? = some '[' ∨ (text.head? = some '(' ∧ text ≠ ['(', ')']) then Kind.name .array
  else
    String.ofList (lastSegment (trim (text.takeWhile fun c => !(c == '[' || c == '<' || c == '('))))

theorem baseName_eq_outerName (s : Text) :
    baseName s = outerName (core ((trim s).map Char.toLower)) := rfl

/-- The kind that a text in lower case means. -/
def kindOf? (s : Text) : Option Kind :=
  Kind.ofName? (outerName (core s))

theorem kind?_named_eq_kindOf? (text : String) :
    (named text).kind? = kindOf? (lower (trim text.toList)) := rfl

theorem kindOf?_congr {s t : Text} (h : focus s = focus t) : kindOf? s = kindOf? t := by
  rw [kindOf?, core_congr h, kindOf?]

theorem kindOf?_of_unwrap?_eq_some {s inner : Text} (h : unwrap? (focus s) = some inner) :
    kindOf? s = kindOf? inner := by
  rw [kindOf?, core_of_unwrap?_eq_some h, kindOf?]

theorem kindOf?_of_unwrap?_eq_none {s : Text} (h : unwrap? (focus s) = none) :
    kindOf? s = Kind.ofName? (outerName (focus s)) := by
  rw [kindOf?, core_of_unwrap?_eq_none h]

/-- A text without commas outside of brackets is reduced to its first member that is no null
    type. -/
theorem focus_of_unsplit {s : Text} (htrim : trim s = s) (hcomma : Unsplit ',' s) :
    focus s = withoutReference (firstAlternative s) := by
  have hfirst : firstOutside ',' s = s := by
    simp only [firstOutside, hcomma.splitOutside_eq, List.head_cons]
  rw [focus, hfirst, htrim]

/-! ### Texts without anything to reduce -/

theorem withoutReference_of_head?_ne {s : Text} (h : s.head? ≠ some '&') :
    withoutReference s = s := by
  cases s with
  | nil => rfl
  | cons c s =>
    rw [withoutReference]
    rintro rest heq
    obtain rfl := (List.cons.inj heq).1
    exact h rfl

theorem unwrap?_of_forall {s : Text} (h : ∀ c ∈ s, c ≠ '[' ∧ c ≠ '<') : unwrap? s = none := by
  have hdrop : s.dropWhile (fun c => !(c == '[' || c == '<')) = [] := by
    rw [List.dropWhile_eq_nil_iff]
    intro c hc
    simp [h c hc]
  rw [unwrap?, hdrop]

/-- A wrapper ends with a closing bracket. -/
theorem unwrap?_eq_none {s : Text} (h : ∀ c, s.getLast? = some c → c ≠ ']' ∧ c ≠ '>') :
    unwrap? s = none := by
  rw [unwrap?]
  split
  · rfl
  · next bracket rest hdrop =>
    apply if_neg
    rintro ⟨-, hlast⟩
    have hsuffix : bracket :: rest <:+ s := by
      rw [← hdrop]
      exact List.dropWhile_suffix _
    obtain ⟨lead, rfl⟩ := hsuffix
    have hne : rest ≠ [] := by
      rintro rfl
      cases hlast
    obtain ⟨hsquare, hangle⟩ : closer bracket ≠ ']' ∧ closer bracket ≠ '>' := by
      apply h
      rw [List.getLast?_append_of_ne_nil _ (List.cons_ne_nil _ _),
        ← List.singleton_append, List.getLast?_append_of_ne_nil _ hne, hlast]
    rw [closer] at hsquare hangle
    split at hsquare
    · exact hsquare rfl
    · next hbracket => exact hangle (if_neg hbracket)

theorem afterLast_of_not_mem {mark : Char} {marks s : Text} (h : mark ∉ s) :
    afterLast (mark :: marks) s = s := by
  have hnone : ∀ t : Text, mark ∉ t → afterLast? (mark :: marks) t = none := by
    intro t
    induction t with
    | nil => intro _; rfl
    | cons c t ih =>
      intro ht
      rw [List.mem_cons, not_or] at ht
      rw [afterLast?, ih ht.2, after?, if_neg ht.1]
  rw [afterLast, hnone s h, Option.getD_none]

theorem lastSegment_of_not_mem {s : Text} (hcolon : ':' ∉ s) (hdot : '.' ∉ s) :
    lastSegment s = s := by
  rw [lastSegment, afterLast_of_not_mem hcolon, afterLast_of_not_mem hdot]

/-- No opening bracket stands in the text. -/
def NoOpening (s : Text) : Prop :=
  ∀ c ∈ s, isOpening c = false

/-- The text in front of the first bracket is the name. -/
theorem outerName_append {s t : Text} (hs : NoOpening s) (hne : t ≠ [] → s ≠ [])
    (ht : ∀ c, t.head? = some c → isOpening c = true) :
    outerName (s ++ t) = String.ofList (lastSegment (trim s)) := by
  have hhead : ∀ c, isOpening c = true → (s ++ t).head? ≠ some c := by
    intro c hc hhead
    cases s with
    | nil => exact hne (List.ne_nil_of_mem (List.mem_of_mem_head? hhead)) rfl
    | cons d s =>
      have hd := hs d List.mem_cons_self
      rw [Option.some.inj hhead, hc] at hd
      cases hd
  have hname :
      ¬((s ++ t).head? = some '[' ∨ ((s ++ t).head? = some '(' ∧ s ++ t ≠ ['(', ')'])) := by
    rintro (hc | ⟨hc, -⟩)
    · exact hhead '[' rfl hc
    · exact hhead '(' rfl hc
  have htake : (s ++ t).takeWhile (fun c => !(c == '[' || c == '<' || c == '(')) = s := by
    show (s ++ t).takeWhile (fun c => !isOpening c) = s
    rw [List.takeWhile_append_of_pos fun c hc => by rw [hs c hc]; rfl]
    cases t with
    | nil => simp
    | cons c t => simp [ht c rfl]
  rw [outerName, if_neg hname, htake]

theorem outerName_append_cons {s : Text} (hs : NoOpening s) (hne : s ≠ []) {opening : Char}
    (hopen : isOpening opening = true) (t : Text) :
    outerName (s ++ opening :: t) = String.ofList (lastSegment (trim s)) := by
  refine outerName_append hs (fun _ => hne) fun c hc => ?_
  rwa [← Option.some.inj hc]

theorem outerName_of_noOpening {s : Text} (h : NoOpening s) :
    outerName s = String.ofList (lastSegment (trim s)) := by
  have hname := outerName_append h (absurd rfl) (t := []) nofun
  rwa [List.append_nil] at hname

/-! ### Null types -/

theorem find?_not_isNullName_eq_none_iff {members : List Text} :
    members.find? (!isNullName ·) = none ↔ ∀ a ∈ members, isNullName a = true := by
  rw [List.find?_eq_none]
  exact forall₂_congr fun a _ => by simp

/-- The characters of unions of null types, apart from blanks. -/
def nullCharacters : Text :=
  "none|null|nonetype or".toList

theorem mem_nullCharacters_of_isNullName {s : Text} (h : isNullName s = true) {c : Char}
    (hc : c ∈ s) : c ∈ nullCharacters := by
  have hnames : ∀ name ∈ ["none", "null", "nonetype"], ∀ c ∈ name.toList, c ∈ nullCharacters := by
    decide
  rw [isNullName, List.contains_iff_mem] at h
  refine hnames _ h c ?_
  rw [String.toList_ofList]
  exact hc

theorem isBlank_or_mem_nullCharacters {s : Text} (h : ∀ a ∈ alternatives s, isNullName a = true)
    {c : Char} (hc : c ∈ s) : isBlank c = true ∨ c ∈ nullCharacters := by
  obtain hword | hc := mem_barsForOr hc
  · have hchars : ∀ d ∈ orWord, isBlank d = true ∨ d ∈ nullCharacters := by decide
    exact hchars c hword
  obtain rfl | ⟨p, hp, hc⟩ := mem_splitOutside '|' hc
  · exact .inr (by decide)
  · obtain hblank | hc := isBlank_or_mem_trim hc
    · exact .inl hblank
    · exact .inr (mem_nullCharacters_of_isNullName (h _ (List.mem_map_of_mem hp)) hc)

/-- No name of a kind is a union of null types. -/
theorem exists_not_isNullName {s : Text} {k : Kind}
    (h : Kind.ofName? (String.ofList s) = some k) :
    ∃ a ∈ alternatives s, isNullName a = false := by
  have hnames : ∀ k ∈ Kind.all, ∀ name ∈ k.typeNames,
      (alternatives name.toList).any (fun a => !isNullName a) = true := by
    decide +kernel
  have hname := List.find?_some h
  rw [decide_eq_true_eq] at hname
  have hany := hnames k k.mem_all _ hname
  rw [String.toList_ofList, List.any_eq_true] at hany
  simpa using hany

/-- A union of null types has no kind. -/
theorem kindOf?_eq_none {s : Text} (htrim : trim s = s) (hcomma : Unsplit ',' s)
    (h : ∀ a ∈ alternatives s, isNullName a = true) : kindOf? s = none := by
  -- nothing in the text can be reduced, so that the text itself is looked up
  have hplain : ∀ c ∈ s, c ∉ "[<(&:.".toList := by
    intro c hc hmem
    have hspecial : ∀ d ∈ "[<(&:.".toList, isBlank d = false ∧ d ∉ nullCharacters := by decide
    obtain ⟨hblank, hnull⟩ := hspecial c hmem
    obtain hc | hc := isBlank_or_mem_nullCharacters h hc
    · rw [hblank] at hc
      cases hc
    · exact hnull hc
  have hfirst : firstAlternative s = s := by
    rw [firstAlternative, find?_not_isNullName_eq_none_iff.2 h, Option.getD_none]
  have hhead : s.head? ≠ some '&' := fun hc =>
    hplain '&' (List.mem_of_mem_head? hc) (by decide)
  have hfocus : focus s = s := by
    rw [focus_of_unsplit htrim hcomma, hfirst, withoutReference_of_head?_ne hhead]
  have hunwrap : unwrap? s = none := by
    refine unwrap?_of_forall fun c hc => ⟨?_, ?_⟩
    · rintro rfl
      exact hplain '[' hc (by decide)
    · rintro rfl
      exact hplain '<' hc (by decide)
  have hopen : NoOpening s := by
    intro c hc
    by_contra hnot
    rw [Bool.not_eq_false, isOpening, Bool.or_eq_true, Bool.or_eq_true] at hnot
    simp only [beq_iff_eq] at hnot
    obtain (rfl | rfl) | rfl := hnot
    · exact hplain '[' hc (by decide)
    · exact hplain '<' hc (by decide)
    · exact hplain '(' hc (by decide)
  have hname : outerName s = String.ofList s := by
    rw [outerName_of_noOpening hopen, htrim,
      lastSegment_of_not_mem (fun hc => hplain ':' hc (by decide)) fun hc =>
        hplain '.' hc (by decide)]
  rw [kindOf?_of_unwrap?_eq_none (by rw [hfocus, hunwrap]), hfocus, hname]
  cases hkind : Kind.ofName? (String.ofList s) with
  | none => rfl
  | some k =>
    obtain ⟨a, ha, hnot⟩ := exists_not_isNullName hkind
    rw [h a ha] at hnot
    cases hnot

/-- The only member of a union is chosen, with its words written as bars. -/
theorem firstAlternative_of_singleton {s : Text} (h : alternatives s = [barsForOr s]) :
    firstAlternative s = barsForOr s := by
  rw [firstAlternative, h]
  cases hnull : isNullName (barsForOr s) with
  | false => rw [List.find?_cons_of_pos (by simp [hnull]), Option.getD_some]
  | true =>
    -- a null type has no bars, so that none was written
    have hbar : '|' ∉ barsForOr s := by
      have hnames : ∀ name ∈ ["none", "null", "nonetype"], '|' ∉ name.toList := by decide
      rw [isNullName, List.contains_iff_mem] at hnull
      have hmem := hnames _ hnull
      rwa [String.toList_ofList] at hmem
    rw [List.find?_cons_of_neg (by simp [hnull]), List.find?_nil, Option.getD_none,
      barsForOr_eq_self hbar]

/-! ### Type texts -/

/-- A trimmed text whose brackets are balanced and that has no comma outside of them. -/
structure IsTypeText (s : Text) : Prop where
  trimmed : trim s = s
  balanced : Balanced s
  unsplit : Unsplit ',' s

theorem IsTypeText.lower {s : Text} (h : IsTypeText s) : IsTypeText (lower s) where
  trimmed := trim_map_toLower h.trimmed
  balanced := balanced_lower_iff.2 h.balanced
  unsplit := unsplit_comma_lower h.unsplit

theorem IsTypeText.barsForOr {s : Text} (h : IsTypeText s) : IsTypeText (barsForOr s) where
  trimmed := trim_barsForOr h.trimmed
  balanced := balanced_barsForOr_iff.2 h.balanced
  unsplit := unsplit_comma_barsForOr h.unsplit

/-- The kind depends on the first member that is no null type. -/
theorem kindOf?_congr_find? {s t : Text} (hs : IsTypeText s) (ht : IsTypeText t)
    (h : (alternatives s).find? (!isNullName ·) = (alternatives t).find? (!isNullName ·)) :
    kindOf? s = kindOf? t := by
  cases hfind : (alternatives t).find? (!isNullName ·) with
  | none =>
    rw [hfind, find?_not_isNullName_eq_none_iff] at h
    rw [find?_not_isNullName_eq_none_iff] at hfind
    rw [kindOf?_eq_none hs.trimmed hs.unsplit h, kindOf?_eq_none ht.trimmed ht.unsplit hfind]
  | some a =>
    apply kindOf?_congr
    rw [focus_of_unsplit hs.trimmed hs.unsplit, focus_of_unsplit ht.trimmed ht.unsplit,
      firstAlternative, firstAlternative, h, hfind, Option.getD_some, Option.getD_some]

theorem kindOf?_barsForOr {s : Text} (h : IsTypeText s) : kindOf? (barsForOr s) = kindOf? s :=
  kindOf?_congr_find? h.barsForOr h (by rw [alternatives_barsForOr])

/-- What stands behind a comma outside of brackets does not count. -/
theorem kindOf?_append_comma {s : Text} (h : Balanced s) (t : Text) :
    kindOf? (s ++ ',' :: t) = kindOf? s := by
  have hfirst : firstOutside ',' (s ++ ',' :: t) = firstOutside ',' s := by
    have hsplit : splitOutside ',' (s ++ ',' :: t) = splitOutside ',' s ++ splitOutside ',' t :=
      splitOutside_append_cons h rfl rfl t
    simp only [firstOutside, hsplit, List.head_append_of_ne_nil (splitOutside_ne_nil ',' s)]
  apply kindOf?_congr
  rw [focus, hfirst, focus]

end CallSchema.TypeHint
