import CallSchema.Proofs.TypeHint.ExprText

/-!
# The kind of the text of an expression

The reduction of a type text agrees with the meaning of the expression that the text is written
from. One round follows one constructor: a wrapper gives its argument to the next round, a reference
and a union leave what the round makes of the target and of the first member that is not `None`, and
the names and brackets that no round opens are looked up.
-/

namespace CallSchema.TypeHint

open Text

/-! ### Paths and brackets -/

theorem nameKind?_text (p : Path) :
    nameKind? p.text = Kind.ofName? (String.ofList p.name.chars) := by
  rw [nameKind?, p.isPathText.trimmed, lastSegment_text]

theorem isWrapperName_text_iff (p : Path) :
    IsWrapperName p.text ↔ String.ofList p.name.chars ∈ wrapperNames := by
  rw [IsWrapperName, p.isPathText.trimmed, lastSegment_text]

theorem kindOf?_path (p : Path) : kindOf? p.text = Kind.ofName? (String.ofList p.name.chars) := by
  have hfocus : focus p.text = p.text := by
    rw [(IsAtom.name p.isPathText p.text_ne_nil).focus_eq,
      barsForOr_of_not_mem (p.isPathText.not_mem (by decide))]
  rw [kindOf?_eq_kindIn?, hfocus, kindIn?_of_noOpening p.isPathText.noOpening, nameKind?_text]

/-- A round leaves the path and the brackets behind it as they are. -/
theorem focus_pair {s body : Text} {opening closing : Char} (hs : IsPathText s)
    (hpair : IsPair opening closing) (hbody : Balanced body) :
    focus (s ++ opening :: (body ++ [closing])) =
      s ++ opening :: (barsForOr body ++ [closing]) := by
  rw [(IsAtom.bracketed hs hpair hbody).focus_eq, hs.barsForOr_append, barsForOr_pair hpair]

/-- Brackets behind a path hold the argument of a wrapper, or they do not count. -/
theorem kindOf?_around (p : Path) (b : Brackets) {body : Text} (hbody : Balanced body) :
    kindOf? (p.text ++ b.around body) =
      if String.ofList p.name.chars ∈ wrapperNames then
        kindOf? (trim (lastOutside ',' (barsForOr body)))
      else Kind.ofName? (String.ofList p.name.chars) := by
  have hfocus : focus (p.text ++ b.around body) = p.text ++ b.around (barsForOr body) :=
    focus_pair p.isPathText b.isPair hbody
  rw [kindOf?_eq_kindIn?, hfocus, kindIn?_around p.isPathText.noOpening p.text_ne_nil,
    nameKind?_text]
  simp only [isWrapperName_text_iff]

theorem isPathText_nil : IsPathText [] := nofun

/-- A round leaves a pair of brackets on its own as it is. -/
theorem focus_pair_nil {body : Text} {opening closing : Char} (hpair : IsPair opening closing)
    (hbody : Balanced body) :
    focus (opening :: (body ++ [closing])) = opening :: (barsForOr body ++ [closing]) := by
  have hfocus := focus_pair isPathText_nil hpair hbody
  rwa [List.nil_append, List.nil_append] at hfocus

/-- Square brackets on their own are an array. -/
theorem kindOf?_square {body : Text} (hbody : Balanced body) :
    kindOf? (Brackets.square.around body) = some .array := by
  have hfocus : focus (Brackets.square.around body) = Brackets.square.around (barsForOr body) :=
    focus_pair_nil Brackets.square.isPair hbody
  have hunwrap := unwrap?_around isPathText_nil.noOpening .square (barsForOr body)
  rw [List.nil_append, if_neg (by decide)] at hunwrap
  have hname : outerName (Brackets.square.around (barsForOr body)) = Kind.name .array := by
    rw [outerName, if_pos (.inl rfl)]
  rw [kindOf?_of_unwrap?_eq_none (by rw [hfocus, hunwrap]), hfocus, hname, Kind.ofName?_name]

/-- Round brackets on their own are an array when something stands between them. -/
theorem kindOf?_round {body : Text} (hbody : Balanced body) :
    kindOf? ('(' :: (body ++ [')'])) = if body = [] then none else some .array := by
  have hfocus : focus ('(' :: (body ++ [')'])) = '(' :: (barsForOr body ++ [')']) :=
    focus_pair_nil isPair_round hbody
  have hunwrap := unwrap?_round [] (barsForOr body)
  rw [List.nil_append] at hunwrap
  rw [kindOf?_of_unwrap?_eq_none (by rw [hfocus, hunwrap]), hfocus]
  split_ifs with hnil
  · rw [hnil]
    decide
  · have hne : '(' :: (barsForOr body ++ [')']) ≠ ['(', ')'] := by
      simpa [barsForOr_eq_nil_iff] using hnil
    have hname : outerName ('(' :: (barsForOr body ++ [')'])) = Kind.name .array := by
      rw [outerName, if_pos (.inr ⟨rfl, hne⟩)]
    rw [hname, Kind.ofName?_name]

/-! ### Wrappers -/

theorem lastOutside_of_unsplit {separator : Char} {s : Text} (h : Unsplit separator s) :
    lastOutside separator s = s := by
  simp only [lastOutside, h.splitOutside_eq, List.getLast_singleton]

theorem kindOf?_wrapper (scopes : Scopes) (w : Wrapper) (b : Brackets) {s : Text}
    (h : IsTypeText s) :
    kindOf? (Path.text (Path.lower ⟨scopes, w.name⟩) ++ b.around s) = kindOf? s := by
  have hname : String.ofList (Path.lower ⟨scopes, w.name⟩).name.chars ∈ wrapperNames := by
    show String.ofList w.name.lower.chars ∈ wrapperNames
    cases w <;> decide
  rw [kindOf?_around _ b h.balanced, if_pos hname, lastOutside_of_unsplit h.barsForOr.unsplit,
    h.barsForOr.trimmed, kindOf?_barsForOr h]

/-- The argument behind a lifetime is the last one. -/
theorem kindOf?_cow (scopes : Scopes) (lifetime : Word) {s : Text} (h : IsTypeText s)
    (hstart : NoOrStart s) :
    kindOf? (Path.text (Path.lower ⟨scopes, cowName⟩) ++
      Brackets.angle.around (cowArguments lifetime s)) = kindOf? s := by
  have hname : String.ofList (Path.lower ⟨scopes, cowName⟩).name.chars ∈ wrapperNames := by
    show String.ofList cowName.lower.chars ∈ wrapperNames
    decide
  have hquoted : ' ' ∉ '\'' :: lifetime.chars := by
    rw [List.mem_cons, not_or]
    exact ⟨by decide, lifetime.notMem_chars (by decide)⟩
  have hbars : barsForOr (cowArguments lifetime s) =
      ('\'' :: lifetime.chars) ++ ',' :: ' ' :: barsForOr s := by
    show barsForOr (('\'' :: lifetime.chars) ++ ',' :: ' ' :: s) = _
    rw [barsForOr_append_of_not_mem hquoted, barsForOr_cons_of_ne (by decide),
      barsForOr_space_cons hstart]
  have hquote : Balanced ('\'' :: lifetime.chars) :=
    .append (s := ['\'']) (by decide) lifetime.isPathText.balanced
  have hspaced : Unsplit ',' (' ' :: barsForOr s) :=
    .append (s := [' ']) rfl (by decide) h.barsForOr.unsplit
  have hsplit : splitOutside ',' (barsForOr (cowArguments lifetime s)) =
      splitOutside ',' ('\'' :: lifetime.chars) ++ [' ' :: barsForOr s] := by
    rw [hbars, splitOutside_append_cons hquote rfl rfl, hspaced.splitOutside_eq]
  have hlast : lastOutside ',' (barsForOr (cowArguments lifetime s)) = ' ' :: barsForOr s := by
    simp only [lastOutside, hsplit, List.getLast_append_singleton]
  have htrim : trim (' ' :: barsForOr s) = barsForOr s :=
    (trim_of_allBlank_append (s := [' ']) _ (by decide)).trans h.barsForOr.trimmed
  rw [kindOf?_around _ .angle (balanced_cowArguments lifetime h.balanced), if_pos hname, hlast,
    htrim, kindOf?_barsForOr h]

/-! ### Unions -/

theorem isNullName_eq_false {s : Text} (h : String.ofList s ∉ reservedWords) :
    isNullName s = false := by
  have hwords : ∀ name ∈ ["none", "null", "nonetype"], name ∈ reservedWords := by decide
  rw [isNullName, Bool.eq_false_iff]
  exact fun hnull => h (hwords _ (List.contains_iff_mem.1 hnull))

/-- The first member that is not `None` decides. -/
theorem kindOf?_union {s t : Text} (hs : IsTypeText s) (hsne : s ≠ []) (hend : NoOrEnd s)
    (bar : Bar) (ht : IsTypeText t) (htne : t ≠ []) (hstart : NoOrStart t) :
    kindOf? (s ++ (bar.text ++ t)) =
      if ∀ a ∈ alternatives s, isNullName a = true then kindOf? t else kindOf? s := by
  have hmembers : alternatives (s ++ (bar.text ++ t)) = alternatives s ++ alternatives t :=
    alternatives_append bar hs.balanced hend hstart
  have hunion := hs.union hsne bar ht htne
  split_ifs with hnull
  · apply kindOf?_congr_find? hunion ht
    rw [hmembers, List.find?_append, find?_not_isNullName_eq_none_iff.2 hnull, Option.none_or]
  · apply kindOf?_congr_find? hunion hs
    cases hfind : (alternatives s).find? (!isNullName ·) with
    | none => exact absurd (find?_not_isNullName_eq_none_iff.1 hfind) hnull
    | some a => rw [hmembers, List.find?_append, hfind, Option.some_or]

/-! ### Expressions -/

namespace Expr

theorem alternatives_lower_text {e : Expr} (h : e.WellFormed) (hunion : e.isUnion = false) :
    alternatives (lower e.text) = [barsForOr (lower e.text)] := by
  have htarget : e.target.isUnion = false := by
    cases e with
    | reference m e =>
      obtain ⟨hreference, hunion, -⟩ := h
      cases e with
      | reference m e => cases hreference
      | union e bar rest => cases hunion
      | _ => rfl
    | _ => exact hunion
  exact (isMember_text htarget).lower.alternatives

theorem meaning_union {e : Expr} (h : e ≠ absent) (bar : Bar) (rest : Expr) :
    (union e bar rest).meaning = e.meaning := by
  cases e with
  | absent => exact absurd rfl h
  | _ => rfl

/-- The kind of the text of an expression is its meaning. -/
theorem kindOf?_lower_text {e : Expr} (h : e.WellFormed) : kindOf? (lower e.text) = e.meaning := by
  induction e with
  | absent =>
    have hplain : IsTypeText (lower absent.text) := (isExprText_lower_text h).toIsTypeText
    exact kindOf?_eq_none hplain.trimmed hplain.unsplit (by decide)
  | path p =>
    show kindOf? (lower p.text) = p.name.kind?
    rw [← p.lower_text, kindOf?_path]
    rfl
  | generic p b args =>
    show kindOf? (lower (p.text ++ b.around args.1)) = p.name.kind?
    rw [lower_append, ← p.lower_text, b.lower_around,
      kindOf?_around _ b (balanced_lower_iff.2 args.2), if_neg h]
    rfl
  | wrapper scopes w b e ih =>
    change e.WellFormed at h
    show kindOf? (lower (Path.text ⟨scopes, w.name⟩ ++ b.around e.text)) = e.meaning
    rw [lower_append, ← Path.lower_text, b.lower_around,
      kindOf?_wrapper scopes w b (isExprText_lower_text h).toIsTypeText, ih h]
  | cow scopes lifetime e ih =>
    change e.WellFormed at h
    have htext := isExprText_lower_text h
    show kindOf? (lower (Path.text ⟨scopes, cowName⟩ ++
      Brackets.angle.around (cowArguments lifetime e.text))) = e.meaning
    rw [lower_append, ← Path.lower_text, Brackets.lower_around, lower_cowArguments,
      kindOf?_cow scopes lifetime.lower htext.toIsTypeText htext.noOrStart, ih h]
  | reference m e ih =>
    obtain ⟨hreference, hunion, h⟩ := h
    show kindOf? (lower (m.text ++ e.text)) = e.meaning
    rw [lower_append, ← m.lower_text, (isAtom_text hreference hunion).lower.kindOf?_reference, ih h]
  | union e bar rest ih ihrest =>
    obtain ⟨hunion, he, hrest⟩ := h
    show kindOf? (lower (e.text ++ (bar.text ++ rest.text))) = _
    have htext := isExprText_lower_text he
    have hresttext := isExprText_lower_text hrest
    rw [lower_append, lower_append, bar.lower_text,
      kindOf?_union htext.toIsTypeText htext.ne_nil htext.noOrEnd bar hresttext.toIsTypeText
        hresttext.ne_nil hresttext.noOrStart,
      alternatives_lower_text he hunion]
    by_cases habsent : e = absent
    · rw [habsent, if_pos (by decide), ihrest hrest]
      rfl
    · have hnull := isNullName_eq_false (notMem_reservedWords he habsent hunion)
      rw [if_neg (by simp [hnull]), ih he, meaning_union habsent]
  | slice e ih =>
    show kindOf? (lower (Brackets.square.around e.text)) = _
    rw [Brackets.lower_around, kindOf?_square (balanced_lower_iff.2 e.balanced_text)]
    rfl
  | tuple e rest ih =>
    change e.WellFormed at h
    have hne : lower (e.text ++ rest.1) ≠ [] := by
      rw [lower_append]
      exact List.append_ne_nil_of_left_ne_nil (isExprText_lower_text h).ne_nil _
    have hbalanced : Balanced (lower (e.text ++ rest.1)) :=
      balanced_lower_iff.2 (e.balanced_text.append rest.2)
    show kindOf? ('(' :: lower ((e.text ++ rest.1) ++ [')'])) = _
    rw [lower_append]
    exact (kindOf?_round hbalanced).trans (if_neg hne)
  | unit => exact kindOf?_round balanced_nil

/-- **The kind of a type text**: a text that is an expression, in any case and with or without a
    remark behind a comma, has the kind that the expression means. -/
theorem kind?_eq_meaning {e : Expr} (he : e.WellFormed) {s : Text} (hs : lower s = lower e.text)
    (remark : Option Text) :
    (named (String.ofList (s ++ remark.elim [] (',' :: ·)))).kind? = e.meaning := by
  have htext := isExprText_lower_text he
  rw [kind?_named_eq_kindOf?, String.toList_ofList, ← trim_lower, lower_append, hs]
  cases remark with
  | none =>
    show kindOf? (trim (lower e.text ++ [])) = e.meaning
    rw [List.append_nil, htext.trimmed, kindOf?_lower_text he]
  | some remark =>
    obtain ⟨rest, hrest⟩ :=
      exists_trim_append_cons htext.trimmed htext.ne_nil (c := ',') (by decide) (lower remark)
    show kindOf? (trim (lower e.text ++ ',' :: lower remark)) = e.meaning
    rw [hrest, kindOf?_append_comma htext.balanced, kindOf?_lower_text he]

theorem kind?_eq_meaning_borrowed :
    let word := fun (s : String) (hne : s.toList ≠ []) (hs : ∀ c ∈ s.toList, isWord c = true) =>
      (⟨s.toList, hne, hs⟩ : Word)
    let bytes : Expr :=
      .generic ⟨[(word "std" (by decide) (by decide +kernel), .colons)],
        word "HashMap" (by decide) (by decide +kernel)⟩ .angle
        (commaSeparated (.path ⟨[], word "str" (by decide) (by decide +kernel)⟩)
          [.slice (.path ⟨[], word "u8" (by decide) (by decide +kernel)⟩)])
    let e : Expr :=
      .union .absent .word
        (.wrapper [] .optional .square
          (.reference ⟨some (word "a" (by decide) (by decide +kernel)), true⟩ bytes))
    e.WellFormed ∧
      lower "none or OPTIONAL[&'a mut std::HashMap<str, [u8]>]".toList = lower e.text ∧
      (named "none or OPTIONAL[&'a mut std::HashMap<str, [u8]>], default 1").kind? =
        some .object := by
  intro word bytes e
  have he : e.WellFormed := by decide
  have hs : lower "none or OPTIONAL[&'a mut std::HashMap<str, [u8]>]".toList = lower e.text := by
    decide
  exact ⟨he, hs, kind?_eq_meaning he hs (some " default 1".toList)⟩

end Expr

end CallSchema.TypeHint
