import CallSchema.Proofs.Text.Cut
import CallSchema.Proofs.TypeHint.QuotedSets

/-!
# What the quoted strings of a closed set are picked out of

What stands between the brackets of a `Literal[...]` is not read as a list: the quoted strings are
picked out of it, and the text between them is passed over. So a hint is a closed set as soon as
one quoted string is found, and its strings are the members of a list exactly when the text that is
passed over is blank but for the commas of that list.

## Main definitions

* `TypeHint.Scanned` -- the quoted strings of a text and the gaps between them
* `TypeHint.Listing`, `TypeHint.Lists` -- comma-separated lists of quoted strings
* `TypeHint.ScannedSet` -- a text in which quoted strings are found as in a closed set
* `TypeHint.ScannedSet.Separated` -- the gaps of a list

## Main statements

* `TypeHint.Scanned.unique`, `TypeHint.exists_scanned` -- there is one way to scan a text
* `TypeHint.ScannedSet.lists_iff_separated` -- which of the sets are lists
* `TypeHint.ofText?_eq_literal_iff_scanned` -- when a text is read as a closed set
-/

namespace CallSchema.TypeHint

open Text

/-! ### Gaps and quoted strings -/

/-- A quoted string, with the text between it and the quoted string in front of it. -/
structure Piece where
  gap : Text
  quoted : QuotedValue

namespace Piece

def text (piece : Piece) : Text :=
  piece.gap ++ piece.quoted.text

def value (piece : Piece) : String :=
  piece.quoted.value

end Piece

/-- The quoted strings that are found in a text, each with the gap in front of it, and the text
    behind the last of them. -/
inductive Scanned : Text → List Piece → Text → Prop
  | rest {rest : Text} : Unpaired rest [] → Scanned rest [] rest
  | piece (piece : Piece) {s : Text} {pieces : List Piece} {rest : Text} :
    Unpaired piece.gap (piece.quoted.text ++ s) → Scanned s pieces rest →
      Scanned (piece.text ++ s) (piece :: pieces) rest

namespace Scanned

variable {s rest rest' : Text} {pieces pieces' : List Piece}

/-- The scan finds the quoted strings that the text is read with. -/
theorem quotedStrings_eq (h : Scanned s pieces rest) :
    quotedStrings s = pieces.map fun piece => piece.value.toList := by
  induction h with
  | rest hrest =>
    have hscan := quotedStrings_append_of_unpaired hrest
    rwa [List.append_nil, quotedStrings] at hscan
  | @piece piece s pieces rest hgap _ ih =>
    rw [Piece.text, List.append_assoc, quotedStrings_append_of_unpaired hgap,
      QuotedValue.quotedStrings_text_append, ih]
    rfl

/-- A character that opens no string joins the gap behind it. -/
theorem cons {c : Char} (hc : isQuote c = true → c ∉ s) (h : Scanned s pieces rest) :
    ∃ pieces' rest', Scanned (c :: s) pieces' rest' := by
  cases h with
  | rest hrest => exact ⟨[], _, .rest ⟨by simpa using hc, hrest⟩⟩
  | @piece piece s pieces _ hgap h =>
    rw [Piece.text, List.append_assoc] at hc
    exact ⟨⟨c :: piece.gap, piece.quoted⟩ :: pieces, rest,
      .piece ⟨c :: piece.gap, piece.quoted⟩ ⟨hc, hgap⟩ h⟩

end Scanned

/-- Every text on one line is scanned in some way. -/
theorem exists_scanned {s : Text} (hline : '\n' ∉ s) :
    ∃ pieces rest, Scanned s pieces rest := by
  fun_induction quotedStrings s with
  | case1 => exact ⟨[], [], .rest trivial⟩
  | case2 mark s hmark value rest hcut ih =>
    obtain ⟨rfl, hvalue⟩ := cut?_eq_some_iff.1 hcut
    have hvalueLine : '\n' ∉ (String.ofList value).toList := by
      rw [String.toList_ofList]
      exact fun hmem => hline (List.mem_cons_of_mem _ (List.mem_append_left _ hmem))
    have hrestLine : '\n' ∉ rest := fun hmem =>
      hline (List.mem_cons_of_mem _ (List.mem_append_right _ (List.mem_cons_of_mem _ hmem)))
    obtain ⟨pieces, tail, h⟩ := ih hrestLine
    let quoted : QuotedValue :=
      { value := String.ofList value
        mark := mark
        isQuote_mark := hmark
        mark_notMem := by rwa [String.toList_ofList]
        newline_notMem := hvalueLine }
    have htext : mark :: (value ++ mark :: rest) = (Piece.mk [] quoted).text ++ rest := by
      simp [Piece.text, QuotedValue.text, quoted]
    rw [htext]
    exact ⟨⟨[], quoted⟩ :: pieces, tail, .piece ⟨[], quoted⟩ trivial h⟩
  | case3 mark s hmark hcut ih =>
    obtain ⟨pieces, tail, h⟩ := ih fun hmem => hline (List.mem_cons_of_mem _ hmem)
    exact h.cons fun _ => cut?_eq_none_iff.1 hcut
  | case4 c s hmark ih =>
    obtain ⟨pieces, tail, h⟩ := ih fun hmem => hline (List.mem_cons_of_mem _ hmem)
    exact h.cons fun hquote => absurd hquote hmark

theorem QuotedValue.text_append (quoted : QuotedValue) (s : Text) :
    quoted.text ++ s = quoted.mark :: (quoted.value.toList ++ quoted.mark :: s) := by
  simp [QuotedValue.text]

/-- The mark that opens a string has a partner. -/
theorem not_unpaired_of_text_append_eq {quoted : QuotedValue} {c : Char} {s gap after : Text}
    (heq : quoted.text ++ s = c :: (gap ++ after)) : ¬Unpaired (c :: gap) after := by
  rintro ⟨hc, -⟩
  rw [QuotedValue.text_append] at heq
  obtain ⟨rfl, hrest⟩ := List.cons.inj heq
  have hmem : quoted.mark ∈ gap ++ after := by
    rw [← hrest]
    exact List.mem_append_right _ List.mem_cons_self
  exact hc quoted.isQuote_mark hmem

/-- A text begins with a quoted string in one way only. -/
theorem QuotedValue.unique {quoted quoted' : QuotedValue} {s s' : Text}
    (heq : quoted.text ++ s = quoted'.text ++ s') : quoted = quoted' ∧ s = s' := by
  obtain ⟨value, mark, hmark, hvalue, hline⟩ := quoted
  obtain ⟨value', mark', hmark', hvalue', hline'⟩ := quoted'
  rw [text_append, text_append] at heq
  obtain ⟨rfl, hrest⟩ := List.cons.inj heq
  dsimp only at hrest
  -- both strings end at the first mark of the sort that opened them
  have hcut := cut?_eq_some_iff.2 ⟨hrest.symm, hvalue⟩
  rw [cut?_eq_some_iff.2 ⟨rfl, hvalue'⟩, Option.some.injEq, Prod.mk.injEq] at hcut
  obtain ⟨hvalues, rfl⟩ := hcut
  obtain rfl := String.toList_inj.1 hvalues
  exact ⟨rfl, rfl⟩

/-- The gap in front of the first quoted string is the same in every scan. -/
theorem Piece.unique {gap gap' s s' : Text} {quoted quoted' : QuotedValue}
    (h : Unpaired gap (quoted.text ++ s)) (h' : Unpaired gap' (quoted'.text ++ s'))
    (heq : gap ++ (quoted.text ++ s) = gap' ++ (quoted'.text ++ s')) :
    gap = gap' ∧ quoted = quoted' ∧ s = s' := by
  induction gap generalizing gap' with
  | nil =>
    cases gap' with
    | nil => exact ⟨rfl, QuotedValue.unique heq⟩
    | cons c gap' => exact absurd h' (not_unpaired_of_text_append_eq heq)
  | cons c gap ih =>
    cases gap' with
    | nil => exact absurd h (not_unpaired_of_text_append_eq heq.symm)
    | cons c' gap' =>
      obtain ⟨rfl, hrest⟩ := List.cons.inj heq
      obtain ⟨rfl, hquoted, hs⟩ := ih h.2 h'.2 hrest
      exact ⟨rfl, hquoted, hs⟩

/-- A text is scanned in one way only. -/
theorem Scanned.unique {s s' rest rest' : Text} {pieces pieces' : List Piece}
    (h : Scanned s pieces rest) (h' : Scanned s' pieces' rest') (heq : s = s') :
    pieces = pieces' ∧ rest = rest' := by
  have hcount := h.quotedStrings_eq.symm.trans (heq ▸ h'.quotedStrings_eq)
  induction h generalizing s' pieces' with
  | rest hrest =>
    cases h' with
    | rest _ => exact ⟨rfl, heq⟩
    | piece _ _ _ => simp at hcount
  | @piece piece s pieces rest hgap _ ih =>
    cases h' with
    | rest _ => simp at hcount
    | @piece piece' s' pieces' _ hgap' h' =>
      rw [Piece.text, Piece.text, List.append_assoc, List.append_assoc] at heq
      obtain ⟨hgaps, hquoted, rfl⟩ := Piece.unique hgap hgap' heq
      obtain ⟨rfl, rfl⟩ := ih h' rfl (List.cons.inj hcount).2
      obtain ⟨gap, quoted⟩ := piece
      obtain ⟨gap', quoted'⟩ := piece'
      dsimp only at hgaps hquoted
      rw [hgaps, hquoted]
      exact ⟨rfl, rfl⟩

/-! ### Lists of quoted strings -/

/-- A comma with blanks around it. -/
def IsComma (s : Text) : Prop :=
  trim s = [',']

theorem isComma_iff {s : Text} :
    IsComma s ↔ ∃ before after, allBlank before = true ∧ allBlank after = true ∧
      s = before ++ ',' :: after := by
  constructor
  · intro h
    obtain ⟨before, after, hbefore, hafter, hs⟩ := exists_append_trim_append s
    refine ⟨before, after, hbefore, hafter, ?_⟩
    calc s = before ++ (trim s ++ after) := hs
      _ = before ++ ',' :: after := by rw [h]; rfl
  · rintro ⟨before, after, hbefore, hafter, rfl⟩
    rw [IsComma, trim_of_allBlank_append _ hbefore, ← List.singleton_append,
      trim_append_of_allBlank _ hafter]
    rfl

theorem not_isQuote_of_allBlank {s : Text} (h : allBlank s = true) :
    ∀ c ∈ s, isQuote c = false := by
  intro c hc
  have hblank := allBlank_iff.1 h c hc
  refine Bool.eq_false_iff.2 fun hquote => ?_
  obtain rfl | rfl : c = '"' ∨ c = '\'' := by simpa [isQuote] using hquote
  · exact absurd hblank (by decide)
  · exact absurd hblank (by decide)

theorem IsComma.not_isQuote {s : Text} (h : IsComma s) : ∀ c ∈ s, isQuote c = false := by
  obtain ⟨before, after, hbefore, hafter, rfl⟩ := isComma_iff.1 h
  rw [List.forall_mem_append, List.forall_mem_cons]
  exact ⟨not_isQuote_of_allBlank hbefore, by decide, not_isQuote_of_allBlank hafter⟩

/-- A comma-separated list of quoted strings. Blanks may stand around its members, and a comma
    behind the last of them. -/
inductive Listing : Text → List String → Prop
  | last {before after : Text} {quoted : QuotedValue} :
    allBlank before = true → allBlank after = true ∨ IsComma after →
      Listing (before ++ (quoted.text ++ after)) [quoted.value]
  | more {before after s : Text} {quoted : QuotedValue} {values : List String} :
    allBlank before = true → allBlank after = true → Listing s values →
      Listing (before ++ (quoted.text ++ (after ++ ',' :: s))) (quoted.value :: values)

/-- The gaps of a list: blanks in front of the first string, a comma in front of each further one,
    and blanks or a comma behind the last. -/
structure Separated (pieces : List Piece) (rest : Text) : Prop where
  first : ∀ piece ∈ pieces.head?, allBlank piece.gap = true
  later : ∀ piece ∈ pieces.tail, IsComma piece.gap
  rest : allBlank rest = true ∨ IsComma rest

/-- What goes on with a comma in front of each further string is a list behind its first string. -/
theorem Scanned.listing {s rest : Text} {pieces : List Piece} (h : Scanned s pieces rest)
    (hlater : ∀ piece ∈ pieces, IsComma piece.gap) (hrest : allBlank rest = true ∨ IsComma rest)
    {before : Text} (hbefore : allBlank before = true) (quoted : QuotedValue) :
    Listing (before ++ (quoted.text ++ s)) (quoted.value :: pieces.map Piece.value) := by
  induction h generalizing before quoted with
  | rest _ => exact .last hbefore hrest
  | @piece piece s pieces rest _ _ ih =>
    obtain ⟨hpiece, hpieces⟩ := List.forall_mem_cons.1 hlater
    obtain ⟨after, next, hafter, hnext, hgap⟩ := isComma_iff.1 hpiece
    have htext : piece.text ++ s = after ++ ',' :: (next ++ (piece.quoted.text ++ s)) := by
      simp [Piece.text, hgap]
    rw [htext]
    exact .more hbefore hafter (ih hpieces hrest hnext piece.quoted)

/-- Text without marks in front of a scanned text joins the first gap. -/
theorem Scanned.append {lead s rest : Text} {piece : Piece} {pieces : List Piece}
    (hlead : ∀ c ∈ lead, isQuote c = false) (h : Scanned s (piece :: pieces) rest) :
    Scanned (lead ++ s) (⟨lead ++ piece.gap, piece.quoted⟩ :: pieces) rest := by
  cases h with
  | @piece _ s _ _ hgap h =>
    rw [Piece.text, List.append_assoc, ← List.append_assoc lead, ← List.append_assoc]
    exact .piece ⟨lead ++ piece.gap, piece.quoted⟩ (hgap.append hlead) h

/-- The scan of a list finds its members, and commas between them. -/
theorem Listing.exists_scanned {s : Text} {values : List String} (h : Listing s values) :
    ∃ piece pieces rest, Scanned s (piece :: pieces) rest ∧ Separated (piece :: pieces) rest ∧
      (piece :: pieces).map Piece.value = values := by
  induction h with
  | @last before after quoted hbefore hafter =>
    have hquote : ∀ c ∈ after, isQuote c = false :=
      hafter.elim not_isQuote_of_allBlank IsComma.not_isQuote
    refine ⟨⟨before, quoted⟩, [], after, ?_, ⟨?_, ?_, hafter⟩, rfl⟩
    · rw [← List.append_assoc]
      exact .piece ⟨before, quoted⟩
        (unpaired_of_forall (not_isQuote_of_allBlank hbefore) _)
        (.rest (unpaired_of_forall hquote _))
    · simpa using hbefore
    · simp
  | @more before after s quoted values hbefore hafter _ ih =>
    obtain ⟨piece, pieces, rest, hscan, hsep, hvalues⟩ := ih
    have hcomma : IsComma (after ++ ',' :: piece.gap) :=
      isComma_iff.2 ⟨after, piece.gap, hafter, hsep.first piece rfl, rfl⟩
    have hcommaQuote : ∀ c ∈ after ++ [','], isQuote c = false := by
      rw [List.forall_mem_append, List.forall_mem_singleton]
      exact ⟨not_isQuote_of_allBlank hafter, by decide⟩
    have hnext := hscan.append hcommaQuote
    rw [List.append_assoc, List.append_assoc, List.singleton_append, List.singleton_append] at hnext
    refine ⟨⟨before, quoted⟩, ⟨after ++ ',' :: piece.gap, piece.quoted⟩ :: pieces, rest, ?_,
      ⟨?_, ?_, hsep.rest⟩, ?_⟩
    · rw [← List.append_assoc]
      exact .piece ⟨before, quoted⟩
        (unpaired_of_forall (not_isQuote_of_allBlank hbefore) _) hnext
    · simpa using hbefore
    · exact List.forall_mem_cons.2 ⟨hcomma, hsep.later⟩
    · rw [← hvalues]
      rfl

/-- A scanned text is a list of its strings exactly when the gaps are those of a list. -/
theorem Scanned.listing_iff {s rest : Text} {pieces : List Piece} (h : Scanned s pieces rest)
    (hne : pieces ≠ []) : Listing s (pieces.map Piece.value) ↔ Separated pieces rest := by
  constructor
  · intro hlist
    obtain ⟨piece, others, tail, hscan, hsep, -⟩ := hlist.exists_scanned
    obtain ⟨rfl, rfl⟩ := h.unique hscan rfl
    exact hsep
  · intro hsep
    cases h with
    | rest _ => exact absurd rfl hne
    | @piece piece s pieces _ _ h =>
      rw [Piece.text, List.append_assoc]
      exact h.listing hsep.later hsep.rest (hsep.first piece rfl) piece.quoted

/-! ### Closed sets -/

/-- The text is a closed set with the given strings: one of its names, and a list of the strings
    between square brackets. -/
def Lists (text : Text) (values : List String) : Prop :=
  ∃ name ∈ literalNames, ∃ body, text = name ++ '[' :: (body ++ [']']) ∧ Listing body values

/-- A text on one line with the name and the brackets of a closed set, in which quoted strings are
    found. -/
structure ScannedSet where
  name : Text
  name_mem : name ∈ literalNames
  body : Text
  newline_notMem : '\n' ∉ body
  pieces : List Piece
  rest : Text
  scanned : Scanned body pieces rest
  pieces_ne_nil : pieces ≠ []

namespace ScannedSet

def text (set : ScannedSet) : Text :=
  set.name ++ '[' :: (set.body ++ [']'])

/-- The strings that are found, from left to right. -/
def values (set : ScannedSet) : List String :=
  set.pieces.map Piece.value

/-- The text between the strings is that of a list. -/
def Separated (set : ScannedSet) : Prop :=
  TypeHint.Separated set.pieces set.rest

theorem quotedStrings_body (set : ScannedSet) :
    (quotedStrings set.body).map String.ofList = set.values := by
  rw [set.scanned.quotedStrings_eq, List.map_map, values]
  exact List.map_congr_left fun piece _ => String.ofList_toList

theorem literalBody?_text (set : ScannedSet) : literalBody? set.text = some set.body :=
  literalBody?_eq_some_iff.2 ⟨⟨set.name, set.name_mem, rfl⟩, set.newline_notMem⟩

end ScannedSet

/-- The text between the brackets of a closed set is determined. -/
theorem literal_body_unique {name name' body body' : Text} (hname : name ∈ literalNames)
    (hname' : name' ∈ literalNames)
    (heq : name ++ '[' :: (body ++ [']']) = name' ++ '[' :: (body' ++ [']'])) : body = body' := by
  have hnames : ∀ name ∈ literalNames, '[' ∉ name := by decide
  have hcut := cut?_eq_some_iff.2 ⟨heq, hnames name' hname'⟩
  rw [cut?_eq_some_iff.2 ⟨rfl, hnames name hname⟩, Option.some.injEq, Prod.mk.injEq] at hcut
  exact List.append_cancel_right hcut.2

/-- The text of a closed set is a list of the strings that are found in it exactly when the text
    between them is that of a list. -/
theorem ScannedSet.lists_iff_separated (set : ScannedSet) :
    Lists set.text set.values ↔ set.Separated := by
  rw [Separated, ← set.scanned.listing_iff set.pieces_ne_nil]
  constructor
  · rintro ⟨name, hname, body, htext, hlist⟩
    obtain rfl := literal_body_unique set.name_mem hname htext
    exact hlist
  · exact fun hlist => ⟨set.name, set.name_mem, set.body, rfl, hlist⟩

theorem ofText?_eq_literal_iff {s : Text} {values : List String} :
    ofText? s = some (literal values) ↔
      ∃ body, literalBody? (trim s) = some body ∧
        (quotedStrings body).map String.ofList = values ∧ values ≠ [] := by
  by_cases hempty : (trim s).isEmpty = true
  · have hnil := List.isEmpty_iff.1 hempty
    rw [ofText?, if_pos hempty, hnil]
    refine iff_of_false (by simp) ?_
    rintro ⟨body, hbody, -⟩
    rw [literalBody?_eq_none (by simp)] at hbody
    cases hbody
  · rw [ofText?, if_neg hempty]
    cases literalBody? (trim s) with
    | none => simp
    | some body =>
      cases hquoted : quotedStrings body with
      | nil => simp [hquoted]
      | cons value others =>
        simp only [Option.map_some, hquoted, Option.some.injEq, literal.injEq, exists_eq_left']
        refine ⟨?_, And.left⟩
        rintro rfl
        exact ⟨rfl, by simp⟩

/-- A text is read as a closed set with the strings that are found in it. -/
theorem exists_scannedSet_iff {s : Text} {values : List String} :
    (∃ set : ScannedSet, trim s = set.text ∧ set.values = values) ↔
      ofText? s = some (literal values) := by
  rw [ofText?_eq_literal_iff]
  constructor
  · rintro ⟨set, htext, rfl⟩
    refine ⟨set.body, htext ▸ set.literalBody?_text, set.quotedStrings_body, ?_⟩
    exact fun hnil => set.pieces_ne_nil (List.map_eq_nil_iff.1 hnil)
  · rintro ⟨body, hbody, hvalues, hne⟩
    obtain ⟨⟨name, hname, htext⟩, hline⟩ := literalBody?_eq_some_iff.1 hbody
    obtain ⟨pieces, rest, hscan⟩ := exists_scanned hline
    have hpieces : pieces ≠ [] := by
      rintro rfl
      rw [hscan.quotedStrings_eq] at hvalues
      exact hne hvalues.symm
    let set : ScannedSet := ⟨name, hname, body, hline, pieces, rest, hscan, hpieces⟩
    exact ⟨set, htext, set.quotedStrings_body.symm.trans hvalues⟩

/-! ### Texts that keep their name -/

/-- A text in which no mark has a partner has each mark once at most. -/
theorem unpaired_nil_iff_count {s : Text} :
    Unpaired s [] ↔ ∀ mark, isQuote mark = true → s.count mark ≤ 1 := by
  induction s with
  | nil => simp [Unpaired]
  | cons c s ih =>
    rw [Unpaired, ih, List.append_nil]
    constructor
    · rintro ⟨hc, hs⟩ mark hmark
      by_cases heq : c = mark
      · obtain rfl := heq
        rw [List.count_cons_self, List.count_eq_zero_of_not_mem (hc hmark)]
      · rw [List.count_cons_of_ne heq]
        exact hs mark hmark
    · intro h
      refine ⟨fun hquote => ?_, fun mark hmark => ?_⟩
      · have hcount := h c hquote
        rw [List.count_cons_self] at hcount
        exact List.count_eq_zero.1 (by omega)
      · exact Nat.le_trans List.count_le_count_cons (h mark hmark)

/-- No quoted string is found exactly where each mark stands once at most. -/
theorem quotedStrings_eq_nil_iff {s : Text} (hline : '\n' ∉ s) :
    quotedStrings s = [] ↔ ∀ mark, isQuote mark = true → s.count mark ≤ 1 := by
  rw [← unpaired_nil_iff_count]
  constructor
  · intro h
    obtain ⟨pieces, rest, hscan⟩ := exists_scanned hline
    cases hscan with
    | rest hrest => exact hrest
    | piece piece hgap hscan => simp [(Scanned.piece piece hgap hscan).quotedStrings_eq] at h
  · intro h
    exact (Scanned.rest h).quotedStrings_eq

/-- A text with the name and the brackets of a closed set is read by its name when it is not on one
    line or no quotation mark in it has a partner. -/
theorem ofText?_eq_named_iff {s name body : Text} (hname : name ∈ literalNames)
    (htext : trim s = name ++ '[' :: (body ++ [']'])) :
    ofText? s = some (named (String.ofList (trim s))) ↔
      '\n' ∈ body ∨ ∀ mark, isQuote mark = true → body.count mark ≤ 1 := by
  have hempty : ¬(trim s).isEmpty = true := by simp [htext]
  by_cases hline : '\n' ∈ body
  · have hbody : literalBody? (trim s) = none := by
      rw [Option.eq_none_iff_forall_ne_some]
      intro body' hbody'
      obtain ⟨⟨name', hname', htext'⟩, hline'⟩ := literalBody?_eq_some_iff.1 hbody'
      exact hline' (literal_body_unique hname hname' (htext.symm.trans htext') ▸ hline)
    rw [ofText?, if_neg hempty, hbody]
    exact iff_of_true rfl (.inl hline)
  · have hbody : literalBody? (trim s) = some body :=
      literalBody?_eq_some_iff.2 ⟨⟨name, hname, htext⟩, hline⟩
    rw [← quotedStrings_eq_nil_iff hline, ofText?, if_neg hempty, hbody]
    cases hquoted : quotedStrings body with
    | nil => simp [hquoted]
    | cons value others => simp [hquoted, hline]

/-- **Which texts are read as closed sets**: those in which quoted strings are found between the
    brackets, and they are read with these strings. Such a text is a list of them exactly when the
    text between them is that of a list. A text with the name and the brackets is read by its name
    only when it is not on one line or no quotation mark in it has a partner. -/
theorem ofText?_eq_literal_iff_scanned (s : Text) (values : List String) :
    (ofText? s = some (literal values) ↔
      ∃ set : ScannedSet, trim s = set.text ∧ set.values = values) ∧
    (∀ set : ScannedSet, trim s = set.text → (Lists (trim s) set.values ↔ set.Separated)) ∧
    ∀ name ∈ literalNames, ∀ body, trim s = name ++ '[' :: (body ++ [']']) →
      (ofText? s = some (named (String.ofList (trim s))) ↔
        '\n' ∈ body ∨ ∀ mark, isQuote mark = true → body.count mark ≤ 1) := by
  refine ⟨exists_scannedSet_iff.symm, fun set htext => ?_, fun name hname body htext => ?_⟩
  · rw [htext]
    exact set.lists_iff_separated
  · exact ofText?_eq_named_iff hname htext

/-- A number behind a string is passed over, and so is a comma behind a mark without a partner. -/
theorem ofText?_eq_literal_iff_scanned_number :
    ofText? "Literal[\"a\", 1]".toList = some (literal ["a"]) ∧
      ¬Lists "Literal[\"a\", 1]".toList ["a"] ∧
      ofText? "Literal['a, 1]".toList = some (named "Literal['a, 1]") := by
  let piece : Piece := ⟨[], ⟨"a", '"', by decide, by decide, by decide⟩⟩
  let set : ScannedSet :=
    { name := "Literal".toList
      name_mem := by decide
      body := piece.text ++ ", 1".toList
      newline_notMem := by decide
      pieces := [piece]
      rest := ", 1".toList
      scanned := .piece piece trivial (.rest ⟨by decide, by decide, by decide, trivial⟩)
      pieces_ne_nil := List.cons_ne_nil _ [] }
  have htext : "Literal[\"a\", 1]".toList = set.text := by decide
  have htrim : trim "Literal[\"a\", 1]".toList = "Literal[\"a\", 1]".toList := by decide
  have hmarks : ∀ mark, isQuote mark = true → ("'a, 1".toList).count mark ≤ 1 := by
    intro mark hmark
    obtain rfl | rfl : mark = '"' ∨ mark = '\'' := by simpa [isQuote] using hmark
    · decide
    · decide
  refine ⟨?_, ?_, ?_⟩
  · exact (ofText?_eq_literal_iff_scanned _ _).1.2 ⟨set, htrim.trans htext, rfl⟩
  · intro hlists
    have hseparated := (ofText?_eq_literal_iff_scanned _ []).2.1 set (htrim.trans htext)
    rw [htrim] at hseparated
    have hrest := (hseparated.1 hlists).rest
    have hplain : ¬(allBlank ", 1".toList = true ∨ trim ", 1".toList = [',']) := by decide
    exact hplain hrest
  · have hnamed := (ofText?_eq_literal_iff_scanned "Literal['a, 1]".toList []).2.2 "Literal".toList
      (by decide) "'a, 1".toList (by decide)
    exact hnamed.2 (.inr hmarks)

end CallSchema.TypeHint
