import CallSchema.Proofs.Text.ByteSlices
import CallSchema.Proofs.TypeHint.Balanced

/-!
# Where a text is cut

Splitting outside brackets loses nothing: the parts with the separator between them are the text
again, and it is cut at just those separators in front of which no bracket is open. A closing
bracket that closes nothing is passed over, so that this holds of texts with stray brackets too. In
a balanced text a separator between a bracket and its partner is never one of them, and a part has
no bracket without its partner.

## Main definitions

* `Text.partsFrom` -- the parts of a text in front of which brackets are open
* `Text.IsCutPoint` -- a separator where some part ends and the next one begins
* `Text.IsEnclosed` -- a separator between a bracket and its partner
* `Text.WellNested` -- every bracket is closed by one of its own sort

## Main statements

* `Text.isCutPoint_iff` -- the cut points are the separators outside brackets
* `Text.splitOutside_partition` -- the splitting of every text
-/

namespace CallSchema.Text

variable {separator c : Char} {depth : Nat} {s before after : Text} {left right : List Text}

/-! ### The parts put together again -/

/-- The parts of a text in front of which `depth` brackets are open. -/
def partsFrom (separator : Char) (depth : Nat) (s : Text) : List Text :=
  (splitOutsideFrom separator depth s).1 :: (splitOutsideFrom separator depth s).2

theorem partsFrom_ne_nil (separator : Char) (depth : Nat) (s : Text) :
    partsFrom separator depth s ≠ [] :=
  List.cons_ne_nil _ _

theorem partsFrom_cons_separator (h : c = separator ∧ depth = 0 ∧ !isOpening c ∧ !isClosing c) :
    partsFrom separator depth (c :: s) = [] :: partsFrom separator (depthAfter depth c) s := by
  rw [partsFrom, splitOutsideFrom, if_pos h]
  rfl

theorem partsFrom_cons_of_not_separator
    (h : ¬(c = separator ∧ depth = 0 ∧ !isOpening c ∧ !isClosing c)) :
    partsFrom separator depth (c :: s) =
      consHead c (partsFrom separator (depthAfter depth c) s) := by
  rw [partsFrom, splitOutsideFrom, if_neg h]
  rfl

theorem intercalate_consHead (separator c : Char) (parts : List Text) :
    [separator].intercalate (consHead c parts) = c :: [separator].intercalate parts := by
  cases parts with
  | nil => rfl
  | cons first later =>
    cases later with
    | nil => rfl
    | cons second later =>
      rw [consHead, List.intercalate_cons_cons, List.intercalate_cons_cons]
      rfl

theorem intercalate_partsFrom (separator : Char) (depth : Nat) (s : Text) :
    [separator].intercalate (partsFrom separator depth s) = s := by
  induction s generalizing depth with
  | nil => rfl
  | cons c s ih =>
    by_cases hc : c = separator ∧ depth = 0 ∧ !isOpening c ∧ !isClosing c
    · rw [partsFrom_cons_separator hc,
        List.intercalate_cons_of_ne_nil (partsFrom_ne_nil separator _ s), ih, hc.1]
      rfl
    · rw [partsFrom_cons_of_not_separator hc, intercalate_consHead, ih]

/-- Nothing of a text is lost between its parts but the separators. -/
theorem intercalate_splitOutside (separator : Char) (s : Text) :
    [separator].intercalate (splitOutside separator s) = s :=
  intercalate_partsFrom separator 0 s

/-! ### The cut points -/

/-- The separator between two texts is where some part ends and the next one begins: the parts up
    to there make up the first text, and the later ones the second. -/
def IsCutPoint (separator : Char) (before after : Text) : Prop :=
  ∃ left right, splitOutside separator (before ++ separator :: after) = left ++ right ∧
    left ≠ [] ∧ right ≠ [] ∧
    [separator].intercalate left = before ∧ [separator].intercalate right = after

/-- Behind some of the parts, with more of them to come, no bracket is open. -/
theorem foldl_depthAfter_of_partsFrom (hparts : partsFrom separator depth s = left ++ right)
    (hleft : left ≠ []) (hright : right ≠ []) :
    ([separator].intercalate left).foldl depthAfter depth = 0 := by
  induction s generalizing depth left with
  | nil =>
    -- an empty text has one part only
    have hlength := congrArg List.length hparts
    have hleft := List.length_pos_of_ne_nil hleft
    have hright := List.length_pos_of_ne_nil hright
    rw [List.length_append] at hlength
    change 1 = _ at hlength
    omega
  | cons c s ih =>
    obtain ⟨first, left, rfl⟩ := List.exists_cons_of_ne_nil hleft
    by_cases hc : c = separator ∧ depth = 0 ∧ !isOpening c ∧ !isClosing c
    · rw [partsFrom_cons_separator hc] at hparts
      obtain ⟨rfl, hlater⟩ := List.cons.inj hparts
      obtain ⟨rfl, hdepth, -⟩ := hc
      by_cases hnil : left = []
      · rw [hnil, List.intercalate_singleton]
        exact hdepth
      · rw [List.intercalate_cons_of_ne_nil hnil]
        exact ih hlater hnil
    · rw [partsFrom_cons_of_not_separator hc] at hparts
      obtain ⟨rfl, hlater⟩ := List.cons.inj hparts
      change ([separator].intercalate (consHead c (_ :: left))).foldl depthAfter depth = 0
      rw [intercalate_consHead]
      exact ih (congrArg (List.cons _) hlater) (List.cons_ne_nil _ _)

theorem openDepth_of_isCutPoint (h : IsCutPoint separator before after) : openDepth before = 0 := by
  obtain ⟨left, right, hparts, hleft, hright, rfl, -⟩ := h
  exact foldl_depthAfter_of_partsFrom hparts hleft hright

/-- The cut points are the separators in front of which no bracket is open. -/
theorem isCutPoint_iff (hopen : isOpening separator = false)
    (hclose : isClosing separator = false) :
    IsCutPoint separator before after ↔ openDepth before = 0 := by
  refine ⟨openDepth_of_isCutPoint, fun h => ?_⟩
  refine ⟨splitOutside separator before, splitOutside separator after, ?_,
    splitOutside_ne_nil separator before, splitOutside_ne_nil separator after,
    intercalate_splitOutside separator before, intercalate_splitOutside separator after⟩
  exact splitOutside_append_cons_of_openDepth h hopen hclose after

/-- A separator stands between a bracket and the one that closes it. -/
def IsEnclosed (separator : Char) (before after : Text) : Prop :=
  ∃ outer opening inner inner' closing outer', IsPair opening closing ∧
    before = outer ++ opening :: inner ∧ after = inner' ++ closing :: outer' ∧
    Balanced (inner ++ separator :: inner')

/-- The bracket in front of an enclosed separator is still open there. -/
theorem openDepth_pos_of_isEnclosed (h : IsEnclosed separator before after) :
    0 < openDepth before := by
  obtain ⟨outer, opening, inner, inner', closing, outer', hpair, rfl, -, hbody⟩ := h
  rw [Balanced, levelAfter?_append] at hbody
  obtain ⟨level, hinner, -⟩ := Option.bind_eq_some_iff.1 hbody
  have hlevel := foldl_depthAfter (levelAfter?_add hinner (openDepth outer + 1))
  rw [Nat.zero_add] at hlevel
  rw [openDepth, List.foldl_append, List.foldl_cons, ← openDepth, hpair.depthAfter_opening, hlevel]
  omega

/-! ### The partners of brackets -/

theorem levelAfter?_concat_eq_some_iff {level : Nat} :
    levelAfter? depth (s ++ [c]) = some level ↔ ∃ middle, levelAfter? depth s = some middle ∧
      ¬(middle = 0 ∧ !isOpening c ∧ isClosing c) ∧ depthAfter middle c = level := by
  rw [levelAfter?_append, Option.bind_eq_some_iff]
  refine exists_congr fun middle => and_congr_right fun _ => ?_
  rw [levelAfter?_cons_eq_some_iff]
  exact and_congr_right fun _ => Option.some_inj

/-- The bracket that closes the last but `more` of the open ones. -/
theorem exists_closing {level more : Nat} (h : levelAfter? (level + 1 + more) s = some 0) :
    ∃ inner closing outer, s = inner ++ closing :: outer ∧ isOpening closing = false ∧
      isClosing closing = true ∧ levelAfter? more inner = some 0 := by
  induction s generalizing more with
  | nil =>
    have := Option.some.inj h
    omega
  | cons c s ih =>
    obtain ⟨-, h⟩ := levelAfter?_cons_eq_some_iff.1 h
    by_cases hend : isOpening c = false ∧ isClosing c = true ∧ more = 0
    · obtain ⟨hopen, hclose, rfl⟩ := hend
      exact ⟨[], c, s, rfl, hopen, hclose, rfl⟩
    · -- the bracket in question comes later, so that `c` only changes how many others are open
      have hc : ¬(more = 0 ∧ !isOpening c ∧ isClosing c) := by
        rintro ⟨rfl, hopen, hclose⟩
        exact hend ⟨by simpa using hopen, hclose, rfl⟩
      rw [Nat.add_comm, depthAfter_add hc, Nat.add_comm] at h
      obtain ⟨inner, closing, outer, rfl, hopen, hclose, hinner⟩ := ih h
      exact ⟨c :: inner, closing, outer, rfl, hopen, hclose,
        levelAfter?_cons_eq_some_iff.2 ⟨hc, hinner⟩⟩

/-- The bracket that opened the last but `more` of the open ones. -/
theorem exists_opening {level more : Nat} (h : levelAfter? depth s = some (level + 1 + more))
    (hdepth : depth ≤ level) :
    ∃ outer opening inner, s = outer ++ opening :: inner ∧ isOpening opening = true ∧
      levelAfter? 0 inner = some more := by
  induction s using List.reverseRecOn generalizing more with
  | nil =>
    have := Option.some.inj h
    omega
  | append_singleton s c ih =>
    obtain ⟨middle, hs, hc, hmiddle⟩ := levelAfter?_concat_eq_some_iff.1 h
    by_cases hstart : isOpening c = true ∧ more = 0
    · obtain ⟨hopen, rfl⟩ := hstart
      exact ⟨s, c, [], rfl, hopen, rfl⟩
    · -- the bracket in question comes earlier, and stays open up to `c`
      have hlevel : level + 1 ≤ middle ∧ ¬(middle = level + 1 ∧ !isOpening c ∧ isClosing c) := by
        unfold depthAfter at hmiddle
        grind
      obtain ⟨others, rfl⟩ := Nat.exists_eq_add_of_le hlevel.1
      have hothers : ¬(others = 0 ∧ !isOpening c ∧ isClosing c) := fun hzero =>
        hlevel.2 ⟨by omega, hzero.2⟩
      rw [Nat.add_comm, depthAfter_add hothers] at hmiddle
      obtain ⟨outer, opening, inner, rfl, hopening, hinner⟩ := ih hs
      refine ⟨outer, opening, inner ++ [c], by simp, hopening, ?_⟩
      exact levelAfter?_concat_eq_some_iff.2 ⟨others, hinner, hothers, by omega⟩

/-- A bracket that is open in front of a separator has its partner behind it, if the text is
    balanced. -/
theorem isEnclosed_of_openDepth_ne_zero (hopen : isOpening separator = false)
    (hclose : isClosing separator = false) (h : Balanced (before ++ separator :: after))
    (hdepth : openDepth before ≠ 0) : IsEnclosed separator before after := by
  rw [Balanced, levelAfter?_append] at h
  obtain ⟨open', hbefore, hafter⟩ := Option.bind_eq_some_iff.1 h
  rw [levelAfter?_cons_of_plain hopen hclose] at hafter
  obtain rfl : openDepth before = open' := foldl_depthAfter hbefore
  obtain ⟨level, hlevel⟩ := Nat.exists_eq_succ_of_ne_zero hdepth
  rw [hlevel] at hbefore hafter
  obtain ⟨outer, opening, inner, rfl, hopening, hinner⟩ := exists_opening
    (show levelAfter? 0 before = some (level + 1 + 0) from hbefore) (Nat.zero_le level)
  obtain ⟨inner', closing, outer', rfl, hnot, hclosing, hinner'⟩ := exists_closing
    (show levelAfter? (level + 1 + 0) after = some 0 from hafter)
  refine ⟨outer, opening, inner, inner', closing, outer', ⟨hopening, hclosing, hnot⟩, rfl, rfl, ?_⟩
  rw [Balanced, levelAfter?_append, hinner, Option.bind_some,
    levelAfter?_cons_of_plain hopen hclose]
  exact hinner'

/-- In a balanced text a bracket is open in front of just those separators that a pair encloses. -/
theorem isEnclosed_iff (hopen : isOpening separator = false) (hclose : isClosing separator = false)
    (h : Balanced (before ++ separator :: after)) :
    IsEnclosed separator before after ↔ openDepth before ≠ 0 :=
  ⟨fun henclosed => Nat.pos_iff_ne_zero.1 (openDepth_pos_of_isEnclosed henclosed),
    isEnclosed_of_openDepth_ne_zero hopen hclose h⟩

/-! ### Brackets in the parts -/

/-- When the last bracket is closed with the end of the text, so it is with the end of each part. -/
theorem balanced_parts (separator : Char) (h : levelAfter? depth s = some 0) :
    levelAfter? depth (splitOutsideFrom separator depth s).1 = some 0 ∧
      ∀ p ∈ (splitOutsideFrom separator depth s).2, Balanced p := by
  induction s generalizing depth with
  | nil => exact ⟨h, List.forall_mem_nil _⟩
  | cons c s ih =>
    obtain ⟨hc, h⟩ := levelAfter?_cons_eq_some_iff.1 h
    obtain ⟨hfirst, hlater⟩ := ih h
    rw [splitOutsideFrom]
    split
    · next hsep =>
      obtain ⟨-, rfl, hopen, hclose⟩ := hsep
      rw [Bool.not_eq_true'] at hopen hclose
      rw [depthAfter_of_plain hopen hclose] at hfirst hlater ⊢
      exact ⟨rfl, List.forall_mem_cons.2 ⟨hfirst, hlater⟩⟩
    · exact ⟨levelAfter?_cons_eq_some_iff.2 ⟨hc, hfirst⟩, hlater⟩

theorem Balanced.of_mem_splitOutside (h : Balanced s) {p : Text}
    (hp : p ∈ splitOutside separator s) : Balanced p := by
  obtain ⟨hfirst, hlater⟩ := balanced_parts separator h
  obtain rfl | hp := List.mem_cons.1 hp
  · exact hfirst
  · exact hlater p hp

/-- A bracket and the one of its own sort that closes it. -/
def IsMatch (opening closing : Char) : Prop :=
  (opening, closing) ∈ [('[', ']'), ('<', '>'), ('(', ')')]

instance (opening closing : Char) : Decidable (IsMatch opening closing) :=
  inferInstanceAs (Decidable (_ ∈ _))

theorem IsMatch.isPair {opening closing : Char} (h : IsMatch opening closing) :
    IsPair opening closing := by
  simp only [IsMatch, List.mem_cons, Prod.mk.injEq, List.not_mem_nil, or_false] at h
  obtain ⟨rfl, rfl⟩ | ⟨rfl, rfl⟩ | ⟨rfl, rfl⟩ := h
  · exact ⟨rfl, rfl, rfl⟩
  · exact ⟨rfl, rfl, rfl⟩
  · exact ⟨rfl, rfl, rfl⟩

/-- Every bracket is closed by one of its own sort, and the pairs do not cross. -/
inductive WellNested : Text → Prop
  | nil : WellNested []
  | plain {c : Char} {s : Text} (hopen : isOpening c = false) (hclose : isClosing c = false)
      (hs : WellNested s) : WellNested (c :: s)
  | pair {opening closing : Char} {body s : Text} (h : IsMatch opening closing)
      (hbody : WellNested body) (hs : WellNested s) : WellNested (opening :: (body ++ closing :: s))

theorem WellNested.balanced (h : WellNested s) : Balanced s := by
  induction h with
  | nil => exact balanced_nil
  | plain hopen hclose _ ih => rwa [Balanced, levelAfter?_cons_of_plain hopen hclose]
  | pair h _ _ ihbody ih =>
    have happend := (h.isPair.balanced ihbody).append ih
    rwa [List.cons_append, List.append_assoc] at happend

/-- A pair of brackets stays in one part together with all that stands between them. -/
theorem WellNested.parts (h : WellNested s) (separator : Char) :
    WellNested (splitOutsideFrom separator 0 s).1 ∧
      ∀ p ∈ (splitOutsideFrom separator 0 s).2, WellNested p := by
  induction h with
  | nil => exact ⟨.nil, List.forall_mem_nil _⟩
  | @plain c s hopen hclose _ ih =>
    rw [splitOutsideFrom, depthAfter_of_plain hopen hclose]
    split
    · exact ⟨.nil, List.forall_mem_cons.2 ih⟩
    · exact ⟨.plain hopen hclose ih.1, ih.2⟩
  | @pair opening closing body s hmatch hbody _ _ ih =>
    have hbalanced := hmatch.isPair.balanced hbody.balanced
    have hunsplit : Unsplit separator (opening :: (body ++ [closing])) :=
      hmatch.isPair.unsplit hbody.balanced
    have happend : ∀ t,
        opening :: (body ++ closing :: t) = opening :: (body ++ [closing]) ++ t := by simp
    rw [happend, splitOutsideFrom_append_of_nil hbalanced (unsplit_iff.1 hunsplit) s, ← happend]
    exact ⟨.pair hmatch hbody ih.1, ih.2⟩

theorem WellNested.of_mem_splitOutside (h : WellNested s) {p : Text}
    (hp : p ∈ splitOutside separator s) : WellNested p := by
  obtain ⟨hfirst, hlater⟩ := h.parts separator
  obtain rfl | hp := List.mem_cons.1 hp
  · exact hfirst
  · exact hlater p hp

/-! ### The splitting of every text -/

/-- **Splitting outside brackets** takes slices of the text none of which is at a wrong position.
    There is at least one part, the parts with the separator between them are the text, and the text
    is cut at the separators in front of which no bracket is open, and nowhere else. In a balanced
    text these are the separators that no pair of brackets encloses, and each part is balanced; when
    moreover every bracket is closed by one of its own sort, this holds of each part too. -/
theorem splitOutside_partition (separator : Char) (hopen : isOpening separator = false)
    (hclose : isClosing separator = false) (s : Text) :
    splitOutsideAt separator s = .ok (splitOutside separator s) ∧
    splitOutside separator s ≠ [] ∧
    [separator].intercalate (splitOutside separator s) = s ∧
    (∀ before after, s = before ++ separator :: after →
      (IsCutPoint separator before after ↔ openDepth before = 0)) ∧
    (Balanced s → (∀ p ∈ splitOutside separator s, Balanced p) ∧
      ∀ before after, s = before ++ separator :: after →
        (IsCutPoint separator before after ↔ ¬IsEnclosed separator before after)) ∧
    (WellNested s → ∀ p ∈ splitOutside separator s, WellNested p) := by
  refine ⟨splitOutsideAt_eq_ok separator s, splitOutside_ne_nil separator s,
    intercalate_splitOutside separator s, fun before after _ => isCutPoint_iff hopen hclose,
    fun h => ⟨fun p => h.of_mem_splitOutside, ?_⟩, fun h p => h.of_mem_splitOutside⟩
  rintro before after rfl
  rw [isCutPoint_iff hopen hclose, isEnclosed_iff hopen hclose h, not_not]

/-- A comma inside two pairs of brackets and one outside, behind a character of two bytes. -/
theorem splitOutside_partition_nested :
    isOpening ',' = false ∧ isClosing ',' = false ∧
      Balanced ['<', 'é', ',', '(', 'b', ')', '>', ',', 'd'] ∧
      splitOutsideAt ',' ['<', 'é', ',', '(', 'b', ')', '>', ',', 'd'] =
        .ok [['<', 'é', ',', '(', 'b', ')', '>'], ['d']] ∧
      IsCutPoint ',' ['<', 'é', ',', '(', 'b', ')', '>'] ['d'] ∧
      IsEnclosed ',' ['<', 'é'] ['(', 'b', ')', '>', ',', 'd'] ∧
      ¬IsCutPoint ',' ['<', 'é'] ['(', 'b', ')', '>', ',', 'd'] ∧
      WellNested ['<', 'é', ',', '(', 'b', ')', '>'] := by
  have hbalanced : Balanced ['<', 'é', ',', '(', 'b', ')', '>', ',', 'd'] := by decide
  have hparts : splitOutside ',' ['<', 'é', ',', '(', 'b', ')', '>', ',', 'd'] =
      [['<', 'é', ',', '(', 'b', ')', '>'], ['d']] := by decide
  have hinner : WellNested ['é', ',', '(', 'b', ')'] :=
    .plain rfl rfl (.plain rfl rfl
      (@WellNested.pair '(' ')' ['b'] [] (by decide) (.plain rfl rfl .nil) .nil))
  have hnested : WellNested ['<', 'é', ',', '(', 'b', ')', '>', ',', 'd'] :=
    @WellNested.pair '<' '>' ['é', ',', '(', 'b', ')'] [',', 'd'] (by decide) hinner
      (.plain rfl rfl (.plain rfl rfl .nil))
  obtain ⟨hslices, -, -, hcut, hinside, hsorts⟩ :=
    splitOutside_partition ',' rfl rfl ['<', 'é', ',', '(', 'b', ')', '>', ',', 'd']
  have henclosed : IsEnclosed ',' ['<', 'é'] ['(', 'b', ')', '>', ',', 'd'] :=
    ⟨[], '<', ['é'], ['(', 'b', ')'], '>', [',', 'd'], ⟨rfl, rfl, rfl⟩, rfl, rfl, by decide⟩
  refine ⟨rfl, rfl, hbalanced, hparts ▸ hslices, (hcut _ _ rfl).2 (by decide), henclosed,
    fun h => ((hinside hbalanced).2 _ _ rfl).1 h henclosed, hsorts hnested _ ?_⟩
  rw [hparts]
  exact List.mem_cons_self

end CallSchema.Text
