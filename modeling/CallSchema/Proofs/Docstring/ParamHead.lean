import CallSchema.Docstring.Titled
import CallSchema.Proofs.Text.Word

/-!
# The lines that open parameter entries

A line opens an entry about a parameter when it begins with a name, in front of which at most two
stars stand, and a colon comes behind the name, or behind a type in parentheses. The type ends at
the first closing parenthesis that is followed by a colon, with nothing but blanks between the two,
so that it may have parentheses and colons of its own. The reader accepts exactly the lines of this
form, each of which has it in one way only.

## Main definitions

* `Text.ColonNext` -- nothing but blanks stands in front of a colon
* `ParamHead.NoneCloses` -- no closing parenthesis of a type has a colon next to it
* `ParamHead.Opening` -- a line begins with stars and a whole name
* `ParamHead.Behind` -- the form of what stands behind the name
* `ParamHead.Form` -- the form of a line that opens an entry

## Main statements

* `ParamHead.closeBeforeColon?_eq_some_iff` -- where the type ends
* `ParamHead.ofLine?_eq_some_iff` -- which lines are read, and as what
* `ParamHead.Form.unique` -- a line has the form in one way only
-/

namespace CallSchema

open Text

/-! ### The next colon -/

namespace Text

variable {s blanks rest : Text}

/-- A colon comes next, with nothing but blanks in front of it. -/
def ColonNext (s : Text) : Prop :=
  ∃ blanks rest, allBlank blanks = true ∧ s = blanks ++ ':' :: rest

theorem trimStart_append_colon (h : allBlank blanks = true) (rest : Text) :
    trimStart (blanks ++ ':' :: rest) = ':' :: rest :=
  trimStart_append_cons h (by decide) rest

theorem colonNext_iff : ColonNext s ↔ (trimStart s).head? = some ':' := by
  constructor
  · rintro ⟨blanks, rest, hblanks, rfl⟩
    rw [trimStart_append_colon hblanks]
    rfl
  · intro h
    obtain ⟨blanks, hblanks, hs⟩ := exists_append_trimStart s
    obtain ⟨rest, hrest⟩ := List.head?_eq_some_iff.1 h
    exact ⟨blanks, rest, hblanks, hrest ▸ hs⟩

instance (s : Text) : Decidable (ColonNext s) :=
  decidable_of_iff _ colonNext_iff.symm

theorem colon_append_inj {blanks' rest' : Text} (h : allBlank blanks = true)
    (h' : allBlank blanks' = true) (heq : blanks ++ ':' :: rest = blanks' ++ ':' :: rest') :
    rest = rest' := by
  have htrim := congrArg trimStart heq
  rw [trimStart_append_colon h, trimStart_append_colon h'] at htrim
  exact (List.cons.inj htrim).2

end Text

namespace ParamHead

variable {name behind typeText gap rest s l text : Text} {stars : Nat} {type? : Option Text}
  {c : Char}

/-! ### The end of the type -/

theorem closeBeforeColon?_close (h : trimStart s = ':' :: rest) :
    closeBeforeColon? (')' :: s) = some ([], trimStart rest) := by
  unfold closeBeforeColon?
  simp only [h]

/-- Any other character belongs to the type. -/
theorem closeBeforeColon?_cons (h : ¬(c = ')' ∧ ColonNext s)) :
    closeBeforeColon? (c :: s) =
      (closeBeforeColon? s).map fun parts => (c :: parts.1, parts.2) := by
  rw [closeBeforeColon?]
  rintro rest rfl htrim
  exact h ⟨rfl, colonNext_iff.2 (by rw [htrim]; rfl)⟩

/-- No closing parenthesis in the type has a colon next to it; the one in front of `tail` comes
    behind the type. -/
def NoneCloses (typeText tail : Text) : Prop :=
  ∀ before after, typeText = before ++ ')' :: after → ¬ColonNext (after ++ ')' :: tail)

theorem noneCloses_nil (tail : Text) : NoneCloses [] tail :=
  fun _ _ h => absurd h.symm (List.append_ne_nil_of_right_ne_nil _ (List.cons_ne_nil _ _))

theorem noneCloses_cons_iff {tail : Text} :
    NoneCloses (c :: typeText) tail ↔
      ¬(c = ')' ∧ ColonNext (typeText ++ ')' :: tail)) ∧ NoneCloses typeText tail := by
  constructor
  · intro h
    refine ⟨?_, fun before after hsplit => h (c :: before) after (congrArg (c :: ·) hsplit)⟩
    rintro ⟨rfl, hcolon⟩
    exact h [] typeText rfl hcolon
  · rintro ⟨hc, h⟩ before after hsplit
    cases before with
    | nil =>
      obtain ⟨rfl, rfl⟩ := List.cons.inj hsplit
      exact fun hcolon => hc ⟨rfl, hcolon⟩
    | cons d before => exact h before after (List.cons.inj hsplit).2

instance decidableNoneCloses : (typeText tail : Text) → Decidable (NoneCloses typeText tail)
  | [], tail => isTrue (noneCloses_nil tail)
  | _ :: typeText, tail =>
    have := decidableNoneCloses typeText tail
    decidable_of_iff _ noneCloses_cons_iff.symm

/-- The type ends at the first closing parenthesis that a colon comes next to. -/
theorem closeBeforeColon?_eq_some_iff :
    closeBeforeColon? s = some (typeText, text) ↔ ∃ gap rest, allBlank gap = true ∧
      s = typeText ++ ')' :: (gap ++ ':' :: rest) ∧ NoneCloses typeText (gap ++ ':' :: rest) ∧
      text = trimStart rest := by
  induction s generalizing typeText with
  | nil => simp [closeBeforeColon?]
  | cons c s ih =>
    by_cases hc : c = ')' ∧ ColonNext s
    · obtain ⟨rfl, gap, rest, hgap, rfl⟩ := hc
      rw [closeBeforeColon?_close (trimStart_append_colon hgap rest), Option.some.injEq,
        Prod.mk.injEq]
      constructor
      · rintro ⟨rfl, rfl⟩
        exact ⟨gap, rest, hgap, rfl, noneCloses_nil _, rfl⟩
      · rintro ⟨gap', rest', hgap', hs, hnone, rfl⟩
        cases typeText with
        | nil =>
          have hrest := colon_append_inj hgap hgap' (List.cons.inj hs).2
          exact ⟨rfl, congrArg trimStart hrest⟩
        | cons d typeText =>
          obtain ⟨rfl, htail⟩ := List.cons.inj hs
          exact absurd ⟨rfl, gap, rest, hgap, htail.symm⟩ (noneCloses_cons_iff.1 hnone).1
    · rw [closeBeforeColon?_cons hc, Option.map_eq_some_iff]
      constructor
      · rintro ⟨⟨inner, text⟩, hinner, heq⟩
        obtain ⟨rfl, rfl⟩ := Prod.mk.inj heq
        obtain ⟨gap, rest, hgap, rfl, hnone, rfl⟩ := ih.1 hinner
        exact ⟨gap, rest, hgap, rfl, noneCloses_cons_iff.2 ⟨hc, hnone⟩, rfl⟩
      · rintro ⟨gap, rest, hgap, hs, hnone, rfl⟩
        cases typeText with
        | nil =>
          obtain ⟨rfl, rfl⟩ := List.cons.inj hs
          exact absurd ⟨rfl, gap, rest, hgap, rfl⟩ hc
        | cons d typeText =>
          obtain ⟨rfl, rfl⟩ := List.cons.inj hs
          have hinner := ih.2 ⟨gap, rest, hgap, rfl, (noneCloses_cons_iff.1 hnone).2, rfl⟩
          exact ⟨_, hinner, rfl⟩

/-- Some closing parenthesis with a colon next to it is enough for an end. -/
theorem isSome_closeBeforeColon? (hgap : allBlank gap = true) (typeText rest : Text) :
    (closeBeforeColon? (typeText ++ ')' :: (gap ++ ':' :: rest))).isSome = true := by
  induction typeText with
  | nil =>
    rw [List.nil_append, closeBeforeColon?_close (trimStart_append_colon hgap rest)]
    rfl
  | cons c typeText ih =>
    rw [List.cons_append]
    by_cases hc : c = ')' ∧ ColonNext (typeText ++ ')' :: (gap ++ ':' :: rest))
    · obtain ⟨rfl, blanks, rest', hblanks, heq⟩ := hc
      rw [heq, closeBeforeColon?_close (trimStart_append_colon hblanks rest')]
      rfl
    · rw [closeBeforeColon?_cons hc, Option.isSome_map]
      exact ih

/-! ### What stands behind the name -/

/-- The form of what stands behind the name: a colon, or a type in parentheses and a colon, with
    blanks in front of each of them. The type ends at the first closing parenthesis that a colon
    comes next to. -/
inductive Behind : Option Text → Text → Text → Prop
  | untyped {blanks rest : Text} (hblanks : allBlank blanks = true) :
      Behind none rest (blanks ++ ':' :: rest)
  | typed {blanks typeText gap rest : Text} (hblanks : allBlank blanks = true)
      (hgap : allBlank gap = true) (hfirst : NoneCloses typeText (gap ++ ':' :: rest)) :
      Behind (some typeText) rest (blanks ++ '(' :: (typeText ++ ')' :: (gap ++ ':' :: rest)))

/-- The type and the text that are read behind a name. -/
def behind? (s : Text) : Option (Option Text × Text) :=
  match trimStart s with
  | ':' :: rest => some (none, trimStart rest)
  | '(' :: rest => (closeBeforeColon? rest).map fun (typeText, text) => (some typeText, text)
  | _ => none

theorem behind?_eq_some_iff :
    behind? s = some (type?, text) ↔ ∃ rest, Behind type? rest s ∧ text = trimStart rest := by
  obtain ⟨blanks, hblanks, hs⟩ := exists_append_trimStart s
  constructor
  · intro h
    rw [behind?] at h
    split at h
    · next rest htrim =>
      obtain ⟨rfl, rfl⟩ := Prod.mk.inj (Option.some.inj h)
      rw [hs, htrim]
      exact ⟨rest, .untyped hblanks, rfl⟩
    · next inner htrim =>
      obtain ⟨⟨typeText, text⟩, hclose, heq⟩ := Option.map_eq_some_iff.1 h
      obtain ⟨rfl, rfl⟩ := Prod.mk.inj heq
      obtain ⟨gap, rest, hgap, rfl, hnone, rfl⟩ := closeBeforeColon?_eq_some_iff.1 hclose
      rw [hs, htrim]
      exact ⟨rest, .typed hblanks hgap hnone, rfl⟩
    · cases h
  · rintro ⟨rest, hbehind, rfl⟩
    cases hbehind with
    | untyped hblanks => simp only [behind?, trimStart_append_colon hblanks]
    | typed hblanks hgap hfirst =>
      rw [behind?, trimStart_append_cons hblanks (by decide)]
      simp only [closeBeforeColon?_eq_some_iff.2 ⟨_, _, hgap, rfl, hfirst, rfl⟩, Option.map_some]

theorem Behind.unique {type?' : Option Text} {rest' : Text} (h : Behind type? rest s)
    (h' : Behind type?' rest' s) : type?' = type? ∧ rest' = rest := by
  have hread := behind?_eq_some_iff.2 ⟨rest, h, rfl⟩
  rw [behind?_eq_some_iff.2 ⟨rest', h', rfl⟩] at hread
  obtain ⟨rfl, -⟩ := Prod.mk.inj (Option.some.inj hread)
  refine ⟨rfl, ?_⟩
  cases h with
  | untyped hblanks =>
    generalize hs : _ ++ ':' :: rest = s at h'
    cases h' with
    | untyped hblanks' => exact (colon_append_inj hblanks hblanks' hs).symm
  | typed hblanks hgap =>
    generalize hs : _ ++ '(' :: _ = s at h'
    cases h' with
    | typed hblanks' hgap' =>
      have htrim := congrArg trimStart hs
      rw [trimStart_append_cons hblanks (by decide),
        trimStart_append_cons hblanks' (by decide)] at htrim
      have hclose := List.append_cancel_left (List.cons.inj htrim).2
      exact (colon_append_inj hgap hgap' (List.cons.inj hclose).2).symm

theorem Behind.head?_not_isWord (h : Behind type? rest behind) :
    ∀ d, behind.head? = some d → isWord d = false := by
  have hhead : ∀ {blanks : Text}, allBlank blanks = true →
      ∀ d, blanks.head? = some d → isBlank d = true :=
    fun hblanks d hd => allBlank_iff.1 hblanks d (List.mem_of_mem_head? hd)
  cases h with
  | untyped hblanks => exact head?_append_not_isWord (hhead hblanks) (by decide) _
  | typed hblanks => exact head?_append_not_isWord (hhead hblanks) (by decide) _

/-! ### Stars and the name -/

/-- A line begins with at most two stars and a name, the longest one there. -/
structure Opening (stars : Nat) (name behind l : Text) : Prop where
  line_eq : l = List.replicate stars '*' ++ (name ++ behind)
  stars_le : stars ≤ 2
  ne_nil : name ≠ []
  isWord : ∀ c ∈ name, isWord c = true
  head?_not_isWord : ∀ c, behind.head? = some c → Text.isWord c = false

theorem dropStar_of_head?_ne (h : s.head? ≠ some '*') : dropStar s = s := by
  unfold dropStar
  split
  · exact absurd rfl h
  · rfl

/-- Up to two stars are dropped. -/
theorem dropStar_replicate_append (hstars : stars ≤ 2) (h : s.head? ≠ some '*') :
    dropStar (dropStar (List.replicate stars '*' ++ s)) = s := by
  obtain rfl | rfl | rfl : stars = 0 ∨ stars = 1 ∨ stars = 2 := by omega
  · rw [List.replicate_zero, List.nil_append, dropStar_of_head?_ne h, dropStar_of_head?_ne h]
  · exact dropStar_of_head?_ne h
  · rfl

theorem exists_replicate_append_dropStar (s : Text) :
    ∃ stars ≤ 1, s = List.replicate stars '*' ++ dropStar s := by
  unfold dropStar
  split
  · exact ⟨1, Nat.le_refl 1, rfl⟩
  · exact ⟨0, Nat.zero_le 1, rfl⟩

theorem head?_ne_star_of_isWord (hne : name ≠ []) (hname : ∀ c ∈ name, isWord c = true)
    (behind : Text) : (name ++ behind).head? ≠ some '*' := by
  intro hstar
  rw [List.head?_append_of_ne_nil _ hne] at hstar
  have hword := hname '*' (List.mem_of_mem_head? hstar)
  exact absurd hword (by decide)

theorem Opening.dropStar_eq (h : Opening stars name behind l) :
    dropStar (dropStar l) = name ++ behind := by
  rw [h.line_eq]
  exact dropStar_replicate_append h.stars_le (head?_ne_star_of_isWord h.ne_nil h.isWord behind)

theorem Opening.unique {stars' : Nat} {name' behind' : Text} (h : Opening stars name behind l)
    (h' : Opening stars' name' behind' l) : stars' = stars ∧ name' = name ∧ behind' = behind := by
  obtain ⟨htake, hdrop⟩ := takeWhile_isWord_append h.isWord h.head?_not_isWord
  obtain ⟨htake', hdrop'⟩ := takeWhile_isWord_append h'.isWord h'.head?_not_isWord
  rw [← h.dropStar_eq] at htake hdrop
  rw [← h'.dropStar_eq] at htake' hdrop'
  obtain rfl := htake'.symm.trans htake
  obtain rfl := hdrop'.symm.trans hdrop
  have hstars := List.append_cancel_right (h'.line_eq.symm.trans h.line_eq)
  exact ⟨by simpa using congrArg List.length hstars, rfl, rfl⟩

/-- A line with a name behind its stars begins with both. -/
theorem exists_opening (h : (dropStar (dropStar l)).takeWhile isWord ≠ []) :
    ∃ stars name behind, Opening stars name behind l := by
  obtain ⟨first, hfirst, hl⟩ := exists_replicate_append_dropStar l
  obtain ⟨second, hsecond, hdrop⟩ := exists_replicate_append_dropStar (dropStar l)
  refine ⟨first + second, (dropStar (dropStar l)).takeWhile isWord,
    (dropStar (dropStar l)).dropWhile isWord, ?_, by omega, h, fun c => List.mem_takeWhile_imp,
    fun c hc => ?_⟩
  · rw [List.takeWhile_append_dropWhile, List.replicate_add, List.append_assoc, ← hdrop, ← hl]
  · simpa [hc] using List.head?_dropWhile_not isWord (dropStar (dropStar l))

/-! ### Whole lines -/

/-- The form of a line that opens an entry about a parameter. -/
def Form (name : Text) (type? : Option Text) (rest l : Text) : Prop :=
  ∃ stars behind, Opening stars name behind l ∧ Behind type? rest behind

/-- A line has the form of one that opens an entry in one way only. -/
theorem Form.unique {name' rest' : Text} {type?' : Option Text} (h : Form name type? rest l)
    (h' : Form name' type?' rest' l) : name' = name ∧ type?' = type? ∧ rest' = rest := by
  obtain ⟨stars, behind, hopening, hbehind⟩ := h
  obtain ⟨stars', behind', hopening', hbehind'⟩ := h'
  obtain ⟨rfl, rfl, rfl⟩ := hopening.unique hopening'
  exact ⟨rfl, hbehind.unique hbehind'⟩

theorem Opening.ofLine?_eq (h : Opening stars name behind l) :
    ofLine? l = (behind? behind).map fun parts => ⟨name, parts.1, parts.2⟩ := by
  obtain ⟨htake, hdrop⟩ := takeWhile_isWord_append h.isWord h.head?_not_isWord
  rw [ofLine?, h.dropStar_eq, behind?]
  simp only [htake, hdrop, List.isEmpty_iff, h.ne_nil, if_false]
  cases trimStart behind with
  | nil => rfl
  | cons c tail =>
    by_cases hcolon : c = ':'
    · rw [hcolon]
      rfl
    · by_cases hparenthesis : c = '('
      · simp only [hparenthesis, Option.map_map]
        rfl
      · simp [hcolon, hparenthesis]

theorem ofLine?_of_not_opening (h : ¬∃ stars name behind, Opening stars name behind l) :
    ofLine? l = none := by
  have hnil := not_ne_iff.1 (mt exists_opening h)
  rw [ofLine?]
  simp only [hnil, List.isEmpty_nil, if_true]

/-- Exactly the lines of the form are read, with the blanks in front of the text dropped. -/
theorem ofLine?_eq_some_iff {head : ParamHead} :
    ofLine? l = some head ↔
      ∃ rest, Form head.name head.typeText rest l ∧ head.text = trimStart rest := by
  constructor
  · intro h
    obtain ⟨stars, name, behind, hopening⟩ : ∃ stars name behind, Opening stars name behind l := by
      by_contra hnone
      rw [ofLine?_of_not_opening hnone] at h
      cases h
    rw [hopening.ofLine?_eq, Option.map_eq_some_iff] at h
    obtain ⟨⟨type?, text⟩, hbehind, rfl⟩ := h
    obtain ⟨rest, hform, htext⟩ := behind?_eq_some_iff.1 hbehind
    exact ⟨rest, ⟨stars, behind, hopening, hform⟩, htext⟩
  · rintro ⟨rest, ⟨stars, behind, hopening, hbehind⟩, htext⟩
    rw [hopening.ofLine?_eq, behind?_eq_some_iff.2 ⟨rest, hbehind, htext⟩]
    rfl

theorem ofLine?_eq_none_iff :
    ofLine? l = none ↔ ¬∃ name type? rest, Form name type? rest l := by
  rw [Option.eq_none_iff_forall_ne_some]
  constructor
  · rintro h ⟨name, type?, rest, hform⟩
    exact h ⟨name, type?, trimStart rest⟩ (ofLine?_eq_some_iff.2 ⟨rest, hform, rfl⟩)
  · intro h head hhead
    obtain ⟨rest, hform, -⟩ := ofLine?_eq_some_iff.1 hhead
    exact h ⟨head.name, head.typeText, rest, hform⟩

end ParamHead

end CallSchema
