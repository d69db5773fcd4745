import CallSchema.Proofs.Docstring.FieldPattern
import CallSchema.Proofs.Docstring.ParamHead

/-!
# Parameter lines as matches of a pattern

A line that opens an entry about a parameter can also be told by a pattern, whose groups are the
name with its stars, the type and the text. The type is a run that goes on no further than it must
and may hold anything, so that a line with many parentheses and colons leaves many ways to try. The
first of them that matches ends the type at the first closing parenthesis that a colon comes next
to; when there is none, the other choices for stars, name and blanks do not help. So the pattern
matches the lines that have the form of such an entry and no others, and the entry notes the parts
of the form.

## Main definitions

* `ParamHead.pattern` -- the pattern of the lines that open an entry
* `ParamHead.noted` -- what the groups hold for a given form
* `ParamHead.ofGroups` -- the parts that the groups of a match stand for

## Main statements

* `ParamHead.Opening.groups?_eq` -- the groups of the first match, by the form of the line
* `Titled.noteParam_grammar` -- which entries are about a parameter, and what they say of it
-/

namespace CallSchema

open Text TextPattern

namespace ParamHead

/-- At most two stars. -/
def starsPattern : TextPattern :=
  optional ((one (· == '*')).seq (optional (one (· == '*'))))

/-- The stars and the name. -/
def namePattern : TextPattern :=
  starsPattern.seq (many true 1 isWord)

/-- A type in parentheses, which goes on no further than it must. -/
def typePattern : TextPattern :=
  (one (· == '(')).seq ((group 2 (many false 0 (· != '\n'))).seq (one (· == ')')))

/-- What stands behind the name: a type or none, and the text behind a colon. -/
def behindPattern : TextPattern :=
  (many true 0 isBlank).seq ((optional typePattern).seq FieldLine.restPattern)

/-- The name with its stars, a type or none, and the text. -/
def pattern : TextPattern :=
  (group 1 namePattern).seq behindPattern

/-- The parts that the groups of a match stand for. -/
def ofGroups (groups : List (Nat × Text)) : ParamHead :=
  ⟨Entry.bareName ((groups.lookup 1).getD []), groups.lookup 2, (groups.lookup 3).getD []⟩

/-- What the groups behind the name hold. The text begins behind the blanks. -/
def noted (type? : Option Text) (rest : Text) : List (Nat × Text) :=
  type?.toList.map ((2, ·)) ++ [(3, trimStart rest)]

variable {name behind typeText gap rest s l : Text} {stars : Nat} {type? : Option Text}
  {groups : List (Nat × Text)} {way : Way}

/-! ### The end of the type -/

theorem colonNext_of_groups?_close (h : '\n' ∉ s)
    (hgroups : ((one (· == ')')).seq FieldLine.restPattern).groups? s = some groups) :
    ∃ tail, s = ')' :: tail ∧ ColonNext tail := by
  obtain ⟨tail, rfl, hrest⟩ := groups?_char_seq_of_eq_some hgroups
  have htail : '\n' ∉ tail := fun hmem => h (List.mem_cons_of_mem _ hmem)
  obtain ⟨gap, rest, rfl, hgap, -⟩ := FieldLine.groups?_restPattern htail hrest
  exact ⟨_, rfl, gap, rest, hgap, rfl⟩

/-- The run for the type stops at the first closing parenthesis that a colon comes next to. -/
theorem groups?_type (hgap : allBlank gap = true)
    (hfirst : NoneCloses typeText (gap ++ ':' :: rest))
    (h : '\n' ∉ typeText ++ ')' :: (gap ++ ':' :: rest)) :
    ((group 2 (many false 0 (· != '\n'))).seq
      ((one (· == ')')).seq FieldLine.restPattern)).groups?
        (typeText ++ ')' :: (gap ++ ':' :: rest)) = some (noted (some typeText) rest) := by
  have hrest : '\n' ∉ rest := fun hmem => h (by simp [hmem])
  refine groups?_group_lazy_seq (fun c hc => ?_) ?_ fun before after hsplit hne => ?_
  · rw [bne_iff_ne]
    rintro rfl
    exact h (List.mem_append_left _ hc)
  · rw [groups?_char_seq, FieldLine.groups?_restPattern_append hgap hrest]
    rfl
  · -- an earlier stop is at a closing parenthesis within the type, which no colon comes next to
    by_contra hsome
    obtain ⟨groups, hgroups⟩ := Option.ne_none_iff_exists'.1 hsome
    have hafter : '\n' ∉ after ++ ')' :: (gap ++ ':' :: rest) := by
      intro hmem
      rw [hsplit, List.append_assoc] at h
      exact h (List.mem_append_right _ hmem)
    obtain ⟨tail, htail, hcolon⟩ := colonNext_of_groups?_close hafter hgroups
    obtain ⟨c, after, rfl⟩ := List.exists_cons_of_ne_nil hne
    obtain ⟨rfl, rfl⟩ := List.cons.inj htail
    exact hfirst before after hsplit hcolon

/-- Wherever the run stops, some closing parenthesis has a colon next to it. -/
theorem isSome_closeBeforeColon?_of_groups? (h : '\n' ∉ s)
    (hgroups : ((group 2 (many false 0 (· != '\n'))).seq
      ((one (· == ')')).seq FieldLine.restPattern)).groups? s = some groups) :
    (closeBeforeColon? s).isSome = true := by
  obtain ⟨taken, tail, later, rfl, -, -, hlater, -⟩ := groups?_group_many_seq_of_eq_some hgroups
  have htail : '\n' ∉ tail := fun hmem => h (List.mem_append_right _ hmem)
  obtain ⟨_, rfl, gap, rest, hgap, rfl⟩ := colonNext_of_groups?_close htail hlater
  exact isSome_closeBeforeColon? hgap taken rest

/-! ### What stands behind the name -/

theorem groups?_typePattern_seq (s : Text) :
    (typePattern.seq FieldLine.restPattern).groups? s =
      ((one (· == '(')).seq (((group 2 (many false 0 (· != '\n'))).seq (one (· == ')'))).seq
        FieldLine.restPattern)).groups? s :=
  groups?_seq_assoc _ _ _ s

theorem Behind.groups?_eq (hbehind : Behind type? rest behind) (h : '\n' ∉ behind) :
    behindPattern.groups? behind = some (noted type? rest) := by
  refine groups?_greedy_seq (Nat.zero_le _) ?_
  change TextPattern.groups? _ (trimStart behind) = _
  rw [groups?_optional_seq, groups?_typePattern_seq]
  cases hbehind with
  | untyped hblanks =>
    have hrest : '\n' ∉ rest := fun hmem => h (by simp [hmem])
    have htype : ∀ q : TextPattern, ((one (· == '(')).seq q).groups? (':' :: rest) = none :=
      fun _ => rfl
    have htext := FieldLine.groups?_restPattern_append allBlank_nil hrest
    rw [List.nil_append] at htext
    rw [trimStart_append_colon hblanks, htype, Option.none_or, htext]
    rfl
  | @typed blanks typeText gap _ hblanks hgap hfirst =>
    have hinner : '\n' ∉ typeText ++ ')' :: (gap ++ ':' :: rest) := fun hmem =>
      h (List.mem_append_right _ (List.mem_cons_of_mem _ hmem))
    rw [trimStart_append_cons hblanks (by decide), groups?_char_seq, groups?_seq_assoc,
      groups?_type hgap hfirst hinner, Option.some_or]

/-- However many blanks the first run takes, what matches has the form. -/
theorem exists_behind_of_groups? (h : '\n' ∉ s) (hgroups : behindPattern.groups? s = some groups) :
    ∃ type? rest, Behind type? rest s := by
  obtain ⟨blanks, tail, rfl, hblanks, -, htail⟩ := groups?_many_seq_of_eq_some hgroups
  have hblanks : allBlank blanks = true := allBlank_iff.2 hblanks
  have hnewline : '\n' ∉ tail := fun hmem => h (List.mem_append_right _ hmem)
  rw [groups?_optional_seq, groups?_typePattern_seq, Option.or_eq_some_iff] at htail
  obtain htype | ⟨-, htext⟩ := htail
  · obtain ⟨inner, rfl, hinner⟩ := groups?_char_seq_of_eq_some htype
    rw [groups?_seq_assoc] at hinner
    have hclose := isSome_closeBeforeColon?_of_groups?
      (fun hmem => hnewline (List.mem_cons_of_mem _ hmem)) hinner
    obtain ⟨⟨typeText, text⟩, hclose⟩ := Option.isSome_iff_exists.1 hclose
    obtain ⟨gap, rest, hgap, rfl, hfirst, -⟩ := closeBeforeColon?_eq_some_iff.1 hclose
    exact ⟨some typeText, rest, .typed hblanks hgap hfirst⟩
  · obtain ⟨gap, rest, rfl, hgap, -⟩ := FieldLine.groups?_restPattern hnewline htext
    have hboth : allBlank (blanks ++ gap) = true := by rw [allBlank_append, hblanks, hgap]; rfl
    rw [← List.append_assoc]
    exact ⟨none, rest, .untyped hboth⟩

/-! ### Stars and the name -/

theorem mem_ways_star_iff :
    way ∈ (one (· == '*')).ways s ↔
      s = '*' :: way.rest ∧ way = { taken := ['*'], rest := way.rest } := by
  rw [mem_ways_one_iff]
  constructor
  · rintro ⟨c, rest, rfl, hc, rfl⟩
    obtain rfl := beq_iff_eq.1 hc
    exact ⟨rfl, rfl⟩
  · rintro ⟨rfl, hway⟩
    exact ⟨'*', way.rest, rfl, rfl, hway⟩

theorem mem_ways_starsPattern_iff :
    way ∈ starsPattern.ways s ↔ ∃ stars ≤ 2, s = List.replicate stars '*' ++ way.rest ∧
      way = { taken := List.replicate stars '*', rest := way.rest } := by
  rw [starsPattern, mem_ways_optional_iff, mem_ways_seq_iff]
  simp only [mem_ways_optional_iff, mem_ways_star_iff]
  constructor
  · rintro (⟨first, ⟨rfl, hfirst⟩, second, (⟨hrest, hsecond⟩ | hsecond), rfl⟩ | rfl)
    · refine ⟨2, Nat.le_refl 2, ?_, ?_⟩
      · rw [hrest]; rfl
      · rw [hfirst, hsecond]; rfl
    · refine ⟨1, by decide, ?_, ?_⟩
      · rw [hsecond]; rfl
      · rw [hfirst, hsecond]; rfl
    · exact ⟨0, by decide, rfl, rfl⟩
  · rintro ⟨stars, hstars, rfl, hway⟩
    obtain rfl | rfl | rfl : stars = 0 ∨ stars = 1 ∨ stars = 2 := by omega
    · exact .inr hway
    · exact .inl ⟨{ taken := ['*'], rest := way.rest }, ⟨rfl, rfl⟩,
        { taken := [], rest := way.rest }, .inr rfl, hway.symm⟩
    · exact .inl ⟨{ taken := ['*'], rest := '*' :: way.rest }, ⟨rfl, rfl⟩,
        { taken := ['*'], rest := way.rest }, .inl ⟨rfl, rfl⟩, hway.symm⟩

theorem mem_ways_namePattern_iff :
    way ∈ namePattern.ways s ↔ ∃ stars name, stars ≤ 2 ∧ name ≠ [] ∧
      (∀ c ∈ name, isWord c = true) ∧ s = List.replicate stars '*' ++ (name ++ way.rest) ∧
      way = { taken := List.replicate stars '*' ++ name, rest := way.rest } := by
  rw [namePattern, mem_ways_seq_iff]
  simp only [mem_ways_starsPattern_iff, mem_ways_many_iff]
  constructor
  · rintro ⟨first, ⟨stars, hstars, rfl, hfirst⟩, second, ⟨hrest, hword, hleast, hgroups⟩, rfl⟩
    refine ⟨stars, second.taken, hstars, List.ne_nil_of_length_pos hleast, hword, ?_, ?_⟩
    · rw [hrest]; rfl
    · rw [hfirst, Way.append, hgroups]; rfl
  · rintro ⟨stars, name, hstars, hne, hword, rfl, hway⟩
    exact ⟨{ taken := List.replicate stars '*', rest := name ++ way.rest },
      ⟨stars, hstars, rfl, rfl⟩, { taken := name, rest := way.rest },
      ⟨rfl, hword, List.length_pos_of_ne_nil hne, rfl⟩, hway.symm⟩

/-! ### Whole lines -/

/-- A way past the name from which the rest matches leaves no character of the name behind. -/
theorem exists_opening_of_mem_ways (hway : way ∈ namePattern.ways l)
    (hbehind : Behind type? rest way.rest) :
    ∃ stars name, Opening stars name way.rest l ∧
      way = { taken := List.replicate stars '*' ++ name, rest := way.rest } := by
  obtain ⟨stars, name, hstars, hne, hword, hl, hway⟩ := mem_ways_namePattern_iff.1 hway
  exact ⟨stars, name, ⟨hl, hstars, hne, hword, hbehind.head?_not_isWord⟩, hway⟩

theorem Opening.groups?_eq (hopening : Opening stars name behind l)
    (hbehind : Behind type? rest behind) (h : '\n' ∉ l) :
    pattern.groups? l = some ((1, List.replicate stars '*' ++ name) :: noted type? rest) := by
  have hnewline : ∀ {stars name behind}, Opening stars name behind l → '\n' ∉ behind :=
    fun hopening hmem => h (by rw [hopening.line_eq]; simp [hmem])
  have hway : { taken := List.replicate stars '*' ++ name, rest := behind } ∈ namePattern.ways l :=
    mem_ways_namePattern_iff.2
      ⟨stars, name, hopening.stars_le, hopening.ne_nil, hopening.isWord, hopening.line_eq, rfl⟩
  refine groups?_group_seq_of_forall hway (hbehind.groups?_eq (hnewline hopening)) ?_
  intro other hother hsome
  obtain ⟨groups, hgroups⟩ := Option.isSome_iff_exists.1 hsome
  obtain ⟨stars', name', -, -, -, hl, -⟩ := mem_ways_namePattern_iff.1 hother
  have hrest : '\n' ∉ other.rest := fun hmem => h (by rw [hl]; simp [hmem])
  obtain ⟨type?', rest', hbehind'⟩ := exists_behind_of_groups? hrest hgroups
  obtain ⟨stars', name', hopening', hother⟩ := exists_opening_of_mem_ways hother hbehind'
  obtain ⟨rfl, rfl, hsame⟩ := hopening.unique hopening'
  rw [hother, hsame]

theorem exists_form_of_groups? (h : '\n' ∉ l) (hgroups : pattern.groups? l = some groups) :
    ∃ name type? rest, Form name type? rest l := by
  rw [pattern, groups?_group_seq] at hgroups
  obtain ⟨way, hway, hlater⟩ := List.exists_of_findSome?_eq_some hgroups
  obtain ⟨later, hlater, -⟩ := Option.map_eq_some_iff.1 hlater
  obtain ⟨stars, name, -, -, -, hl, -⟩ := mem_ways_namePattern_iff.1 hway
  have hrest : '\n' ∉ way.rest := fun hmem => h (by rw [hl]; simp [hmem])
  obtain ⟨type?, rest, hbehind⟩ := exists_behind_of_groups? hrest hlater
  obtain ⟨stars, name, hopening, -⟩ := exists_opening_of_mem_ways hway hbehind
  exact ⟨name, type?, rest, stars, way.rest, hopening, hbehind⟩

theorem isSome_groups?_iff (h : '\n' ∉ l) :
    (pattern.groups? l).isSome = true ↔ ∃ name type? rest, Form name type? rest l := by
  constructor
  · intro hsome
    obtain ⟨groups, hgroups⟩ := Option.isSome_iff_exists.1 hsome
    exact exists_form_of_groups? h hgroups
  · rintro ⟨name, type?, rest, stars, behind, hopening, hbehind⟩
    rw [hopening.groups?_eq hbehind h]
    rfl

/-- The groups give the parts of the form, without the stars. -/
theorem Opening.ofGroups_eq (hopening : Opening stars name behind l) (type? : Option Text)
    (rest : Text) :
    ofGroups ((1, List.replicate stars '*' ++ name) :: noted type? rest) =
      ⟨name, type?, trimStart rest⟩ := by
  have hbare : Entry.bareName (List.replicate stars '*' ++ name) = name :=
    dropWhile_trim_starred hopening.isWord stars
  cases type? with
  | none => exact congrArg (ParamHead.mk · none (trimStart rest)) hbare
  | some typeText => exact congrArg (ParamHead.mk · (some typeText) (trimStart rest)) hbare

/-- The reader makes of a line what the groups of the first match say. -/
theorem ofLine?_eq_map_groups? (h : '\n' ∉ l) :
    ofLine? l = (pattern.groups? l).map ofGroups := by
  by_cases hform : ∃ name type? rest, Form name type? rest l
  · obtain ⟨name, type?, rest, stars, behind, hopening, hbehind⟩ := hform
    rw [hopening.groups?_eq hbehind h, Option.map_some, hopening.ofGroups_eq]
    exact ofLine?_eq_some_iff.2 ⟨rest, ⟨stars, behind, hopening, hbehind⟩, rfl⟩
  · have hnone : pattern.groups? l = none := by
      rw [← Option.not_isSome_iff_eq_none, isSome_groups?_iff h]
      exact hform
    rw [hnone, Option.map_none]
    exact ofLine?_eq_none_iff.2 hform

end ParamHead

/-! ### The entries about parameters -/

namespace Titled

open ParamHead

variable {doc : Docstring} {entry : Entry} {name rest : Text} {type? : Option Text}

theorem unwrap_trimStart_cons (s : Text) (ls : List Text) :
    unwrap (trimStart s :: ls) = unwrap (s :: ls) := by
  have htrim : trim (trimStart s) = trim s := by rw [trim, trimStart_idem, trim]
  rw [unwrap, List.map_cons, htrim, ← List.map_cons, ← unwrap]

theorem noteParam_of_form (doc : Docstring) (h : Form name type? rest entry.head) :
    noteParam doc entry = doc.onParam (String.ofList name) fun _ =>
      { description := String.ofList (unwrap (rest :: entry.body))
        hint := type?.bind fun typeText =>
          TypeHint.ofText? (TypeHint.withoutOptional typeText) } := by
  have hline : ofLine? entry.head = some ⟨name, type?, trimStart rest⟩ :=
    ofLine?_eq_some_iff.2 ⟨rest, h, rfl⟩
  rw [noteParam, hline]
  simp only [unwrap_trimStart_cons]

theorem noteParam_of_not_form (doc : Docstring)
    (h : ¬∃ name type? rest, Form name type? rest entry.head) : noteParam doc entry = doc := by
  rw [noteParam, ofLine?_eq_none_iff.2 h]

/-- Only the entries that match take part in reading a section. -/
theorem foldl_noteParam_filter (doc : Docstring) (entries : List Entry)
    (h : ∀ entry ∈ entries, '\n' ∉ entry.head) :
    entries.foldl noteParam doc =
      (entries.filter fun entry => (pattern.groups? entry.head).isSome).foldl noteParam doc := by
  induction entries generalizing doc with
  | nil => rfl
  | cons entry later ih =>
    obtain ⟨hentry, hlater⟩ := List.forall_mem_cons.1 h
    rw [List.foldl_cons, ih _ hlater]
    by_cases hmatch : (pattern.groups? entry.head).isSome = true
    · rw [List.filter_cons, if_pos hmatch, List.foldl_cons]
    · rw [List.filter_cons, if_neg hmatch,
        noteParam_of_not_form doc (mt (isSome_groups?_iff hentry).2 hmatch)]

/-- The grammar of the lines that open entries about parameters. The pattern matches the lines of
    the form and no others. Each of them has the form in one way only, the groups hold its parts,
    and the entry notes the type and the unwrapped text for the name. All other entries say
    nothing, wherever they stand in a section. -/
theorem noteParam_grammar :
    (∀ l : Text, '\n' ∉ l →
      ((pattern.groups? l).isSome = true ↔ ∃ name type? rest, Form name type? rest l) ∧
      ofLine? l = (pattern.groups? l).map ofGroups) ∧
    (∀ (doc : Docstring) (entry : Entry) (name : Text) (type? : Option Text) (rest : Text),
      '\n' ∉ entry.head → Form name type? rest entry.head →
      (∀ name' type?' rest', Form name' type?' rest' entry.head →
        name' = name ∧ type?' = type? ∧ rest' = rest) ∧
      (∃ stars ≤ 2, pattern.groups? entry.head =
        some ((1, List.replicate stars '*' ++ name) :: noted type? rest)) ∧
      noteParam doc entry = doc.onParam (String.ofList name) fun _ =>
        { description := String.ofList (unwrap (rest :: entry.body))
          hint := type?.bind fun typeText =>
            TypeHint.ofText? (TypeHint.withoutOptional typeText) }) ∧
    (∀ (doc : Docstring) (entry : Entry),
      (¬∃ name type? rest, Form name type? rest entry.head) → noteParam doc entry = doc) ∧
    ∀ (doc : Docstring) (entries : List Entry), (∀ entry ∈ entries, '\n' ∉ entry.head) →
      entries.foldl noteParam doc =
        (entries.filter fun entry => (pattern.groups? entry.head).isSome).foldl noteParam doc := by
  refine ⟨fun l h => ⟨isSome_groups?_iff h, ofLine?_eq_map_groups? h⟩,
    fun doc entry name type? rest h hform =>
      ⟨fun _ _ _ => hform.unique, ?_, noteParam_of_form doc hform⟩,
    fun doc entry => noteParam_of_not_form doc, foldl_noteParam_filter⟩
  obtain ⟨stars, behind, hopening, hbehind⟩ := hform
  exact ⟨stars, hopening.stars_le, hopening.groups?_eq hbehind h⟩

/-- Both the type and the text have parentheses and a colon of their own. In the second entry no
    colon comes next to the closing parenthesis. -/
theorem noteParam_grammar_of_nested :
    Form "f".toList (some "map(a: b), optional".toList) " x (y): z".toList
        "**f (map(a: b), optional)  : x (y): z".toList ∧
      (¬∃ name type? rest, Form name type? rest "g (int) x: y".toList) ∧
      [⟨"**f (map(a: b), optional)  : x (y): z".toList, [" and w ".toList]⟩,
          ⟨"g (int) x: y".toList, []⟩].foldl noteParam (default : Docstring) =
        (default : Docstring).onParam "f" fun _ =>
          { description := "x (y): z and w", hint := TypeHint.ofText? "map(a: b)".toList } := by
  have hform : Form "f".toList (some "map(a: b), optional".toList) " x (y): z".toList
      "**f (map(a: b), optional)  : x (y): z".toList := by
    refine ⟨2, " (map(a: b), optional)  : x (y): z".toList, ⟨rfl, by decide, by decide, by decide,
      fun c hc => by obtain rfl := Option.some.inj hc; decide⟩, ?_⟩
    exact @Behind.typed [' '] "map(a: b), optional".toList "  ".toList _ rfl rfl (by decide)
  have hno : ¬∃ name type? rest, Form name type? rest "g (int) x: y".toList :=
    ofLine?_eq_none_iff.1 (by decide)
  obtain ⟨-, -, hfirst⟩ := noteParam_grammar.2.1 default
    ⟨"**f (map(a: b), optional)  : x (y): z".toList, [" and w ".toList]⟩ _ _ _ (by decide) hform
  have hsecond := noteParam_grammar.2.2.1 (noteParam default
    ⟨"**f (map(a: b), optional)  : x (y): z".toList, [" and w ".toList]⟩)
    ⟨"g (int) x: y".toList, []⟩ hno
  have hunwrap : unwrap [" x (y): z".toList, " and w ".toList] = "x (y): z and w".toList := by
    decide
  have htype : TypeHint.withoutOptional "map(a: b), optional".toList = "map(a: b)".toList := by
    decide
  refine ⟨hform, hno, ?_⟩
  rw [List.foldl_cons, List.foldl_cons, List.foldl_nil, hsecond, hfirst]
  simp only [hunwrap, htype, Option.bind_some, String.ofList_toList]

end Titled

end CallSchema
