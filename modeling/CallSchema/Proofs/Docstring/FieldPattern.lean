import CallSchema.Proofs.Docstring.Marks
import CallSchema.Proofs.Layout.Clean
import CallSchema.Proofs.Outline
import CallSchema.Proofs.Text.Pattern

/-!
# Field lines as matches of a pattern

A line that begins a field can also be told by a pattern, whose groups are the key, the argument
and the text. The argument is a run that goes on no further than it must, and since blanks may
stand at either end of it, most lines match in several ways. The pattern matches exactly the lines
that have the form of a field, the first way notes what the reader makes of the form, and the lines
that match divide a text into its fields.

## Main definitions

* `FieldLine.pattern` -- the pattern of the lines that begin a field
* `FieldLine.Noted` -- what the groups behind the key hold for a given form
* `FieldLine.ofGroups` -- the field that the groups of a match stand for
-/

namespace CallSchema

open Text TextPattern

namespace FieldLine

/-- Blanks, the second colon, blanks, and the text up to the end of the line. -/
def restPattern : TextPattern :=
  (many true 0 isBlank).seq ((one (· == ':')).seq
    ((many true 0 isBlank).seq (group 3 (many true 0 (· != '\n')))))

/-- Blanks and an argument without a colon, which goes on no further than it must. -/
def argumentPattern : TextPattern :=
  (many true 1 isBlank).seq (group 2 (many false 1 (· != ':')))

/-- A colon, the key, an argument or none, and the text. -/
def pattern : TextPattern :=
  (one (· == ':')).seq ((group 1 (many true 1 isWord)).seq
    ((optional argumentPattern).seq restPattern))

/-- The field that the groups of a match stand for. -/
def ofGroups (groups : List (Nat × Text)) : FieldLine :=
  ⟨(groups.lookup 1).getD [], (groups.lookup 2).map trim, (groups.lookup 3).getD []⟩

/-- What the groups behind the key hold, by what stands on both sides of the second colon. The
    argument may keep some of the blanks around it. -/
inductive Noted (between rest : Text) : List (Nat × Text) → Prop
  | argument {argument : Text} (hlength : 2 ≤ between.length)
      (htrim : trim argument = trim between) :
      Noted between rest [(2, argument), (3, trimStart rest)]
  | noArgument (hlength : between.length < 2) : Noted between rest [(3, trimStart rest)]

variable {key between rest l : Text} {groups : List (Nat × Text)}

/-! ### What the pattern accepts -/

theorem groups?_afterColon (h : '\n' ∉ rest) :
    ((many true 0 isBlank).seq (group 3 (many true 0 (· != '\n')))).groups? rest =
      some [(3, trimStart rest)] := by
  refine groups?_greedy_seq (Nat.zero_le _) (groups?_group_greedy fun c hc => ?_)
  rw [bne_iff_ne]
  rintro rfl
  exact h ((List.dropWhile_sublist isBlank).subset hc)

theorem groups?_restPattern (h : '\n' ∉ l) (hgroups : restPattern.groups? l = some groups) :
    ∃ blanks rest, l = blanks ++ ':' :: rest ∧ allBlank blanks = true ∧
      groups = [(3, trimStart rest)] := by
  obtain ⟨blanks, _, rfl, hblanks, -, hcolon⟩ := groups?_many_seq_of_eq_some hgroups
  obtain ⟨rest, rfl, htext⟩ := groups?_char_seq_of_eq_some hcolon
  have hrest : '\n' ∉ rest := fun hmem => h (by simp [hmem])
  rw [groups?_afterColon hrest] at htext
  exact ⟨blanks, rest, rfl, allBlank_iff.2 hblanks, (Option.some.inj htext).symm⟩

/-- The blanks on both sides of the colon are left out. -/
theorem groups?_restPattern_append {blanks : Text} (hblanks : allBlank blanks = true)
    (h : '\n' ∉ rest) :
    restPattern.groups? (blanks ++ ':' :: rest) = some [(3, trimStart rest)] := by
  refine groups?_greedy_seq (Nat.zero_le _) ?_
  rw [← trimStart, trimStart_append_cons hblanks (by decide), groups?_char_seq,
    groups?_afterColon h]

theorem isSome_groups?_restPattern {blanks : Text} (hblanks : allBlank blanks = true)
    (h : '\n' ∉ rest) : (restPattern.groups? (blanks ++ ':' :: rest)).isSome = true := by
  rw [groups?_restPattern_append hblanks h]
  rfl

/-- A blank and at least one more character are enough for an argument. -/
theorem isSome_groups?_argument (hcolon : ':' ∉ between) (hlength : 2 ≤ between.length)
    (hhead : ∀ c, between.head? = some c → isBlank c = true) (h : '\n' ∉ rest) :
    ((argumentPattern.seq restPattern).groups? (between ++ ':' :: rest)).isSome = true := by
  obtain ⟨b, argument, rfl⟩ : ∃ b argument, between = b :: argument := by
    cases between with
    | nil => simp at hlength
    | cons b argument => exact ⟨b, argument, rfl⟩
  have hblank : ∀ c ∈ [b], isBlank c = true := by simpa using hhead b rfl
  have hargument : ∀ c ∈ argument, (c != ':') = true := by
    intro c hc
    rw [bne_iff_ne]
    rintro rfl
    exact hcolon (List.mem_cons_of_mem b hc)
  rw [argumentPattern, groups?_seq_assoc]
  -- the gap is the first blank alone, and the argument is all that follows it
  change ((TextPattern.seq _ _).groups? ([b] ++ (argument ++ ':' :: rest))).isSome = true
  refine isSome_groups?_many_seq hblank (Nat.le_refl 1) ?_
  refine isSome_groups?_group_many_seq hargument (by simpa using hlength) ?_
  exact isSome_groups?_restPattern allBlank_nil h

theorem groups?_argument (h : '\n' ∉ l)
    (hgroups : (argumentPattern.seq restPattern).groups? l = some groups) :
    ∃ between rest, l = between ++ ':' :: rest ∧ ':' ∉ between ∧
      (∀ c, between.head? = some c → isBlank c = true) ∧ 2 ≤ between.length ∧
      Noted between rest groups := by
  rw [argumentPattern, groups?_seq_assoc] at hgroups
  obtain ⟨gap, _, rfl, hgap, hgapLength, hnoted⟩ := groups?_many_seq_of_eq_some hgroups
  obtain ⟨argument, tail, later, rfl, hargument, hargumentLength, htext, rfl⟩ :=
    groups?_group_many_seq_of_eq_some hnoted
  have htail : '\n' ∉ tail := fun hmem => h (by simp [hmem])
  obtain ⟨blanks, rest, rfl, hblanks, rfl⟩ := groups?_restPattern htail htext
  have hgap : allBlank gap = true := allBlank_iff.2 hgap
  have hlength : 2 ≤ (gap ++ argument ++ blanks).length := by
    simp only [List.length_append]
    omega
  refine ⟨gap ++ argument ++ blanks, rest, by simp, ?_, ?_, hlength, .argument hlength ?_⟩
  · simp only [List.mem_append, not_or]
    refine ⟨⟨notMem_of_allBlank hgap (by decide), fun hmem => ?_⟩,
      notMem_of_allBlank hblanks (by decide)⟩
    simpa using hargument ':' hmem
  · intro c hc
    have hne := List.ne_nil_of_length_pos hgapLength
    rw [List.append_assoc, List.head?_append_of_ne_nil _ hne] at hc
    exact allBlank_iff.1 hgap c (List.mem_of_mem_head? hc)
  · rw [trim_append_of_allBlank _ hblanks, trim_of_allBlank_append _ hgap]

/-- Without an argument, no more than one blank stands in front of the second colon: two of them
    would be an argument. -/
theorem groups?_behindKey (h : '\n' ∉ l)
    (hgroups : ((optional argumentPattern).seq restPattern).groups? l = some groups) :
    ∃ between rest, l = between ++ ':' :: rest ∧ ':' ∉ between ∧
      (∀ c, between.head? = some c → isBlank c = true) ∧ Noted between rest groups := by
  rw [groups?_optional_seq] at hgroups
  cases hargument : (argumentPattern.seq restPattern).groups? l with
  | some noted =>
    rw [hargument, Option.some_or] at hgroups
    obtain rfl := Option.some.inj hgroups
    obtain ⟨between, rest, hl, hcolon, hhead, -, hnoted⟩ := groups?_argument h hargument
    exact ⟨between, rest, hl, hcolon, hhead, hnoted⟩
  | none =>
    rw [hargument, Option.none_or] at hgroups
    obtain ⟨blanks, rest, rfl, hblanks, rfl⟩ := groups?_restPattern h hgroups
    have hcolon : ':' ∉ blanks := notMem_of_allBlank hblanks (by decide)
    have hhead : ∀ c, blanks.head? = some c → isBlank c = true := fun c hc =>
      allBlank_iff.1 hblanks c (List.mem_of_mem_head? hc)
    have hshort : blanks.length < 2 := by
      by_contra hlong
      have hrest : '\n' ∉ rest := fun hmem => h (by simp [hmem])
      have hsome := isSome_groups?_argument hcolon (Nat.le_of_not_lt hlong) hhead hrest
      rw [hargument] at hsome
      cases hsome
    exact ⟨blanks, rest, rfl, hcolon, hhead, .noArgument hshort⟩

theorem exists_form_of_groups? (h : '\n' ∉ l) (hgroups : pattern.groups? l = some groups) :
    ∃ key between rest later, Form key between rest l ∧ Noted between rest later ∧
      groups = (1, key) :: later := by
  obtain ⟨s, rfl, hkeyed⟩ := groups?_char_seq_of_eq_some hgroups
  obtain ⟨key, tail, later, rfl, hkey, hkeyLength, hbehind, rfl⟩ :=
    groups?_group_many_seq_of_eq_some hkeyed
  have htail : '\n' ∉ tail := fun hmem => h (by simp [hmem])
  obtain ⟨between, rest, rfl, hcolon, hhead, hnoted⟩ := groups?_behindKey htail hbehind
  have hne := List.ne_nil_of_length_pos hkeyLength
  exact ⟨key, between, rest, later, ⟨rfl, hne, hkey, hcolon, hhead⟩, hnoted, rfl⟩

theorem Form.isSome_groups? (hform : Form key between rest l) (h : '\n' ∉ l) :
    (pattern.groups? l).isSome = true := by
  obtain ⟨rfl, hne, hkey, hcolon, hhead⟩ := hform
  have hrest : '\n' ∉ rest := fun hmem => h (by simp [hmem])
  rw [pattern, groups?_char_seq]
  refine isSome_groups?_group_many_seq hkey (List.length_pos_of_ne_nil hne) ?_
  rw [groups?_optional_seq, Option.isSome_or, Bool.or_eq_true]
  by_cases hlength : 2 ≤ between.length
  · exact .inl (isSome_groups?_argument hcolon hlength hhead hrest)
  · right
    refine isSome_groups?_restPattern ?_ hrest
    -- all that is left is a single blank, or nothing
    cases between with
    | nil => rfl
    | cons b s =>
      obtain rfl : s = [] := by
        rw [List.length_cons] at hlength
        exact List.eq_nil_of_length_eq_zero (by omega)
      simpa using hhead b rfl

theorem isSome_groups?_iff (h : '\n' ∉ l) :
    (pattern.groups? l).isSome = true ↔ ∃ key between rest, Form key between rest l := by
  constructor
  · intro hsome
    obtain ⟨groups, hgroups⟩ := Option.isSome_iff_exists.1 hsome
    obtain ⟨key, between, rest, -, hform, -⟩ := exists_form_of_groups? h hgroups
    exact ⟨key, between, rest, hform⟩
  · rintro ⟨key, between, rest, hform⟩
    exact hform.isSome_groups? h

/-! ### What the groups hold -/

/-- A line has the form of a field in one way only. -/
theorem Form.unique {key' between' rest' : Text} (h : Form key between rest l)
    (h' : Form key' between' rest' l) : key' = key ∧ between' = between ∧ rest' = rest := by
  have hsame := List.cons.inj (h'.line_eq.symm.trans h.line_eq)
  obtain ⟨htake, hdrop⟩ := takeWhile_isWord_append h.key_isWord h.head_not_isWord
  obtain ⟨htake', hdrop'⟩ := takeWhile_isWord_append h'.key_isWord h'.head_not_isWord
  rw [hsame.2, htake] at htake'
  rw [hsame.2, hdrop] at hdrop'
  have hcut : cut? ':' (between ++ ':' :: rest) = some (between, rest) :=
    cut?_eq_some_iff.2 ⟨rfl, h.colon_notMem⟩
  have hcut' : cut? ':' (between ++ ':' :: rest) = some (between', rest') :=
    cut?_eq_some_iff.2 ⟨hdrop', h'.colon_notMem⟩
  obtain ⟨rfl, rfl⟩ := Prod.mk.inj (Option.some.inj (hcut.symm.trans hcut'))
  exact ⟨htake'.symm, rfl, rfl⟩

theorem Form.exists_noted (hform : Form key between rest l) (h : '\n' ∉ l) :
    ∃ later, pattern.groups? l = some ((1, key) :: later) ∧ Noted between rest later := by
  obtain ⟨groups, hgroups⟩ := Option.isSome_iff_exists.1 (hform.isSome_groups? h)
  obtain ⟨key, between, rest, later, hform', hnoted, rfl⟩ := exists_form_of_groups? h hgroups
  obtain ⟨rfl, rfl, rfl⟩ := hform.unique hform'
  exact ⟨later, hgroups, hnoted⟩

theorem Noted.lookup_eq (h : Noted between rest groups) (key : Text) :
    ((1, key) :: groups).lookup 1 = some key ∧
      ((((1, key) :: groups).lookup 2).isSome = true ↔ 2 ≤ between.length) ∧
      (∀ argument, ((1, key) :: groups).lookup 2 = some argument → trim argument = trim between) ∧
      ((1, key) :: groups).lookup 3 = some (trimStart rest) := by
  cases h with
  | argument hlength htrim =>
    refine ⟨rfl, ⟨fun _ => hlength, fun _ => rfl⟩, fun argument hargument => ?_, rfl⟩
    obtain rfl := Option.some.inj hargument
    exact htrim
  | noArgument hlength =>
    exact ⟨rfl, ⟨nofun, fun hlong => absurd hlong (Nat.not_le_of_lt hlength)⟩, nofun, rfl⟩

theorem Noted.ofGroups_eq (h : Noted between rest groups) (key : Text) :
    ofGroups ((1, key) :: groups) = ⟨key, argument? between, trimStart rest⟩ := by
  cases h with
  | argument hlength htrim =>
    rw [argument?, if_pos hlength, ← htrim]
    rfl
  | noArgument hlength =>
    rw [argument?, if_neg (Nat.not_le_of_lt hlength)]
    rfl

/-- The reader makes of a line what the groups of the first match say. -/
theorem ofLine?_eq_map_groups? (h : '\n' ∉ l) :
    ofLine? l = (pattern.groups? l).map ofGroups := by
  cases hgroups : pattern.groups? l with
  | some groups =>
    obtain ⟨key, between, rest, later, hform, hnoted, rfl⟩ := exists_form_of_groups? h hgroups
    rw [Option.map_some, hnoted.ofGroups_eq]
    exact ofLine?_eq_some_iff.2 ⟨between, rest, hform, rfl, rfl⟩
  | none =>
    rw [Option.map_none, ← Option.not_isSome_iff_eq_none, isSome_ofLine?_iff,
      ← isSome_groups?_iff h, hgroups]
    exact Bool.false_ne_true

theorem ofLine?_eq_none_iff (h : '\n' ∉ l) : ofLine? l = none ↔ pattern.groups? l = none := by
  rw [ofLine?_eq_map_groups? h, Option.map_eq_none_iff]

end FieldLine

/-! ### The fields of a text -/

namespace FieldList

open FieldLine

/-- The lines of a text are those in front of the first match, and then those of the fields: each
    field has the line that matches and the lines below it that do not. -/
theorem exists_blocks_lines (text : Text) :
    ∃ blocks : List (Text × List Text),
      lines text = (outline (lines text)).preamble ++ blocks.flatMap (fun b => b.1 :: b.2) ∧
      (outline (lines text)).sections.map (fun field => (some field.1, field.2)) =
        blocks.map (fun b => ((pattern.groups? b.1).map ofGroups, b.2)) ∧
      (∀ l ∈ (outline (lines text)).preamble, pattern.groups? l = none) ∧
      ∀ b ∈ blocks, ∀ l ∈ b.2, pattern.groups? l = none := by
  obtain ⟨blocks, hlines, hfields, hpreamble, hbodies⟩ :=
    Outline.exists_blocks ofLine? (lines text)
  rw [← outline] at hlines hfields hpreamble
  have hnewline : ∀ l ∈ lines text, '\n' ∉ l := fun l => Layout.newline_notMem_of_mem_lines
  have hblocks : ∀ b ∈ blocks, b.1 ∈ lines text ∧ ∀ l ∈ b.2, l ∈ lines text := by
    have hmem : ∀ b ∈ blocks, ∀ l ∈ b.1 :: b.2, l ∈ lines text := by
      intro b hb l hl
      rw [hlines]
      exact List.mem_append_right _ (List.mem_flatMap.2 ⟨b, hb, hl⟩)
    exact fun b hb => List.forall_mem_cons.1 (hmem b hb)
  refine ⟨blocks, hlines, ?_, fun l hl => ?_, fun b hb l hl => ?_⟩
  · rw [hfields]
    refine List.map_congr_left fun b hb => ?_
    rw [ofLine?_eq_map_groups? (hnewline b.1 (hblocks b hb).1)]
  · have hmem : l ∈ lines text := by
      rw [hlines]
      exact List.mem_append_left _ hl
    exact (ofLine?_eq_none_iff (hnewline l hmem)).1 (hpreamble l hl)
  · exact (ofLine?_eq_none_iff (hnewline l ((hblocks b hb).2 l hl))).1 (hbodies b hb l hl)

/-- The grammar of field lines and the fields of a text. The pattern matches the lines of the form
    and no others, in one way only as far as the form goes; its first match notes the key, an
    argument when more than a blank stands in front of the second colon, and the text; and the
    lines from the first match on are divided among the fields, in order. -/
theorem grammar_and_segments :
    (∀ l : Text, '\n' ∉ l →
      ((pattern.groups? l).isSome = true ↔ ∃ key between rest, Form key between rest l) ∧
      ofLine? l = (pattern.groups? l).map ofGroups) ∧
    (∀ l key between rest : Text, '\n' ∉ l → Form key between rest l →
      (∀ key' between' rest', Form key' between' rest' l →
        key' = key ∧ between' = between ∧ rest' = rest) ∧
      ∃ groups, pattern.groups? l = some groups ∧ groups.lookup 1 = some key ∧
        ((groups.lookup 2).isSome = true ↔ 2 ≤ between.length) ∧
        (∀ argument, groups.lookup 2 = some argument → trim argument = trim between) ∧
        groups.lookup 3 = some (trimStart rest)) ∧
    ∀ text : Text, ∃ blocks : List (Text × List Text),
      lines text = (outline (lines text)).preamble ++ blocks.flatMap (fun b => b.1 :: b.2) ∧
      (outline (lines text)).sections.map (fun field => (some field.1, field.2)) =
        blocks.map (fun b => ((pattern.groups? b.1).map ofGroups, b.2)) ∧
      (∀ l ∈ (outline (lines text)).preamble, pattern.groups? l = none) ∧
      ∀ b ∈ blocks, ∀ l ∈ b.2, pattern.groups? l = none := by
  refine ⟨fun l h => ⟨isSome_groups?_iff h, ofLine?_eq_map_groups? h⟩,
    fun l key between rest h hform => ⟨fun _ _ _ => hform.unique, ?_⟩, exists_blocks_lines⟩
  obtain ⟨later, hgroups, hnoted⟩ := hform.exists_noted h
  exact ⟨_, hgroups, hnoted.lookup_eq key⟩

/-- Two blanks in front of the second colon are an argument that trims to nothing. -/
theorem grammar_and_segments_of_blanks :
    '\n' ∉ ":param  : Size.".toList ∧
      Form "param".toList "  ".toList " Size.".toList ":param  : Size.".toList ∧
      ∃ groups, pattern.groups? ":param  : Size.".toList = some groups ∧
        (groups.lookup 2).isSome = true ∧ groups.lookup 3 = some "Size.".toList := by
  have hform : Form "param".toList "  ".toList " Size.".toList ":param  : Size.".toList :=
    ⟨rfl, by decide, by decide, by decide, fun c hc => by obtain rfl := Option.some.inj hc; decide⟩
  refine ⟨by decide, hform, ?_⟩
  obtain ⟨-, groups, hgroups, -, hargument, -, htext⟩ :=
    grammar_and_segments.2.1 _ _ _ _ (by decide) hform
  exact ⟨groups, hgroups, hargument.2 (by decide), htext⟩

end FieldList

end CallSchema
