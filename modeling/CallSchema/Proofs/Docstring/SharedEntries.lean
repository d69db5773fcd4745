import CallSchema.Proofs.Docstring.EntryOrder

/-!
# Entries that several names share

An entry of an underlined section can name several parameters, as in `x, y : int`. It stands for
one entry for each of the names, in order, with the same lines below each of them: a text in which
these entries stand in its place is read as the same docstring (`Underlined.read?_separate`). The
names need not differ. A parameter that is named twice, in one entry or in two, keeps the place
where it is named first and what is said about it last, either way.

## Main definitions

* `WrittenNames` -- the names of an entry as they are written, with their stars
* `HeadFrame` -- what stands around the names in the line that opens an entry
* `Underlined.EntryPlace` -- an entry of a section about the parameters, in its place in a text
-/

namespace CallSchema

open Text

/-! ### Names and the line that they share -/

/-- The names of an entry as they are written. Each of them consists of word characters and
    stars. -/
structure WrittenNames (names : List Text) : Prop where
  ne_nil : names ≠ []
  nil_notMem : [] ∉ names
  isNameStart : ∀ name ∈ names, ∀ c ∈ name, SharedHead.isNameStart c = true

theorem SharedHead.isBlank_of_isNameStart {c : Char} (h : isNameStart c = true) :
    isBlank c = false := by
  rw [isNameStart, Bool.or_eq_true, beq_iff_eq] at h
  rcases h with hword | rfl
  · exact isBlank_of_isWord hword
  · decide

namespace WrittenNames

variable {name : Text} {names : List Text}

theorem singleton (h : WrittenNames names) (hname : name ∈ names) : WrittenNames [name] := by
  refine ⟨List.cons_ne_nil _ _, ?_, ?_⟩
  · rw [List.mem_singleton]
    rintro rfl
    exact h.nil_notMem hname
  · intro other hother
    rw [List.mem_singleton.1 hother]
    exact h.isNameStart name hname

theorem tail (h : WrittenNames (name :: names)) (hne : names ≠ []) : WrittenNames names :=
  ⟨hne, fun hmem => h.nil_notMem (List.mem_cons_of_mem name hmem),
    fun other hother => h.isNameStart other (List.mem_cons_of_mem name hother)⟩

/-- The names with commas between them. -/
def list (names : List Text) : Text :=
  [',', ' '].intercalate names

theorem list_cons_cons (name other : Text) (names : List Text) :
    list (name :: other :: names) = name ++ ([',', ' '] ++ list (other :: names)) := by
  rw [list, List.intercalate_cons_cons, List.append_assoc]
  rfl

theorem exists_list_eq_cons (h : WrittenNames names) :
    ∃ c s, list names = c :: s ∧ SharedHead.isNameStart c = true := by
  obtain ⟨name, others, rfl⟩ := List.exists_cons_of_ne_nil h.ne_nil
  obtain ⟨c, s, rfl⟩ := List.exists_cons_of_ne_nil
    (show name ≠ [] by rintro rfl; exact h.nil_notMem List.mem_cons_self)
  have hc := h.isNameStart _ List.mem_cons_self c List.mem_cons_self
  cases others with
  | nil => exact ⟨c, s, List.intercalate_singleton, hc⟩
  | cons other others => exact ⟨c, _, list_cons_cons _ _ _, hc⟩

theorem allBlank_list (h : WrittenNames names) : allBlank (list names) = false := by
  obtain ⟨c, s, hlist, hc⟩ := h.exists_list_eq_cons
  rw [hlist, allBlank_cons, SharedHead.isBlank_of_isNameStart hc, Bool.false_and]

theorem isNameListChar_list (h : WrittenNames names) :
    ∀ c ∈ list names, SharedHead.isNameListChar c = true := by
  obtain ⟨-, -, h⟩ := h
  have hstart : ∀ {name : Text} {c : Char}, name ∈ names → c ∈ name →
      SharedHead.isNameListChar c = true := fun hname hc => by
    simp [SharedHead.isNameListChar, h _ hname _ hc]
  clear h
  induction names with
  | nil => exact List.forall_mem_nil _
  | cons name others ih =>
    cases others with
    | nil =>
      rw [list, List.intercalate_singleton]
      exact fun c hc => hstart List.mem_cons_self hc
    | cons other others =>
      intro c hc
      rw [list_cons_cons, List.mem_append, List.mem_append] at hc
      rcases hc with hc | hc | hc
      · exact hstart List.mem_cons_self hc
      · revert c
        decide
      · exact ih (fun hname => hstart (List.mem_cons_of_mem name hname)) c hc

theorem trimEnd_list (h : WrittenNames names) : trimEnd (list names) = list names := by
  induction names with
  | nil => exact absurd rfl h.ne_nil
  | cons name others ih =>
    cases others with
    | nil =>
      rw [list, List.intercalate_singleton, trimEnd_eq_self_iff]
      intro c hc
      exact SharedHead.isBlank_of_isNameStart
        (h.isNameStart name List.mem_cons_self c (List.mem_of_getLast? hc))
    | cons other others =>
      have hothers := h.tail (List.cons_ne_nil other others)
      rw [list_cons_cons, ← List.append_assoc,
        trimEnd_append_of_not_allBlank _ hothers.allBlank_list, ih hothers]

theorem isNameList (h : WrittenNames names) : SharedHead.IsNameList (list names) := by
  obtain ⟨c, s, hlist, hc⟩ := h.exists_list_eq_cons
  refine ⟨?_, List.all_eq_true.2 h.isNameListChar_list, h.trimEnd_list⟩
  rw [hlist]
  exact hc

theorem comma_notMem (h : WrittenNames names) (hname : name ∈ names) : ',' ∉ name := fun hc =>
  absurd (h.isNameStart name hname ',' hc) (by decide)

/-- Behind each comma stands a space, which belongs to no name. -/
theorem map_bareName_splitOn_list (h : WrittenNames names) :
    ((list names).splitOn ',').map Entry.bareName = names.map Entry.bareName := by
  obtain ⟨name, others, rfl⟩ := List.exists_cons_of_ne_nil h.ne_nil
  have hlist : ∀ name : Text, list (name :: others) =
      [','].intercalate (name :: others.map (' ' :: ·)) := by
    clear h
    induction others with
    | nil => exact fun _ => rfl
    | cons other others ih =>
      intro name
      rw [list_cons_cons, ih, List.map_cons, List.intercalate_cons_cons]
      cases others <;> simp
  rw [hlist, List.splitOn_intercalate, List.map_cons, List.map_map, List.map_cons]
  · rfl
  · intro piece hpiece
    rcases List.mem_cons.1 hpiece with rfl | hpiece
    · exact h.comma_notMem List.mem_cons_self
    · obtain ⟨other, hother, rfl⟩ := List.mem_map.1 hpiece
      have hcomma := h.comma_notMem (List.mem_cons_of_mem name hother)
      simpa using hcomma
  · exact List.cons_ne_nil _ _

end WrittenNames

/-- What stands around the names in the line that opens an entry: blanks in front of them, and
    behind them nothing but blanks, or a colon with a type after it. -/
structure HeadFrame where
  pad : Text
  tail : Text
  pad_allBlank : allBlank pad = true
  tail_form : allBlank tail = true ∨
    ∃ gap typeText, tail = gap ++ ':' :: typeText ∧ allBlank gap = true

namespace HeadFrame

variable (frame : HeadFrame) {names : List Text}

/-- The line that opens an entry of the given names. -/
def line (names : List Text) : Text :=
  frame.pad ++ (WrittenNames.list names ++ frame.tail)

/-- The lines of separate entries, one for each name, with the same lines below each. -/
def separate (names body : List Text) : List Text :=
  names.flatMap fun name => frame.line [name] :: body

/-- The type text behind the names, if there is a colon. -/
def typeText? : Option Text :=
  (cut? ':' (trimEnd frame.tail)).map fun (_, rest) => trimStart rest

theorem trimEnd_tail_cases : trimEnd frame.tail = [] ∨
    ∃ gap rest, trimEnd frame.tail = gap ++ ':' :: rest ∧ allBlank gap = true := by
  rcases frame.tail_form with hblank | ⟨gap, typeText, htail, hgap⟩
  · exact .inl (trimEnd_eq_nil_iff.2 hblank)
  · right
    have hcolon : allBlank (':' :: typeText) = false := by
      rw [allBlank_cons, show isBlank ':' = false by decide, Bool.false_and]
    obtain ⟨blanks, -, hsplit⟩ := exists_trimEnd_append (':' :: typeText)
    rw [htail, trimEnd_append_of_not_allBlank gap hcolon]
    cases htrim : trimEnd (':' :: typeText) with
    | nil =>
      rw [trimEnd_eq_nil_iff.1 htrim] at hcolon
      cases hcolon
    | cons c rest =>
      rw [htrim, List.cons_append] at hsplit
      rw [← (List.cons.inj hsplit).1]
      exact ⟨gap, rest, rfl, hgap⟩

theorem trim_line (h : WrittenNames names) :
    trim (frame.line names) = WrittenNames.list names ++ trimEnd frame.tail := by
  obtain ⟨c, s, hlist, hc⟩ := h.exists_list_eq_cons
  have hstart : trimStart (WrittenNames.list names ++ frame.tail) =
      WrittenNames.list names ++ frame.tail := by
    rw [hlist, List.cons_append]
    exact trimStart_cons_of_not_blank _ (SharedHead.isBlank_of_isNameStart hc)
  rw [line, trim_of_allBlank_append _ frame.pad_allBlank, trim, hstart]
  by_cases hblank : allBlank frame.tail = true
  · rw [trimEnd_append_of_allBlank _ hblank, h.trimEnd_list, trimEnd_eq_nil_iff.2 hblank,
      List.append_nil]
  · rw [trimEnd_append_of_not_allBlank _ (by simpa using hblank)]

/-- Reading the line gives the names without their stars, and the type. -/
theorem ofLine?_trim_line (h : WrittenNames names) :
    SharedHead.ofLine? (trim (frame.line names)) =
      some ⟨(names.map Entry.bareName).filter (!·.isEmpty), frame.typeText?⟩ := by
  rw [trim_line frame h, typeText?, ← h.map_bareName_splitOn_list]
  rcases frame.trimEnd_tail_cases with htail | ⟨gap, rest, htail, hgap⟩
  · rw [htail, List.append_nil, h.isNameList.ofLine?_eq]
    rfl
  · have hcut : cut? ':' (gap ++ ':' :: rest) = some (gap, rest) :=
      cut?_eq_some_iff.2 ⟨rfl, notMem_of_allBlank hgap (by decide)⟩
    rw [htail, hcut, h.isNameList.ofLine?_append hgap]
    rfl

/-! ### The line in its place -/

theorem allBlank_line (h : WrittenNames names) : allBlank (frame.line names) = false := by
  rw [line, allBlank_append, allBlank_append, h.allBlank_list, Bool.false_and, Bool.and_false]

/-- The line is indented as far as the blanks in front of the names say. -/
theorem indent_line (h : WrittenNames names) : indent (frame.line names) = indent frame.pad := by
  obtain ⟨c, s, hlist, hc⟩ := h.exists_list_eq_cons
  have hspace : (c == ' ') = false := by
    rw [beq_eq_false_iff_ne]
    rintro rfl
    exact absurd hc (by decide)
  rw [line, hlist, indent, indent, List.takeWhile_append, List.cons_append,
    List.takeWhile_cons_of_neg (by rw [hspace]; exact Bool.false_ne_true), List.append_nil]
  split
  · next hall =>
    rw [(List.takeWhile_prefix _).eq_of_length hall]
  · rfl

theorem isUnderline_line (h : WrittenNames names) :
    Underlined.isUnderline (frame.line names) = false := by
  obtain ⟨c, s, hlist, hc⟩ := h.exists_list_eq_cons
  refine Underlined.isUnderline_eq_false ⟨c, ?_, ?_⟩
  · rw [line, hlist]
    simp
  · rintro rfl
    exact absurd hc (by decide)

theorem isTitle_line (h : WrittenNames names) :
    Underlined.isTitle (frame.line names) = (indent frame.pad == 0) := by
  rw [Underlined.isTitle, frame.allBlank_line h, frame.indent_line h, frame.isUnderline_line h,
    Bool.not_false, Bool.true_and, Bool.and_true]

end HeadFrame

namespace Underlined

/-! ### What the entries say -/

/-- An entry of several names adds what separate entries of these names add one after the other. -/
theorem noteParams_trim_line (frame : HeadFrame) {names : List Text} (h : WrittenNames names)
    (body : List Text) (doc : Docstring) :
    noteParams doc ⟨trim (frame.line names), body⟩ =
      (names.map fun name => (⟨trim (frame.line [name]), body⟩ : Entry)).foldl noteParams doc := by
  let said : DocEntry :=
    { description := String.ofList (unwrap body)
      hint := frame.typeText?.bind fun typeText =>
        TypeHint.ofText? (TypeHint.withoutOptional typeText) }
  let say (doc : Docstring) (name : Text) : Docstring :=
    doc.onParam (String.ofList name) fun _ => said
  have hline : ∀ {names : List Text} (_ : WrittenNames names) (doc : Docstring),
      noteParams doc ⟨trim (frame.line names), body⟩ =
        ((names.map Entry.bareName).filter (!·.isEmpty)).foldl say doc := by
    intro names h doc
    rw [noteParams, frame.ofLine?_trim_line h]
  rw [hline h, List.map_eq_flatMap, List.filter_flatMap, List.foldl_flatMap, List.foldl_map]
  refine List.foldl_ext _ _ _ fun doc name hname => ?_
  exact (hline (h.singleton hname) doc).symm

/-! ### The entry in its place -/

/-- The indentation of the heads of a section with the given lines above the given head. -/
def width (lead : List Text) (head : Text) : Nat :=
  indent ((lead.find? (!allBlank ·)).getD head)

/-- An entry of a section about the parameters, in its place in a text: `lead` is what the section
    has above the entry, `body` the lines below the head and `after` all that follows. -/
structure EntryPlace (title rule : Text) (lead : List Text) (head : Text) (body after : List Text) :
    Prop where
  topic?_title : topic? [title, rule] = some .params
  /-- The section goes on up to the entry and through it. -/
  quiet : Outline.Quiet topic? (lead ++ head :: body) after
  indent_le : indent head ≤ width lead head
  deeper : ∀ l ∈ body, allBlank l = true ∨ width lead head < indent l
  /-- The entry ends with the lines in its body. -/
  ends : ∀ l, after.find? (!allBlank ·) = some l → indent l ≤ width lead head

theorem topic?_eq_none_iff {a : Text} {rest : List Text} :
    topic? (a :: rest) = none ↔
      isTitle a = false ∨ ∀ u, rest.head? = some u → isUnderline u = false := by
  cases rest with
  | nil => exact ⟨fun _ => .inr nofun, fun _ => rfl⟩
  | cons u rest =>
    rw [topic?]
    cases isTitle a <;> cases hu : isUnderline u <;> simp [hu]

/-- Only the first one of the lines below matters for lines among which no section begins. -/
theorem quiet_of_quiet {lead rest rest' : List Text} (h : Outline.Quiet topic? lead rest)
    (hrest : ∀ u, rest'.head? = some u → isUnderline u = false) :
    Outline.Quiet topic? lead rest' := by
  induction lead with
  | nil => trivial
  | cons a lead ih =>
    refine ⟨?_, ih h.2⟩
    cases lead with
    | nil => exact topic?_eq_none_iff.2 (.inr hrest)
    | cons b lead => exact topic?_eq_none_iff.2 (topic?_eq_none_iff.1 h.1)

variable {title rule : Text} {lead body after : List Text} {frame : HeadFrame} {names : List Text}

namespace EntryPlace

/-- No section begins at a line of the body, which is indented or blank. -/
theorem quiet_body {head : Text} (hplace : EntryPlace title rule lead head body after)
    (rest : List Text) : Outline.Quiet topic? body rest := by
  have htitle : ∀ l ∈ body, isTitle l = false := by
    intro l hl
    rcases hplace.deeper l hl with hblank | hdeep
    · rw [isTitle, hblank]
      rfl
    · have hindent : (indent l == 0) = false := by
        rw [beq_eq_false_iff_ne]
        omega
      rw [isTitle, hindent, Bool.and_false, Bool.false_and]
  clear hplace
  induction body with
  | nil => trivial
  | cons a body ih =>
    exact ⟨topic?_eq_none_iff.2 (.inl (htitle a List.mem_cons_self)),
      ih fun l hl => htitle l (List.mem_cons_of_mem a hl)⟩

/-- No section begins at a line that opens one of the separate entries, as none begins at the line
    that they share. -/
theorem quiet_separate (h : WrittenNames names)
    (hplace : EntryPlace title rule lead (frame.line names) body after) :
    Outline.Quiet topic? (frame.separate names body) after := by
  have hshared := (Outline.Quiet.append_iff.1 hplace.quiet).2.1
  have hbody := hplace.quiet_body
  have htitle := frame.isTitle_line h
  have hone : ∀ name ∈ names, isTitle (frame.line [name]) = isTitle (frame.line names) :=
    fun name hname => by rw [htitle, frame.isTitle_line (h.singleton hname)]
  have hrule : ∀ name ∈ names, isUnderline (frame.line [name]) = false :=
    fun name hname => frame.isUnderline_line (h.singleton hname)
  generalize frame.line names = shared at hshared hone
  clear hplace h htitle
  induction names with
  | nil => trivial
  | cons name others ih =>
    have ih := ih (fun other hother => hrule other (List.mem_cons_of_mem name hother))
      fun other hother => hone other (List.mem_cons_of_mem name hother)
    refine ⟨?_, Outline.Quiet.append_iff.2 ⟨hbody _, ih⟩⟩
    rw [topic?_eq_none_iff, hone name List.mem_cons_self]
    refine (topic?_eq_none_iff.1 hshared).imp_right fun hnext u hu => ?_
    -- what stands below the line is a line of the body, the next line of the kind, or what follows
    cases body with
    | cons b body => exact hnext u hu
    | nil =>
      cases others with
      | nil => exact hnext u hu
      | cons other others =>
        obtain rfl := Option.some.inj hu
        exact hrule other (List.mem_cons_of_mem name List.mem_cons_self)

/-- The section reaches as far with the separate entries. -/
theorem quiet_lead_separate (h : WrittenNames names)
    (hplace : EntryPlace title rule lead (frame.line names) body after) :
    Outline.Quiet topic? (lead ++ frame.separate names body) after := by
  obtain ⟨name, others, rfl⟩ := List.exists_cons_of_ne_nil h.ne_nil
  refine Outline.Quiet.append_iff.2 ⟨?_, hplace.quiet_separate h⟩
  refine quiet_of_quiet (Outline.Quiet.append_iff.1 hplace.quiet).1 fun u hu => ?_
  obtain rfl := Option.some.inj hu
  exact frame.isUnderline_line (h.singleton List.mem_cons_self)

end EntryPlace

/-- No section begins at an underline. -/
theorem quiet_cons_rule (hrule : isUnderline rule = true) {ls rest : List Text}
    (h : Outline.Quiet topic? ls rest) : Outline.Quiet topic? (rule :: ls) rest :=
  ⟨topic?_eq_none (.inl hrule), h⟩

/-- The first line of a section that is not blank is the head in question, or stands above it. -/
theorem ofLines_append_cons (lead rest : List Text) {head head' : Text}
    (hblank : allBlank head' = false) (hindent : indent head' = indent head) :
    Entry.ofLines (lead ++ head' :: rest) =
      Entry.ofLinesAt (width lead head) (lead ++ head' :: rest) := by
  cases hfind : lead.find? (!allBlank ·) with
  | some first =>
    have hfirst : (lead ++ head' :: rest).find? (!allBlank ·) = some first := by
      rw [List.find?_append, hfind, Option.some_or]
    rw [Entry.ofLines_eq_ofLinesAt hfirst, width, hfind, Option.getD_some]
  | none =>
    have hfirst : (lead ++ head' :: rest).find? (!allBlank ·) = some head' := by
      rw [List.find?_append, hfind, Option.none_or]
      exact List.find?_cons_of_pos (by simp [hblank])
    rw [Entry.ofLines_eq_ofLinesAt hfirst, width, hfind, Option.getD_none, hindent]

namespace EntryPlace

/-- The entries of the section when lines with the given names open entries in this place. -/
theorem ofLines_groups (h : WrittenNames names)
    (hplace : EntryPlace title rule lead (frame.line names) body after)
    {groups : List (List Text)} (hne : groups ≠ [])
    (hgroups : ∀ group ∈ groups, WrittenNames group) :
    Entry.ofLines (lead ++ groups.flatMap (fun group => frame.line group :: body) ++
        (underlinedParts after).preamble) =
      Entry.ofLinesAt (width lead (frame.line names)) lead ++
        (groups.map (fun group =>
          ⟨trim (frame.line group), (body.filter (!allBlank ·)).map trim⟩) ++
          Entry.ofLinesAt (width lead (frame.line names)) (underlinedParts after).preamble) := by
  have hindent : ∀ group ∈ groups, indent (frame.line group) = indent (frame.line names) :=
    fun group hgroup => by rw [frame.indent_line (hgroups group hgroup), frame.indent_line h]
  have hheads : ∀ group ∈ groups, allBlank (frame.line group) = false ∧
      indent (frame.line group) ≤ width lead (frame.line names) := fun group hgroup =>
    ⟨frame.allBlank_line (hgroups group hgroup), (hindent group hgroup).le.trans hplace.indent_le⟩
  have htail : ∀ l, (underlinedParts after).preamble.find? (!allBlank ·) = some l →
      indent l ≤ width lead (frame.line names) := by
    obtain ⟨rest, hafter, -, -⟩ := Outline.exists_preamble_append topic? after
    intro l hl
    refine hplace.ends l ?_
    rw [hafter, List.find?_append]
    exact Option.or_eq_some_iff.2 (.inl hl)
  rw [← Entry.ofLinesAt_blocks hheads (fun _ _ => hplace.deeper) htail, List.append_assoc]
  obtain ⟨group, groups, rfl⟩ := List.exists_cons_of_ne_nil hne
  exact ofLines_append_cons lead _ (hheads group List.mem_cons_self).1
    (hindent group List.mem_cons_self)

/-- The entries of the section, with one entry in place of the shared one for each name. -/
theorem exists_ofLines_eq (h : WrittenNames names)
    (hplace : EntryPlace title rule lead (frame.line names) body after) :
    ∃ above below lines,
      Entry.ofLines (lead ++ frame.line names :: body ++ (underlinedParts after).preamble) =
        above ++ (⟨trim (frame.line names), lines⟩ :: below) ∧
      Entry.ofLines (lead ++ frame.separate names body ++ (underlinedParts after).preamble) =
        above ++ (names.map (fun name => ⟨trim (frame.line [name]), lines⟩) ++ below) := by
  have hshared := hplace.ofLines_groups h (List.cons_ne_nil names [])
    (List.forall_mem_singleton.2 h)
  have hseparate := hplace.ofLines_groups h (mt List.map_eq_nil_iff.1 h.ne_nil)
    (List.forall_mem_map.2 fun name (hname : name ∈ names) => h.singleton hname)
  rw [List.flatMap_singleton, List.map_singleton] at hshared
  rw [List.flatMap_map, List.map_map] at hseparate
  exact ⟨_, _, _, hshared, hseparate⟩

end EntryPlace

end Underlined

/-- Sections about the parameters that add the same can stand for each other. -/
theorem SectionFormat.exists_read?_params (format : SectionFormat) {body body' : List Text}
    (h : ∀ doc, (Entry.ofLines body').foldl format.noteParam doc =
      (Entry.ofLines body).foldl format.noteParam doc)
    (preamble : List Text) (sections later : List (SectionTopic × List Text)) :
    ∃ doc, format.read? ⟨preamble, sections ++ (.params, body) :: later⟩ = some doc ∧
      format.read? ⟨preamble, sections ++ (.params, body') :: later⟩ = some doc := by
  refine ⟨_, format.read?_append_params body preamble sections later, ?_⟩
  rw [format.read?_append_params]
  apply congrArg some
  rw [List.foldl_append, List.foldl_append, List.foldl_cons, List.foldl_cons]
  exact congrArg (later.foldl format.note) (h _)

namespace Underlined

/-- **Shared entries**: an entry of several names says what separate entries of these names say in
    its place, with the same lines below each of them. -/
theorem read?_separate {title rule : Text} {lead body after : List Text} {frame : HeadFrame}
    {names : List Text} (hnames : WrittenNames names)
    (hplace : EntryPlace title rule lead (frame.line names) body after) (before : List Text) :
    ∃ doc,
      read? (before ++ title :: rule :: (lead ++ frame.line names :: body ++ after)) = some doc ∧
      read? (before ++ title :: rule :: (lead ++ frame.separate names body ++ after)) =
        some doc := by
  have hrule := isUnderline_of_topic? hplace.topic?_title
  obtain ⟨preamble, sections, later, houtline, houtline'⟩ :=
    outline_append_section hplace.topic?_title (quiet_cons_rule hrule hplace.quiet).forall_split
      (quiet_cons_rule hrule (hplace.quiet_lead_separate hnames)).forall_split before
  obtain ⟨above, below, lines, hshared, hseparate⟩ := hplace.exists_ofLines_eq hnames
  rw [read?, houtline, read?, houtline']
  apply format.exists_read?_params
  intro doc
  rw [hshared, hseparate, List.foldl_append, List.foldl_append, List.foldl_append, List.foldl_cons]
  exact congrArg (below.foldl noteParams) (noteParams_trim_line frame hnames lines _).symm

/-- A name can stand twice in the entry, with and without stars, and in an entry above it. -/
theorem read?_separate_repeated :
    ∃ doc,
      read? (["Sum.", "", "Parameters", "----------", "x", "  Size.", "x, *y, x : int", "  Both.",
        "z", "", "Returns", "-------", "int"].map String.toList) = some doc ∧
      read? (["Sum.", "", "Parameters", "----------", "x", "  Size.", "x : int", "  Both.",
        "*y : int", "  Both.", "x : int", "  Both.", "z", "", "Returns", "-------", "int"].map
          String.toList) = some doc := by
  let frame : HeadFrame :=
    ⟨[], " : int".toList, rfl, .inr ⟨[' '], " int".toList, rfl, rfl⟩⟩
  have hnames : WrittenNames ["x".toList, "*y".toList, "x".toList] :=
    ⟨by decide, by decide, by decide⟩
  have hplace : EntryPlace "Parameters".toList "----------".toList ["x".toList, "  Size.".toList]
      (frame.line ["x".toList, "*y".toList, "x".toList]) ["  Both.".toList]
      (["z", "", "Returns", "-------", "int"].map String.toList) := by
    refine ⟨by decide, ⟨rfl, rfl, rfl, rfl, trivial⟩, by decide, by decide, fun l hl => ?_⟩
    obtain rfl := Option.some.inj hl
    decide
  exact read?_separate hnames hplace ["Sum.".toList, []]

end Underlined

end CallSchema
