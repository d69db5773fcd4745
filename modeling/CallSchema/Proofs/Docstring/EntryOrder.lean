import CallSchema.Proofs.Docstring.Ends
import CallSchema.Proofs.Docstring.Entries
import CallSchema.Proofs.Rendering.ReadTitled
import CallSchema.Proofs.Rendering.ReadUnderlined

/-!
# The order of entries

The heads of the entries in a section stand below each other, and every entry takes along the deeper
lines below its head. Entries about the parameters replace what was said under their names, so that
entries without a common name can stand in any order (`Titled.sameUnder_ofLines`,
`Underlined.sameUnder_ofLines`). What stands before and after the section is read as before, as its
title and the titles below it stay where they are.

## Main definitions

* `EntryBlock` -- an entry as it stands in a section
-/

namespace CallSchema

open Text

/-! ### Sections in a text -/

namespace Outline

variable {α β : Type} {heading? : List α → Option β} {rest rest' : List α}

theorem of_eq_of_isSome (h : (heading? rest).isSome = true) :
    of heading? rest = ⟨[], (of heading? rest).sections⟩ := by
  cases rest with
  | nil => rfl
  | cons a rest =>
    obtain ⟨heading, hheading⟩ := Option.isSome_iff_exists.1 h
    rw [of_cons_some hheading]

/-- What is read above a heading does not depend on what follows the heading. -/
theorem of_append_congr (hrest : (heading? rest).isSome = true)
    (hrest' : (heading? rest').isSome = true)
    (hsame : ∀ a s, heading? (a :: (s ++ rest')) = heading? (a :: (s ++ rest))) (before : List α) :
    ∃ preamble sections,
      of heading? (before ++ rest) = ⟨preamble, sections ++ (of heading? rest).sections⟩ ∧
      of heading? (before ++ rest') = ⟨preamble, sections ++ (of heading? rest').sections⟩ := by
  induction before with
  | nil => exact ⟨[], [], of_eq_of_isSome hrest, of_eq_of_isSome hrest'⟩
  | cons a before ih =>
    obtain ⟨preamble, sections, hof, hof'⟩ := ih
    rw [List.cons_append, List.cons_append]
    cases hhead : heading? (a :: (before ++ rest)) with
    | none =>
      refine ⟨a :: preamble, sections, ?_, ?_⟩
      · rw [of_cons_none hhead, hof]
      · rw [of_cons_none ((hsame a before).trans hhead), hof']
    | some heading =>
      refine ⟨[], (heading, preamble) :: sections, ?_, ?_⟩
      · rw [of_cons_some hhead, hof, List.cons_append]
      · rw [of_cons_some ((hsame a before).trans hhead), hof', List.cons_append]

/-- A section takes the lines below its heading up to the next heading. -/
theorem of_section {head : α} {body after : List α} {heading : β}
    (hhead : heading? (head :: (body ++ after)) = some heading)
    (hquiet : ∀ s a t, body = s ++ a :: t → heading? (a :: (t ++ after)) = none) :
    of heading? (head :: (body ++ after)) =
      ⟨[], (heading, body ++ (of heading? after).preamble) :: (of heading? after).sections⟩ := by
  rw [of_cons_some hhead, of_append hquiet]

/-- Texts that differ in the body of one section have outlines that differ in this body alone. -/
theorem of_append_section (before : List α) {body body' after : List α} {head : α} {heading : β}
    (hlocal : ∀ a s t t', heading? (a :: (s ++ head :: t)) = heading? (a :: (s ++ head :: t')))
    (hhead : heading? (head :: (body ++ after)) = some heading)
    (hhead' : heading? (head :: (body' ++ after)) = some heading)
    (hquiet : ∀ s a t, body = s ++ a :: t → heading? (a :: (t ++ after)) = none)
    (hquiet' : ∀ s a t, body' = s ++ a :: t → heading? (a :: (t ++ after)) = none) :
    ∃ preamble sections later,
      of heading? (before ++ head :: (body ++ after)) =
        ⟨preamble, sections ++ (heading, body ++ (of heading? after).preamble) :: later⟩ ∧
      of heading? (before ++ head :: (body' ++ after)) =
        ⟨preamble, sections ++ (heading, body' ++ (of heading? after).preamble) :: later⟩ := by
  obtain ⟨preamble, sections, hof, hof'⟩ :=
    of_append_congr (by rw [hhead]; rfl) (by rw [hhead']; rfl) (fun a s => hlocal a s _ _) before
  refine ⟨preamble, sections, (of heading? after).sections, ?_, ?_⟩
  · rw [hof, of_section hhead hquiet]
  · rw [hof', of_section hhead' hquiet']

theorem preamble_eq_nil {after : List α} (h : after = [] ∨ (heading? after).isSome = true) :
    (of heading? after).preamble = [] := by
  rcases h with rfl | h
  · rfl
  · rw [of_eq_of_isSome h]

end Outline

/-! ### Entries in a section -/

/-- An entry as it stands in a section: a head that is indented by `width`, and lines below that are
    blank or indented deeper. -/
structure EntryBlock (width : Nat) where
  head : Text
  below : List Text
  not_allBlank : allBlank head = false
  indent_head : indent head = width
  deeper : ∀ l ∈ below, allBlank l = true ∨ width < indent l

namespace EntryBlock

variable {width : Nat}

/-- The lines of an entry. -/
def lines (block : EntryBlock width) : List Text :=
  block.head :: block.below

/-- The entry, in which blank lines do not count. -/
def entry (block : EntryBlock width) : Entry :=
  ⟨trim block.head, (block.below.filter (!allBlank ·)).map trim⟩

/-- The lines below a head are blank or begin with a space. -/
theorem below_cases (block : EntryBlock width) {l : Text} (hl : l ∈ block.below) :
    allBlank l = true ∨ l.head? = some ' ' := by
  refine (block.deeper l hl).imp_right fun h => ?_
  by_contra hhead
  rw [indent_eq_zero hhead] at h
  exact Nat.not_lt_zero _ h

/-- The blocks of a section are its entries. -/
theorem ofLines_append_flatMap {gap : List Text} (hgap : ∀ l ∈ gap, allBlank l = true)
    (blocks : List (EntryBlock width)) :
    Entry.ofLines (gap ++ blocks.flatMap lines) = blocks.map entry := by
  have hblocks := Entry.ofLines_blocks hgap (List.forall_mem_nil _)
    (fun block (_ : block ∈ blocks) => ⟨block.not_allBlank, block.indent_head⟩)
    (fun block _ => block.deeper)
  rwa [List.append_nil] at hblocks

end EntryBlock

/-! ### Docstrings made of sections -/

/-- A text with a section about the parameters is read. -/
theorem SectionFormat.read?_append_params (format : SectionFormat) (body preamble : List Text)
    (sections later : List (SectionTopic × List Text)) :
    format.read? ⟨preamble, sections ++ (.params, body) :: later⟩ =
      some ((sections ++ (.params, body) :: later).foldl format.note
        (Docstring.ofDescription (some format.style) preamble)) :=
  if_pos (List.any_eq_true.2 ⟨(.params, body), by simp, rfl⟩)

namespace SectionFormat.EntryForm

variable {format : SectionFormat} {doc doc' : Docstring} {entries entries' : List Entry}

/-- Entries without a common name say the same in any order. -/
theorem about?_foldl_noteParam_perm (form : format.EntryForm)
    (hnames : (entries.flatMap form.names).Nodup)
    (hperm : entries.Perm entries') (doc : Docstring) (subject : Subject) :
    (entries'.foldl format.noteParam doc).about? subject =
      (entries.foldl format.noteParam doc).about? subject := by
  rw [form.about?_foldl_noteParam, form.about?_foldl_noteParam]
  refine (foldl_eq_of_perm ((List.nodup_flatMap.1 hnames).2.imp ?_) hperm _).symm
  intro entry other hdisjoint said
  by_cases hentry : subject ∈ (form.names entry).map Subject.param
  · have hother : subject ∉ (form.names other).map Subject.param := by
      intro hother
      obtain ⟨name, hname, rfl⟩ := List.mem_map.1 hentry
      obtain ⟨name', hname', heq⟩ := List.mem_map.1 hother
      obtain rfl := Subject.param.inj heq
      exact hdisjoint hname hname'
    rw [if_pos hentry, if_neg hother, if_neg hother, if_pos hentry]
  · rw [if_neg hentry, if_neg hentry]

/-- A section adds the same to docstrings with the same entries. -/
theorem about?_note_congr (form : format.EntryForm)
    (h : ∀ subject, doc'.about? subject = doc.about? subject)
    (part : SectionTopic × List Text) (subject : Subject) :
    (format.note doc' part).about? subject = (format.note doc part).about? subject := by
  obtain ⟨topic, body⟩ := part
  cases topic with
  | aside => exact h subject
  | params =>
    change ((Entry.ofLines body).foldl format.noteParam doc').about? subject =
      ((Entry.ofLines body).foldl format.noteParam doc).about? subject
    rw [form.about?_foldl_noteParam, form.about?_foldl_noteParam, h]
  | returned =>
    cases subject with
    | param name => exact h (.param name)
    | returned =>
      have hreturns : doc'.returns = doc.returns := h .returned
      change (_ <|> doc'.returns) = (_ <|> doc.returns)
      rw [hreturns]

theorem about?_foldl_note_congr (form : format.EntryForm)
    (h : ∀ subject, doc'.about? subject = doc.about? subject)
    (parts : List (SectionTopic × List Text)) (subject : Subject) :
    (parts.foldl format.note doc').about? subject =
      (parts.foldl format.note doc).about? subject := by
  induction parts generalizing doc doc' with
  | nil => exact h subject
  | cons part parts ih => exact ih (form.about?_note_congr h part)

/-- A section about the parameters can be replaced by one that has its entries in another order. -/
theorem sameUnder_read? (form : format.EntryForm)
    (hwithout : ∀ doc entry, (format.noteParam doc entry).withoutEntries = doc.withoutEntries)
    {body body' : List Text} (hnames : ((Entry.ofLines body).flatMap form.names).Nodup)
    (hperm : (Entry.ofLines body).Perm (Entry.ofLines body')) (names : List String)
    (preamble : List Text) (sections later : List (SectionTopic × List Text)) :
    ∃ doc doc',
      format.read? ⟨preamble, sections ++ (.params, body) :: later⟩ = some doc ∧
      format.read? ⟨preamble, sections ++ (.params, body') :: later⟩ = some doc' ∧
      Docstring.SameUnder names doc doc' := by
  refine ⟨_, _, format.read?_append_params body preamble sections later,
    format.read?_append_params body' preamble sections later, .of_about? ?_ fun subject _ => ?_⟩
  · rw [Docstring.withoutEntries_foldl (withoutEntries_note hwithout),
      Docstring.withoutEntries_foldl (withoutEntries_note hwithout)]
  · rw [List.foldl_append, List.foldl_append, List.foldl_cons, List.foldl_cons]
    exact form.about?_foldl_note_congr (form.about?_foldl_noteParam_perm hnames hperm _) later
      subject

end SectionFormat.EntryForm

theorem Docstring.SameUnder.ofLines {names : List String} {doc doc' : Docstring} {style : Style}
    {ls ls' : List Text} (hsame : SameUnder names doc doc') (hread : style.read? ls = some doc)
    (hread' : style.read? ls' = some doc') :
    SameUnder names (Docstring.ofLines (some style) ls) (Docstring.ofLines (some style) ls') := by
  rw [ofLines_some, ofLines_some, hread, hread']
  exact hsame

/-! ### The two styles -/

variable {names : List String} {before gap after : List Text} {width : Nat}
  {blocks blocks' : List (EntryBlock width)}

namespace Titled

theorem topic?_of_allBlank {l : Text} (h : allBlank l = true) : topic? l = none := by
  apply topic?_of_getLast?_ne
  intro hlast
  exact notMem_of_allBlank h (by decide) (List.mem_of_getLast? hlast)

/-- No section begins among entries whose heads are no titles. -/
theorem topic?_of_mem_blocks (hgap : ∀ l ∈ gap, allBlank l = true)
    (hheads : ∀ block ∈ blocks, topic? block.head = none) :
    ∀ l ∈ gap ++ blocks.flatMap EntryBlock.lines, topic? l = none := by
  intro l hl
  rcases List.mem_append.1 hl with hl | hl
  · exact topic?_of_allBlank (hgap l hl)
  · obtain ⟨block, hblock, hl⟩ := List.mem_flatMap.1 hl
    rcases List.mem_cons.1 hl with rfl | hl
    · exact hheads block hblock
    · exact (block.below_cases hl).elim topic?_of_allBlank topic?_of_head?_space

/-- **Order of titled entries**: the entries of a section can stand in any order. -/
theorem sameUnder_ofLines {title : Text} (htitle : topic? title = some .params)
    (hgap : ∀ l ∈ gap, allBlank l = true)
    (hheads : ∀ block ∈ blocks ++ blocks', topic? block.head = none)
    (hafter : after = [] ∨ (after.head?.bind topic?).isSome = true)
    (hnames : ((blocks.map EntryBlock.entry).flatMap namesOf).Nodup)
    (hperm : (blocks.map EntryBlock.entry).Perm (blocks'.map EntryBlock.entry)) :
    Docstring.SameUnder names
      (Docstring.ofLines (some .google)
        (before ++ title :: (gap ++ blocks.flatMap EntryBlock.lines ++ after)))
      (Docstring.ofLines (some .google)
        (before ++ title :: (gap ++ blocks'.flatMap EntryBlock.lines ++ after))) := by
  let heading? (ls : List Text) : Option SectionTopic := ls.head?.bind topic?
  have hhead : ∀ s, heading? (title :: s) = some .params := fun _ => htitle
  have hquiet : ∀ s a t, gap ++ blocks.flatMap EntryBlock.lines = s ++ a :: t →
      heading? (a :: (t ++ after)) = none := fun s a t hs =>
    topic?_of_mem_blocks hgap (fun block hblock => hheads block (List.mem_append_left _ hblock)) a
      (by rw [hs]; simp)
  have hquiet' : ∀ s a t, gap ++ blocks'.flatMap EntryBlock.lines = s ++ a :: t →
      heading? (a :: (t ++ after)) = none := fun s a t hs =>
    topic?_of_mem_blocks hgap (fun block hblock => hheads block (List.mem_append_right _ hblock)) a
      (by rw [hs]; simp)
  obtain ⟨preamble, sections, later, hof, hof'⟩ := Outline.of_append_section before
    (fun _ s _ _ => by cases s <;> rfl) (hhead _) (hhead _) hquiet hquiet'
  rw [Outline.preamble_eq_nil hafter, List.append_nil] at hof hof'
  rw [← EntryBlock.ofLines_append_flatMap hgap] at hnames hperm
  rw [← EntryBlock.ofLines_append_flatMap hgap blocks'] at hperm
  obtain ⟨doc, doc', hread, hread', hsame⟩ := entryForm.sameUnder_read? withoutEntries_noteParam
    hnames hperm names preamble sections later
  rw [← hof] at hread
  rw [← hof'] at hread'
  exact hsame.ofLines hread hread'

end Titled

/-- The line that opens an entry begins as a list of names does. -/
theorem SharedHead.exists_isNameStart {l : Text} {head : SharedHead} (h : ofLine? l = some head) :
    ∃ c ∈ l, isNameStart c = true := by
  have hstart : ∀ before rest : Text, l = before ++ rest →
      (trimEnd before).head?.any isNameStart = true → ∃ c ∈ l, isNameStart c = true := by
    rintro before rest rfl hany
    obtain ⟨c, hc, hname⟩ := (Option.any_eq_true _ _).1 hany
    obtain ⟨b, -, hbefore⟩ := exists_trimEnd_append before
    refine ⟨c, List.mem_append_left rest ?_, hname⟩
    rw [hbefore]
    exact List.mem_append_left b (List.mem_of_head? hc)
  unfold ofLine? at h
  cases hcut : cut? ':' l with
  | none =>
    rw [hcut] at h
    dsimp only at h
    split at h
    · next hnames => exact hstart l [] (List.append_nil l).symm hnames.1
    · cases h
  | some parts =>
    obtain ⟨before, rest⟩ := parts
    rw [hcut] at h
    dsimp only at h
    split at h
    · next hnames => exact hstart before _ (cut?_eq_some_iff.1 hcut).1 hnames.1
    · cases h

namespace Underlined

theorem isUnderline_of_allBlank {l : Text} (h : allBlank l = true) : isUnderline l = false := by
  cases l with
  | nil => rfl
  | cons c l =>
    refine isUnderline_eq_false ⟨c, List.mem_cons_self, ?_⟩
    rintro rfl
    exact notMem_of_allBlank h (by decide) List.mem_cons_self

/-- An underline names no parameter. -/
theorem isUnderline_head {block : EntryBlock width} (h : namesOf block.entry ≠ []) :
    isUnderline block.head = false := by
  unfold namesOf at h
  split at h
  · exact absurd rfl h
  · next hline =>
    obtain ⟨c, hc, hname⟩ := SharedHead.exists_isNameStart hline
    refine isUnderline_eq_false ⟨c, mem_of_mem_trim hc, ?_⟩
    rintro rfl
    exact absurd hname (by decide)

/-- There is no underline among entries that name parameters. -/
theorem isUnderline_of_mem_blocks (hgap : ∀ l ∈ gap, allBlank l = true)
    (hnamed : ∀ entry ∈ blocks.map EntryBlock.entry, namesOf entry ≠ []) :
    ∀ l ∈ gap ++ blocks.flatMap EntryBlock.lines, isUnderline l = false := by
  intro l hl
  rcases List.mem_append.1 hl with hl | hl
  · exact isUnderline_of_allBlank (hgap l hl)
  · obtain ⟨block, hblock, hl⟩ := List.mem_flatMap.1 hl
    rcases List.mem_cons.1 hl with rfl | hl
    · exact isUnderline_head (hnamed _ (List.mem_map_of_mem hblock))
    · exact (block.below_cases hl).elim isUnderline_of_allBlank isUnderline_of_head?_space

theorem isUnderline_of_isSome_topic? {l : Text} {rest : List Text}
    (h : (topic? (l :: rest)).isSome = true) : isUnderline l = false := by
  by_contra hunderline
  rw [Bool.not_eq_false] at hunderline
  rw [topic?_eq_none (.inl hunderline)] at h
  cases h

/-- No section begins below an underline with entries that name parameters. -/
theorem topic?_of_mem_blocks {rule : Text} (hrule : isUnderline rule = true)
    (hgap : ∀ l ∈ gap, allBlank l = true)
    (hnamed : ∀ entry ∈ blocks.map EntryBlock.entry, namesOf entry ≠ [])
    (hafter : after = [] ∨ (topic? after).isSome = true) (s : List Text) (a : Text) (t : List Text)
    (hs : rule :: (gap ++ blocks.flatMap EntryBlock.lines) = s ++ a :: t) :
    topic? (a :: (t ++ after)) = none := by
  have hlines := isUnderline_of_mem_blocks hgap hnamed
  apply topic?_eq_none
  cases s with
  | nil =>
    left
    rw [← (List.cons.inj hs).1]
    exact hrule
  | cons b s =>
    right
    intro u hu
    cases t with
    | nil =>
      rcases hafter with rfl | hafter
      · cases hu
      · obtain ⟨rest, rfl⟩ := List.head?_eq_some_iff.1 hu
        exact isUnderline_of_isSome_topic? hafter
    | cons v t =>
      obtain rfl := Option.some.inj hu
      apply hlines
      rw [(List.cons.inj hs).2]
      simp

/-- A part without its underline. -/
def withoutRule (part : SectionTopic × List Text) : SectionTopic × List Text :=
  (part.1, part.2.tail)

/-- Texts that differ in the body of one section have sections that differ in this body alone. -/
theorem outline_append_section {title rule : Text} {topic : SectionTopic} {body body' : List Text}
    (htitle : topic? [title, rule] = some topic)
    (hquiet : ∀ s a t, rule :: body = s ++ a :: t → topic? (a :: (t ++ after)) = none)
    (hquiet' : ∀ s a t, rule :: body' = s ++ a :: t → topic? (a :: (t ++ after)) = none)
    (before : List Text) :
    ∃ preamble sections later,
      outline (before ++ title :: rule :: (body ++ after)) =
        ⟨preamble, sections ++ (topic, body ++ (underlinedParts after).preamble) :: later⟩ ∧
      outline (before ++ title :: rule :: (body' ++ after)) =
        ⟨preamble, sections ++ (topic, body' ++ (underlinedParts after).preamble) :: later⟩ := by
  have hhead : ∀ s, topic? (title :: rule :: s) = some topic := fun _ => htitle
  obtain ⟨preamble, sections, later, hof, hof'⟩ := Outline.of_append_section before
    (fun _ s _ _ => by rcases s with _ | ⟨_, _⟩ <;> rfl) (hhead _) (hhead _) hquiet hquiet'
  have houtline : ∀ {ls body}, Outline.of topic? ls =
      ⟨preamble, sections ++ (topic, rule :: body) :: later⟩ →
      outline ls =
        ⟨preamble, sections.map withoutRule ++ (topic, body) :: later.map withoutRule⟩ := by
    intro ls body hls
    rw [outline, underlinedParts, hls, List.map_append, List.map_cons]
    rfl
  exact ⟨preamble, sections.map withoutRule, later.map withoutRule, houtline hof, houtline hof'⟩

theorem isUnderline_of_topic? {title rule : Text} {topic : SectionTopic}
    (htitle : topic? [title, rule] = some topic) : isUnderline rule = true := by
  by_contra hrule
  rw [Bool.not_eq_true] at hrule
  have hnone : topic? [title, rule] = none := topic?_eq_none <| .inr fun u hu => by
    obtain rfl := Option.some.inj hu
    exact hrule
  rw [hnone] at htitle
  cases htitle

/-- **Order of underlined entries**: the entries of a section can stand in any order. -/
theorem sameUnder_ofLines {title rule : Text} (htitle : topic? [title, rule] = some .params)
    (hgap : ∀ l ∈ gap, allBlank l = true)
    (hnamed : ∀ entry ∈ blocks.map EntryBlock.entry, namesOf entry ≠ [])
    (hafter : after = [] ∨ (topic? after).isSome = true)
    (hnames : ((blocks.map EntryBlock.entry).flatMap namesOf).Nodup)
    (hperm : (blocks.map EntryBlock.entry).Perm (blocks'.map EntryBlock.entry)) :
    Docstring.SameUnder names
      (Docstring.ofLines (some .numpy)
        (before ++ title :: rule :: (gap ++ blocks.flatMap EntryBlock.lines ++ after)))
      (Docstring.ofLines (some .numpy)
        (before ++ title :: rule :: (gap ++ blocks'.flatMap EntryBlock.lines ++ after))) := by
  have hrule := isUnderline_of_topic? htitle
  have hnamed' : ∀ entry ∈ blocks'.map EntryBlock.entry, namesOf entry ≠ [] := fun entry hentry =>
    hnamed entry (hperm.mem_iff.2 hentry)
  obtain ⟨preamble, sections, later, hof, hof'⟩ := outline_append_section htitle
    (topic?_of_mem_blocks hrule hgap hnamed hafter) (topic?_of_mem_blocks hrule hgap hnamed' hafter)
    before
  rw [underlinedParts, Outline.preamble_eq_nil hafter, List.append_nil] at hof hof'
  rw [← EntryBlock.ofLines_append_flatMap hgap] at hnames hperm
  rw [← EntryBlock.ofLines_append_flatMap hgap blocks'] at hperm
  obtain ⟨doc, doc', hread, hread', hsame⟩ := entryForm.sameUnder_read? withoutEntries_noteParams
    hnames hperm names preamble sections later
  rw [← hof] at hread
  rw [← hof'] at hread'
  exact hsame.ofLines hread hread'

end Underlined

end CallSchema
