import CallSchema.Proofs.Docstring.Entries
import CallSchema.Proofs.Text.Word

/-!
# The names of the parameters

The names in a docstring are written with stars in front of them or without, and `Entry.bareName`
takes off blanks first and stars then. So no name begins with a star or ends with a blank. But a
text of nothing but stars leaves an empty name, and a blank right behind the stars stays in front
of the name. A field list takes both as they are, an underlined section leaves out empty names, and
what names a parameter in a titled section is a word: `Style.forall_isRealName_iff` tells exactly
when all names are real.

## Main definitions

* `IsRealName` -- a text that can be the name of a parameter
* `Entry.IsStars`, `Entry.HasGap` -- written names of which no real name is left
* `FieldList.writtenNames`, `Underlined.writtenNames` -- the names of a text as they are written
* `Style.Mangles` -- a style gets a name from a text that is not real
-/

namespace CallSchema

open Text

/-- A text that can be the name of a parameter: not empty, with no star in front and no blank at
    either end. -/
structure IsRealName (s : Text) : Prop where
  ne_nil : s ≠ []
  head_ne_star : s.head? ≠ some '*'
  trim_eq : trim s = s

theorem IsRealName.of_isWord {s : Text} (hne : s ≠ []) (h : ∀ c ∈ s, isWord c = true) :
    IsRealName s := by
  refine ⟨hne, fun hstar => ?_, trim_eq_self_of_forall fun c hc => isBlank_of_isWord (h c hc)⟩
  exact absurd (h '*' (List.mem_of_mem_head? hstar)) (by decide)

/-! ### Names without their stars -/

namespace Entry

variable {s : Text}

/-- The trimmed text has nothing in it but stars, if anything. -/
def IsStars (s : Text) : Prop :=
  ∀ c ∈ trim s, c = '*'

/-- A blank stands right behind the stars. -/
def HasGap (s : Text) : Prop :=
  ∃ stars c rest, trim s = stars ++ c :: rest ∧ (∀ d ∈ stars, d = '*') ∧ isBlank c = true

theorem head?_bareName_ne (s : Text) : (bareName s).head? ≠ some '*' := by
  intro hstar
  have hnot := List.head?_dropWhile_not (· == '*') (trim s)
  rw [← bareName, hstar] at hnot
  cases hnot

theorem trimEnd_bareName (s : Text) : trimEnd (bareName s) = bareName s := by
  rw [trimEnd_eq_self_iff]
  intro c hc
  obtain ⟨stars, hstars⟩ : bareName s <:+ trim s := List.dropWhile_suffix _
  have hne : bareName s ≠ [] := by
    intro hnil
    rw [hnil] at hc
    cases hc
  refine (trim_eq_self_iff_ends.1 (trim_idem s)).2 c ?_
  rw [← hstars, List.getLast?_append_of_ne_nil _ hne]
  exact hc

theorem bareName_eq_nil_iff : bareName s = [] ↔ IsStars s := by
  simp only [bareName, List.dropWhile_eq_nil_iff, beq_iff_eq, IsStars]

theorem hasGap_iff : HasGap s ↔ ∃ c, (bareName s).head? = some c ∧ isBlank c = true := by
  constructor
  · rintro ⟨stars, c, rest, htrim, hstars, hc⟩
    refine ⟨c, ?_, hc⟩
    have hne : ¬(c == '*') = true := by
      rw [beq_iff_eq]
      rintro rfl
      exact absurd hc (by decide)
    rw [bareName, htrim, List.dropWhile_append_of_pos (fun d hd => beq_iff_eq.2 (hstars d hd)),
      List.dropWhile_cons, if_neg hne, List.head?_cons]
  · rintro ⟨c, hhead, hc⟩
    obtain ⟨rest, hrest⟩ := List.head?_eq_some_iff.1 hhead
    refine ⟨(trim s).takeWhile (· == '*'), c, rest, ?_, fun d hd => ?_, hc⟩
    · rw [← hrest, bareName, List.takeWhile_append_dropWhile]
    · exact beq_iff_eq.1 (List.mem_takeWhile_imp (p := (· == '*')) hd)

/-- A name is real when something is left of it that does not begin with a blank. -/
theorem isRealName_bareName_iff : IsRealName (bareName s) ↔ ¬IsStars s ∧ ¬HasGap s := by
  rw [hasGap_iff, ← bareName_eq_nil_iff, not_exists]
  simp only [not_and, Bool.not_eq_true]
  constructor
  · intro h
    exact ⟨h.ne_nil, (trim_eq_self_iff_ends.1 h.trim_eq).1⟩
  · rintro ⟨hne, hhead⟩
    exact ⟨hne, head?_bareName_ne s,
      trim_eq_self_iff_ends.2 ⟨hhead, trimEnd_eq_self_iff.1 (trimEnd_bareName s)⟩⟩

theorem HasGap.not_isStars (h : HasGap s) : ¬IsStars s := by
  obtain ⟨c, hhead, -⟩ := hasGap_iff.1 h
  rw [← bareName_eq_nil_iff]
  intro hnil
  rw [hnil] at hhead
  cases hhead

end Entry

/-! ### Where the names come from -/

namespace Docstring

theorem mem_names_onParam (doc : Docstring) (name : String) (f : DocEntry → DocEntry)
    (other : String) :
    other ∈ (doc.onParam name f).params.names ↔ other ∈ doc.params.names ∨ other ∈ [name] := by
  change other ∈ (doc.params.alter name _).names ↔ _
  rw [Table.names_alter]
  split
  · next h =>
    rw [List.mem_singleton]
    exact ⟨.inl, fun hor => hor.elim id fun heq => heq ▸ h⟩
  · exact List.mem_append

/-- Steps that add names each leave the names from before and all that they add. -/
theorem mem_names_foldl {α : Type} {step : Docstring → α → Docstring} {added : α → List String}
    (hstep : ∀ doc a name,
      name ∈ (step doc a).params.names ↔ name ∈ doc.params.names ∨ name ∈ added a)
    (steps : List α) (doc : Docstring) (name : String) :
    name ∈ (steps.foldl step doc).params.names ↔
      name ∈ doc.params.names ∨ name ∈ steps.flatMap added := by
  induction steps generalizing doc with
  | nil => simp
  | cons a steps ih =>
    rw [List.foldl_cons, ih, hstep, List.flatMap_cons, List.mem_append, or_assoc]

end Docstring

/-- The name in a field as it is written. -/
def Field.writtenName? (field : Field) : Option Text :=
  match field.topic?, field.1.argument with
  | some .param, some argument => some (FieldList.typeAndName argument).2
  | some .paramType, some argument => some argument
  | _, _ => none

namespace FieldList

/-- The names in the fields of a text as they are written. -/
def writtenNames (ls : List Text) : List Text :=
  (outline ls).sections.filterMap Field.writtenName?

theorem mem_names_note (doc : Docstring) (field : Field) (name : String) :
    name ∈ (note doc field).params.names ↔ name ∈ doc.params.names ∨
      name ∈ (field.writtenName?.map fun s => String.ofList (Entry.bareName s)).toList := by
  unfold note Field.writtenName?
  generalize field.topic? = topic?
  generalize field.1.argument = argument?
  cases topic? with
  | none => exact (or_iff_left List.not_mem_nil).symm
  | some topic =>
    cases topic with
    | param =>
      cases argument? with
      | none => exact (or_iff_left List.not_mem_nil).symm
      | some argument => exact Docstring.mem_names_onParam doc _ _ name
    | paramType =>
      cases argument? with
      | none => exact (or_iff_left List.not_mem_nil).symm
      | some argument => exact Docstring.mem_names_onParam doc _ _ name
    | returned => exact (or_iff_left List.not_mem_nil).symm
    | returnedType => exact (or_iff_left List.not_mem_nil).symm

theorem mem_names_of_read? {ls : List Text} {doc : Docstring} (h : read? ls = some doc)
    {name : String} :
    name ∈ doc.params.names ↔ ∃ s ∈ writtenNames ls, name = String.ofList (Entry.bareName s) := by
  obtain ⟨-, rfl⟩ := read?_eq_some_iff.1 h
  rw [Docstring.mem_names_foldl mem_names_note]
  change name ∈ Table.empty.names ∨ _ ↔ _
  rw [Table.names_empty, or_iff_right List.not_mem_nil]
  constructor
  · intro hname
    obtain ⟨field, hfield, hname⟩ := List.mem_flatMap.1 hname
    obtain ⟨s, hs, rfl⟩ := Option.map_eq_some_iff.1 (Option.mem_toList.1 hname)
    exact ⟨s, List.mem_filterMap.2 ⟨field, hfield, hs⟩, rfl⟩
  · rintro ⟨s, hs, rfl⟩
    obtain ⟨field, hfield, hs⟩ := List.mem_filterMap.1 hs
    exact List.mem_flatMap.2 ⟨field, hfield, by rw [hs]; exact List.mem_singleton_self _⟩

theorem forall_real_iff {ls : List Text} {doc : Docstring} (h : read? ls = some doc) :
    (∀ name ∈ doc.params.names, IsRealName name.toList) ↔
      ∀ s ∈ writtenNames ls, ¬Entry.IsStars s ∧ ¬Entry.HasGap s := by
  simp only [mem_names_of_read? h, ← Entry.isRealName_bareName_iff]
  constructor
  · intro hreal s hs
    have hname := hreal _ ⟨s, hs, rfl⟩
    rwa [String.toList_ofList] at hname
  · rintro hreal _ ⟨s, hs, rfl⟩
    rw [String.toList_ofList]
    exact hreal s hs

end FieldList

namespace SectionFormat

variable {format : SectionFormat}

/-- The entries of a section, if it is about the parameters. -/
def paramEntries : SectionTopic × List Text → List Entry
  | (.params, body) => Entry.ofLines body
  | _ => []

namespace EntryForm

theorem mem_names_noteParam (form : format.EntryForm) (doc : Docstring) (entry : Entry)
    (name : String) :
    name ∈ (format.noteParam doc entry).params.names ↔
      name ∈ doc.params.names ∨ name ∈ form.names entry := by
  have hmem : Subject.param name ∈ (form.names entry).map Subject.param ↔
      name ∈ form.names entry :=
    List.mem_map_of_injective fun _ _ heq => Subject.param.inj heq
  have habout := form.about?_noteParam doc entry (.param name)
  rw [← Table.isSome_get?_iff, ← Table.isSome_get?_iff]
  change (format.noteParam doc entry).params.get? name =
    if _ then some (form.said entry) else doc.params.get? name at habout
  rw [habout]
  by_cases hname : name ∈ form.names entry
  · rw [if_pos (hmem.2 hname)]
    exact iff_of_true rfl (.inr hname)
  · rw [if_neg (mt hmem.1 hname)]
    exact (or_iff_left hname).symm

theorem mem_names_note (form : format.EntryForm) (doc : Docstring)
    (part : SectionTopic × List Text) (name : String) :
    name ∈ (format.note doc part).params.names ↔
      name ∈ doc.params.names ∨ name ∈ (paramEntries part).flatMap form.names := by
  obtain ⟨topic, body⟩ := part
  cases topic with
  | params => exact Docstring.mem_names_foldl form.mem_names_noteParam _ doc name
  | returned => exact (or_iff_left List.not_mem_nil).symm
  | aside => exact (or_iff_left List.not_mem_nil).symm

theorem mem_names_of_read? (form : format.EntryForm) {parts : Outline Text SectionTopic}
    {doc : Docstring} (h : format.read? parts = some doc) {name : String} :
    name ∈ doc.params.names ↔ name ∈ (parts.sections.flatMap paramEntries).flatMap form.names := by
  obtain ⟨-, rfl⟩ := read?_eq_some_iff.1 h
  rw [Docstring.mem_names_foldl form.mem_names_note, List.flatMap_assoc]
  change name ∈ Table.empty.names ∨ _ ↔ _
  rw [Table.names_empty, or_iff_right List.not_mem_nil]

end EntryForm

end SectionFormat

namespace ParamHead

theorem isWord_name {l : Text} {head : ParamHead} (h : ofLine? l = some head) :
    head.name ≠ [] ∧ ∀ c ∈ head.name, isWord c = true := by
  have hname : head.name ≠ [] ∧
      head.name = (dropStar (dropStar l)).takeWhile isWord := by
    unfold ofLine? at h
    dsimp only at h
    split at h
    · cases h
    · next hne =>
      rw [List.isEmpty_iff] at hne
      split at h
      · obtain rfl := Option.some.inj h
        exact ⟨hne, rfl⟩
      · obtain ⟨_, -, rfl⟩ := Option.map_eq_some_iff.1 h
        exact ⟨hne, rfl⟩
      · cases h
  refine ⟨hname.1, fun c hc => ?_⟩
  rw [hname.2] at hc
  exact List.mem_takeWhile_imp hc

end ParamHead

/-- A titled section gives its parameters names that are words. -/
theorem Titled.isRealName_of_read? {ls : List Text} {doc : Docstring} (h : read? ls = some doc)
    {name : String} (hname : name ∈ doc.params.names) : IsRealName name.toList := by
  rw [entryForm.mem_names_of_read? h] at hname
  obtain ⟨entry, -, hname⟩ := List.mem_flatMap.1 hname
  change name ∈ namesOf entry at hname
  rw [namesOf, List.mem_map] at hname
  obtain ⟨head, hhead, rfl⟩ := hname
  obtain ⟨hne, hword⟩ := ParamHead.isWord_name (Option.mem_toList.1 hhead)
  rw [String.toList_ofList]
  exact .of_isWord hne hword

/-- The names in the line that opens an entry, as they are written between the commas. -/
def SharedHead.pieces (l : Text) : List Text :=
  (trimEnd (((cut? ':' l).map Prod.fst).getD l)).splitOn ','

theorem SharedHead.names_eq {l : Text} {head : SharedHead} (h : ofLine? l = some head) :
    head.names = ((pieces l).map Entry.bareName).filter (!·.isEmpty) := by
  unfold ofLine? at h
  rw [pieces]
  cases hcut : cut? ':' l with
  | none | some _ =>
    simp only [hcut] at h
    split at h
    · obtain rfl := Option.some.inj h
      rfl
    · cases h

namespace Underlined

/-- The names in an entry as they are written, if the entry has the form of one. -/
def writtenNamesOf (entry : Entry) : List Text :=
  if (SharedHead.ofLine? entry.head).isSome then SharedHead.pieces entry.head else []

/-- The names in the sections of a text about the parameters, as they are written. -/
def writtenNames (ls : List Text) : List Text :=
  ((outline ls).sections.flatMap SectionFormat.paramEntries).flatMap writtenNamesOf

theorem mem_namesOf_iff {entry : Entry} {name : String} :
    name ∈ namesOf entry ↔
      ∃ s ∈ writtenNamesOf entry, ¬Entry.IsStars s ∧ name = String.ofList (Entry.bareName s) := by
  unfold namesOf writtenNamesOf
  cases hhead : SharedHead.ofLine? entry.head with
  | none => simp
  | some head =>
    simp only [Option.isSome_some, if_true]
    rw [SharedHead.names_eq hhead, List.mem_map]
    constructor
    · rintro ⟨bare, hbare, rfl⟩
      obtain ⟨hbare, hne⟩ := List.mem_filter.1 hbare
      obtain ⟨s, hs, rfl⟩ := List.mem_map.1 hbare
      exact ⟨s, hs, mt Entry.bareName_eq_nil_iff.2 (by simpa using hne), rfl⟩
    · rintro ⟨s, hs, hstars, rfl⟩
      have hne := mt Entry.bareName_eq_nil_iff.1 hstars
      exact ⟨_, List.mem_filter.2 ⟨List.mem_map_of_mem hs, by simpa using hne⟩, rfl⟩

/-- Empty names are left out. -/
theorem mem_names_of_read? {ls : List Text} {doc : Docstring} (h : read? ls = some doc)
    {name : String} :
    name ∈ doc.params.names ↔
      ∃ s ∈ writtenNames ls, ¬Entry.IsStars s ∧ name = String.ofList (Entry.bareName s) := by
  rw [entryForm.mem_names_of_read? h, List.mem_flatMap, writtenNames]
  simp only [List.mem_flatMap (f := writtenNamesOf)]
  constructor
  · rintro ⟨entry, hentry, hname⟩
    obtain ⟨s, hs, hstars, rfl⟩ := mem_namesOf_iff.1 hname
    exact ⟨s, ⟨entry, hentry, hs⟩, hstars, rfl⟩
  · rintro ⟨s, ⟨entry, hentry, hs⟩, hstars, rfl⟩
    exact ⟨entry, hentry, mem_namesOf_iff.2 ⟨s, hs, hstars, rfl⟩⟩

theorem forall_real_iff {ls : List Text} {doc : Docstring} (h : read? ls = some doc) :
    (∀ name ∈ doc.params.names, IsRealName name.toList) ↔
      ∀ s ∈ writtenNames ls, ¬Entry.HasGap s := by
  simp only [mem_names_of_read? h]
  constructor
  · intro hreal s hs hgap
    have hname := hreal _ ⟨s, hs, hgap.not_isStars, rfl⟩
    rw [String.toList_ofList, Entry.isRealName_bareName_iff] at hname
    exact hname.2 hgap
  · rintro hreal _ ⟨s, hs, hstars, rfl⟩
    rw [String.toList_ofList, Entry.isRealName_bareName_iff]
    exact ⟨hstars, hreal s hs⟩

end Underlined

/-! ### Real names -/

namespace Style

/-- The style gets a name from the text that is not real. -/
inductive Mangles : Style → List Text → Prop
  | stars {ls : List Text} {s : Text} (hs : s ∈ FieldList.writtenNames ls)
      (hstars : Entry.IsStars s) : Mangles .rest ls
  | fieldGap {ls : List Text} {s : Text} (hs : s ∈ FieldList.writtenNames ls)
      (hgap : Entry.HasGap s) : Mangles .rest ls
  | entryGap {ls : List Text} {s : Text} (hs : s ∈ Underlined.writtenNames ls)
      (hgap : Entry.HasGap s) : Mangles .numpy ls

variable {style : Style} {ls : List Text} {doc : Docstring} {name : String}

/-- Whatever the style, the stars in front of a name and the blanks behind it are gone. -/
theorem ends_of_read? (h : style.read? ls = some doc) (hname : name ∈ doc.params.names) :
    name.toList.head? ≠ some '*' ∧ trimEnd name.toList = name.toList := by
  have hbare : ∀ s, (String.ofList (Entry.bareName s)).toList.head? ≠ some '*' ∧
      trimEnd (String.ofList (Entry.bareName s)).toList =
        (String.ofList (Entry.bareName s)).toList := by
    intro s
    rw [String.toList_ofList]
    exact ⟨Entry.head?_bareName_ne s, Entry.trimEnd_bareName s⟩
  cases style with
  | rest =>
    obtain ⟨s, -, rfl⟩ := (FieldList.mem_names_of_read? h).1 hname
    exact hbare s
  | google =>
    have hreal := Titled.isRealName_of_read? h hname
    exact ⟨hreal.head_ne_star, (trim_eq_self_iff.1 hreal.trim_eq).2⟩
  | numpy =>
    obtain ⟨s, -, -, rfl⟩ := (Underlined.mem_names_of_read? h).1 hname
    exact hbare s

/-- **Names**: no name that is read begins with a star or ends with a blank, and all of them are
    real exactly when the style does not mangle one. -/
theorem forall_isRealName_iff (h : style.read? ls = some doc) :
    (∀ name ∈ doc.params.names,
      name.toList.head? ≠ some '*' ∧ trimEnd name.toList = name.toList) ∧
    ((∀ name ∈ doc.params.names, IsRealName name.toList) ↔ ¬style.Mangles ls) := by
  refine ⟨fun name hname => ends_of_read? h hname, ?_⟩
  cases style with
  | rest =>
    rw [FieldList.forall_real_iff h]
    constructor
    · rintro hreal (⟨hs, hstars⟩ | ⟨hs, hgap⟩ | _)
      · exact (hreal _ hs).1 hstars
      · exact (hreal _ hs).2 hgap
    · exact fun hnot s hs => ⟨fun hstars => hnot (.stars hs hstars), fun hgap =>
        hnot (.fieldGap hs hgap)⟩
  | google =>
    exact iff_of_true (fun name hname => Titled.isRealName_of_read? h hname) nofun
  | numpy =>
    rw [Underlined.forall_real_iff h]
    constructor
    · rintro hreal (_ | _ | ⟨hs, hgap⟩)
      exact hreal _ hs hgap
    · exact fun hnot s hs hgap => hnot (.entryGap hs hgap)

/-- A field about nothing but a star, and an entry with a blank behind the star of its name. -/
theorem forall_isRealName_iff_star :
    (∃ doc, read? .rest (["Sum.", "", ":param *: All."].map String.toList) = some doc ∧
      ¬∀ name ∈ doc.params.names, IsRealName name.toList) ∧
    ∃ doc, read? .numpy (["Sum.", "", "Parameters", "----------", "* x : int"].map String.toList) =
        some doc ∧
      ¬∀ name ∈ doc.params.names, IsRealName name.toList := by
  constructor
  · have hsome : (read? .rest (["Sum.", "", ":param *: All."].map
        String.toList)).isSome = true := by
      decide
    obtain ⟨doc, hdoc⟩ := Option.isSome_iff_exists.1 hsome
    have hstars : Entry.IsStars ['*'] := by
      unfold Entry.IsStars
      decide
    exact ⟨doc, hdoc, fun hreal =>
      (forall_isRealName_iff hdoc).2.1 hreal (.stars (s := ['*']) (by decide) hstars)⟩
  · have hsome : (read? .numpy (["Sum.", "", "Parameters", "----------", "* x : int"].map
        String.toList)).isSome = true := by
      decide
    obtain ⟨doc, hdoc⟩ := Option.isSome_iff_exists.1 hsome
    have hgap : Entry.HasGap "* x".toList :=
      ⟨['*'], ' ', ['x'], by decide, by decide, by decide⟩
    exact ⟨doc, hdoc, fun hreal =>
      (forall_isRealName_iff hdoc).2.1 hreal (.entryGap (by decide) hgap)⟩

end Style

end CallSchema
