import CallSchema.Docstring.Read
import CallSchema.Proofs.Rendering.ReadFieldList
import CallSchema.Proofs.Rendering.ReadTitled
import CallSchema.Proofs.Rendering.ReadUnderlined

/-!
# What is said does not depend on the style

A rendering in one style has none of the markers that the styles tried before it look for, so it is
read in its own style. Reading gives the content back (`Content.read_render`), and as long as no
type ends in a remark that the value is optional, it is the same docstring in all styles but for the
style itself (`Content.read_render_of_plain`).

## Main definitions

* `Content.styleIn` -- the style that a rendering is recognised as
* `Content.HasPlainTypes` -- content whose types of parameters end in no remark
-/

namespace CallSchema

open Text

/-! ### Styles without their markers -/

theorem FieldList.read?_eq_none {ls : List Text} (h : ∀ l ∈ ls, l.head? ≠ some ':') :
    FieldList.read? ls = none := by
  have houtline : FieldList.outline ls = ⟨ls, []⟩ :=
    Outline.ofItems_of_none fun l hl => FieldLine.ofLine?_of_head?_ne (h l hl)
  rw [FieldList.read?, houtline]
  rfl

theorem Titled.read?_eq_none {ls : List Text} (h : ∀ l ∈ ls, Titled.topic? l = none) :
    Titled.read? ls = none := by
  have houtline : Titled.outline ls = ⟨ls, []⟩ := Outline.ofItems_of_none h
  rw [Titled.read?, houtline]
  rfl

theorem Underlined.read?_eq_none {ls : List Text} (h : ∀ l ∈ ls, Underlined.isUnderline l = false) :
    Underlined.read? ls = none := by
  have hnone : ∀ s a t, ls = s ++ a :: t → Underlined.topic? (a :: (t ++ [])) = none := by
    rintro s a t rfl
    apply Underlined.topic?_eq_none
    right
    intro u hu
    rw [List.append_nil] at hu
    exact h u (by simp [List.mem_of_mem_head? hu])
  have hparts := Outline.of_append hnone
  rw [List.append_nil] at hparts
  rw [Underlined.read?, Underlined.outline, Underlined.underlinedParts, hparts]
  rfl

/-! ### The lines of a rendering -/

/-- A line that neither begins a field nor is the title of a section. -/
def Unmarked (l : Text) : Prop :=
  l.head? ≠ some ':' ∧ Titled.topic? l = none

theorem unmarked_of_notMem {l : Text} (h : ':' ∉ l) : Unmarked l := by
  refine ⟨fun hhead => h (List.mem_of_mem_head? hhead), Titled.topic?_of_getLast?_ne ?_⟩
  exact fun hlast => h (List.mem_of_mem_getLast? hlast)

theorem unmarked_of_head?_space {l : Text} (h : l.head? = some ' ') : Unmarked l := by
  refine ⟨?_, Titled.topic?_of_head?_space h⟩
  rw [h]
  decide

theorem ProseLine.unmarked (m : ProseLine) : Unmarked m.text :=
  ⟨m.head_ne, Titled.topic?_of_getLast?_ne m.last_ne⟩

theorem mem_headed {heading : List Text} {entry deeper : Nat} {blocks : List Block}
    {part : List Text} {l : Text} (hpart : part ∈ headed heading entry deeper blocks)
    (hl : l ∈ part) :
    l ∈ heading ∨ (∃ b ∈ blocks, l = List.replicate entry ' ' ++ b.head) ∨
      ∃ m : Line, l = List.replicate (entry + deeper) ' ' ++ m.text := by
  cases blocks with
  | nil => cases hpart
  | cons b blocks =>
    obtain rfl := List.mem_singleton.1 hpart
    rcases List.mem_append.1 hl with hl | hl
    · exact .inl hl
    · right
      obtain ⟨c, hc, hl⟩ := List.mem_flatMap.1 hl
      rcases List.mem_cons.1 hl with rfl | hl
      · exact .inl ⟨c, hc, rfl⟩
      · obtain ⟨m, -, rfl⟩ := List.mem_map.1 hl
        exact .inr ⟨m, rfl⟩

namespace Content

variable (content : Content) (spacing : Spacing)

/-- The lines of a rendering are those of its description and of its parts. -/
theorem mem_lines {style : Style} {l : Text} (hl : l ∈ content.lines spacing style) :
    l = [] ∨ (∃ m : ProseLine, l = m.text) ∨ ∃ part ∈ content.markup spacing style, l ∈ part := by
  rcases List.mem_append.1 hl with hl | hl
  · rcases content.mem_description hl with rfl | hl
    · exact .inl rfl
    · exact .inr (.inl hl)
  · obtain ⟨part, hpart, hl⟩ := List.mem_flatMap.1 hl
    rcases List.mem_cons.1 hl with rfl | hl
    · exact .inl rfl
    · exact .inr (.inr ⟨part, hpart, hl⟩)

/-- No line of a titled rendering begins a field. -/
theorem head?_ne_of_mem_google : ∀ l ∈ content.lines spacing .google, l.head? ≠ some ':' := by
  have hheaded : ∀ title : Text, title.head? ≠ some ':' → ∀ blocks,
      ∀ part ∈ headed [title] spacing.entry spacing.deeper blocks, ∀ l ∈ part,
        l.head? ≠ some ':' := by
    intro title htitle blocks part hpart l hl
    rcases mem_headed hpart hl with hl | ⟨b, -, rfl⟩ | ⟨m, rfl⟩
    · rw [List.mem_singleton.1 hl]
      exact htitle
    · exact (unmarked_of_head?_space (head?_replicate_append spacing.entry_pos b.head)).1
    · have hpos : 0 < spacing.entry + spacing.deeper := Nat.add_pos_left spacing.entry_pos _
      exact (unmarked_of_head?_space (head?_replicate_append hpos m.text)).1
  intro l hl
  rcases content.mem_lines spacing hl with rfl | ⟨m, rfl⟩ | ⟨part, hpart, hl⟩
  · decide
  · exact m.head_ne
  · rcases List.mem_append.1 hpart with hpart | hpart
    · exact hheaded _ (by decide) _ part hpart l hl
    · exact hheaded _ (by decide) _ part hpart l hl

end Content

/-- The head of an entry about a parameter begins with its name, and it is no title: either it ends
    with a type, or a blank stands before its only colon. -/
theorem ParamDoc.unmarked_underlinedBlock (p : ParamDoc) : Unmarked p.underlinedBlock.head := by
  constructor
  · obtain ⟨rest, hhead, -⟩ := p.exists_underlinedBlock_head
    intro hcolon
    cases hw : p.written with
    | nil => exact p.written_isLine.ne_nil hw
    | cons c s =>
      rw [hhead, hw] at hcolon
      have hc : c = ':' := Option.some.inj hcolon
      exact p.colon_notMem_written (by simp [hw, hc])
  · by_contra hne
    obtain ⟨topic, htopic⟩ := Option.ne_none_iff_exists'.1 hne
    obtain ⟨hlast, hline⟩ := Titled.isLine_of_topic? htopic
    unfold underlinedBlock at hlast hline
    cases htype : p.type? with
    | none =>
      -- a title has no blank in front of its colon
      simp only [htype] at hline
      have hdrop : (p.written ++ " :".toList).dropLast = p.written ++ [' '] := by
        rw [List.dropLast_append_of_ne_nil (by decide)]
        rfl
      rw [hdrop] at hline
      have hblank := trimEnd_eq_self_iff.1 hline.trimEnd_eq ' ' (by simp)
      exact absurd hblank (by decide)
    | some t =>
      simp only [htype, List.getLast?_append_of_ne_nil _ t.isLine.ne_nil] at hlast
      exact t.colon_notMem (List.mem_of_mem_getLast? hlast)

namespace Content

variable (content : Content) (spacing : Spacing)

/-- No line of an underlined rendering begins a field or is a title. -/
theorem unmarked_of_mem_numpy : ∀ l ∈ content.lines spacing .numpy, Unmarked l := by
  have hheaded : ∀ title : String, ':' ∉ title.toList → ∀ blocks : List Block,
      (∀ b ∈ blocks, Unmarked b.head) →
        ∀ part ∈ headed (underlined spacing.dashes title) 0 spacing.deeper blocks,
          ∀ l ∈ part, Unmarked l := by
    intro title htitle blocks hblocks part hpart l hl
    rcases mem_headed hpart hl with hl | ⟨b, hb, rfl⟩ | ⟨m, rfl⟩
    · rw [underlined, List.mem_pair] at hl
      rcases hl with rfl | rfl
      · exact unmarked_of_notMem htitle
      · apply unmarked_of_notMem
        intro hmem
        exact absurd (List.mem_replicate.1 hmem).2 (by decide)
    · exact hblocks b hb
    · have hpos : 0 < 0 + spacing.deeper := by simpa using spacing.deeper_pos
      exact unmarked_of_head?_space (head?_replicate_append hpos m.text)
  intro l hl
  rcases content.mem_lines spacing hl with rfl | ⟨m, rfl⟩ | ⟨part, hpart, hl⟩
  · exact unmarked_of_notMem List.not_mem_nil
  · exact m.unmarked
  · rcases List.mem_append.1 hpart with hpart | hpart
    · refine hheaded "Parameters" (by decide) _ ?_ part hpart l hl
      intro b hb
      obtain ⟨p, -, rfl⟩ := List.mem_map.1 hb
      exact p.unmarked_underlinedBlock
    · refine hheaded "Returns" (by decide) _ ?_ part hpart l hl
      intro b hb
      obtain ⟨r, -, rfl⟩ := List.mem_map.1 hb
      exact unmarked_of_notMem r.type.colon_notMem

/-! ### Dispatch -/

instance : Decidable content.IsMarked :=
  inferInstanceAs (Decidable (_ ∨ _))

/-- The style that a rendering is recognised as. -/
def styleIn (style : Style) : Option Style :=
  if content.IsMarked then some style else none

theorem fields_ne_nil (h : content.IsMarked) : content.fields ≠ [] := by
  intro hnil
  rw [fields, List.append_eq_nil_iff, List.flatMap_eq_nil_iff, List.flatMap_eq_nil_iff] at hnil
  rcases h with h | h
  · obtain ⟨p, hp⟩ := List.exists_mem_of_ne_nil _ h
    cases hnil.1 p hp
  · obtain ⟨r, hr⟩ := Option.ne_none_iff_exists'.1 h
    cases hnil.2 r (by simp [hr])

/-- A rendering with markers is read in its own style. -/
theorem read?_lines (hmarked : content.IsMarked) (style : Style) :
    style.read? (content.lines spacing style) =
      some (content.docstring style.paramHint (some style)) := by
  cases style with
  | rest => exact content.read?_fieldList spacing (content.fields_ne_nil hmarked)
  | google => exact content.read?_titled spacing hmarked
  | numpy => exact content.read?_underlined spacing hmarked

/-- The styles tried before that of a rendering find none of their markers in it. -/
theorem findSome?_lines (hmarked : content.IsMarked) (style : Style) :
    Style.all.findSome? (fun candidate => candidate.read? (content.lines spacing style)) =
      some (content.docstring style.paramHint (some style)) := by
  have hread := content.read?_lines spacing hmarked style
  -- field lists are tried first, then titled sections, then underlined ones
  cases style with
  | rest => rw [Style.all, List.findSome?_cons, hread]
  | google =>
    have hrest : Style.rest.read? (content.lines spacing .google) = none :=
      FieldList.read?_eq_none (content.head?_ne_of_mem_google spacing)
    rw [Style.all, List.findSome?_cons, hrest, List.findSome?_cons, hread]
  | numpy =>
    have hunmarked := content.unmarked_of_mem_numpy spacing
    have hrest : Style.rest.read? (content.lines spacing .numpy) = none :=
      FieldList.read?_eq_none fun l hl => (hunmarked l hl).1
    have hgoogle : Style.google.read? (content.lines spacing .numpy) = none :=
      Titled.read?_eq_none fun l hl => (hunmarked l hl).2
    rw [Style.all, List.findSome?_cons, hrest, List.findSome?_cons, hgoogle,
      List.findSome?_cons, hread]

theorem lines_of_not_isMarked (hmarked : ¬ content.IsMarked) (style : Style) :
    content.lines spacing style = content.description := by
  obtain ⟨hparams, hreturns⟩ := not_or.1 hmarked
  rw [not_not] at hparams hreturns
  have hmarkup : content.markup spacing style = [] := by
    cases style <;> simp [markup, fields, hparams, hreturns, headed]
  rw [lines, hmarkup, below_nil, List.append_nil]

/-- No style finds its markers in a description. -/
theorem read?_description (style : Style) : style.read? content.description = none := by
  have hprose : ∀ l ∈ content.description, Unmarked l ∧ Underlined.isUnderline l = false := by
    intro l hl
    rcases content.mem_description hl with rfl | ⟨m, rfl⟩
    · exact ⟨unmarked_of_notMem List.not_mem_nil, rfl⟩
    · exact ⟨m.unmarked, Underlined.isUnderline_eq_false m.exists_ne_dash⟩
  cases style with
  | rest => exact FieldList.read?_eq_none fun l hl => (hprose l hl).1.1
  | google => exact Titled.read?_eq_none fun l hl => (hprose l hl).1.2
  | numpy => exact Underlined.read?_eq_none fun l hl => (hprose l hl).2

/-- The lines of a rendering give the content back, whether or not its style is asked for. -/
theorem ofLines_lines (style : Style) {asked : Option Style}
    (hasked : asked = none ∨ asked = some style) :
    Docstring.ofLines asked (content.lines spacing style) =
      content.docstring style.paramHint (content.styleIn style) := by
  by_cases hmarked : content.IsMarked
  · have hfind : (Docstring.stylesToTry asked).findSome?
        (fun candidate => candidate.read? (content.lines spacing style)) =
          some (content.docstring style.paramHint (some style)) := by
      rcases hasked with rfl | rfl
      · exact content.findSome?_lines spacing hmarked style
      · rw [Docstring.stylesToTry, List.findSome?_cons, content.read?_lines spacing hmarked]
    rw [Docstring.ofLines, hfind, Option.getD_some, styleIn, if_pos hmarked]
  · -- without markers nothing is recognised, and the docstring is its description
    have hfind : (Docstring.stylesToTry asked).findSome?
        (fun candidate => candidate.read? content.description) = none :=
      List.findSome?_eq_none_iff.2 fun candidate _ => content.read?_description candidate
    have hdescription := content.ofDescription_description (.inl rfl) none style.paramHint
    obtain ⟨hparams, hreturns⟩ := not_or.1 hmarked
    rw [not_not] at hparams hreturns
    have htable : content.docstring style.paramHint none =
        { content.docstring style.paramHint none with params := Table.empty, returns := none } := by
      simp only [docstring, hreturns, Option.map_none, Docstring.mk.injEq, true_and, and_true]
      apply Table.ext
      simp [entries, hparams, Table.empty]
    rw [content.lines_of_not_isMarked spacing hmarked, Docstring.ofLines, hfind,
      Option.getD_none, styleIn, if_neg hmarked, htable, ← hdescription, List.append_nil]

theorem short_ne_empty (hintOf : Text → Option TypeHint) (style : Option Style) :
    (content.docstring hintOf style).short ≠ "" := by
  intro hshort
  have hnil : paragraphText content.short = [] := String.ofList_injective hshort
  cases h : content.short with
  | nil => exact content.short_ne_nil h
  | cons first later =>
    rw [h, paragraphText, List.map_cons, joined, List.map_cons] at hnil
    cases later with
    | nil => exact first.isLine.ne_nil (by simpa using hnil)
    | cons second later =>
      rw [List.map_cons, List.map_cons, List.intercalate_cons_cons] at hnil
      simp at hnil

/-- **Reading a rendering** gives the content back, whether or not its style is asked for. -/
theorem read_render (function : String) (style : Style) {asked : Option Style}
    (hasked : asked = none ∨ asked = some style) :
    Docstring.read function (some (content.render spacing style)) asked =
      .ok (content.docstring style.paramHint (content.styleIn style)) := by
  rw [Docstring.read]
  simp only [content.clean_render spacing style, content.ofLines_lines spacing style hasked]
  rw [if_neg (content.short_ne_empty _ _)]

/-- Content whose types of parameters end in no remark that the value is optional. -/
def HasPlainTypes : Prop :=
  ∀ p ∈ content.params, ∀ t ∈ p.type?, TypeHint.withoutOptional t.text = t.text

instance : Decidable content.HasPlainTypes :=
  inferInstanceAs (Decidable (∀ p ∈ content.params, _))

/-- Plain types are read alike in all styles. -/
theorem docstring_paramHint_of_plain (hplain : content.HasPlainTypes) (style : Style)
    (found : Option Style) :
    content.docstring style.paramHint found = content.docstring TypeHint.ofText? found := by
  have hentries : content.entries style.paramHint = content.entries TypeHint.ofText? := by
    apply List.map_congr_left
    intro p hp
    have hhint : (p.type?.bind fun t => style.paramHint t.text) =
        p.type?.bind fun t => TypeHint.ofText? t.text := by
      cases htype : p.type? with
      | none => rfl
      | some t =>
        have ht := hplain p hp t htype
        cases style with
        | rest => rfl
        | google => exact congrArg TypeHint.ofText? ht
        | numpy => exact congrArg TypeHint.ofText? ht
    rw [ParamDoc.entry, hhint, ParamDoc.entry]
  unfold docstring
  congr 1
  exact Table.ext hentries

/-- **Style independence**: content with plain types is the same docstring in every style, but for
    the style itself, however it is spaced and whether or not the style is asked for. -/
theorem read_render_of_plain (hplain : content.HasPlainTypes) (function : String) (style : Style)
    {asked : Option Style} (hasked : asked = none ∨ asked = some style) :
    Docstring.read function (some (content.render spacing style)) asked =
      .ok (content.docstring TypeHint.ofText? (content.styleIn style)) := by
  rw [content.read_render spacing function style hasked,
    content.docstring_paramHint_of_plain hplain]

/-- Content with a wrapped description, a later paragraph, a starred name, a closed set of strings,
    a parameter about which nothing is said, and a returned value. -/
def scaling : Content where
  short := [
    ⟨⟨"Scales a shape".toList, by decide⟩, by decide, by decide, 'S', by decide, by decide⟩,
    ⟨⟨"in place.".toList, by decide⟩, by decide, by decide, 'i', by decide, by decide⟩]
  short_ne_nil := List.cons_ne_nil _ _
  long := [[
    ⟨⟨"Slow - for now.".toList, by decide⟩, by decide, by decide, 'S', by decide, by decide⟩]]
  long_ne_nil := by simp
  params := [
    .unstarred ⟨"mode".toList, by decide, List.all_eq_true.1 (by decide)⟩
      (some ⟨⟨"Literal[\"up\", 'down']".toList, by decide⟩, by decide⟩)
      [⟨"Which way:".toList, by decide⟩, ⟨"up or down.".toList, by decide⟩],
    ⟨⟨"factors".toList, by decide, List.all_eq_true.1 (by decide)⟩, 1, by decide, none, []⟩]
  distinct := by decide
  returns := some
    ⟨⟨⟨"list[int]".toList, by decide⟩, by decide⟩, [⟨"The new sizes.".toList, by decide⟩]⟩

/-- The rendering with titles of this content, as it is read. -/
theorem read_render_scaling :
    scaling.render ⟨4, by decide, 2, by decide, 3, by decide⟩ .google =
      "Scales a shape\nin place.\n\nSlow - for now.\n\nArgs:\n" ++
        "    mode (Literal[\"up\", 'down']): Which way:\n      up or down.\n    *factors:\n\n" ++
        "Returns:\n    list[int]: The new sizes." ∧
    Docstring.read "scale"
        (some (scaling.render ⟨4, by decide, 2, by decide, 3, by decide⟩ .google)) none =
      .ok { style := some .google
            short := "Scales a shape in place."
            long := some "Slow - for now."
            params := ⟨[("mode", ⟨"Which way: up or down.", some (.literal ["up", "down"])⟩),
              ("factors", ⟨"", none⟩)], by decide⟩
            returns := some ⟨"The new sizes.", some (.named "list[int]")⟩ } := by
  constructor
  · decide +kernel
  · rw [scaling.read_render_of_plain _ (by decide +kernel) "scale" .google (.inl rfl)]
    congr 1
    decide +kernel

end Content

end CallSchema
