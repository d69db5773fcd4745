import CallSchema.Proofs.Docstring.EntryOrder
import CallSchema.Proofs.Docstring.FieldOrder
import CallSchema.Proofs.Rendering.ReadFieldList
import CallSchema.Proofs.Schema.Assembly

/-!
# Rearranged documentation

Documentation can be written in another order, and it can say things about other names, without an
effect on the schema. `Rearranged` lists what may move in each style, and
`Signature.schema_eq_of_rearranged` says that every signature gets the schema that it had before.
Where the lines stand is told by the flush lines of a raw text: with a line at the left they are
the lines as written (`Layout.flushLines_of_left`), and when lines below the first one trade places
the flush lines trade places with them (`Layout.exists_flushLines_perm`).

## Main definitions

* `Rearranged` -- the same documentation in another order, as far as a style and some names go
-/

namespace CallSchema

open Text Layout

/-! ### Raw texts -/

namespace Layout

/-- A line at the left among those below the first one leaves no margin to remove. -/
theorem flushLines_of_left {raw first : Text} {rest : List Text}
    (hlines : (lines raw).map bare = first :: rest)
    (hleft : ∃ l ∈ rest, allBlank l = false ∧ indent l = 0) :
    flushLines raw = trim first :: rest := by
  have hmap : ((lines raw).map expandTabs).map trimEnd = first :: rest := by
    rw [← hlines, List.map_map]
    rfl
  obtain ⟨l, hl, hblank, hindent⟩ := hleft
  have hmargin : margin rest = 0 := margin_eq hl hblank hindent fun _ _ _ => Nat.zero_le _
  have htrim : ∀ m ∈ rest, trimEnd m = m := by
    intro m hm
    have hmem : m ∈ ((lines raw).map expandTabs).map trimEnd := by
      rw [hmap]
      exact List.mem_cons_of_mem first hm
    obtain ⟨n, -, rfl⟩ := List.mem_map.1 hmem
    exact trimEnd_idem n
  have hflush : rest.map (flush 0) = rest :=
    (List.map_congr_left fun m hm => flush_zero (htrim m hm)).trans (List.map_id _)
  rw [flushLines, ← dedent_map_trimEnd, hmap, dedent, hmargin, hflush]

theorem margin_perm {ls ls' : List Text} (h : ls.Perm ls') : margin ls' = margin ls := by
  by_cases hex : ∃ l ∈ ls, allBlank l = false
  · obtain ⟨l, hl, hblank, hindent⟩ := exists_indent_eq_margin hex
    exact margin_eq (h.mem_iff.1 hl) hblank hindent fun m hm => margin_le (h.mem_iff.2 hm)
  · have hnone : ∀ {ms : List Text}, (¬∃ l ∈ ms, allBlank l = false) →
        ms.filter (!allBlank ·) = [] := fun hms => by simpa using hms
    have hex' : ¬∃ l ∈ ls', allBlank l = false := by
      rintro ⟨l, hl, hblank⟩
      exact hex ⟨l, h.mem_iff.2 hl, hblank⟩
    rw [margin, margin, hnone hex, hnone hex']

/-- When the lines below the first one are permuted, so are the flush lines. -/
theorem exists_flushLines_perm {raw raw' first : Text} {rest rest' : List Text}
    (hlines : lines raw = first :: rest) (hlines' : lines raw' = first :: rest')
    (hperm : rest.Perm rest') :
    ∃ f : Text → Text, flushLines raw = trim (expandTabs first) :: rest.map f ∧
      flushLines raw' = trim (expandTabs first) :: rest'.map f := by
  refine ⟨fun l => flush (margin (rest.map expandTabs)) (expandTabs l), ?_, ?_⟩
  · rw [flushLines, hlines, List.map_cons, dedent, List.map_map]
    rfl
  · rw [flushLines, hlines', List.map_cons, dedent, List.map_map,
      margin_perm (hperm.map expandTabs)]
    rfl

end Layout

/-! ### Rearrangements -/

/-- The second list of flush lines is documentation that says what the first one says, in another
    order, as far as a style and the given names go. -/
inductive Rearranged (names : List String) : Style → List Text → List Text → Prop
  /-- Below the description the same fields about the given names stand in any order, among any
      others. In the first text no slot is written twice, and in both there is a marker. -/
  | fields {description : List Text} {fields fields' : List FieldBlock}
      (hdescription : ∀ l ∈ description, FieldLine.ofLine? l = none)
      (hslots : ((fields.map FieldBlock.field).flatMap Field.slots).Nodup)
      (hsame : ((fields.map FieldBlock.field).filter (Field.concerns names)).Perm
        ((fields'.map FieldBlock.field).filter (Field.concerns names)))
      (hmarker : ∃ block ∈ fields, block.field.topic?.isSome = true)
      (hmarker' : ∃ block ∈ fields', block.field.topic?.isSome = true) :
      Rearranged names .rest (description ++ fields.flatMap FieldBlock.lines)
        (description ++ fields'.flatMap FieldBlock.lines)
  /-- The entries of a titled section about the parameters stand in any order. Their heads are
      indented alike, are no titles, and name each parameter once. -/
  | titled {before gap after : List Text} {title : Text} {width : Nat}
      {entries entries' : List (EntryBlock width)}
      (htitle : Titled.topic? title = some .params) (hgap : ∀ l ∈ gap, allBlank l = true)
      (hheads : ∀ block ∈ entries ++ entries', Titled.topic? block.head = none)
      (hafter : after = [] ∨ (after.head?.bind Titled.topic?).isSome = true)
      (hnames : ((entries.map EntryBlock.entry).flatMap Titled.namesOf).Nodup)
      (hperm : (entries.map EntryBlock.entry).Perm (entries'.map EntryBlock.entry)) :
      Rearranged names .google
        (before ++ title :: (gap ++ entries.flatMap EntryBlock.lines ++ after))
        (before ++ title :: (gap ++ entries'.flatMap EntryBlock.lines ++ after))
  /-- The entries of an underlined section about the parameters stand in any order. Their heads are
      indented alike, and name some parameters, each of them once. -/
  | underlined {before gap after : List Text} {title rule : Text} {width : Nat}
      {entries entries' : List (EntryBlock width)}
      (htitle : Underlined.topic? [title, rule] = some .params)
      (hgap : ∀ l ∈ gap, allBlank l = true)
      (hnamed : ∀ entry ∈ entries.map EntryBlock.entry, Underlined.namesOf entry ≠ [])
      (hafter : after = [] ∨ (Underlined.topic? after).isSome = true)
      (hnames : ((entries.map EntryBlock.entry).flatMap Underlined.namesOf).Nodup)
      (hperm : (entries.map EntryBlock.entry).Perm (entries'.map EntryBlock.entry)) :
      Rearranged names .numpy
        (before ++ title :: rule :: (gap ++ entries.flatMap EntryBlock.lines ++ after))
        (before ++ title :: rule :: (gap ++ entries'.flatMap EntryBlock.lines ++ after))

namespace Rearranged

variable {names : List String} {style : Style} {ls ls' : List Text}

theorem sameUnder (h : Rearranged names style ls ls') :
    Docstring.SameUnder names (Docstring.ofLines (some style) ls)
      (Docstring.ofLines (some style) ls') := by
  cases h with
  | fields hdescription hslots hsame hmarker hmarker' =>
    exact FieldList.sameUnder_ofLines hdescription hslots hsame hmarker hmarker'
  | titled htitle hgap hheads hafter hnames hperm =>
    exact Titled.sameUnder_ofLines htitle hgap hheads hafter hnames hperm
  | underlined htitle hgap hnamed hafter hnames hperm =>
    exact Underlined.sameUnder_ofLines htitle hgap hnamed hafter hnames hperm

/-- Raw texts with a description whose fields stand at the left are laid out as they are written. -/
theorem of_left {raw raw' first : Text} {description : List Text} {fields fields' : List FieldBlock}
    (hraw : (lines raw).map bare = first :: (description ++ fields.flatMap FieldBlock.lines))
    (hraw' : (lines raw').map bare = first :: (description ++ fields'.flatMap FieldBlock.lines))
    (hdescription : ∀ l ∈ trim first :: description, FieldLine.ofLine? l = none)
    (hslots : ((fields.map FieldBlock.field).flatMap Field.slots).Nodup)
    (hsame : ((fields.map FieldBlock.field).filter (Field.concerns names)).Perm
      ((fields'.map FieldBlock.field).filter (Field.concerns names)))
    (hmarker : ∃ block ∈ fields, block.field.topic?.isSome = true)
    (hmarker' : ∃ block ∈ fields', block.field.topic?.isSome = true) :
    Rearranged names .rest (flushLines raw) (flushLines raw') := by
  have hleft : ∀ {blocks : List FieldBlock}, (∃ block ∈ blocks, block.field.topic?.isSome = true) →
      ∃ l ∈ description ++ blocks.flatMap FieldBlock.lines, allBlank l = false ∧ indent l = 0 := by
    rintro blocks ⟨block, hblock, -⟩
    have hcolon : block.line.head? = some ':' := by
      by_contra hne
      have hnone := FieldLine.ofLine?_of_head?_ne hne
      rw [block.reads] at hnone
      cases hnone
    obtain ⟨s, hs⟩ := List.head?_eq_some_iff.1 hcolon
    refine ⟨block.line, ?_, ?_, ?_⟩
    · exact List.mem_append_right _ (List.mem_flatMap.2 ⟨block, hblock, List.mem_cons_self⟩)
    · rw [hs]
      rfl
    · exact indent_eq_zero (by rw [hcolon]; decide)
  rw [flushLines_of_left hraw (hleft hmarker), flushLines_of_left hraw' (hleft hmarker')]
  exact .fields hdescription hslots hsame hmarker hmarker'

end Rearranged

/-! ### Schemas -/

/-- **Rearranged documentation** gives every signature the same schema, with any other options. -/
theorem Signature.schema_eq_of_rearranged {sig : Signature} {options : Options} {style : Style}
    (hstyle : options.style = some style) {raw raw' : Text}
    (h : Rearranged (sig.params.map Param.name) style (flushLines raw) (flushLines raw')) :
    (sig.withDoc (String.ofList raw')).schema options =
      (sig.withDoc (String.ofList raw)).schema options := by
  apply schema_congr
  rw [hstyle, String.toList_ofList, String.toList_ofList, Docstring.ofLines_clean,
    Docstring.ofLines_clean]
  exact h.sameUnder

/-- Fields in another order, with one about no parameter in the place of one with another key, and
    the entries of an indented titled section and of an underlined one in another order. -/
theorem Signature.schema_eq_of_rearranged_move :
    let sig : Signature :=
      { name := "move", params := [⟨"x", none, false⟩, ⟨"y", some (.named "u8"), true⟩] }
    let names := ["x", "y"]
    let options (style : Style) : Options := { returnProperty := true, style := some style }
    let text (ls : List String) : Text := unlines (ls.map String.toList)
    let rest := text ["Move.", "", ":param x: Left.", ":param int y: Up.", "    Far.",
      ":type x: str", ":raises E: Never.", ":returns: Done."]
    let rest' := text ["Move.", "", ":returns: Done.", ":type x: str", ":param z: Alien.",
      ":param int y: Up.", "    Far.", "", ":param x: Left."]
    let google := text ["Move.", "", "    Args:", "      x (int): Left.", "        Far.",
      "      y: Up.", "", "    Returns:", "      bool: Done."]
    let google' := text ["Move.", "", "    Args:", "      y: Up.", "      x (int): Left.",
      "        Far.", "", "    Returns:", "      bool: Done."]
    let numpy := text ["Move.", "", "Parameters", "----------", "x, y : int", "    Steps.", "z",
      "    Pause."]
    let numpy' := text ["Move.", "", "Parameters", "----------", "z", "    Pause.", "x, y : int",
      "    Steps."]
    (Rearranged names .rest (flushLines rest) (flushLines rest') ∧
      (sig.withDoc (String.ofList rest')).schema (options .rest) =
        (sig.withDoc (String.ofList rest)).schema (options .rest)) ∧
    (Rearranged names .google (flushLines google) (flushLines google') ∧
      (sig.withDoc (String.ofList google')).schema (options .google) =
        (sig.withDoc (String.ofList google)).schema (options .google)) ∧
    (Rearranged names .numpy (flushLines numpy) (flushLines numpy') ∧
      (sig.withDoc (String.ofList numpy')).schema (options .numpy) =
        (sig.withDoc (String.ofList numpy)).schema (options .numpy)) := by
  intro sig names options text rest rest' google google' numpy numpy'
  have hrest : Rearranged names .rest (flushLines rest) (flushLines rest') := by
    let block (line : Text) (below : List Text) (reads : (FieldLine.ofLine? line).isSome = true)
        (quiet : ∀ l ∈ below, FieldLine.ofLine? l = none) : FieldBlock :=
      ⟨line, (FieldLine.ofLine? line).get reads, below, (Option.some_get reads).symm, quiet⟩
    let x := block ":param x: Left.".toList [] (by decide) (by decide)
    let y := block ":param int y: Up.".toList ["    Far.".toList] (by decide) (by decide)
    let y' := block ":param int y: Up.".toList ["    Far.".toList, []] (by decide) (by decide)
    let type := block ":type x: str".toList [] (by decide) (by decide)
    let raises := block ":raises E: Never.".toList [] (by decide) (by decide)
    let alien := block ":param z: Alien.".toList [] (by decide) (by decide)
    let returns := block ":returns: Done.".toList [] (by decide) (by decide)
    have hlines : flushLines rest =
        ["Move.".toList, []] ++ [x, y, type, raises, returns].flatMap FieldBlock.lines := by
      decide +kernel
    have hlines' : flushLines rest' =
        ["Move.".toList, []] ++ [returns, type, alien, y', x].flatMap FieldBlock.lines := by
      decide +kernel
    rw [hlines, hlines']
    exact .fields (by decide) (by decide +kernel) (by decide +kernel) ⟨x, by simp, by decide⟩
      ⟨x, by simp, by decide⟩
  have hgoogle : Rearranged names .google (flushLines google) (flushLines google') := by
    let x : EntryBlock 2 :=
      ⟨"  x (int): Left.".toList, ["    Far.".toList], by decide, by decide, by decide⟩
    let x' : EntryBlock 2 :=
      ⟨"  x (int): Left.".toList, ["    Far.".toList, []], by decide, by decide, by decide⟩
    let y : EntryBlock 2 := ⟨"  y: Up.".toList, [], by decide, by decide, by decide⟩
    let y' : EntryBlock 2 := ⟨"  y: Up.".toList, [[]], by decide, by decide, by decide⟩
    let after := ["Returns:".toList, "  bool: Done.".toList]
    have hlines : flushLines google = ["Move.".toList, []] ++ "Args:".toList ::
        ([] ++ [x, y'].flatMap EntryBlock.lines ++ after) := by
      decide +kernel
    have hlines' : flushLines google' = ["Move.".toList, []] ++ "Args:".toList ::
        ([] ++ [y, x'].flatMap EntryBlock.lines ++ after) := by
      decide +kernel
    rw [hlines, hlines']
    exact .titled (by decide +kernel) (by decide) (by decide +kernel) (by decide +kernel)
      (by decide +kernel) (by decide +kernel)
  have hnumpy : Rearranged names .numpy (flushLines numpy) (flushLines numpy') := by
    let xy : EntryBlock 0 :=
      ⟨"x, y : int".toList, ["    Steps.".toList], by decide, by decide, by decide⟩
    let z : EntryBlock 0 := ⟨['z'], ["    Pause.".toList], by decide, by decide, by decide⟩
    have hlines : flushLines numpy = ["Move.".toList, []] ++ "Parameters".toList ::
        "----------".toList :: ([] ++ [xy, z].flatMap EntryBlock.lines ++ []) := by
      decide +kernel
    have hlines' : flushLines numpy' = ["Move.".toList, []] ++ "Parameters".toList ::
        "----------".toList :: ([] ++ [z, xy].flatMap EntryBlock.lines ++ []) := by
      decide +kernel
    rw [hlines, hlines']
    exact .underlined (by decide +kernel) (by decide) (by decide +kernel) (.inl rfl)
      (by decide +kernel) (by decide +kernel)
  exact ⟨⟨hrest, schema_eq_of_rearranged rfl hrest⟩,
    ⟨hgoogle, schema_eq_of_rearranged rfl hgoogle⟩, hnumpy, schema_eq_of_rearranged rfl hnumpy⟩

end CallSchema
