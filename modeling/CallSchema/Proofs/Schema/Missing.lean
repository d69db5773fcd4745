import CallSchema.Proofs.Docstring.Detection
import CallSchema.Proofs.Docstring.Paragraphs
import CallSchema.Proofs.Layout.Clean
import CallSchema.Proofs.Schema.Assembly

/-!
# When a signature gets no schema

A schema is refused for one of three reasons, which are looked for in order: there is no
documentation, nothing stands in front of the first marked part, or a long description is asked for
and only one paragraph stands there (`Signature.schema_eq_error_iff`). The parameters and the
returned value have no say in this.

## Main definitions

* `Docstring.Describes` -- the lines that make up the description
* `Docstring.Undescribed` -- the text is empty or begins with a marked part
* `Signature.Lacks` -- what the documentation of a signature is missing first
* `Signature.description` -- the description of the schema, or what is missing
-/

namespace CallSchema

open Text

namespace Docstring

/-- These lines are the description: the ones in front of the first part of the style that is
    reported, or all of them when there is none. -/
inductive Describes (choice : Option Style) : List Text → List Text → Prop
  | lead {style : Style} {before rest : List Text}
      (hstyle : Style.Detected choice (before ++ rest) (some style))
      (hpart : style.FirstPart before rest) : Describes choice (before ++ rest) before
  | whole {ls : List Text} (hstyle : Style.Detected choice ls none) : Describes choice ls ls

/-- There is no text, or a part of the style that is reported begins at its first line. -/
def Undescribed (choice : Option Style) (ls : List Text) : Prop :=
  ls = [] ∨ ∃ style, Style.Detected choice ls (some style) ∧ style.PartAt ls

variable {choice : Option Style} {ls before : List Text}

theorem exists_describes (choice : Option Style) (ls : List Text) :
    ∃ before, Describes choice ls before := by
  have hdetected := detected_style choice ls
  cases hstyle : (ofLines choice ls).style with
  | none =>
    rw [hstyle] at hdetected
    exact ⟨ls, .whole hdetected⟩
  | some style =>
    rw [hstyle] at hdetected
    obtain ⟨before, rest, rfl, hpart⟩ := hdetected.marks.exists_firstPart
    exact ⟨before, .lead hdetected hpart⟩

/-- Apart from its entries a docstring is what its description gives. -/
theorem Describes.withoutEntries_ofLines (h : Describes choice ls before) :
    (ofLines choice ls).withoutEntries = ofDescription (ofLines choice ls).style before := by
  cases h with
  | lead hstyle hpart =>
    have hread := read?_of_detected hstyle
    rw [Style.withoutEntries_of_read? hread, style_of_read? hread, hpart.lead_eq]
  | whole hstyle =>
    rw [ofLines_of_detected_none hstyle]
    rfl

theorem Describes.short_ofLines (h : Describes choice ls before) :
    (ofLines choice ls).short = String.ofList (Paragraph.short before) :=
  congrArg Docstring.short h.withoutEntries_ofLines

theorem Describes.long_ofLines (h : Describes choice ls before) :
    (ofLines choice ls).long = (Paragraph.long? before).map String.ofList :=
  congrArg Docstring.long h.withoutEntries_ofLines

theorem Describes.exists_append (h : Describes choice ls before) : ∃ rest, ls = before ++ rest := by
  cases h with
  | lead => exact ⟨_, rfl⟩
  | whole => exact ⟨[], (List.append_nil ls).symm⟩

theorem Describes.eq_nil_iff (h : Describes choice ls before) :
    before = [] ↔ Undescribed choice ls := by
  constructor
  · rintro rfl
    cases h with
    | lead hstyle hpart => exact .inr ⟨_, hstyle, hpart.partAt⟩
    | whole => exact .inl rfl
  · rintro (rfl | ⟨other, hother, hat⟩)
    · obtain ⟨rest, hrest⟩ := h.exists_append
      exact (List.append_eq_nil_iff.1 hrest.symm).1
    · cases h with
      | lead hstyle hpart =>
        obtain rfl := Option.some.inj (hother.unique hstyle)
        by_contra hne
        exact hpart.not_partAt [] before rfl hne hat
      | whole hstyle => cases hother.unique hstyle

/-- Cleaned text has a short description unless nothing describes it. -/
theorem short_ofLines_eq_empty_iff {raw : Text} :
    (ofLines choice (Layout.clean raw)).short = "" ↔ Undescribed choice (Layout.clean raw) := by
  obtain ⟨before, h⟩ := exists_describes choice (Layout.clean raw)
  have hshort : Paragraph.short before = [] ↔ before = [] := by
    rw [Paragraph.short_eq_nil_iff]
    refine ⟨fun hblank => ?_, fun hnil => by simp [hnil]⟩
    -- the first line of the description is the first line of the text, which is not blank
    cases before with
    | nil => rfl
    | cons first later =>
      obtain ⟨rest, hrest⟩ := h.exists_append
      have hfirst := Layout.not_allBlank_of_clean_eq_cons hrest
      rw [hblank first List.mem_cons_self] at hfirst
      cases hfirst
  rw [← h.eq_nil_iff, ← hshort, h.short_ofLines]
  exact ⟨fun hs => String.ofList_injective hs, fun hs => by rw [hs]⟩

/-- A long description is found as soon as there is a second paragraph. -/
theorem compose_eq_error_iff {function short : String} {includeLong : Bool} {failure : Failure} :
    compose function short ((Paragraph.long? before).map String.ofList) includeLong =
        .error failure ↔
      failure = ⟨function, .longDescription⟩ ∧ includeLong = true ∧ ¬Paragraph.Several before := by
  rw [← Paragraph.long?_eq_none_iff]
  cases includeLong with
  | false => simp [compose]
  | true =>
    cases hlong : Paragraph.long? before with
    | none => simp [compose, eq_comm]
    | some text =>
      have htrim : trim text ≠ [] := by
        rw [Ne, trim_eq_nil_iff, Paragraph.not_allBlank_of_long? hlong]
        exact Bool.false_ne_true
      have hkept : (some (trim text)).filter (!·.isEmpty) = some (trim text) := by
        simp [htrim]
      simp [compose, hkept]

end Docstring

namespace Signature

/-- What the documentation of a signature is missing, of which only the first counts. -/
inductive Lacks (sig : Signature) (options : Options) : Missing → Prop
  | documentation (hdoc : sig.doc = none) : Lacks sig options .documentation
  | shortDescription {raw : String} (hdoc : sig.doc = some raw)
      (hshort : Docstring.Undescribed options.style (Layout.clean raw.toList)) :
      Lacks sig options .shortDescription
  | longDescription {raw : String} {before : List Text} (hdoc : sig.doc = some raw)
      (hshort : ¬Docstring.Undescribed options.style (Layout.clean raw.toList))
      (hasked : options.longDescription = true)
      (hbefore : Docstring.Describes options.style (Layout.clean raw.toList) before)
      (hlong : ¬Paragraph.Several before) : Lacks sig options .longDescription

/-- The description of the schema, or what is missing. -/
def description (sig : Signature) (options : Options) : Except Failure String := do
  let doc ← Docstring.read sig.name sig.doc options.style
  Docstring.compose sig.name doc.short doc.long options.longDescription

theorem map_description_schema (sig : Signature) (options : Options) :
    (sig.schema options).map Schema.description = sig.description options := by
  unfold schema description
  cases hread : Docstring.read sig.name sig.doc options.style with
  | error failure => rfl
  | ok doc =>
    change Except.map _
        (Docstring.compose sig.name doc.short doc.long options.longDescription >>= _) =
      Docstring.compose sig.name doc.short doc.long options.longDescription
    cases hcompose : Docstring.compose sig.name doc.short doc.long options.longDescription with
    | error failure => rfl
    | ok text => exact congrArg Except.ok (Schema.foldl_addParam_description _ _)

theorem schema_eq_error_iff_description {sig : Signature} {options : Options} {failure : Failure} :
    sig.schema options = .error failure ↔ sig.description options = .error failure := by
  rw [← map_description_schema]
  cases sig.schema options <;> simp [Except.map]

variable {sig : Signature} {options : Options}

theorem description_of_doc_eq_none (hdoc : sig.doc = none) :
    sig.description options = .error ⟨sig.name, .documentation⟩ := by
  rw [description, hdoc]
  rfl

theorem description_of_undescribed {raw : String} (hdoc : sig.doc = some raw)
    (hshort : Docstring.Undescribed options.style (Layout.clean raw.toList)) :
    sig.description options = .error ⟨sig.name, .shortDescription⟩ := by
  rw [description, hdoc, Docstring.read]
  simp only [if_pos (Docstring.short_ofLines_eq_empty_iff.2 hshort)]
  rfl

theorem description_eq_error_iff_of_describes {raw : String} {before : List Text}
    {failure : Failure}
    (hdoc : sig.doc = some raw)
    (hshort : ¬Docstring.Undescribed options.style (Layout.clean raw.toList))
    (hbefore : Docstring.Describes options.style (Layout.clean raw.toList) before) :
    sig.description options = .error failure ↔
      failure = ⟨sig.name, .longDescription⟩ ∧ options.longDescription = true ∧
        ¬Paragraph.Several before := by
  rw [description, hdoc, Docstring.read]
  simp only [if_neg (mt Docstring.short_ofLines_eq_empty_iff.1 hshort)]
  change Docstring.compose sig.name _ _ options.longDescription = _ ↔ _
  rw [hbefore.long_ofLines, Docstring.compose_eq_error_iff]

theorem description_eq_error_iff {failure : Failure} :
    sig.description options = .error failure ↔
      failure.function = sig.name ∧ sig.Lacks options failure.missing := by
  constructor
  · intro h
    cases hdoc : sig.doc with
    | none =>
      rw [description_of_doc_eq_none hdoc] at h
      obtain rfl := Except.error.inj h
      exact ⟨rfl, .documentation hdoc⟩
    | some raw =>
      by_cases hshort : Docstring.Undescribed options.style (Layout.clean raw.toList)
      · rw [description_of_undescribed hdoc hshort] at h
        obtain rfl := Except.error.inj h
        exact ⟨rfl, .shortDescription hdoc hshort⟩
      · obtain ⟨before, hbefore⟩ :=
          Docstring.exists_describes options.style (Layout.clean raw.toList)
        obtain ⟨rfl, hasked, hlong⟩ :=
          (description_eq_error_iff_of_describes hdoc hshort hbefore).1 h
        exact ⟨rfl, .longDescription hdoc hshort hasked hbefore hlong⟩
  · obtain ⟨function, missing⟩ := failure
    rintro ⟨rfl, h⟩
    cases h with
    | documentation hdoc => exact description_of_doc_eq_none hdoc
    | shortDescription hdoc hshort => exact description_of_undescribed hdoc hshort
    | longDescription hdoc hshort hasked hbefore hlong =>
      exact (description_eq_error_iff_of_describes hdoc hshort hbefore).2 ⟨rfl, hasked, hlong⟩

/-- **Failures**: a signature gets no schema exactly when its documentation lacks something, and the
    failure tells the first thing that is missing. Neither that nor the description of the schema
    depends on the parameters, on the returned value or on whether it is listed. -/
theorem schema_eq_error_iff (sig : Signature) (options : Options) :
    (∀ failure, sig.schema options = .error failure ↔
      failure.function = sig.name ∧ sig.Lacks options failure.missing) ∧
    ∀ params returns returnProperty,
      ({ sig with params, returns }.schema { options with returnProperty }).map
        Schema.description = (sig.schema options).map Schema.description := by
  refine ⟨fun failure => ?_, fun params returns returnProperty => ?_⟩
  · rw [schema_eq_error_iff_description, description_eq_error_iff]
  · rw [map_description_schema, map_description_schema]
    rfl

/-- A section that says nothing ends the description too, once another one makes the style. -/
example : ({ name := "f", doc := some "Short.\n\nRaises:\n  E\n\nArgs:\n  x: Size." } :
    Signature).schema { longDescription := true } = .error ⟨"f", .longDescription⟩ := by
  decide +kernel

end Signature

end CallSchema
