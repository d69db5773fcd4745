import CallSchema.Item.Description
import CallSchema.Proofs.Layout.Relayout
import CallSchema.Proofs.Schema.Assembly

/-!
# Signatures written by hand

What a function item describes can also be written down by hand: its name, its documentation as
one text, and its parameters with their types. The documentation of an item comes in attributes,
one for each line, which begin with the space that stands behind the mark of a comment. That space
is part of the margin, and so the schema of the item is the one of the signature that is written by
hand (`FnItem.schema_eq_byHand`).

## Main definitions

* `DocLines` -- attributes that document an item with given lines
* `Input.byHand`, `FnItem.byHand` -- the parameters and the signature that are written by hand
-/

namespace CallSchema

open Text Layout

/-! ### Documentation -/

/-- The attributes document an item with the given lines, each behind a space unless it is empty.
    Attributes of other kinds may stand between them. -/
inductive DocLines : List Text → List Attribute → Prop
  | nil : DocLines [] []
  | line {l : Text} {ls : List Text} {attr : Attribute} {attributes : List Attribute}
      (hname : attr.isNamed "doc" = true) (hvalue : attr.value = some (shift 1 l))
      (hrest : DocLines ls attributes) : DocLines (l :: ls) (attr :: attributes)
  | other {ls : List Text} {attr : Attribute} {attributes : List Attribute}
      (hother : attr.isNamed "doc" = true → attr.value = none)
      (hrest : DocLines ls attributes) : DocLines ls (attr :: attributes)

theorem DocLines.filterMap_value {ls : List Text} {attributes : List Attribute}
    (h : DocLines ls attributes) :
    (attributes.filterMap fun attr => if attr.isNamed "doc" then attr.value else none) =
      ls.map (shift 1) := by
  induction h with
  | nil => rfl
  | line hname hvalue _ ih =>
    rw [List.filterMap_cons_some (by rw [if_pos hname, hvalue]), ih, List.map_cons]
  | other hother _ ih =>
    rw [List.filterMap_cons_none, ih]
    split
    · next hname => exact hother hname
    · rfl

theorem FnItem.doc?_of_docLines {item : FnItem} {ls : List Text} (h : DocLines ls item.attributes)
    (hne : ls ≠ []) : item.doc? = some (unlines (ls.map (shift 1))) := by
  obtain ⟨l, ls, rfl⟩ := List.exists_cons_of_ne_nil hne
  rw [doc?, h.filterMap_value]
  rfl

namespace Layout

theorem bare_shift {k : Nat} {l : Text} (h : '\t' ∉ l) : bare (shift k l) = shift k (bare l) := by
  by_cases hnil : l = []
  · rw [hnil]
    rfl
  · rw [shift_of_ne_nil k hnil, bare_replicate_append (.inl h)]

theorem newline_notMem_shift {k : Nat} {l : Text} (h : '\n' ∉ l) : '\n' ∉ shift k l := by
  by_cases hnil : l = []
  · rw [hnil, shift_nil]
    exact List.not_mem_nil
  · rw [shift_of_ne_nil k hnil]
    simp [h]

/-- A text whose lines are shifted one by one has shifted bare lines. -/
theorem bareLines_unlines_shift (k : Nat) {s : Text} (h : '\t' ∉ s) :
    bareLines (unlines ((s.splitOn '\n').map (shift k))) = (bareLines s).map (shift k) := by
  induction s using newline_induction with
  | last l hl =>
    rw [List.splitOn_eq_singleton hl, List.map_singleton, unlines_singleton,
      bareLines_of_not_mem (newline_notMem_shift hl), bareLines_of_not_mem hl, bare_shift h,
      ← dropEndWhile_isEmpty_map_shift, List.map_singleton]
  | step l s hl ih =>
    have hne : (s.splitOn '\n').map (shift k) ≠ [] := by
      simp [List.splitOn_ne_nil]
    have htab : '\t' ∉ l ∧ '\t' ∉ s := by
      simpa using h
    rw [List.splitOn_append_cons_self_of_not_mem hl, List.map_cons, unlines_cons _ hne,
      bareLines_append_newline (newline_notMem_shift hl), bareLines_append_newline hl,
      bare_shift htab.1, ih htab.2, ← List.map_cons, dropEndWhile_isEmpty_map_shift]

end Layout

/-! ### Parameters -/

/-- The parameter that is written for an input, and none for a receiver: an `Option` with an
    argument may be left out and has the type of the argument. -/
def Input.byHand (hintOf : TypeExpr → Option TypeHint) : Input → List Param
  | .typed attributes (.binding name) type =>
    match type.argumentOf? "Option" with
    | some argument =>
      [{ name := String.ofList name, declared := hintOf argument, hasDefault := true }]
    | none =>
      [{ name := String.ofList name
         declared := hintOf type
         hasDefault := attributes.any (·.isNamed "default") }]
  | _ => []

/-- The signature that is written for an item with a documentation. -/
def FnItem.byHand (hintOf : TypeExpr → Option TypeHint) (doc : Text) (item : FnItem) : Signature :=
  let start := Signature.withDoc { name := String.ofList item.name } (String.ofList doc)
  ((item.inputs.flatMap (Input.byHand hintOf)).foldl Signature.addParam start).withReturns
    (item.returns?.bind hintOf)

theorem Signature.foldl_addParam (sig : Signature) (params : List Param) :
    params.foldl addParam sig = { sig with params := sig.params ++ params } := by
  induction params generalizing sig with
  | nil => rw [List.append_nil]; rfl
  | cons param params ih =>
    rw [List.foldl_cons, ih, addParam, List.append_assoc, List.singleton_append]

/-- The parameter of a signature that stands for a parameter of an item. -/
def ItemParam.toParam (hintOf : TypeExpr → Option TypeHint) (param : ItemParam) : Param :=
  { name := String.ofList param.name
    declared := hintOf param.type
    hasDefault := param.hasDefault }

theorem FnItem.byHand_of_param? (hintOf : TypeExpr → Option TypeHint) {input : Input}
    {param : Option ItemParam} (h : param? input = .ok param) :
    input.byHand hintOf = param.toList.map (ItemParam.toParam hintOf) := by
  cases input with
  | receiver attributes =>
    obtain rfl := Except.ok.inj h
    rfl
  | typed attributes pattern type =>
    cases pattern with
    | other => cases h
    | binding name =>
      obtain rfl := Except.ok.inj h
      rw [Input.byHand]
      cases type.argumentOf? "Option" with
      | none => simp [ItemParam.toParam]
      | some argument => simp [ItemParam.toParam]

theorem FnItem.byHand_of_paramsOf (hintOf : TypeExpr → Option TypeHint) {inputs : List Input}
    {params : List ItemParam} (h : paramsOf inputs = .ok params) :
    inputs.flatMap (Input.byHand hintOf) = params.map (ItemParam.toParam hintOf) := by
  induction inputs generalizing params with
  | nil =>
    obtain rfl := Except.ok.inj h
    rfl
  | cons input inputs ih =>
    rw [paramsOf] at h
    cases hparam : param? input with
    | error refusal => simp [hparam, bind, Except.bind] at h
    | ok param =>
      cases hrest : paramsOf inputs with
      | error refusal => simp [hparam, hrest, bind, Except.bind] at h
      | ok rest =>
        rw [hparam, hrest] at h
        obtain rfl := Except.ok.inj h
        rw [List.flatMap_cons, byHand_of_param? hintOf hparam, ih hrest, List.map_append]

/-! ### The whole signature -/

namespace ItemDescription

variable (schemaOf : Text → Json)

theorem signatureParams?_some (params : List ItemParam) :
    signatureParams? (fun text => some (schemaOf text)) params =
      some (params.map
        (ItemParam.toParam fun type => TypeHint.ofSchema? (schemaOf type.text))) := by
  induction params with
  | nil => rfl
  | cons param params ih =>
    rw [signatureParams?, ih]
    rfl

/-- With a schema for every type there is always a signature. -/
theorem signature?_some (description : ItemDescription) :
    description.signature? (fun text => some (schemaOf text)) =
      some
        { name := String.ofList description.name
          params := description.params.map
            (ItemParam.toParam fun type => TypeHint.ofSchema? (schemaOf type.text))
          returns := description.returns.bind fun type => TypeHint.ofSchema? (schemaOf type.text)
          doc := description.doc.map String.ofList } := by
  rw [signature?, signatureParams?_some]
  cases description.returns with
  | none => rfl
  | some type => rfl

end ItemDescription

namespace FnItem

theorem of_describe_eq_ok {item : FnItem} {description : ItemDescription}
    (h : item.describe = .ok description) :
    ∃ params, paramsOf item.inputs = .ok params ∧
      description = ⟨item.name, item.doc?, params, item.returns?⟩ := by
  unfold describe at h
  split at h
  · cases h
  · cases hparams : paramsOf item.inputs with
    | error refusal => simp [hparams, bind, Except.bind] at h
    | ok params =>
      rw [hparams] at h
      exact ⟨params, rfl, (Except.ok.inj h).symm⟩

/-- **By hand**: an accepted item has the schema of the signature that is written for it by hand,
    with any options and any schemas of the types. -/
theorem schema_eq_byHand (schemaOf : Text → Json) {item : FnItem} {description : ItemDescription}
    (haccepted : item.describe = .ok description) {doc : Text} (htab : '\t' ∉ doc)
    (hdoc : DocLines (doc.splitOn '\n') item.attributes) :
    ∃ sig, description.signature? (fun text => some (schemaOf text)) = some sig ∧
      ∀ options, sig.schema options =
        (item.byHand (fun type => TypeHint.ofSchema? (schemaOf type.text)) doc).schema options := by
  obtain ⟨params, hparams, rfl⟩ := of_describe_eq_ok haccepted
  refine ⟨_, ItemDescription.signature?_some schemaOf _, fun options => ?_⟩
  have hclean : clean (unlines ((doc.splitOn '\n').map (shift 1))) = clean doc :=
    clean_eq_of_bareLines_shift (bareLines_unlines_shift 1 htab)
  -- apart from the documentation the two signatures are the same
  let hand : Signature :=
    { name := String.ofList item.name
      params := params.map (ItemParam.toParam fun type => TypeHint.ofSchema? (schemaOf type.text))
      returns := item.returns?.bind fun type => TypeHint.ofSchema? (schemaOf type.text) }
  rw [doc?_of_docLines hdoc (List.splitOn_ne_nil _ _), byHand, Signature.foldl_addParam,
    byHand_of_paramsOf _ hparams]
  change (hand.withDoc (String.ofList (unlines _))).schema options =
    (hand.withDoc (String.ofList doc)).schema options
  apply Signature.schema_congr
  rw [String.toList_ofList, String.toList_ofList, hclean]
  exact ⟨rfl, rfl, fun _ _ => rfl, rfl⟩

/-- A method with a documentation in the midst of other attributes, and with parameters that are
    marked, optional, or neither. -/
theorem schema_eq_byHand_scale :
    let word (name : String) : Token := .ident name.toList false
    let number : TypeExpr := .other [word "u8"]
    let optional : TypeExpr :=
      .applied [] (word "Option") [.punct '<' false] (.other [word "Unit"]) [.punct '>' false]
    let item : FnItem :=
      { attributes := [⟨[word "inline"], none⟩, ⟨[word "doc"], some " Scale it.".toList⟩,
          ⟨[word "doc"], some []⟩, ⟨[word "doc"], none⟩,
          ⟨[word "doc"], some " :param by: Factor.".toList⟩]
        name := "scale".toList
        inputs := [.receiver [], .typed [] (.binding "by".toList) number,
          .typed [⟨[word "default"], none⟩] (.binding "times".toList) number,
          .typed [] (.binding "unit".toList) optional]
        output := some (.applied [] (word "Result") [.punct '<' false] number [.punct '>' false]) }
    let description : ItemDescription :=
      { name := "scale".toList
        doc := some " Scale it.\n\n :param by: Factor.".toList
        params := [⟨"by".toList, number, false⟩, ⟨"times".toList, number, true⟩,
          ⟨"unit".toList, .other [word "Unit"], true⟩]
        returns := some number }
    let doc := "Scale it.\n\n:param by: Factor.".toList
    let schemaOf (text : Text) : Json :=
      if text = "u8".toList then .object [("type", .string "integer")]
      else .object [("enum", .array [.string "m", .string "km"])]
    item.describe = .ok description ∧ '\t' ∉ doc ∧ DocLines (doc.splitOn '\n') item.attributes ∧
      ∃ sig, description.signature? (fun text => some (schemaOf text)) = some sig ∧
        ∀ options, sig.schema options =
          (item.byHand (fun type => TypeHint.ofSchema? (schemaOf type.text)) doc).schema
            options := by
  intro word number optional item description doc schemaOf
  have haccepted : item.describe = .ok description := rfl
  have htab : '\t' ∉ doc := by decide
  have hdoc : DocLines (doc.splitOn '\n') item.attributes := by
    have hlines : doc.splitOn '\n' = ["Scale it.".toList, [], ":param by: Factor.".toList] := by
      decide
    rw [hlines]
    exact .other (by decide) <| .line (by decide) rfl <| .line (by decide) rfl <|
      .other (by decide) <| .line (by decide) rfl .nil
  exact ⟨haccepted, htab, hdoc, schema_eq_byHand schemaOf haccepted htab hdoc⟩

end FnItem

end CallSchema
