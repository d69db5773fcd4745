import CallSchema.Proofs.TypeHint.SchemaShapes

/-!
# The type of a schema as the last resort

The `type` of a schema gives its hint when no shape in front of it is recognised, with one
exception. Alternatives that come to no hint are not passed over: a union of which nothing can be
said leaves the schema without a hint, and its `type` is not looked at any more.

## Main definitions

* `TypeHint.Undecided` -- alternatives that come to no hint
* `TypeHint.HidesType` -- schemas whose alternatives hide the `type`
* `TypeHint.Shape` -- the shapes in front of the `type`

## Main statements

* `TypeHint.ofSchema?_eq_none_iff` -- when a schema with a type has no hint
* `TypeHint.ofSchema?_of_statesType` -- when its hint is the type
-/

namespace CallSchema.TypeHint

open Json

/-- There are alternatives under the key, and they come to no hint: a single one has none, or one of
    several is no closed set. -/
def Undecided (key : String) (schema : Json) : Prop :=
  schema.alternatives key ≠ [] ∧ ∀ hint, ¬ UnionHint (schema.alternatives key) hint

/-- The schema states no closed set, and the first of its unions that has alternatives comes to no
    hint. -/
def HidesType (schema : Json) : Prop :=
  (∀ values, ¬ StatesSet schema values) ∧
    (Undecided "oneOf" schema ∨ schema.alternatives "oneOf" = [] ∧ Undecided "anyOf" schema)

/-- The hints of the shapes in front of the type, wherever they stand in the schema. -/
inductive Shape (schema : Json) : TypeHint → Prop
  | set {values : List String} (h : StatesSet schema values) : Shape schema (literal values)
  | union {key : String} (hkey : key ∈ alternativeKeys) {hint : TypeHint}
      (h : UnionHint (schema.alternatives key) hint) : Shape schema hint

theorem unionHint?_eq_some_none_iff {key : String} {schema : Json} :
    unionHint? key schema = some none ↔ Undecided key schema := by
  rw [Undecided, ← unionHint?_eq_none_iff.ne]
  simp only [← unionHint?_eq_some_iff]
  cases unionHint? key schema with
  | none => simp
  | some decided => cases decided <;> simp

/-- A schema states one type at most. -/
theorem StatesType.unique {schema : Json} {name other : String} (h : StatesType schema name)
    (hother : StatesType schema other) : name = other := by
  obtain ⟨members, rfl, hname⟩ := h.exists_members
  have hother := ofType?_eq_some_iff.2 ⟨other, hother, rfl⟩
  exact TypeHint.named.inj (Option.some.inj (hname.symm.trans hother))

/-- A schema with a type has no hint exactly when its alternatives hide the type. -/
theorem ofSchema?_eq_none_iff {schema : Json} {name : String} (h : StatesType schema name) :
    ofSchema? schema = none ↔ HidesType schema := by
  obtain ⟨members, rfl, htype⟩ := h.exists_members
  rw [HidesType, ← closedSet?_eq_none_iff, ← unionHint?_eq_none_iff,
    ← unionHint?_eq_some_none_iff, ← unionHint?_eq_some_none_iff, ofSchema?_object, htype]
  cases closedSet? members with
  | some hint => simp
  | none =>
    cases unionHint? "oneOf" (object members) with
    | some decided => simp
    | none => cases unionHint? "anyOf" (object members) <;> simp

/-- **The type of a schema is its last resort**: a schema with a type has a hint except exactly when
    its alternatives hide the type, and apart from that its hint is the named type when no shape in
    front of the type is recognised. -/
theorem ofSchema?_of_statesType {schema : Json} {name : String} (h : StatesType schema name) :
    (ofSchema? schema = none ↔ HidesType schema) ∧
      (¬ HidesType schema → (∀ hint, ¬ Shape schema hint) →
        ofSchema? schema = some (named name)) := by
  refine ⟨ofSchema?_eq_none_iff h, fun hhides hshape => ?_⟩
  obtain ⟨hint, hhint⟩ := Option.ne_none_iff_exists'.1 fun hnone =>
    hhides ((ofSchema?_eq_none_iff h).1 hnone)
  obtain ⟨values, hset, rfl⟩ | ⟨key, hkey, hunion⟩ | ⟨other, hother, rfl⟩ := ofSchema?_eq_some hhint
  · exact absurd (.set hset) (hshape _)
  · exact absurd (.union hkey hunion) (hshape hint)
  · rw [hhint, h.unique hother]

/-- An object with a union of objects beside its type, and a list of types beside a union of which
    null is the only alternative. -/
theorem ofSchema?_of_statesType_shapes :
    let circle := object [("type", string "object"), ("required", array [string "radius"])]
    let square := object [("type", string "object"), ("required", array [string "side"])]
    let shape := object [("type", string "object"), ("oneOf", array [circle, square])]
    let size := object [("oneOf", array [object [("type", string "null")]]),
      ("type", array [string "null", string "integer"])]
    StatesType shape "object" ∧ HidesType shape ∧ ofSchema? shape = none ∧
      StatesType size "integer" ∧ ¬ HidesType size ∧ (∀ hint, ¬ Shape size hint) ∧
      ofSchema? size = some (named "integer") := by
  intro circle square shape size
  have hobject : StatesType shape "object" := .name rfl (by decide)
  have hnames : ∀ other, string other ∈ [string "null"] → other = "null" := by simp
  have hinteger : StatesType size "integer" := @StatesType.list _ _ [_] [] rfl (by decide) hnames
  have hhidden : HidesType shape := (ofSchema?_of_statesType hobject).1.1 rfl
  have hempty : ∀ key ∈ alternativeKeys, size.alternatives key = [] := by
    intro key hkey
    obtain rfl | rfl := mem_alternativeKeys.1 hkey
    · rfl
    · rfl
  have hunion : ∀ key ∈ alternativeKeys, ∀ hint, ¬ UnionHint (size.alternatives key) hint := by
    intro key hkey hint h
    rw [← unionHint?_eq_some_iff, unionHint?_eq_none_iff.2 (hempty key hkey)] at h
    cases h
  have hopen : ¬ HidesType size := by
    rintro ⟨-, hone | ⟨-, hany⟩⟩
    · exact hone.1 (hempty "oneOf" (by decide))
    · exact hany.1 (hempty "anyOf" (by decide))
  have hshape : ∀ hint, ¬ Shape size hint := by
    intro hint h
    cases h with
    | set hset => exact closedSet?_eq_none_iff.1 rfl _ hset
    | union hkey h => exact hunion _ hkey hint h
  exact ⟨hobject, hhidden, (ofSchema?_of_statesType hobject).1.2 hhidden, hinteger, hopen, hshape,
    (ofSchema?_of_statesType hinteger).2 hopen hshape⟩

end CallSchema.TypeHint
