import CallSchema.Proofs.TypeHint.SchemaShapes
import Mathlib.Data.List.Flatten

/-!
# Closed sets in schemas

A closed set may be spread over a schema: its strings stand in `const` and `enum` members at the
leaves of a tree of alternatives. Such a tree is recognised at every depth and width, with its
strings from left to right. The other way round, a closed set never has a string that the schema
does not state, nor strings out of their order.

## Main definitions

* `TypeHint.LiteralTree` -- trees of alternatives with closed sets at their leaves
* `TypeHint.statedStrings` -- the strings that a schema states as `const` or in an `enum`

## Main statements

* `TypeHint.LiteralTree.ofSchema?_eq` -- a tree gives the strings of its leaves
* `TypeHint.sublist_statedStrings` -- the strings of a closed set are stated, in this order
-/

namespace CallSchema.TypeHint

open Json

/-! ### Trees of closed sets -/

/-- The schema is a tree of closed sets with these strings at its leaves, from left to right. A leaf
    states its set. A union has no other key that is looked at, and its alternatives are trees, at
    least one, besides those of type null. -/
inductive LiteralTree : Json → List String → Prop
  | leaf {schema : Json} {values : List String} (h : StatesSet schema values) :
      LiteralTree schema values
  | union {schema : Json} {key : String} (hkey : key ∈ alternativeKeys)
      (honly : ∀ other ∈ recognisedKeys, other ≠ key → schema.get? other = none)
      (trees : List (Json × List String)) (hne : trees ≠ [])
      (halternatives : schema.alternatives key = trees.map Prod.fst)
      (h : ∀ tree ∈ trees, LiteralTree tree.1 tree.2) :
      LiteralTree schema (trees.flatMap Prod.snd)

theorem LiteralTree.ofSchema?_eq {schema : Json} {values : List String}
    (h : LiteralTree schema values) : ofSchema? schema = some (literal values) := by
  induction h with
  | leaf h => exact ofSchema?_of_statesSet h
  | @union schema key hkey honly trees hne halternatives h ih =>
    refine ofSchema?_of_unionHint?_eq_some hkey honly ?_
    rw [unionHint?_eq_some_iff, halternatives]
    exact .joint trees hne ih

/-! ### The strings that a schema states -/

mutual

/-- The strings in a value that stand as a `const` or as an item of an `enum`, from left to right.
    A string is one of them itself when `counts` says so, and the strings in an array are when
    `lists` says so. -/
def statedIn (counts lists : Bool) : Json → List String
  | .string value => if counts then [value] else []
  | .array items => statedInItems lists items
  | .object members => statedInMembers members
  | _ => []

def statedInItems (counts : Bool) : List Json → List String
  | [] => []
  | item :: items => statedIn counts false item ++ statedInItems counts items

def statedInMembers : List (String × Json) → List String
  | [] => []
  | (key, value) :: members =>
    statedIn (key = "const") (key = "enum") value ++ statedInMembers members

end

/-- The strings that a schema states as a `const` or as an item of an `enum`, at any depth and from
    left to right. -/
def statedStrings (schema : Json) : List String :=
  statedIn false false schema

theorem statedInItems_eq (counts : Bool) (items : List Json) :
    statedInItems counts items = items.flatMap (statedIn counts false) := by
  induction items with
  | nil => rfl
  | cons item items ih => rw [statedInItems, ih, List.flatMap_cons]

/-- What the value of a member states is a part of what the schema states. -/
theorem statedIn_sublist_of_get? {schema value : Json} {key : String}
    (h : schema.get? key = some value) :
    (statedIn (key = "const") (key = "enum") value).Sublist (statedStrings schema) := by
  cases schema with
  | object members =>
    have hmember := mem_of_lookup h
    clear h
    show List.Sublist _ (statedInMembers members)
    induction members with
    | nil => cases hmember
    | cons member members ih =>
      rw [statedInMembers]
      obtain rfl | hmember := List.mem_cons.1 hmember
      · exact List.sublist_append_left _ _
      · exact (ih hmember).trans (List.sublist_append_right _ _)
  | _ => cases h

theorem StatesSet.sublist_statedStrings {schema : Json} {values : List String}
    (h : StatesSet schema values) : values.Sublist (statedStrings schema) := by
  cases h with
  | @allowed items henum hitems =>
    refine List.Sublist.trans ?_ (statedIn_sublist_of_get? henum)
    show List.Sublist _ (statedInItems true items)
    rw [statedInItems_eq, List.filterMap_eq_flatMap_toList]
    refine List.Sublist.flatMap_right items fun item _ => ?_
    cases item with
    | string value => exact List.Sublist.refl _
    | _ => exact List.nil_sublist _
  | @constant value hconst =>
    exact (List.Sublist.refl [value]).trans (statedIn_sublist_of_get? hconst)

/-- What the alternatives state, one after the other, is a part of what the schema states. -/
theorem flatMap_alternatives_sublist {key : String} (hkey : key ∈ alternativeKeys) (schema : Json) :
    ((schema.alternatives key).flatMap statedStrings).Sublist (statedStrings schema) := by
  obtain hnil | ⟨items, hget, hsublist⟩ := alternatives_cases key schema
  · rw [hnil]
    exact List.nil_sublist _
  · -- an array of alternatives is no `enum`, so only what stands inside of its items counts
    have hplace : decide (key = "enum") = false :=
      decide_eq_false (ne_of_mem_of_not_mem hkey (by decide))
    have hitems := statedIn_sublist_of_get? hget
    rw [statedIn, hplace, statedInItems_eq] at hitems
    exact (hsublist.flatMap statedStrings).trans hitems

theorem UnionHint.sublist_flatMap {items : List Json} {values : List String}
    (h : UnionHint items (literal values))
    (hitems : ∀ item ∈ items, ∀ values, ofSchema? item = some (literal values) →
      values.Sublist (statedStrings item)) : values.Sublist (items.flatMap statedStrings) := by
  obtain ⟨sets, -, hsets, rfl, rfl⟩ := h.exists_sets
  rw [List.flatMap_map]
  exact List.Sublist.flatMap_right sets fun part hpart =>
    hitems part.1 (List.mem_map_of_mem hpart) part.2 (hsets part hpart)

/-- The strings of a closed set are among those that the schema states, in the same order. -/
theorem sublist_statedStrings {schema : Json} {values : List String}
    (h : ofSchema? schema = some (literal values)) : values.Sublist (statedStrings schema) := by
  induction schema using alternatives_induction generalizing values with
  | h schema ih =>
    obtain ⟨strings, hset, hliteral⟩ | ⟨key, hkey, hunion⟩ | ⟨name, -, hnamed⟩ :=
      ofSchema?_eq_some h
    · obtain rfl := TypeHint.literal.inj hliteral
      exact hset.sublist_statedStrings
    · have hvalues := hunion.sublist_flatMap fun item hitem values => ih key item hitem
      exact hvalues.trans (flatMap_alternatives_sublist hkey schema)
    · cases hnamed

/-- **Closed sets in schemas**: a tree of closed sets gives the strings of its leaves from left to
    right, and the strings of a closed set that any schema gives are stated in it as `const` or in
    an `enum`, in the same order. -/
theorem ofSchema?_literal (schema : Json) (values : List String) :
    (LiteralTree schema values → ofSchema? schema = some (literal values)) ∧
      (ofSchema? schema = some (literal values) → values.Sublist (statedStrings schema)) :=
  ⟨LiteralTree.ofSchema?_eq, sublist_statedStrings⟩

/-- Two levels of alternatives, a leaf with null among its values and an alternative of type
    null. -/
theorem ofSchema?_literal_speeds :
    let slow := object [("type", array [string "string", string "null"]),
      ("enum", array [string "none", null, string "slow"])]
    let fast := object [("description", string "Quick."), ("const", string "fast")]
    let speeds := object [("description", string "Speed."), ("oneOf", array [slow, fast])]
    let other := object [("type", string "string"), ("const", string "")]
    let schema := object [("anyOf", array [speeds, object [("type", string "null")], other])]
    LiteralTree schema ["none", "slow", "fast", ""] ∧
      ofSchema? schema = some (literal ["none", "slow", "fast", ""]) ∧
      ["none", "slow", "fast", ""].Sublist (statedStrings schema) := by
  intro slow fast speeds other schema
  have hslow : LiteralTree slow ["none", "slow"] := by
    have hvalues : IsStringList [string "none", null, string "slow"] :=
      ⟨by simp, "none", List.mem_cons_self⟩
    exact .leaf (.allowed rfl hvalues)
  have hfast : LiteralTree fast ["fast"] := .leaf (.constant rfl fun _ h => by cases h)
  have hother : LiteralTree other [""] := .leaf (.constant rfl fun _ h => by cases h)
  have hspeeds : LiteralTree speeds ["none", "slow", "fast"] := by
    have hkey : "oneOf" ∈ alternativeKeys := by decide
    refine .union hkey ?_ [(slow, ["none", "slow"]), (fast, ["fast"])] (by simp) rfl ?_
    · simp [recognisedKeys, speeds, get?, List.lookup_cons]
    · simp [hslow, hfast]
  have hschema : LiteralTree schema ["none", "slow", "fast", ""] := by
    have hkey : "anyOf" ∈ alternativeKeys := by decide
    refine .union hkey ?_ [(speeds, ["none", "slow", "fast"]), (other, [""])] (by simp)
      rfl ?_
    · simp [recognisedKeys, schema, get?, List.lookup_cons]
    · simp [hspeeds, hother]
  have hhint := (ofSchema?_literal schema _).1 hschema
  exact ⟨hschema, hhint, (ofSchema?_literal schema _).2 hhint⟩

end CallSchema.TypeHint
