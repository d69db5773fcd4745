import CallSchema.TypeHint.OfSchema
import Mathlib.Data.List.Basic
import Mathlib.Data.Option.Basic

/-!
# The shapes of a schema

The hint of a schema depends on the closed set that the schema states itself, on the hints of its
alternatives and on its `type`. `TypeHint.ofSchema?_object` says so in one equation. The shapes
themselves are described here as they stand in the schema, without the functions that look for
them, and `TypeHint.ofSchema?_eq_some` says of every hint which of them it comes from.

## Main definitions

* `Json.alternatives` -- the alternatives of a schema under a key, those of type null left out
* `TypeHint.unionHint?` -- what the alternatives under a key decide
* `TypeHint.StatesSet` -- the closed set that the `enum` or the `const` of a schema states
* `TypeHint.UnionHint` -- the hint that alternatives come to
* `TypeHint.StatesType` -- the named type that the `type` of a schema states

## Main statements

* `Json.alternatives_induction` -- induction over the alternatives of a schema
* `TypeHint.ofSchema?_object` -- the hint of an object from its parts
* `TypeHint.ofSchema?_eq_some` -- where the hint of a schema comes from
-/

namespace CallSchema

open TypeHint

namespace Json

/-- The keys under which a schema has its alternatives. -/
def alternativeKeys : List String :=
  ["oneOf", "anyOf"]

/-- The keys of a schema that are looked at. -/
def recognisedKeys : List String :=
  ["enum", "const", "oneOf", "anyOf", "type"]

theorem mem_alternativeKeys {key : String} :
    key ∈ alternativeKeys ↔ key = "oneOf" ∨ key = "anyOf" := by
  simp [alternativeKeys]

theorem string?_eq_some_iff {json : Json} {value : String} :
    json.string? = some value ↔ json = string value := by
  cases json <;> simp [string?]

theorem array?_eq_some_iff {json : Json} {items : List Json} :
    json.array? = some items ↔ json = array items := by
  cases json <;> simp [array?]

theorem bind_string?_eq_some_iff {member : Option Json} {value : String} :
    member.bind string? = some value ↔ member = some (string value) := by
  simp only [Option.bind_eq_some_iff, string?_eq_some_iff, exists_eq_right]

theorem bind_array?_eq_some_iff {member : Option Json} {items : List Json} :
    member.bind array? = some items ↔ member = some (array items) := by
  simp only [Option.bind_eq_some_iff, array?_eq_some_iff, exists_eq_right]

/-- The alternatives of a schema under a key, those of type null left out. -/
def alternatives (key : String) (schema : Json) : List Json :=
  (((schema.get? key).bind array?).getD []).filter fun item => !isNullSchema item

theorem alternatives_object (key : String) (members : List (String × Json)) :
    (object members).alternatives key =
      (((members.lookup key).bind array?).getD []).filter fun item => !isNullSchema item := rfl

theorem alternatives_of_get?_eq_none {key : String} {schema : Json} (h : schema.get? key = none) :
    schema.alternatives key = [] := by
  rw [alternatives, h]
  rfl

theorem alternatives_of_get?_eq_array {key : String} {schema : Json} {items : List Json}
    (h : schema.get? key = some (array items)) :
    schema.alternatives key = items.filter fun item => !isNullSchema item := by
  rw [alternatives, h]
  rfl

/-- Alternatives are items of the array under their key. -/
theorem alternatives_cases (key : String) (schema : Json) :
    schema.alternatives key = [] ∨
      ∃ items, schema.get? key = some (array items) ∧ (schema.alternatives key).Sublist items := by
  cases hitems : (schema.get? key).bind array? with
  | none =>
    left
    rw [alternatives, hitems]
    rfl
  | some items =>
    have hget := bind_array?_eq_some_iff.1 hitems
    refine .inr ⟨items, hget, ?_⟩
    rw [alternatives_of_get?_eq_array hget]
    exact List.filter_sublist

/-! ### Induction over alternatives -/

theorem mem_of_lookup {members : List (String × Json)} {key : String} {value : Json}
    (h : members.lookup key = some value) : (key, value) ∈ members := by
  obtain ⟨before, after, rfl, -⟩ := List.lookup_eq_some_iff.1 h
  exact List.mem_append_right before List.mem_cons_self

theorem sizeOf_lt_of_get? {key : String} {schema value : Json} (h : schema.get? key = some value) :
    sizeOf value < sizeOf schema := by
  cases schema with
  | object members =>
    have hmember := List.sizeOf_lt_of_mem (mem_of_lookup h)
    simp only [Prod.mk.sizeOf_spec] at hmember
    simp only [object.sizeOf_spec]
    omega
  | _ => cases h

theorem sizeOf_lt_of_mem_alternatives {key : String} {schema item : Json}
    (h : item ∈ schema.alternatives key) : sizeOf item < sizeOf schema := by
  obtain hnil | ⟨items, hget, hsublist⟩ := alternatives_cases key schema
  · rw [hnil] at h
    cases h
  · have hitem := List.sizeOf_lt_of_mem (hsublist.subset h)
    have harray := sizeOf_lt_of_get? hget
    simp only [array.sizeOf_spec] at harray
    omega

/-- What holds of a schema whenever it holds of its alternatives holds of every schema. -/
theorem alternatives_induction {P : Json → Prop}
    (h : ∀ schema, (∀ key, ∀ item ∈ schema.alternatives key, P item) → P schema)
    (schema : Json) : P schema :=
  h schema fun _ item _ => alternatives_induction h item
termination_by sizeOf schema
decreasing_by
  next hitem => exact sizeOf_lt_of_mem_alternatives hitem

end Json

namespace TypeHint

open Json

/-! ### The parts of a schema -/

/-- What the alternatives of a schema under a key decide. -/
def unionHint? (key : String) (schema : Json) : Option (Option TypeHint) :=
  ofAlternatives ((schema.alternatives key).map ofSchema?)

theorem ofItems_eq (items : List Json) :
    ofItems items = (items.filter fun item => !isNullSchema item).map ofSchema? := by
  induction items with
  | nil => rfl
  | cons item items ih =>
    rw [ofItems, ih]
    by_cases hnull : isNullSchema item = true
    · simp [hnull]
    · simp [hnull]

theorem alternativesUnder?_bind (key : String) (members : List (String × Json)) :
    (alternativesUnder? key members).bind ofAlternatives = unionHint? key (object members) := by
  rw [unionHint?, alternatives_object]
  induction members with
  | nil => rfl
  | cons member members ih =>
    obtain ⟨name, value⟩ := member
    rw [alternativesUnder?, List.lookup_cons]
    by_cases hname : name = key
    · subst hname
      rw [if_pos rfl, beq_self_eq_true]
      cases value with
      | array items => simp [alternativesIn?, array?, ofItems_eq]
      | _ => rfl
    · rw [if_neg hname, beq_eq_false_iff_ne.2 (Ne.symm hname)]
      exact ih

/-- The hint of an object: its closed set, else what its alternatives decide, else its type. -/
theorem ofSchema?_object (members : List (String × Json)) :
    ofSchema? (object members) =
      (((closedSet? members).map some).or ((unionHint? "oneOf" (object members)).or
        (unionHint? "anyOf" (object members)))).getD (ofType? members) := by
  rw [ofSchema?, alternativesUnder?_bind, alternativesUnder?_bind]
  cases closedSet? members with
  | some hint => rfl
  | none =>
    cases unionHint? "oneOf" (object members) with
    | some hint => rfl
    | none =>
      cases unionHint? "anyOf" (object members) with
      | some hint => rfl
      | none => rfl

/-! ### Closed sets -/

/-- A list of strings and nulls, with at least one string. -/
structure IsStringList (items : List Json) : Prop where
  null_or_string : ∀ item ∈ items, item = null ∨ ∃ value, item = string value
  exists_string : ∃ value, string value ∈ items

/-- The closed set that a schema states itself: the strings of its `enum`, when that is a list of
    strings and nulls, and else its `const`, when that is a string. -/
inductive StatesSet (schema : Json) : List String → Prop
  | allowed {items : List Json} (henum : schema.get? "enum" = some (array items))
      (hitems : IsStringList items) : StatesSet schema (items.filterMap string?)
  | constant {value : String} (hconst : schema.get? "const" = some (string value))
      (henum : ∀ items, schema.get? "enum" = some (array items) → ¬ IsStringList items) :
      StatesSet schema [value]

theorem stringsAmongNulls?_eq_some_iff {items : List Json} {values : List String} :
    stringsAmongNulls? items = some values ↔
      (∀ item ∈ items, item = null ∨ ∃ value, item = string value) ∧
        values = items.filterMap string? := by
  induction items generalizing values with
  | nil => simp [stringsAmongNulls?, eq_comm]
  | cons item items ih =>
    cases item with
    | null => simp [stringsAmongNulls?, ih, List.filterMap_cons, string?]
    | string value =>
      simp only [stringsAmongNulls?, Option.map_eq_some_iff, ih, List.forall_mem_cons]
      simp [string?, eq_comm]
    | _ => simp [stringsAmongNulls?]

theorem enumStrings?_eq_some_iff {items : List Json} {values : List String} :
    enumStrings? items = some values ↔ IsStringList items ∧ values = items.filterMap string? := by
  have hne : items.filterMap string? ≠ [] ↔ ∃ value, string value ∈ items := by
    simp only [ne_eq, List.eq_nil_iff_forall_not_mem, not_forall, not_not, List.mem_filterMap]
    constructor
    · rintro ⟨value, item, hitem, hvalue⟩
      cases item <;> cases hvalue
      exact ⟨value, hitem⟩
    · rintro ⟨value, hvalue⟩
      exact ⟨value, _, hvalue, rfl⟩
  rw [enumStrings?, Option.filter_eq_some_iff, stringsAmongNulls?_eq_some_iff]
  constructor
  · rintro ⟨⟨hall, rfl⟩, hempty⟩
    exact ⟨⟨hall, hne.1 (by simpa using hempty)⟩, rfl⟩
  · rintro ⟨⟨hall, hsome⟩, rfl⟩
    exact ⟨⟨hall, rfl⟩, by simpa using hne.2 hsome⟩

theorem enumSet?_eq_some_iff {members : List (String × Json)} {values : List String} :
    ((members.lookup "enum").bind array?).bind enumStrings? = some values ↔
      ∃ items, members.lookup "enum" = some (array items) ∧ IsStringList items ∧
        values = items.filterMap string? := by
  rw [Option.bind_eq_some_iff]
  simp only [bind_array?_eq_some_iff, enumStrings?_eq_some_iff]

theorem closedSet?_eq_some_iff {members : List (String × Json)} {hint : TypeHint} :
    closedSet? members = some hint ↔
      ∃ values, StatesSet (object members) values ∧ hint = literal values := by
  rw [closedSet?, Option.orElse_eq_some, Option.map_eq_none_iff, Option.map_eq_some_iff,
    Option.map_eq_some_iff]
  constructor
  · rintro (⟨values, hvalues, rfl⟩ | ⟨hnone, value, hvalue, rfl⟩)
    · obtain ⟨items, hitems, hstrings, rfl⟩ := enumSet?_eq_some_iff.1 hvalues
      exact ⟨_, .allowed hitems hstrings, rfl⟩
    · refine ⟨_, .constant (bind_string?_eq_some_iff.1 hvalue) fun items hitems hstrings => ?_, rfl⟩
      have hsome := enumSet?_eq_some_iff.2 ⟨items, hitems, hstrings, rfl⟩
      rw [hnone] at hsome
      cases hsome
  · rintro ⟨values, h, rfl⟩
    cases h with
    | allowed hitems hstrings =>
      exact .inl ⟨_, enumSet?_eq_some_iff.2 ⟨_, hitems, hstrings, rfl⟩, rfl⟩
    | constant hconst henum =>
      refine .inr ⟨?_, _, bind_string?_eq_some_iff.2 hconst, rfl⟩
      rw [Option.eq_none_iff_forall_ne_some]
      intro values hvalues
      obtain ⟨items, hitems, hstrings, -⟩ := enumSet?_eq_some_iff.1 hvalues
      exact henum items hitems hstrings

theorem closedSet?_eq_none_iff {members : List (String × Json)} :
    closedSet? members = none ↔ ∀ values, ¬ StatesSet (object members) values := by
  simp only [Option.eq_none_iff_forall_ne_some, ne_eq, closedSet?_eq_some_iff]
  constructor
  · intro h values hvalues
    exact h (literal values) ⟨values, hvalues, rfl⟩
  · rintro h hint ⟨values, hvalues, -⟩
    exact h values hvalues

/-! ### Unions -/

/-- The hint that alternatives come to: a single one gives its own hint, and closed sets are joined
    in the order of the alternatives. -/
inductive UnionHint : List Json → TypeHint → Prop
  | single {item : Json} {hint : TypeHint} (h : ofSchema? item = some hint) : UnionHint [item] hint
  | joint (sets : List (Json × List String)) (hne : sets ≠ [])
      (h : ∀ part ∈ sets, ofSchema? part.1 = some (literal part.2)) :
      UnionHint (sets.map Prod.fst) (literal (sets.flatMap Prod.snd))

/-- Alternatives that come to a closed set are closed sets, and its strings are theirs in turn. -/
theorem UnionHint.exists_sets {items : List Json} {values : List String}
    (h : UnionHint items (literal values)) :
    ∃ sets : List (Json × List String), sets ≠ [] ∧
      (∀ part ∈ sets, ofSchema? part.1 = some (literal part.2)) ∧
      items = sets.map Prod.fst ∧ values = sets.flatMap Prod.snd := by
  generalize hhint : literal values = hint at h
  cases h with
  | @single item _ hitem =>
    rw [← hhint] at hitem
    refine ⟨[(item, values)], List.cons_ne_nil _ _, ?_, rfl, ?_⟩
    · simpa using hitem
    · rw [List.flatMap_singleton]
  | joint sets hne hsets => exact ⟨sets, hne, hsets, rfl, literal.inj hhint⟩

theorem jointSet?_map_eq_some_iff {items : List Json} {values : List String} :
    jointSet? (items.map ofSchema?) = some values ↔
      ∃ sets : List (Json × List String),
        (∀ part ∈ sets, ofSchema? part.1 = some (literal part.2)) ∧
        items = sets.map Prod.fst ∧ values = sets.flatMap Prod.snd := by
  induction items generalizing values with
  | nil =>
    constructor
    · intro h
      cases h
      exact ⟨[], by simp, rfl, rfl⟩
    · rintro ⟨sets, -, hitems, rfl⟩
      rw [List.map_eq_nil_iff.1 hitems.symm]
      rfl
  | cons item items ih =>
    constructor
    · intro h
      rw [List.map_cons] at h
      unfold jointSet? at h
      split at h
      · next heq => cases heq
      · next first hints heq =>
        obtain ⟨hitem, rfl⟩ := List.cons.inj heq
        obtain ⟨others, hothers, rfl⟩ := Option.map_eq_some_iff.1 h
        obtain ⟨sets, hsets, rfl, rfl⟩ := ih.1 hothers
        exact ⟨(item, first) :: sets, List.forall_mem_cons.2 ⟨hitem, hsets⟩, rfl, rfl⟩
      · cases h
    · rintro ⟨sets, hsets, hitems, rfl⟩
      obtain ⟨part, later, rfl, rfl, rfl⟩ := List.map_eq_cons_iff.1 hitems.symm
      obtain ⟨hpart, hlater⟩ := List.forall_mem_cons.1 hsets
      rw [List.map_cons, hpart, jointSet?, ih.2 ⟨later, hlater, rfl, rfl⟩]
      rfl

theorem ofAlternatives_eq_none_iff {hints : List (Option TypeHint)} :
    ofAlternatives hints = none ↔ hints = [] := by
  match hints with
  | [] => simp [ofAlternatives]
  | [_] => simp [ofAlternatives]
  | _ :: _ :: _ => simp [ofAlternatives]

theorem ofAlternatives_map_eq_some_iff {items : List Json} {hint : TypeHint} :
    ofAlternatives (items.map ofSchema?) = some (some hint) ↔ UnionHint items hint := by
  constructor
  · intro h
    match items with
    | [] => cases h
    | [item] => exact .single (Option.some.inj h)
    | item :: second :: items =>
      obtain ⟨values, hvalues, rfl⟩ := Option.map_eq_some_iff.1 (Option.some.inj h)
      change jointSet? ((item :: second :: items).map ofSchema?) = some values at hvalues
      obtain ⟨sets, hsets, hitems, rfl⟩ := jointSet?_map_eq_some_iff.1 hvalues
      rw [hitems]
      exact .joint sets (by rintro rfl; cases hitems) hsets
  · intro h
    cases h with
    | single h => exact congrArg some h
    | joint sets hne hsets =>
      match sets with
      | [part] =>
        rw [List.flatMap_singleton]
        exact congrArg some (hsets part List.mem_cons_self)
      | part :: second :: sets =>
        have hjoint := jointSet?_map_eq_some_iff.2 ⟨_, hsets, rfl, rfl⟩
        exact congrArg some (Option.map_eq_some_iff.2 ⟨_, hjoint, rfl⟩)

theorem unionHint?_eq_none_iff {key : String} {schema : Json} :
    unionHint? key schema = none ↔ schema.alternatives key = [] :=
  ofAlternatives_eq_none_iff.trans List.map_eq_nil_iff

theorem unionHint?_eq_some_iff {key : String} {schema : Json} {hint : TypeHint} :
    unionHint? key schema = some (some hint) ↔ UnionHint (schema.alternatives key) hint :=
  ofAlternatives_map_eq_some_iff

/-! ### Types -/

/-- The named type that a schema states by its `type`: a name other than null, or the first such
    name of a list. -/
inductive StatesType (schema : Json) : String → Prop
  | name {name : String} (htype : schema.get? "type" = some (string name))
      (hname : name ≠ "null") : StatesType schema name
  | list {name : String} {before after : List Json}
      (htype : schema.get? "type" = some (array (before ++ string name :: after)))
      (hname : name ≠ "null") (hbefore : ∀ other, string other ∈ before → other = "null") :
      StatesType schema name

theorem find?_names_eq_some_iff {names : List Json} {name : String} :
    (names.filterMap string?).find? (· ≠ "null") = some name ↔
      ∃ before after, names = before ++ string name :: after ∧ name ≠ "null" ∧
        ∀ other, string other ∈ before → other = "null" := by
  rw [List.find?_filterMap, Option.bind_eq_some_iff]
  simp only [List.find?_eq_some_iff_append]
  constructor
  · rintro ⟨item, ⟨hitem, before, after, rfl, hbefore⟩, hname⟩
    cases item <;> cases hname
    refine ⟨before, after, rfl, by simpa [string?] using hitem, fun other hother => ?_⟩
    simpa [string?] using hbefore _ hother
  · rintro ⟨before, after, rfl, hname, hbefore⟩
    refine ⟨string name, ⟨by simpa [string?] using hname, before, after, rfl, ?_⟩, rfl⟩
    intro item hitem
    cases item with
    | string other => simp [string?, hbefore other hitem]
    | _ => rfl

theorem ofType?_eq_some_iff {members : List (String × Json)} {hint : TypeHint} :
    ofType? members = some hint ↔ ∃ name, StatesType (object members) name ∧ hint = named name := by
  constructor
  · intro h
    unfold ofType? at h
    split at h
    · next name htype =>
      split at h
      · cases h
      · next hname => exact ⟨name, .name htype hname, (Option.some.inj h).symm⟩
    · next names htype =>
      obtain ⟨name, hfind, rfl⟩ := Option.map_eq_some_iff.1 h
      obtain ⟨before, after, rfl, hname, hbefore⟩ := find?_names_eq_some_iff.1 hfind
      exact ⟨name, .list htype hname hbefore, rfl⟩
    · cases h
  · rintro ⟨name, h, rfl⟩
    cases h with
    | name htype hname =>
      change members.lookup "type" = some (string name) at htype
      simp [ofType?, htype, hname]
    | list htype hname hbefore =>
      change members.lookup "type" = _ at htype
      rw [ofType?, htype]
      exact Option.map_eq_some_iff.2
        ⟨name, find?_names_eq_some_iff.2 ⟨_, _, rfl, hname, hbefore⟩, rfl⟩

/-- Only an object states a type, and that is the hint of its `type`. -/
theorem StatesType.exists_members {schema : Json} {name : String} (h : StatesType schema name) :
    ∃ members, schema = object members ∧ ofType? members = some (named name) := by
  cases schema with
  | object members => exact ⟨members, rfl, ofType?_eq_some_iff.2 ⟨name, h, rfl⟩⟩
  | _ =>
    cases h with
    | name htype => cases htype
    | list htype => cases htype

/-! ### The hint of a shape -/

theorem ofSchema?_of_statesSet {schema : Json} {values : List String}
    (h : StatesSet schema values) : ofSchema? schema = some (literal values) := by
  cases schema with
  | object members =>
    rw [ofSchema?_object, closedSet?_eq_some_iff.2 ⟨values, h, rfl⟩]
    rfl
  | _ =>
    cases h with
    | allowed henum => cases henum
    | constant hconst => cases hconst

/-- When nothing else that is looked at stands in a schema, the alternatives decide. -/
theorem ofSchema?_of_unionHint?_eq_some {schema : Json} {key : String}
    (hkey : key ∈ alternativeKeys)
    (honly : ∀ other ∈ recognisedKeys, other ≠ key → schema.get? other = none)
    {decided : Option TypeHint} (h : unionHint? key schema = some decided) :
    ofSchema? schema = decided := by
  cases schema with
  | object members =>
    have hset : closedSet? members = none := by
      refine closedSet?_eq_none_iff.2 fun values hvalues => ?_
      cases hvalues with
      | allowed henum =>
        have hne : "enum" ≠ key := (ne_of_mem_of_not_mem hkey (by decide)).symm
        cases henum.symm.trans (honly "enum" (by decide) hne)
      | constant hconst =>
        have hne : "const" ≠ key := (ne_of_mem_of_not_mem hkey (by decide)).symm
        cases hconst.symm.trans (honly "const" (by decide) hne)
    rw [ofSchema?_object, hset]
    obtain rfl | rfl := mem_alternativeKeys.1 hkey
    · rw [h]
      rfl
    · have hfirst := alternatives_of_get?_eq_none (honly "oneOf" (by decide) (by decide))
      rw [unionHint?_eq_none_iff.2 hfirst, h]
      rfl
  | _ => cases h

/-! ### Where a hint comes from -/

/-- A hint is the closed set that the schema states, comes from its alternatives or is its type. -/
theorem ofSchema?_eq_some {schema : Json} {hint : TypeHint} (h : ofSchema? schema = some hint) :
    (∃ values, StatesSet schema values ∧ hint = literal values) ∨
      (∃ key ∈ alternativeKeys, UnionHint (schema.alternatives key) hint) ∨
        ∃ name, StatesType schema name ∧ hint = named name := by
  cases schema with
  | object members =>
    rw [ofSchema?_object] at h
    cases hset : closedSet? members with
    | some set =>
      rw [hset] at h
      exact .inl (closedSet?_eq_some_iff.1 (hset.trans h))
    | none =>
      rw [hset] at h
      cases hone : unionHint? "oneOf" (object members) with
      | some decided =>
        rw [hone] at h
        exact .inr (.inl
          ⟨"oneOf", by decide, unionHint?_eq_some_iff.1 (hone.trans (congrArg some h))⟩)
      | none =>
        rw [hone] at h
        cases hany : unionHint? "anyOf" (object members) with
        | some decided =>
          rw [hany] at h
          exact .inr (.inl
            ⟨"anyOf", by decide, unionHint?_eq_some_iff.1 (hany.trans (congrArg some h))⟩)
        | none =>
          rw [hany] at h
          exact .inr (.inr (ofType?_eq_some_iff.1 h))
  | _ => cases h

end TypeHint

end CallSchema
