import CallSchema.Proofs.TypeHint.SchemaShapes
import Mathlib.Logic.Relation

/-!
# Null in a schema

A schema may say in several places that a value may also be null: by an alternative of type null,
by null among the allowed values and by the name null among the types. None of this has an
influence on the hint of the schema, at whatever depth of its alternatives it stands.

## Main definitions

* `TypeHint.NullMember` -- putting null into the value of one member
* `TypeHint.NullEdit` -- putting null into a schema at one place

## Main statements

* `TypeHint.Alike.ofSchema?_eq` -- the hint of an object with another value under one key
* `TypeHint.NullEdit.reads_alike` -- one place
* `TypeHint.ofSchema?_eq_of_nullEdits` -- any number of places
-/

namespace CallSchema.TypeHint

open Json

/-- The schema of null. -/
def nullSchema : Json :=
  object [("type", string "null")]

/-! ### Replacing the value of one member -/

/-- Two values under a key that a schema is read the same with. -/
structure Alike (key : String) (value edited : Json) : Prop where
  allowed : key = "enum" → value.array?.bind enumStrings? = edited.array?.bind enumStrings?
  constant : key = "const" → value.string? = edited.string?
  union : key ∈ alternativeKeys →
    ofItems (value.array?.getD []) = ofItems (edited.array?.getD [])
  type : key = "type" → ofType? [("type", value)] = ofType? [("type", edited)]
  null : key = "type" → (value = string "null" ↔ edited = string "null")

section Replace

variable (before after : List (String × Json)) {key : String} {value edited : Json}

theorem lookup_replace (k : String) :
    (before ++ (key, value) :: after).lookup k =
      (before.lookup k).or (if k = key then some value else after.lookup k) := by
  rw [List.lookup_append, List.lookup_cons]
  by_cases hk : k = key
  · rw [if_pos hk, beq_iff_eq.2 hk]
  · rw [if_neg hk, beq_eq_false_iff_ne.2 hk]

/-- What is read of the member under a key stays the same when the new value is read the same. -/
theorem congr_lookup_replace {α : Type} (read : Option Json → α) (k : String)
    (h : k = key → read (some value) = read (some edited)) :
    read ((before ++ (key, value) :: after).lookup k) =
      read ((before ++ (key, edited) :: after).lookup k) := by
  rw [lookup_replace, lookup_replace]
  cases before.lookup k with
  | some first => rfl
  | none =>
    by_cases hk : k = key
    · rw [if_pos hk, if_pos hk]
      exact h hk
    · rw [if_neg hk, if_neg hk]

theorem unionHint?_object (k : String) (members : List (String × Json)) :
    unionHint? k (object members) =
      ofAlternatives (ofItems (((members.lookup k).bind array?).getD [])) := by
  rw [unionHint?, alternatives_object, ofItems_eq]

theorem ofType?_eq (members : List (String × Json)) :
    ofType? members = (members.lookup "type").bind fun value => ofType? [("type", value)] := by
  rw [ofType?]
  cases members.lookup "type" with
  | none => rfl
  | some value => rfl

variable {before after}

theorem Alike.ofSchema?_eq (h : Alike key value edited) :
    ofSchema? (object (before ++ (key, value) :: after)) =
      ofSchema? (object (before ++ (key, edited) :: after)) := by
  have hset : closedSet? (before ++ (key, value) :: after) =
      closedSet? (before ++ (key, edited) :: after) := by
    rw [closedSet?, closedSet?,
      congr_lookup_replace before after (fun v => (v.bind array?).bind enumStrings?) "enum"
        fun hkey => h.allowed hkey.symm,
      congr_lookup_replace before after (fun v => v.bind string?) "const"
        fun hkey => h.constant hkey.symm]
  have hunion : ∀ k ∈ alternativeKeys, unionHint? k (object (before ++ (key, value) :: after)) =
      unionHint? k (object (before ++ (key, edited) :: after)) := by
    intro k hk
    rw [unionHint?_object, unionHint?_object]
    refine congr_lookup_replace before after
      (fun v => ofAlternatives (ofItems ((v.bind array?).getD []))) k fun hkey => ?_
    exact congrArg ofAlternatives (h.union (hkey ▸ hk))
  have htype : ofType? (before ++ (key, value) :: after) =
      ofType? (before ++ (key, edited) :: after) := by
    rw [ofType?_eq, ofType?_eq (before ++ (key, edited) :: after)]
    exact congr_lookup_replace before after (fun v => v.bind fun value => ofType? [("type", value)])
      "type" fun hkey => h.type hkey.symm
  rw [ofSchema?_object, ofSchema?_object, hset, hunion "oneOf" (by decide),
    hunion "anyOf" (by decide), htype]

theorem isNullSchema_iff {schema : Json} :
    isNullSchema schema = true ↔ schema.get? "type" = some (string "null") := by
  rw [isNullSchema, beq_iff_eq, bind_string?_eq_some_iff]

theorem Alike.isNullSchema_eq (h : Alike key value edited) :
    isNullSchema (object (before ++ (key, value) :: after)) =
      isNullSchema (object (before ++ (key, edited) :: after)) := by
  rw [Bool.eq_iff_iff, isNullSchema_iff, isNullSchema_iff]
  refine iff_of_eq (congr_lookup_replace before after (· = some (string "null")) "type"
    fun hkey => ?_)
  simpa using h.null hkey.symm

end Replace

/-! ### Putting null into one member -/

/-- `edited` is the value of the member `key` with null put in once: an alternative of type null,
    null among the allowed values, the name null among the types, or a single type made a list of
    two. -/
inductive NullMember : String → Json → Json → Prop
  | alternative {key : String} (hkey : key ∈ alternativeKeys) (items later : List Json)
      {item : Json} (hitem : item.get? "type" = some (string "null")) :
      NullMember key (array (items ++ later)) (array (items ++ item :: later))
  | allowed (items later : List Json) :
      NullMember "enum" (array (items ++ later)) (array (items ++ null :: later))
  | typeName (names later : List Json) :
      NullMember "type" (array (names ++ later)) (array (names ++ string "null" :: later))
  | orNull {name : String} (hname : name ≠ "null") :
      NullMember "type" (string name) (array [string name, string "null"])
  | nullOr {name : String} (hname : name ≠ "null") :
      NullMember "type" (string name) (array [string "null", string name])

theorem Alike.of_union {key : String} (hkey : key ∈ alternativeKeys) {items edited : List Json}
    (h : ofItems items = ofItems edited) : Alike key (array items) (array edited) where
  allowed := fun henum => absurd henum (ne_of_mem_of_not_mem hkey (by decide))
  constant := fun _ => rfl
  union := fun _ => h
  type := fun htype => absurd htype (ne_of_mem_of_not_mem hkey (by decide))
  null := fun htype => absurd htype (ne_of_mem_of_not_mem hkey (by decide))

theorem Alike.of_type {value edited : Json}
    (h : ofType? [("type", value)] = ofType? [("type", edited)])
    (hvalue : value ≠ string "null") (hedited : edited ≠ string "null") :
    Alike "type" value edited where
  allowed := fun hkey => absurd hkey (by decide)
  constant := fun hkey => absurd hkey (by decide)
  union := fun hkey => absurd hkey (by decide)
  type := fun _ => h
  null := fun _ => iff_of_false hvalue hedited

theorem Alike.of_enum {items edited : List Json} (h : enumStrings? items = enumStrings? edited) :
    Alike "enum" (array items) (array edited) where
  allowed := fun _ => h
  constant := fun hkey => absurd hkey (by decide)
  union := fun hkey => absurd hkey (by decide)
  type := fun hkey => absurd hkey (by decide)
  null := fun hkey => absurd hkey (by decide)

theorem ofItems_append (items later : List Json) :
    ofItems (items ++ later) = ofItems items ++ ofItems later := by
  rw [ofItems_eq, ofItems_eq, ofItems_eq, List.filter_append, List.map_append]

theorem stringsAmongNulls?_insert (items later : List Json) :
    stringsAmongNulls? (items ++ null :: later) = stringsAmongNulls? (items ++ later) := by
  induction items with
  | nil => rfl
  | cons item items ih => cases item <;> simp [stringsAmongNulls?, ih]

theorem ofType?_name {name : String} (hname : name ≠ "null") :
    ofType? [("type", string name)] = some (named name) :=
  if_neg hname

theorem ofType?_names (names : List Json) :
    ofType? [("type", array names)] =
      ((names.filterMap string?).find? (· ≠ "null")).map named := rfl

theorem NullMember.alike {key : String} {value edited : Json} (h : NullMember key value edited) :
    Alike key value edited := by
  cases h with
  | alternative hkey items later hitem =>
    apply Alike.of_union hkey
    rw [ofItems_append, ofItems_append, ofItems, if_pos (isNullSchema_iff.2 hitem)]
  | allowed items later =>
    apply Alike.of_enum
    rw [enumStrings?, enumStrings?, stringsAmongNulls?_insert]
  | typeName names later =>
    refine Alike.of_type ?_ (by simp) (by simp)
    rw [ofType?_names, ofType?_names, List.filterMap_append, List.filterMap_append,
      List.find?_append, List.find?_append]
    rfl
  | @orNull name hname =>
    refine Alike.of_type ?_ (by simpa using hname) (by simp)
    have hfind : ([string name, string "null"].filterMap string?).find? (· ≠ "null") = some name :=
      find?_names_eq_some_iff.2 ⟨[], _, rfl, hname, by simp⟩
    rw [ofType?_name hname, ofType?_names, hfind]
    rfl
  | @nullOr name hname =>
    refine Alike.of_type ?_ (by simpa using hname) (by simp)
    have hfind : ([string "null", string name].filterMap string?).find? (· ≠ "null") = some name :=
      find?_names_eq_some_iff.2 ⟨[string "null"], _, rfl, hname, by simp⟩
    rw [ofType?_name hname, ofType?_names, hfind]
    rfl

/-! ### Putting null into a schema -/

/-- `edited` is `schema` with null put in once, in a member of its own or anywhere in one of its
    alternatives. -/
inductive NullEdit : Json → Json → Prop
  | here (before after : List (String × Json)) {key : String} {value edited : Json}
      (h : NullMember key value edited) :
      NullEdit (object (before ++ (key, value) :: after))
        (object (before ++ (key, edited) :: after))
  | inside (before after : List (String × Json)) {key : String} (hkey : key ∈ alternativeKeys)
      (items later : List Json) {schema edited : Json} (h : NullEdit schema edited) :
      NullEdit (object (before ++ (key, array (items ++ schema :: later)) :: after))
        (object (before ++ (key, array (items ++ edited :: later)) :: after))

/-- Null at one place changes neither the hint nor whether the schema has the type null, which the
    schema around it asks. -/
theorem NullEdit.reads_alike {schema edited : Json} (h : NullEdit schema edited) :
    isNullSchema schema = isNullSchema edited ∧ ofSchema? schema = ofSchema? edited := by
  induction h with
  | here before after h => exact ⟨h.alike.isNullSchema_eq, h.alike.ofSchema?_eq⟩
  | @inside before after key hkey items later schema edited h ih =>
    obtain ⟨hnull, hhint⟩ := ih
    have hitems : ofItems (items ++ schema :: later) = ofItems (items ++ edited :: later) := by
      rw [ofItems_append, ofItems_append, ofItems, ofItems, hnull, hhint]
    have halike := Alike.of_union hkey hitems
    exact ⟨halike.isNullSchema_eq, halike.ofSchema?_eq⟩

theorem ofSchema?_eq_of_eqvGen {schema edited : Json} (h : Relation.EqvGen NullEdit schema edited) :
    ofSchema? schema = ofSchema? edited := by
  induction h with
  | rel schema edited h => exact h.reads_alike.2
  | refl schema => rfl
  | symm schema edited _ ih => exact ih.symm
  | trans schema middle edited _ _ ih ih' => exact ih.trans ih'

/-! ### Unions with null -/

/-- A union with null gives the hint of what it is a union with. -/
theorem ofSchema?_union_null {key : String} (hkey : key ∈ alternativeKeys) {schema : Json}
    (hschema : schema.get? "type" ≠ some (string "null")) {items : List Json}
    (hitems : items = [schema, nullSchema] ∨ items = [nullSchema, schema]) :
    ofSchema? (object [(key, array items)]) = ofSchema? schema := by
  have hnull : isNullSchema nullSchema = true := by decide
  have hschema : isNullSchema schema = false :=
    Bool.eq_false_iff.2 fun h => hschema (isNullSchema_iff.1 h)
  have hget : (object [(key, array items)]).get? key = some (array items) :=
    List.lookup_cons_self
  have hunion : unionHint? key (object [(key, array items)]) = some (ofSchema? schema) := by
    have halternatives : (object [(key, array items)]).alternatives key = [schema] := by
      rw [alternatives_of_get?_eq_array hget]
      obtain rfl | rfl := hitems
      · simp [hnull, hschema]
      · simp [hnull, hschema]
    rw [unionHint?, halternatives]
    rfl
  refine ofSchema?_of_unionHint?_eq_some hkey (fun other _ hne => ?_) hunion
  show [(key, array items)].lookup other = none
  rw [List.lookup_cons, beq_eq_false_iff_ne.2 hne]
  rfl

/-! ### Null anywhere -/

/-- **Null has no influence on the hint of a schema**: putting it in or taking it out at any number
    of places, at any depth of the alternatives, leaves the hint as it is, and a union of a schema
    with the schema of null has the hint of that schema. -/
theorem ofSchema?_eq_of_nullEdits :
    (∀ schema edited, Relation.EqvGen NullEdit schema edited →
        ofSchema? schema = ofSchema? edited) ∧
      ∀ key ∈ alternativeKeys, ∀ schema : Json, schema.get? "type" ≠ some (string "null") →
        ofSchema? (object [(key, array [schema, nullSchema])]) = ofSchema? schema ∧
          ofSchema? (object [(key, array [nullSchema, schema])]) = ofSchema? schema := by
  refine ⟨fun schema edited h => ofSchema?_eq_of_eqvGen h, fun key hkey schema hschema => ?_⟩
  exact ⟨ofSchema?_union_null hkey hschema (.inl rfl),
    ofSchema?_union_null hkey hschema (.inr rfl)⟩

/-- Null among the values of one alternative, and the schema of null beside it. -/
theorem ofSchema?_eq_of_nullEdits_modes :
    let mode := object [("type", string "string"), ("enum", array [string "a", string "b"])]
    let modeOrNull := object [("type", string "string"),
      ("enum", array [string "a", null, string "b"])]
    let schema := object [("oneOf", array [mode, object [("const", string "c")]])]
    let edited := object [("oneOf", array [nullSchema, modeOrNull, object [("const", string "c")]])]
    Relation.EqvGen NullEdit schema edited ∧ ofSchema? schema = ofSchema? edited ∧
      schema.get? "type" ≠ some (string "null") ∧ "anyOf" ∈ alternativeKeys ∧
      ofSchema? (object [("anyOf", array [nullSchema, schema])]) =
        some (literal ["a", "b", "c"]) := by
  intro mode modeOrNull schema edited
  have hvalues : NullEdit schema
      (object [("oneOf", array [modeOrNull, object [("const", string "c")]])]) :=
    .inside [] [] (by decide) [] _ (.here [_] [] (.allowed [string "a"] [string "b"]))
  have hmember : NullEdit (object [("oneOf", array [modeOrNull, object [("const", string "c")]])])
      edited :=
    .here [] [] (.alternative (by decide) [] _ rfl)
  have h := (Relation.EqvGen.rel _ _ hvalues).trans _ _ _ (.rel _ _ hmember)
  have hschema : schema.get? "type" ≠ some (string "null") := (Option.some_ne_none _).symm
  refine ⟨h, ofSchema?_eq_of_nullEdits.1 _ _ h, hschema, by decide, ?_⟩
  rw [(ofSchema?_eq_of_nullEdits.2 "anyOf" (by decide) schema hschema).2]
  rfl

end CallSchema.TypeHint
