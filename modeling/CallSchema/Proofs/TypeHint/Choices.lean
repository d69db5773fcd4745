import CallSchema.Proofs.TypeHint.SchemaShapes
import CallSchema.TypeHint.Meaning
import CallSchema.TypeHint.Written
import Mathlib.Data.Option.Basic

/-!
# Closed sets that are not empty

A type hint that is read from a docstring or derived from a JSON schema never is the closed set of
no strings. Every way to a closed set has its own reason: an `enum` without strings is passed over,
a `const` is one string, the alternatives that are joined have strings each, and a `Literal[...]`
without a quoted string is a named type.

## Main definitions

* `TypeHint.Derived` -- a hint that comes from a JSON schema or from type text
-/

namespace CallSchema.TypeHint

/-- The hint comes from a JSON schema or from type text. -/
def Derived (hint : TypeHint) : Prop :=
  (∃ schema, ofSchema? schema = some hint) ∨ ∃ text, ofText? text = some hint

/-! ### Type text -/

/-- The names that a closed set begins with. -/
def literalNames : List Text :=
  ["Literal".toList, "typing.Literal".toList]

/-- A closed set is written on one line, between square brackets behind one of its names. -/
theorem literalBody?_eq_some_iff {s body : Text} :
    literalBody? s = some body ↔
      (∃ name ∈ literalNames, s = name ++ '[' :: (body ++ [']'])) ∧ '\n' ∉ body := by
  constructor
  · intro h
    obtain ⟨bracketed, hbracketed, hbody⟩ := Option.bind_eq_some_iff.1 h
    dsimp only at hbody
    split at hbody
    · next hlast =>
      have hall : bracketed = body ++ [']'] := by
        obtain ⟨init, rfl⟩ := List.getLast?_eq_some_iff.1 hlast.1
        rw [← Option.some.inj hbody, List.dropLast_concat]
      refine ⟨?_, Option.some.inj hbody ▸ hlast.2⟩
      have hrest := Text.after?_eq_some_iff.1 hbracketed
      cases htyping : Text.after? "typing.".toList s with
      | none =>
        rw [htyping, Option.getD_none, hall] at hrest
        exact ⟨"Literal".toList, List.mem_cons_self, hrest⟩
      | some rest =>
        rw [htyping, Option.getD_some, hall] at hrest
        refine ⟨"typing.Literal".toList, List.mem_cons_of_mem _ List.mem_cons_self, ?_⟩
        rw [Text.after?_eq_some_iff.1 htyping, hrest]
        rfl
    · cases hbody
  · rintro ⟨⟨name, hname, rfl⟩, hline⟩
    have hbracketed : Text.after? "Literal[".toList
        ((Text.after? "typing.".toList (name ++ '[' :: (body ++ [']']))).getD
          (name ++ '[' :: (body ++ [']']))) = some (body ++ [']']) := by
      rw [Text.after?_eq_some_iff]
      obtain rfl | rfl : name = "Literal".toList ∨ name = "typing.Literal".toList := by
        simpa [literalNames] using hname
      · have htyping : Text.after? "typing.".toList
            ("Literal".toList ++ '[' :: (body ++ [']'])) = none := rfl
        rw [htyping, Option.getD_none]
        rfl
      · have htyping : Text.after? "typing.".toList
            ("typing.Literal".toList ++ '[' :: (body ++ [']'])) =
              some ("Literal".toList ++ '[' :: (body ++ [']'])) :=
          Text.after?_eq_some_iff.2 rfl
        rw [htyping, Option.getD_some]
        rfl
    rw [literalBody?, hbracketed]
    simp [hline]

theorem exists_of_literalBody?_eq_some {s body : Text} (h : literalBody? s = some body) :
    ∃ name ∈ literalNames, s = name ++ '[' :: (body ++ [']']) :=
  (literalBody?_eq_some_iff.1 h).1

/-- A closed set ends with a square bracket. -/
theorem literalBody?_eq_none {s : Text} (h : s.getLast? ≠ some ']') : literalBody? s = none := by
  rw [Option.eq_none_iff_forall_ne_some]
  intro body hbody
  obtain ⟨name, -, rfl⟩ := exists_of_literalBody?_eq_some hbody
  rw [← List.cons_append, ← List.append_assoc, List.getLast?_concat] at h
  exact h rfl

/-- A type text is read as a closed set or by its name. -/
theorem ofText?_cases {s : Text} (htrim : Text.trim s = s) (hne : s ≠ []) :
    (∃ body values, literalBody? s = some body ∧ ofText? s = some (literal values)) ∨
      ofText? s = some (named (String.ofList s)) := by
  have hempty : ¬ s.isEmpty = true := by simpa using hne
  rw [ofText?, htrim, if_neg hempty]
  cases hbody : literalBody? s with
  | none => exact .inr rfl
  | some body =>
    rw [Option.map_some]
    cases quotedStrings body with
    | nil => exact .inr rfl
    | cons value values => exact .inl ⟨body, _, rfl, rfl⟩

theorem ofText?_ne_literal_nil (text : Text) : ofText? text ≠ some (literal []) := by
  intro h
  unfold ofText? at h
  dsimp only at h
  split at h
  · cases h
  · split at h
    · cases h
    · cases h

/-! ### JSON schemas -/

theorem StatesSet.ne_nil {schema : Json} {values : List String} (h : StatesSet schema values) :
    values ≠ [] := by
  cases h with
  | @allowed items henum hitems =>
    obtain ⟨value, hvalue⟩ := hitems.exists_string
    exact List.ne_nil_of_mem (List.mem_filterMap.2 ⟨_, hvalue, rfl⟩)
  | constant => exact List.cons_ne_nil _ _

/-- No JSON schema gives the closed set of no strings. -/
theorem ofSchema?_ne_literal_nil (schema : Json) : ofSchema? schema ≠ some (literal []) := by
  induction schema using Json.alternatives_induction with
  | h schema ih =>
    intro h
    obtain ⟨values, hset, hliteral⟩ | ⟨key, -, hunion⟩ | ⟨name, -, hnamed⟩ := ofSchema?_eq_some h
    · exact hset.ne_nil (literal.inj hliteral).symm
    · obtain ⟨sets, hne, hsets, hitems, hvalues⟩ := hunion.exists_sets
      -- the first of the sets that are joined has a string for the union
      obtain ⟨part, hpart⟩ := List.exists_mem_of_ne_nil sets hne
      have hempty : part.2 = [] := List.flatMap_eq_nil_iff.1 hvalues.symm part hpart
      have hhint := hsets part hpart
      rw [hempty] at hhint
      exact ih key part.1 (hitems ▸ List.mem_map_of_mem hpart) hhint
    · cases hnamed

theorem Derived.ne_literal_nil {hint : TypeHint} (h : hint.Derived) : hint ≠ literal [] := by
  rintro rfl
  obtain ⟨schema, hschema⟩ | ⟨text, htext⟩ := h
  · exact ofSchema?_ne_literal_nil schema hschema
  · exact ofText?_ne_literal_nil text htext

/-- The allowed strings of a derived hint are at least one, and they are of the kind of strings. -/
theorem Derived.of_choices? {hint : TypeHint} {values : List String} (h : hint.Derived)
    (hvalues : hint.choices? = some values) : hint.kind? = some .string ∧ values ≠ [] := by
  cases hint with
  | named text => cases hvalues
  | literal strings =>
    obtain rfl := Option.some.inj hvalues
    refine ⟨kind?_literal _, ?_⟩
    rintro rfl
    exact h.ne_literal_nil rfl

end CallSchema.TypeHint
