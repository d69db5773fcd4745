import CallSchema.Proofs.Schema.Assembly
import Mathlib.Data.List.Dedup
import Mathlib.Data.List.Induction

/-!
# Building a schema step by step

A schema is built from its name by setting its description and adding parameters, as often and
under such names as one likes. A parameter whose name is taken replaces the earlier one: its
property stays where it is, but its name moves to the end of the required names or leaves them.
`Schema.Built` says what the schema is after any steps, `Schema.Built.step` that one more step keeps
this so, and `Schema.built_build` what follows for every run.

## Main definitions

* `Schema.Step`, `Schema.step`, `Schema.build` -- the steps, and the schema that they build
* `Schema.lastAdded?` -- the last parameter that was added under a name
* `Schema.Built` -- the schema that steps have to build
-/

namespace CallSchema

namespace Schema

/-- One step in building a schema. -/
inductive Step where
  | describe (text : String)
  | add (param : DescribedParam)
deriving DecidableEq

namespace Step

def text? : Step → Option String
  | describe text => some text
  | add _ => none

def param? : Step → Option DescribedParam
  | describe _ => none
  | add param => some param

end Step

def step (schema : Schema) : Step → Schema
  | .describe text => schema.withDescription text
  | .add param => schema.addParam param

/-- The schema that steps build from a name. -/
def build (name : String) (steps : List Step) : Schema :=
  steps.foldl step { name }

/-! ### What has been added -/

/-- The names of the added parameters, with repetitions. -/
def addedNames (steps : List Step) : List String :=
  (steps.filterMap Step.param?).map DescribedParam.name

/-- The last parameter that was added under a name. -/
def lastAdded? (steps : List Step) (name : String) : Option DescribedParam :=
  ((steps.filterMap Step.param?).filter (·.name = name)).getLast?

/-- The last description that was set. -/
def lastText? (steps : List Step) : Option String :=
  (steps.filterMap Step.text?).getLast?

/-- The schema that steps have to build. -/
structure Built (name : String) (steps : List Step) (schema : Schema) : Prop where
  name_eq : schema.name = name
  kind_eq : schema.parameters.kind = .object
  description_eq : schema.description = (lastText? steps).getD ""
  /-- The properties are in the order in which their names were first added. -/
  names_eq : schema.parameters.properties.names = (addedNames steps).eraseDups
  /-- The required names are in the order in which they were last added. -/
  required_eq : schema.parameters.required =
    (addedNames steps).dedup.filter fun n => (lastAdded? steps n).any DescribedParam.isRequired
  get?_eq : ∀ n, schema.parameters.properties.get? n = (lastAdded? steps n).map .ofParam

variable {name : String} {steps : List Step} {schema : Schema}

/-! ### One more addition -/

section Concat

variable {α : Type} [DecidableEq α] (as : List α) (a : α)

theorem eraseDups_concat :
    (as ++ [a]).eraseDups = if a ∈ as then as.eraseDups else as.eraseDups ++ [a] := by
  have hremove : [a].removeAll as = if a ∈ as then [] else [a] := by
    change [a].filter (fun b => !as.elem b) = _
    rw [List.filter_singleton]
    by_cases h : a ∈ as <;> simp [h]
  rw [List.eraseDups_append, hremove]
  split
  · rw [List.eraseDups_nil, List.append_nil]
  · rw [List.eraseDups_cons, List.filter_nil, List.eraseDups_nil]

theorem dedup_concat : (as ++ [a]).dedup = as.dedup.filter (· ≠ a) ++ [a] := by
  induction as with
  | nil => rfl
  | cons b as ih =>
    rw [List.cons_append]
    by_cases hb : b ∈ as
    · rw [List.dedup_cons_of_mem (List.mem_append_left [a] hb), List.dedup_cons_of_mem hb, ih]
    · rw [List.dedup_cons_of_notMem hb]
      by_cases hba : b = a
      · rw [List.dedup_cons_of_mem (by simp [hba]), List.filter_cons_of_neg (by simp [hba]), ih]
      · rw [List.dedup_cons_of_notMem (by simp [hb, hba]), List.filter_cons_of_pos (by simp [hba]),
          ih, List.cons_append]

end Concat

theorem addedNames_concat_add (steps : List Step) (param : DescribedParam) :
    addedNames (steps ++ [.add param]) = addedNames steps ++ [param.name] := by
  simp [addedNames, Step.param?]

/-- The last parameter of a name is the one just added, if it has that name. -/
theorem lastAdded?_concat_add (steps : List Step) (param : DescribedParam) (n : String) :
    lastAdded? (steps ++ [.add param]) n =
      if n = param.name then some param else lastAdded? steps n := by
  have hadded : (steps ++ [Step.add param]).filterMap Step.param? =
      steps.filterMap Step.param? ++ [param] := by simp [Step.param?]
  rw [lastAdded?, lastAdded?, hadded, List.filter_append, List.getLast?_append]
  by_cases h : n = param.name
  · simp [h]
  · have h' : param.name ≠ n := fun e => h e.symm
    simp [h, h']

theorem lastAdded?_eq_none_iff {n : String} :
    lastAdded? steps n = none ↔ n ∉ addedNames steps := by
  simp [lastAdded?, addedNames]

/-! ### Single steps -/

/-- The required names after an addition, whether it replaces a parameter or not. -/
theorem required_add_eq {schema : ParameterSchema} (param : DescribedParam)
    (h : ∀ n ∈ schema.required, n ∈ schema.properties.names) :
    (schema.add param).required =
      schema.required.filter (· ≠ param.name) ++ if param.isRequired then [param.name] else [] := by
  have hothers : (if (schema.properties.get? param.name).isSome then
      schema.required.filter (· ≠ param.name) else schema.required) =
        schema.required.filter (· ≠ param.name) := by
    split
    · rfl
    · next hnew =>
      rw [Table.isSome_get?_iff] at hnew
      refine (List.filter_eq_self.2 fun n hn => ?_).symm
      simpa using fun heq : n = param.name => hnew (heq ▸ h n hn)
  rw [ParameterSchema.add, hothers]
  split <;> simp

theorem Built.required_subset (h : Built name steps schema) :
    ∀ n ∈ schema.parameters.required, n ∈ schema.parameters.properties.names := by
  intro n hn
  rw [h.required_eq, List.mem_filter, List.mem_dedup] at hn
  rw [h.names_eq, List.mem_eraseDups]
  exact hn.1

/-- A new description leaves the parameters alone. -/
theorem Built.describe (h : Built name steps schema) (text : String) :
    Built name (steps ++ [.describe text]) (schema.withDescription text) := by
  have hadded : (steps ++ [Step.describe text]).filterMap Step.param? =
      steps.filterMap Step.param? := by simp [Step.param?]
  refine ⟨h.name_eq, h.kind_eq, ?_, ?_, ?_, ?_⟩
  · simp [lastText?, Step.text?, withDescription]
  · rw [addedNames, hadded]
    exact h.names_eq
  · simp only [addedNames, lastAdded?, hadded]
    exact h.required_eq
  · intro n
    rw [lastAdded?, hadded]
    exact h.get?_eq n

/-- An addition puts a new name at the end of the properties and leaves a known one in its place,
    whereas in the required names it always goes to the end. -/
theorem Built.addParam (h : Built name steps schema) (param : DescribedParam) :
    Built name (steps ++ [.add param]) (schema.addParam param) := by
  refine ⟨h.name_eq, h.kind_eq, ?_, ?_, ?_, ?_⟩
  · have htext : (steps ++ [Step.add param]).filterMap Step.text? =
        steps.filterMap Step.text? := by simp [Step.text?]
    rw [lastText?, htext]
    exact h.description_eq
  · change (schema.parameters.add param).properties.names = _
    rw [ParameterSchema.properties_add, Table.names_insert, addedNames_concat_add,
      eraseDups_concat, h.names_eq]
    simp only [List.mem_eraseDups]
  · change (schema.parameters.add param).required = _
    rw [required_add_eq param h.required_subset, h.required_eq, addedNames_concat_add, dedup_concat,
      List.filter_append, List.filter_filter, List.filter_filter]
    congr 1
    · -- apart from the added name, each name has the last parameter that it had
      refine List.filter_congr fun n _ => ?_
      rw [lastAdded?_concat_add]
      by_cases hn : n = param.name
      · simp [hn]
      · simp [hn]
    · rw [List.filter_singleton, lastAdded?_concat_add, if_pos rfl, Option.any_some, cond_eq_ite]
  · intro n
    change (schema.parameters.add param).properties.get? n = _
    rw [ParameterSchema.get?_properties_add, lastAdded?_concat_add, h.get?_eq]
    split <;> rfl

theorem Built.step (h : Built name steps schema) (s : Step) :
    Built name (steps ++ [s]) (schema.step s) := by
  cases s with
  | describe text => exact h.describe text
  | add param => exact h.addParam param

/-! ### Whole runs -/

theorem build_concat (name : String) (steps : List Step) (s : Step) :
    build name (steps ++ [s]) = (build name steps).step s := by
  rw [build, build, List.foldl_append, List.foldl_cons, List.foldl_nil]

theorem built_run (name : String) (steps : List Step) : Built name steps (build name steps) := by
  -- on the steps from the last one backwards: each adds to what the earlier ones have built
  induction steps using List.reverseRecOn with
  | nil => exact ⟨rfl, rfl, rfl, rfl, rfl, fun _ => rfl⟩
  | append_singleton steps s ih =>
    rw [build_concat]
    exact ih.step s

/-- **Building**: whatever the steps are, the properties have distinct names, in the order of their
    first additions; the required names are distinct names of properties, namely of those whose
    last parameter has no default, in the order of their last additions; and each property is that
    of the last parameter of its name. -/
theorem built_build (name : String) (steps : List Step) :
    let schema := build name steps
    Built name steps schema ∧ schema.parameters.properties.names.Nodup ∧
      schema.parameters.required.Nodup ∧
      (∀ n ∈ schema.parameters.required, n ∈ schema.parameters.properties.names) ∧
      ∀ n, n ∈ schema.parameters.required ↔
        ∃ param, lastAdded? steps n = some param ∧ param.hasDefault = false := by
  intro schema
  have hbuilt : Built name steps schema := built_run name steps
  refine ⟨hbuilt, Table.nodup_names _, ?_, hbuilt.required_subset, fun n => ?_⟩
  · rw [hbuilt.required_eq]
    exact (List.nodup_dedup _).filter _
  · rw [hbuilt.required_eq, List.mem_filter, List.mem_dedup]
    constructor
    · rintro ⟨-, hlast⟩
      obtain ⟨param, hparam, hrequired⟩ := Option.any_eq_true _ _ |>.1 hlast
      exact ⟨param, hparam, by simpa [DescribedParam.isRequired] using hrequired⟩
    · rintro ⟨param, hparam, hdefault⟩
      refine ⟨?_, by rw [hparam]; simp [DescribedParam.isRequired, hdefault]⟩
      by_contra hn
      rw [lastAdded?_eq_none_iff.2 hn] at hparam
      cases hparam

end Schema

end CallSchema
