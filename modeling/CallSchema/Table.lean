/-!
# Tables in insertion order

A `Table` gives values to names. It remembers the order in which the names were first given a
value, and a later value for the same name stays at the place of the first one. What can be seen
of a table is its list of names and the value `get?` of each of them.

## Main definitions

* `Table` -- a list of named values with distinct names
* `Table.get?`, `Table.names` -- the value of a name, and the names in order
* `Table.alter` -- gives a name a value computed from the value that it has
* `Table.insert` -- gives a name a value
-/

namespace CallSchema

/-- Named values in the order in which the names were first given one. -/
structure Table (β : Type) where
  entries : List (String × β)
  distinct : (entries.map Prod.fst).Nodup
deriving DecidableEq

namespace Table

variable {β : Type}

@[ext] theorem ext {t u : Table β} (h : t.entries = u.entries) : t = u := by
  cases t; cases u; cases h; rfl

def empty : Table β :=
  ⟨[], List.nodup_nil⟩

instance : Inhabited (Table β) := ⟨empty⟩

/-- The names in the order of their first value. -/
def names (t : Table β) : List String :=
  t.entries.map Prod.fst

/-- The value of a name. -/
def get? (t : Table β) (name : String) : Option β :=
  t.entries.lookup name

/-- Gives `name` the value `f old`, where `old` is the value that it has in the list; a new name
    goes to the end. -/
def alterEntries (name : String) (f : Option β → β) : List (String × β) → List (String × β)
  | [] => [(name, f none)]
  | (n, v) :: rest =>
    if n = name then (n, f (some v)) :: rest else (n, v) :: alterEntries name f rest

/-- The names after a change: a name that was there keeps its place. -/
theorem map_fst_alterEntries (name : String) (f : Option β → β) (es : List (String × β)) :
    (alterEntries name f es).map Prod.fst =
      if name ∈ es.map Prod.fst then es.map Prod.fst else es.map Prod.fst ++ [name] := by
  induction es with
  | nil => simp [alterEntries]
  | cons e es ih =>
    obtain ⟨n, v⟩ := e
    by_cases h : n = name
    · simp [alterEntries, h]
    · by_cases hm : name ∈ es.map Prod.fst
      · rw [if_pos hm] at ih
        rw [if_pos (by simp only [List.map_cons, List.mem_cons]; exact .inr hm)]
        simp [alterEntries, h, ih]
      · rw [if_neg hm] at ih
        rw [if_neg (by
          simp only [List.map_cons, List.mem_cons, not_or]
          exact ⟨fun e => h e.symm, hm⟩)]
        simp [alterEntries, h, ih]

theorem nodup_alterEntries (name : String) (f : Option β → β) {es : List (String × β)}
    (h : (es.map Prod.fst).Nodup) : ((alterEntries name f es).map Prod.fst).Nodup := by
  rw [map_fst_alterEntries]
  split
  · exact h
  · next hm =>
    rw [List.nodup_append]
    refine ⟨h, by simp, ?_⟩
    rintro a ha b hb rfl
    exact hm (List.mem_singleton.1 hb ▸ ha)

theorem lookup_alterEntries (name other : String) (f : Option β → β) (es : List (String × β)) :
    (alterEntries name f es).lookup other =
      if other = name then some (f (es.lookup name)) else es.lookup other := by
  induction es with
  | nil =>
    by_cases h : other = name
    · simp [alterEntries, h]
    · simp [alterEntries, List.lookup_cons, h, beq_eq_false_iff_ne.2 h]
  | cons e es ih =>
    obtain ⟨n, v⟩ := e
    by_cases hn : n = name
    · subst hn
      by_cases h : other = n
      · simp [alterEntries, h]
      · simp [alterEntries, List.lookup_cons, h, beq_eq_false_iff_ne.2 h]
    · have hn' : (name == n) = false := beq_eq_false_iff_ne.2 fun e => hn e.symm
      by_cases h : other = n
      · subst h
        simp [alterEntries, hn]
      · simp [alterEntries, List.lookup_cons, hn, hn', beq_eq_false_iff_ne.2 h, ih]

/-- Gives `name` the value `f old`, where `old` is the value that it has so far. -/
def alter (t : Table β) (name : String) (f : Option β → β) : Table β :=
  ⟨alterEntries name f t.entries, nodup_alterEntries name f t.distinct⟩

/-- Gives `name` the value `v`. -/
def insert (t : Table β) (name : String) (v : β) : Table β :=
  t.alter name fun _ => v

/-- The table that takes the given values in turn. -/
def ofList (es : List (String × β)) : Table β :=
  es.foldl (fun t e => t.insert e.1 e.2) empty

@[simp] theorem names_empty : (empty : Table β).names = [] := rfl

theorem nodup_names (t : Table β) : t.names.Nodup := t.distinct

/-- A name that has a value keeps its place, and a new name goes to the end. -/
theorem names_alter (t : Table β) (name : String) (f : Option β → β) :
    (t.alter name f).names = if name ∈ t.names then t.names else t.names ++ [name] :=
  map_fst_alterEntries name f t.entries

/-- Only the value of the given name changes. -/
theorem get?_alter (t : Table β) (name other : String) (f : Option β → β) :
    (t.alter name f).get? other =
      if other = name then some (f (t.get? name)) else t.get? other :=
  lookup_alterEntries name other f t.entries

theorem names_insert (t : Table β) (name : String) (v : β) :
    (t.insert name v).names = if name ∈ t.names then t.names else t.names ++ [name] :=
  names_alter t name _

theorem get?_insert (t : Table β) (name other : String) (v : β) :
    (t.insert name v).get? other = if other = name then some v else t.get? other :=
  get?_alter t name other _

end Table

end CallSchema
