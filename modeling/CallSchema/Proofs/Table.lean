import CallSchema.Table
import Mathlib.Data.List.Nodup

/-!
# Tables through their names and values

A name has a value exactly when it is listed, and a change of a new name adds an entry at the end,
as do changes of several new names in turn.
-/

namespace CallSchema.Table

variable {α β : Type}

theorem get?_eq_none_iff {t : Table β} {name : String} : t.get? name = none ↔ name ∉ t.names := by
  rw [get?, names, List.lookup_eq_none_iff, List.mem_map, not_exists]
  refine forall_congr' fun e => ?_
  rw [bne_iff_ne, not_and]
  exact ⟨fun h he hname => h he hname.symm, fun h he hname => h he hname.symm⟩

/-- Exactly the listed names have a value. -/
theorem isSome_get?_iff {t : Table β} {name : String} :
    (t.get? name).isSome = true ↔ name ∈ t.names := by
  rw [Option.isSome_iff_ne_none, ne_eq, get?_eq_none_iff, not_not]

/-- An entry gives its name its value. -/
theorem get?_of_mem {t : Table β} {name : String} {v : β} (h : (name, v) ∈ t.entries) :
    t.get? name = some v := by
  obtain ⟨before, rest, hsplit⟩ := List.append_of_mem h
  have hdistinct := t.distinct
  rw [hsplit, List.map_append, List.map_cons, List.nodup_middle, List.nodup_cons] at hdistinct
  refine List.lookup_eq_some_iff.2 ⟨before, rest, hsplit, fun e he => ?_⟩
  rw [bne_iff_ne]
  rintro rfl
  exact hdistinct.1 (List.mem_append_left _ (List.mem_map.2 ⟨e, he, rfl⟩))

theorem alterEntries_of_not_mem {name : String} {es : List (String × β)} (f : Option β → β)
    (h : name ∉ es.map Prod.fst) : alterEntries name f es = es ++ [(name, f none)] := by
  induction es with
  | nil => rfl
  | cons e es ih =>
    obtain ⟨n, v⟩ := e
    rw [List.map_cons, List.mem_cons, not_or] at h
    rw [alterEntries, if_neg fun hn => h.1 hn.symm, ih h.2, List.cons_append]

/-- A new name gets the last entry. -/
theorem entries_alter_of_not_mem {t : Table β} {name : String} (f : Option β → β)
    (h : name ∉ t.names) : (t.alter name f).entries = t.entries ++ [(name, f none)] :=
  alterEntries_of_not_mem f h

theorem names_insert_of_not_mem {t : Table β} {name : String} (v : β) (h : name ∉ t.names) :
    (t.insert name v).names = t.names ++ [name] := by
  rw [names_insert, if_neg h]

theorem names_insert_of_mem {t : Table β} {name : String} (v : β) (h : name ∈ t.names) :
    (t.insert name v).names = t.names := by
  rw [names_insert, if_pos h]

/-- A name may be given the value that it has. -/
theorem insert_eq_self {t : Table β} {name : String} {v : β} (h : t.get? name = some v) :
    t.insert name v = t := by
  apply Table.ext
  change t.entries.lookup name = some v at h
  change alterEntries name _ t.entries = t.entries
  generalize t.entries = es at h
  induction es with
  | nil => cases h
  | cons e es ih =>
    obtain ⟨n, w⟩ := e
    by_cases hn : n = name
    · subst hn
      simp only [List.lookup_cons, beq_self_eq_true, Option.some.injEq] at h
      rw [alterEntries, if_pos rfl, h]
    · have hne : (name == n) = false := beq_eq_false_iff_ne.2 fun heq => hn heq.symm
      simp only [List.lookup_cons, hne] at h
      rw [alterEntries, if_neg hn, ih h]

/-- Two changes of one name are one change. -/
theorem alter_alter (t : Table β) (name : String) (f g : Option β → β) :
    (t.alter name f).alter name g = t.alter name fun old => g (some (f old)) := by
  apply Table.ext
  change alterEntries name g (alterEntries name f t.entries) = alterEntries name _ t.entries
  induction t.entries with
  | nil => simp [alterEntries]
  | cons e es ih =>
    obtain ⟨n, v⟩ := e
    by_cases h : n = name
    · simp [alterEntries, h]
    · simp [alterEntries, h, ih]

/-- Values for distinct names that are new to a table go to its end, in order. -/
theorem entries_foldl_alter {items : List α} {name : α → String} {value : α → Option β → β}
    (t : Table β) (hdistinct : (items.map name).Nodup) (hnew : ∀ a ∈ items, name a ∉ t.names) :
    (items.foldl (fun t a => t.alter (name a) (value a)) t).entries =
      t.entries ++ items.map fun a => (name a, value a none) := by
  induction items generalizing t with
  | nil => simp
  | cons a items ih =>
    rw [List.map_cons, List.nodup_cons] at hdistinct
    have ha := hnew a List.mem_cons_self
    have hnext : ∀ b ∈ items, name b ∉ (t.alter (name a) (value a)).names := by
      intro b hb
      rw [names_alter, if_neg ha, List.mem_append, List.mem_singleton, not_or]
      refine ⟨hnew b (List.mem_cons_of_mem a hb), fun heq => hdistinct.1 ?_⟩
      exact heq ▸ List.mem_map_of_mem hb
    rw [List.foldl_cons, ih _ hdistinct.2 hnext, entries_alter_of_not_mem _ ha, List.map_cons,
      List.append_assoc, List.singleton_append]

/-- A table is the table of its entries. -/
theorem ofList_entries (t : Table β) : ofList t.entries = t := by
  apply Table.ext
  show (t.entries.foldl (fun t e => t.alter e.1 fun _ => e.2) empty).entries = t.entries
  rw [entries_foldl_alter empty t.distinct fun e _ => List.not_mem_nil]
  exact List.map_id _

end CallSchema.Table
