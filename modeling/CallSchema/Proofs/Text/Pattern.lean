import CallSchema.Text.Blank
import Mathlib.Data.List.TakeWhile

/-!
# Patterns with groups

A pattern can match the start of a text in several ways. `TextPattern.ways` lists them in the order
in which they are tried: a greedy run is longest first and any other run shortest first, and what is
optional is tried before it is left out. `TextPattern.groups?` takes the first way that uses up the
whole text, and gives the texts of the groups there.

Which texts a pattern matches does not depend on the order, only what the groups get. The lemmas
here open a sequence from the front: what is left to match is always one pattern on the rest of the
text.

## Main definitions

* `TextPattern` -- the syntax of patterns
* `TextPattern.Way` -- what a way to match takes, notes and leaves
* `TextPattern.ways` -- the ways to match the start of a text, in order
* `TextPattern.groups?` -- the groups of the first way that matches the whole text
-/

namespace CallSchema

inductive TextPattern where
  /-- One character of a class. -/
  | one (accepts : Char → Bool)
  /-- At least `least` characters of a class. -/
  | many (greedy : Bool) (least : Nat) (accepts : Char → Bool)
  /-- One pattern behind another one. -/
  | seq (first second : TextPattern)
  /-- A pattern, or else nothing. -/
  | optional (body : TextPattern)
  /-- A pattern whose text is noted under a number. -/
  | group (number : Nat) (body : TextPattern)

namespace TextPattern

/-- A way to match the start of a text. -/
structure Way where
  taken : Text
  /-- The texts of the groups, by their numbers. -/
  groups : List (Nat × Text) := []
  rest : Text

/-- One way behind another one. -/
def Way.append (first second : Way) : Way :=
  ⟨first.taken ++ second.taken, first.groups ++ second.groups, second.rest⟩

/-- The way with its text noted as a group. -/
def Way.note (number : Nat) (way : Way) : Way :=
  ⟨way.taken, (number, way.taken) :: way.groups, way.rest⟩

/-- The runs of a class at the start of a text, shortest first. -/
def runs (accepts : Char → Bool) : Text → List Way
  | [] => [{ taken := [], rest := [] }]
  | c :: s =>
    { taken := [], rest := c :: s } ::
      if accepts c then (runs accepts s).map fun way => { way with taken := c :: way.taken } else []

/-- The ways to match the start of a text, in the order in which they are tried. -/
def ways : TextPattern → Text → List Way
  | one _, [] => []
  | one accepts, c :: s => if accepts c then [{ taken := [c], rest := s }] else []
  | many greedy least accepts, s =>
    let long := (runs accepts s).filter (least ≤ ·.taken.length)
    if greedy then long.reverse else long
  | seq first second, s => (first.ways s).flatMap fun way => (second.ways way.rest).map way.append
  | optional body, s => body.ways s ++ [{ taken := [], rest := s }]
  | group number body, s => (body.ways s).map (Way.note number)

/-- The groups of the first way that matches the whole text. -/
def groups? (p : TextPattern) (s : Text) : Option (List (Nat × Text)) :=
  (p.ways s).findSome? fun way => if way.rest.isEmpty then some way.groups else none

variable {p q : TextPattern} {s : Text} {way : Way} {accepts : Char → Bool} {greedy : Bool}
  {least number : Nat} {groups : List (Nat × Text)}

/-! ### Runs -/

theorem mem_runs_cons_iff {c : Char} :
    way ∈ runs accepts (c :: s) ↔ way = { taken := [], rest := c :: s } ∨
      accepts c = true ∧ ∃ tail ∈ runs accepts s, { tail with taken := c :: tail.taken } = way := by
  rw [runs, List.mem_cons]
  by_cases hc : accepts c = true
  · simp [hc]
  · simp [hc]

theorem mem_runs_iff :
    way ∈ runs accepts s ↔
      s = way.taken ++ way.rest ∧ (∀ c ∈ way.taken, accepts c = true) ∧ way.groups = [] := by
  constructor
  · intro h
    induction s generalizing way with
    | nil =>
      obtain rfl := List.mem_singleton.1 h
      exact ⟨rfl, List.forall_mem_nil _, rfl⟩
    | cons c s ih =>
      obtain rfl | ⟨hc, tail, htail, rfl⟩ := mem_runs_cons_iff.1 h
      · exact ⟨rfl, List.forall_mem_nil _, rfl⟩
      · obtain ⟨hs, htaken, hgroups⟩ := ih htail
        exact ⟨congrArg (c :: ·) hs, List.forall_mem_cons.2 ⟨hc, htaken⟩, hgroups⟩
  · obtain ⟨taken, noted, rest⟩ := way
    rintro ⟨rfl, htaken, rfl⟩
    induction taken with
    | nil =>
      cases rest with
      | nil => exact List.mem_singleton.2 rfl
      | cons c rest => exact mem_runs_cons_iff.2 (.inl rfl)
    | cons c taken ih =>
      obtain ⟨hc, htaken⟩ := List.forall_mem_cons.1 htaken
      exact mem_runs_cons_iff.2 (.inr ⟨hc, _, ih htaken, rfl⟩)

/-- The first success with a run is the one at the place before which there is none. -/
theorem findSome?_runs {β : Type} {f : Way → Option β} {b : β} {taken rest : Text}
    (htaken : ∀ c ∈ taken, accepts c = true) (hb : f { taken := taken, rest := rest } = some b)
    (hearlier : ∀ before after, taken = before ++ after → after ≠ [] →
      f { taken := before, rest := after ++ rest } = none) :
    (runs accepts (taken ++ rest)).findSome? f = some b := by
  induction taken generalizing f with
  | nil =>
    cases rest with
    | nil => rw [List.append_nil, runs, List.findSome?_cons, hb]
    | cons c rest => rw [List.nil_append, runs, List.findSome?_cons, hb]
  | cons c taken ih =>
    obtain ⟨hc, htaken⟩ := List.forall_mem_cons.1 htaken
    have hnone := hearlier [] (c :: taken) rfl (List.cons_ne_nil c taken)
    rw [List.cons_append] at hnone
    rw [List.cons_append, runs, if_pos hc, List.findSome?_cons, hnone, List.findSome?_map]
    exact ih htaken hb fun before after hsplit =>
      hearlier (c :: before) after (congrArg (c :: ·) hsplit)

/-- The longest run is the last one of the list. -/
theorem getLast?_runs (accepts : Char → Bool) (s : Text) :
    (runs accepts s).getLast? =
      some { taken := s.takeWhile accepts, rest := s.dropWhile accepts } := by
  induction s with
  | nil => rfl
  | cons c s ih =>
    rw [runs]
    by_cases hc : accepts c = true
    · rw [if_pos hc, List.takeWhile_cons_of_pos hc, List.dropWhile_cons_of_pos hc,
        List.getLast?_cons, List.getLast?_map, ih]
      rfl
    · rw [if_neg hc, List.takeWhile_cons_of_neg hc, List.dropWhile_cons_of_neg hc]
      rfl

theorem mem_ways_many_iff :
    way ∈ (many greedy least accepts).ways s ↔
      s = way.taken ++ way.rest ∧ (∀ c ∈ way.taken, accepts c = true) ∧
        least ≤ way.taken.length ∧ way.groups = [] := by
  have horder : ∀ long : List Way, way ∈ (if greedy then long.reverse else long) ↔ way ∈ long := by
    intro long
    split
    · exact List.mem_reverse
    · exact Iff.rfl
  rw [ways, horder, List.mem_filter, mem_runs_iff, decide_eq_true_eq]
  simp only [and_assoc, and_comm (a := way.groups = [])]

/-- The longest run is the first one that a greedy pattern tries. -/
theorem head?_ways_many (hleast : least ≤ (s.takeWhile accepts).length) :
    ((many true least accepts).ways s).head? =
      some { taken := s.takeWhile accepts, rest := s.dropWhile accepts } := by
  obtain ⟨shorter, hruns⟩ := List.getLast?_eq_some_iff.1 (getLast?_runs accepts s)
  rw [ways, if_pos rfl, hruns, List.filter_append, List.filter_cons_of_pos (by simpa using hleast),
    List.reverse_append]
  rfl

/-! ### The ways of compound patterns -/

theorem mem_ways_one_iff :
    way ∈ (one accepts).ways s ↔
      ∃ c rest, s = c :: rest ∧ accepts c = true ∧ way = { taken := [c], rest := rest } := by
  cases s with
  | nil => simp [ways]
  | cons c s =>
    rw [ways]
    by_cases hc : accepts c = true
    · rw [if_pos hc, List.mem_singleton]
      constructor
      · rintro rfl
        exact ⟨c, s, rfl, hc, rfl⟩
      · rintro ⟨c, s, heq, -, rfl⟩
        obtain ⟨rfl, rfl⟩ := List.cons.inj heq
        rfl
    · simp [hc]

theorem mem_ways_seq_iff :
    way ∈ (p.seq q).ways s ↔
      ∃ first ∈ p.ways s, ∃ second ∈ q.ways first.rest, first.append second = way := by
  rw [ways, List.mem_flatMap]
  simp only [List.mem_map]

theorem mem_ways_optional_iff :
    way ∈ (optional p).ways s ↔ way ∈ p.ways s ∨ way = { taken := [], rest := s } := by
  rw [ways, List.mem_append, List.mem_singleton]

/-! ### Sequences from the front -/

/-- The first success with a sequence is the first one with its first pattern from which the second
    one comes to a success. -/
theorem findSome?_ways_seq {α : Type} (f : Way → Option α) (p q : TextPattern) (s : Text) :
    ((p.seq q).ways s).findSome? f =
      (p.ways s).findSome? fun way => (q.ways way.rest).findSome? (f ∘ way.append) := by
  rw [ways]
  induction p.ways s with
  | nil => rfl
  | cons way later ih =>
    rw [List.flatMap_cons, List.findSome?_append, List.findSome?_map, ih, List.findSome?_cons]
    cases (q.ways way.rest).findSome? (f ∘ way.append) <;> rfl

theorem groups?_seq (p q : TextPattern) (s : Text) :
    (p.seq q).groups? s =
      (p.ways s).findSome? fun way => (q.groups? way.rest).map (way.groups ++ ·) := by
  rw [groups?, findSome?_ways_seq]
  congr 1
  funext way
  rw [groups?, List.map_findSome?]
  congr 1
  funext way'
  by_cases hrest : way'.rest = []
  · simp [Way.append, hrest]
  · simp [Way.append, hrest]

theorem groups?_seq_assoc (p q r : TextPattern) (s : Text) :
    ((p.seq q).seq r).groups? s = (p.seq (q.seq r)).groups? s := by
  rw [groups?_seq, findSome?_ways_seq, groups?_seq]
  congr 1
  funext way
  rw [groups?_seq, List.map_findSome?]
  congr 1
  funext way'
  simp only [Function.comp_apply, Way.append, Option.map_map]
  congr 1
  funext groups
  exact List.append_assoc _ _ _

/-- What is optional is left out only when nothing comes of it. -/
theorem groups?_optional_seq (p q : TextPattern) (s : Text) :
    ((optional p).seq q).groups? s = ((p.seq q).groups? s).or (q.groups? s) := by
  rw [groups?_seq, groups?_seq, ways, List.findSome?_append, List.findSome?_singleton]
  simp only [List.nil_append, Option.map_id']

theorem groups?_one_seq_cons {c : Char} (hc : accepts c = true) :
    ((one accepts).seq q).groups? (c :: s) = q.groups? s := by
  rw [groups?_seq, ways, if_pos hc, List.findSome?_singleton]
  exact Option.map_id'

theorem groups?_one_seq_of_eq_some (h : ((one accepts).seq q).groups? s = some groups) :
    ∃ c rest, s = c :: rest ∧ accepts c = true ∧ q.groups? rest = some groups := by
  cases s with
  | nil => cases h
  | cons c s =>
    by_cases hc : accepts c = true
    · rw [groups?_one_seq_cons hc] at h
      exact ⟨c, s, rfl, hc, h⟩
    · rw [groups?_seq, ways, if_neg hc] at h
      cases h

theorem groups?_char_seq (c : Char) (q : TextPattern) (s : Text) :
    ((one (· == c)).seq q).groups? (c :: s) = q.groups? s :=
  groups?_one_seq_cons (beq_self_eq_true c)

theorem groups?_char_seq_of_eq_some {c : Char}
    (h : ((one (· == c)).seq q).groups? s = some groups) :
    ∃ rest, s = c :: rest ∧ q.groups? rest = some groups := by
  obtain ⟨d, rest, rfl, hd, hrest⟩ := groups?_one_seq_of_eq_some h
  obtain rfl := beq_iff_eq.1 hd
  exact ⟨rest, rfl, hrest⟩

theorem groups?_many_seq_of_eq_some
    (h : ((many greedy least accepts).seq q).groups? s = some groups) :
    ∃ taken rest, s = taken ++ rest ∧ (∀ c ∈ taken, accepts c = true) ∧ least ≤ taken.length ∧
      q.groups? rest = some groups := by
  rw [groups?_seq] at h
  obtain ⟨way, hway, h⟩ := List.exists_of_findSome?_eq_some h
  obtain ⟨hs, htaken, hleast, hgroups⟩ := mem_ways_many_iff.1 hway
  obtain ⟨groups, hq, rfl⟩ := Option.map_eq_some_iff.1 h
  refine ⟨way.taken, way.rest, hs, htaken, hleast, ?_⟩
  rw [hq, hgroups, List.nil_append]

theorem groups?_group_many_seq_of_eq_some
    (h : ((group number (many greedy least accepts)).seq q).groups? s = some groups) :
    ∃ taken rest later, s = taken ++ rest ∧ (∀ c ∈ taken, accepts c = true) ∧
      least ≤ taken.length ∧ q.groups? rest = some later ∧ groups = (number, taken) :: later := by
  rw [groups?_seq, ways, List.findSome?_map] at h
  obtain ⟨way, hway, h⟩ := List.exists_of_findSome?_eq_some h
  obtain ⟨hs, htaken, hleast, hgroups⟩ := mem_ways_many_iff.1 hway
  obtain ⟨later, hq, rfl⟩ := Option.map_eq_some_iff.1 h
  refine ⟨way.taken, way.rest, later, hs, htaken, hleast, hq, ?_⟩
  rw [Way.note, hgroups, List.singleton_append]

theorem groups?_group_seq (number : Nat) (p q : TextPattern) (s : Text) :
    ((group number p).seq q).groups? s =
      (p.ways s).findSome? fun way =>
        (q.groups? way.rest).map fun later => (number, way.taken) :: (way.groups ++ later) := by
  rw [groups?_seq, ways, List.findSome?_map]
  rfl

/-- The order of the ways does not matter when all of those that come to a match have the same
    groups. -/
theorem groups?_group_seq_of_forall {later : List (Nat × Text)} (hway : way ∈ p.ways s)
    (hlater : q.groups? way.rest = some later)
    (hunique : ∀ other ∈ p.ways s, (q.groups? other.rest).isSome = true → other = way) :
    ((group number p).seq q).groups? s = some ((number, way.taken) :: (way.groups ++ later)) := by
  rw [groups?_group_seq]
  have hsome : ((p.ways s).findSome? fun way => (q.groups? way.rest).map fun later =>
      (number, way.taken) :: (way.groups ++ later)).isSome = true :=
    List.findSome?_isSome_iff.2 ⟨way, hway, by rw [Option.isSome_map, hlater]; rfl⟩
  obtain ⟨groups, hgroups⟩ := Option.isSome_iff_exists.1 hsome
  obtain ⟨other, hother, hfound⟩ := List.exists_of_findSome?_eq_some hgroups
  obtain ⟨later', hlater', rfl⟩ := Option.map_eq_some_iff.1 hfound
  obtain rfl := hunique other hother (by rw [hlater']; rfl)
  rw [hgroups, Option.some.inj (hlater.symm.trans hlater')]

/-- A run that goes on no further than it must ends at the first place from which the second pattern
    comes to a match. -/
theorem groups?_group_lazy_seq {taken rest : Text} {later : List (Nat × Text)}
    (htaken : ∀ c ∈ taken, accepts c = true) (hrest : q.groups? rest = some later)
    (hearlier : ∀ before after, taken = before ++ after → after ≠ [] →
      q.groups? (after ++ rest) = none) :
    ((group number (many false 0 accepts)).seq q).groups? (taken ++ rest) =
      some ((number, taken) :: later) := by
  have hways : (many false 0 accepts).ways (taken ++ rest) = runs accepts (taken ++ rest) := by
    simp [ways]
  rw [groups?_group_seq, hways]
  refine findSome?_runs htaken (by rw [hrest]; rfl) fun before after hsplit hne => ?_
  rw [hearlier before after hsplit hne]
  rfl

/-- A sequence matches when its second pattern matches what some run leaves. -/
theorem isSome_groups?_many_seq {taken rest : Text} (htaken : ∀ c ∈ taken, accepts c = true)
    (hleast : least ≤ taken.length) (h : (q.groups? rest).isSome = true) :
    (((many greedy least accepts).seq q).groups? (taken ++ rest)).isSome = true := by
  rw [groups?_seq, List.findSome?_isSome_iff]
  refine ⟨{ taken := taken, rest := rest }, mem_ways_many_iff.2 ⟨rfl, htaken, hleast, rfl⟩, ?_⟩
  rwa [Option.isSome_map]

theorem isSome_groups?_group_many_seq {taken rest : Text} (htaken : ∀ c ∈ taken, accepts c = true)
    (hleast : least ≤ taken.length) (h : (q.groups? rest).isSome = true) :
    (((group number (many greedy least accepts)).seq q).groups? (taken ++ rest)).isSome = true := by
  rw [groups?_seq, ways, List.findSome?_map, List.findSome?_isSome_iff]
  refine ⟨{ taken := taken, rest := rest }, mem_ways_many_iff.2 ⟨rfl, htaken, hleast, rfl⟩, ?_⟩
  rwa [Function.comp_apply, Option.isSome_map]

/-- A greedy run takes all it can when the second pattern matches what is left then. -/
theorem groups?_greedy_seq (hleast : least ≤ (s.takeWhile accepts).length)
    (h : q.groups? (s.dropWhile accepts) = some groups) :
    ((many true least accepts).seq q).groups? s = some groups := by
  obtain ⟨later, hways⟩ := List.head?_eq_some_iff.1 (head?_ways_many hleast)
  rw [groups?_seq, hways, List.findSome?_cons, h]
  rfl

/-- A greedy run at the end takes a text that consists of its characters. -/
theorem groups?_group_greedy (h : ∀ c ∈ s, accepts c = true) :
    (group number (many true 0 accepts)).groups? s = some [(number, s)] := by
  have htake : s.takeWhile accepts = s := List.takeWhile_eq_self_iff.2 h
  have hdrop : s.dropWhile accepts = [] := List.dropWhile_eq_nil_iff.2 h
  obtain ⟨later, hways⟩ := List.head?_eq_some_iff.1
    (head?_ways_many (Nat.zero_le (s.takeWhile accepts).length))
  rw [groups?, ways, hways, htake, hdrop]
  rfl

end TextPattern

end CallSchema
