import CallSchema.Proofs.Docstring.Grouping

/-!
# The lines of entries

Grouping loses no line, has none twice and keeps their order. Read one line at a time, a line that
is indented no deeper than the first one opens an entry, and any other line goes to the last entry,
if there is one. There always is one: the first line that is not blank opens an entry, whatever its
indentation is, and so every later line has a place.

## Main definitions

* `Entry.pushLine`, `Entry.ofLinesInTurn` -- the entries, read one line at a time
* `Entry.allLines`, `Entry.roles` -- the lines of an entry, and which of them is its head
* `Entry.OpensBelow` -- a line is the head of an entry, with the given lines above it

## Main statements

* `Entry.foldl_pushLine` -- the lines in turn give the sections of the outline
* `Entry.flatMap_roles_ofLines` -- the place and the role of every line
* `Entry.ofLines_partition` -- the grouping of any list of lines
-/

namespace CallSchema.Entry

open Text

variable {width : Nat} {l first : Text} {ls above below : List Text} {entries : List Entry}

/-! ### One line at a time -/

/-- The entries with one more line. A line that is too deep for a head has no place when there is no
    entry yet. -/
def pushLine (width : Nat) (entries : List Entry) (l : Text) : List Entry :=
  if allBlank l then entries
  else if indent l ≤ width then entries ++ [⟨trim l, []⟩]
  else
    match entries.getLast? with
    | some last => entries.dropLast ++ [⟨last.head, last.body ++ [trim l]⟩]
    | none => entries

/-- The entries of a section, read one line at a time. -/
def ofLinesInTurn (ls : List Text) : List Entry :=
  match ls.find? (!allBlank ·) with
  | some first => ls.foldl (pushLine (indent first)) []
  | none => []

theorem pushLine_of_allBlank (h : allBlank l = true) : pushLine width entries l = entries :=
  if_pos h

theorem pushLine_of_le (h : allBlank l = false) (hle : indent l ≤ width) :
    pushLine width entries l = entries ++ [⟨trim l, []⟩] := by
  rw [pushLine, if_neg (by simp [h]), if_pos hle]

theorem pushLine_nil_of_lt (hlt : width < indent l) : pushLine width [] l = [] := by
  rw [pushLine, if_neg (Nat.not_le_of_lt hlt)]
  exact ite_self _

theorem pushLine_concat_of_lt (h : allBlank l = false) (hlt : width < indent l) (init : List Entry)
    (last : Entry) :
    pushLine width (init ++ [last]) l = init ++ [⟨last.head, last.body ++ [trim l]⟩] := by
  rw [pushLine, if_neg (by simp [h]), if_neg (Nat.not_le_of_lt hlt), List.getLast?_concat,
    List.dropLast_concat]

/-! ### The lines in turn and the outline -/

theorem filter_append_singleton (h : allBlank l = false) (ls : List Text) :
    (ls ++ [l]).filter (!allBlank ·) = ls.filter (!allBlank ·) ++ [l] := by
  simp [List.filter_append, h]

theorem ofItems_cons_of_le (h : allBlank l = false) (hle : indent l ≤ width) (below : List Text) :
    Outline.ofItems (head? width) ((l :: below).filter (!allBlank ·)) =
      ⟨[], (trim l, (Outline.ofItems (head? width) (below.filter (!allBlank ·))).preamble) ::
        (Outline.ofItems (head? width) (below.filter (!allBlank ·))).sections⟩ := by
  have hhead : head? width l = some (trim l) := if_pos hle
  rw [List.filter_cons_of_pos (by simp [h]), Outline.ofItems_cons_some hhead]

/-- The entries above a head are those of the lines above it. -/
theorem ofLinesAt_append_cons (h : allBlank l = false) (hle : indent l ≤ width)
    (above below : List Text) :
    ofLinesAt width (above ++ l :: below) =
      ofLinesAt width above ++ ofLinesAt width (l :: below) := by
  have hbelow := ofItems_cons_of_le h hle below
  rw [ofLinesAt, List.filter_append, Outline.ofItems_append_of_preamble (by rw [hbelow]),
    List.map_append]
  rfl

/-- A head opens the first entry of the lines that begin with it. -/
theorem exists_ofLinesAt_cons (h : allBlank l = false) (hle : indent l ≤ width)
    (below : List Text) : ∃ body later, ofLinesAt width (l :: below) = ⟨trim l, body⟩ :: later := by
  rw [ofLinesAt, ofItems_cons_of_le h hle, List.map_cons]
  exact ⟨_, _, rfl⟩

theorem ofLinesAt_concat_of_lt (h : allBlank l = false) (hlt : width < indent l) :
    ofLinesAt width (ls ++ [l]) = pushLine width (ofLinesAt width ls) l := by
  have hdeeper : head? width l = none := if_neg (Nat.not_le_of_lt hlt)
  have hitems : Outline.ofItems (head? width) [l] = ⟨[l], []⟩ :=
    Outline.ofItems_of_none (by simpa using hdeeper)
  rw [ofLinesAt, filter_append_singleton h, ofLinesAt]
  generalize hlines : ls.filter (!allBlank ·) = lines
  obtain hnil | ⟨init, ⟨last, body⟩, hsections⟩ :=
    List.eq_nil_or_concat' (Outline.ofItems (head? width) lines).sections
  · -- no line so far is a head, and neither is the new one
    have hquiet : ∀ m ∈ lines, head? width m = none := by
      rw [← List.filterMap_eq_nil_iff, ← Outline.ofItems_map_fst, hnil, List.map_nil]
    rw [hnil, Outline.ofItems_append [l] hquiet, hitems, List.map_nil, pushLine_nil_of_lt hlt]
  · rw [Outline.ofItems_append_of_concat hsections, hitems, hsections, List.map_append,
      List.map_append, List.map_singleton, List.map_singleton, pushLine_concat_of_lt h hlt]
    simp only [List.map_append, List.map_singleton]

/-- The lines in turn give the sections of the outline, each as an entry. -/
theorem foldl_pushLine (width : Nat) (ls : List Text) :
    ls.foldl (pushLine width) [] = ofLinesAt width ls := by
  induction ls using List.reverseRecOn with
  | nil => rfl
  | append_singleton ls l ih =>
    rw [List.foldl_append, List.foldl_cons, List.foldl_nil, ih]
    cases hblank : allBlank l with
    | true => rw [pushLine_of_allBlank hblank, ofLinesAt, ofLinesAt]; simp [hblank]
    | false =>
      obtain hle | hlt := (Nat.lt_or_ge width (indent l)).symm
      · rw [ofLinesAt_append_cons hblank hle, pushLine_of_le hblank hle, ofLinesAt, ofLinesAt,
          ofItems_cons_of_le hblank hle]
        rfl
      · exact (ofLinesAt_concat_of_lt hblank hlt).symm

theorem ofLinesInTurn_eq_ofLines (ls : List Text) : ofLinesInTurn ls = ofLines ls := by
  rw [ofLinesInTurn]
  cases hfirst : ls.find? (!allBlank ·) with
  | some first =>
    rw [ofLines_eq_ofLinesAt hfirst]
    exact foldl_pushLine (indent first) ls
  | none =>
    rw [List.find?_eq_none, ← List.filter_eq_nil_iff] at hfirst
    rw [ofLines, hfirst]

/-! ### The place of every line -/

/-- The lines of an entry. -/
def allLines (e : Entry) : List Text :=
  e.head :: e.body

/-- The lines of an entry, each with whether it is the head. -/
def roles (e : Entry) : List (Text × Bool) :=
  (e.head, true) :: e.body.map (·, false)

theorem map_fst_flatMap_roles (entries : List Entry) :
    (entries.flatMap roles).map Prod.fst = entries.flatMap allLines := by
  rw [List.map_flatMap]
  refine List.flatMap_congr fun e _ => ?_
  rw [roles, allLines, List.map_cons, List.map_map]
  exact congrArg (e.head :: ·) (List.map_id' e.body)

/-- A line that is a head, or comes when there is an entry, gets a place behind all others. -/
theorem flatMap_roles_pushLine (h : allBlank l = false)
    (hplace : entries ≠ [] ∨ indent l ≤ width) :
    (pushLine width entries l).flatMap roles =
      entries.flatMap roles ++ [(trim l, decide (indent l ≤ width))] := by
  obtain hle | hlt := (Nat.lt_or_ge width (indent l)).symm
  · rw [pushLine_of_le h hle, List.flatMap_append, decide_eq_true hle]
    rfl
  · have hne : entries ≠ [] := hplace.resolve_right (Nat.not_le_of_lt hlt)
    obtain ⟨init, last, rfl⟩ := (List.eq_nil_or_concat' entries).resolve_left hne
    rw [pushLine_concat_of_lt h hlt, decide_eq_false (Nat.not_le_of_lt hlt)]
    simp [roles]

/-- Every line behind a first head gets a place, behind those of the lines above it. -/
theorem flatMap_roles_foldl
    (hplace : entries ≠ [] ∨ ∀ first, ls.find? (!allBlank ·) = some first → indent first ≤ width) :
    (ls.foldl (pushLine width) entries).flatMap roles =
      entries.flatMap roles ++
        (ls.filter (!allBlank ·)).map fun l => (trim l, decide (indent l ≤ width)) := by
  induction ls generalizing entries with
  | nil => exact (List.append_nil _).symm
  | cons l ls ih =>
    rw [List.foldl_cons]
    cases hblank : allBlank l with
    | true =>
      rw [List.find?_cons_of_neg (by simp [hblank])] at hplace
      rw [pushLine_of_allBlank hblank, List.filter_cons_of_neg (by simp [hblank])]
      exact ih hplace
    | false =>
      have hl : entries ≠ [] ∨ indent l ≤ width :=
        hplace.imp_right fun hfirst => hfirst l (List.find?_cons_of_pos (by simp [hblank]))
      have hne : pushLine width entries l ≠ [] := by
        intro hnil
        have hroles := flatMap_roles_pushLine hblank hl
        rw [hnil] at hroles
        simp at hroles
      rw [ih (.inl hne), flatMap_roles_pushLine hblank hl,
        List.filter_cons_of_pos (by simp [hblank]), List.map_cons, List.append_assoc]
      rfl

/-- The lines that are not blank, in order: those indented no deeper than the first one are the
    heads. -/
theorem flatMap_roles_ofLines (hfirst : ls.find? (!allBlank ·) = some first) :
    (ofLines ls).flatMap roles =
      (ls.filter (!allBlank ·)).map fun l => (trim l, decide (indent l ≤ indent first)) := by
  rw [ofLines_eq_ofLinesAt hfirst, ← foldl_pushLine, flatMap_roles_foldl]
  · rfl
  · right
    intro other hother
    rw [Option.some.inj (hfirst.symm.trans hother)]

theorem flatMap_allLines_ofLines (ls : List Text) :
    (ofLines ls).flatMap allLines = (ls.filter (!allBlank ·)).map trim := by
  cases hfirst : ls.find? (!allBlank ·) with
  | some first =>
    rw [← map_fst_flatMap_roles, flatMap_roles_ofLines hfirst, List.map_map]
    rfl
  | none =>
    rw [List.find?_eq_none, ← List.filter_eq_nil_iff] at hfirst
    rw [ofLines, hfirst]
    rfl

/-! ### Heads -/

/-- The first line that is not blank opens the first entry. -/
theorem exists_ofLines_cons (hfirst : ls.find? (!allBlank ·) = some first) :
    ∃ body later, ofLines ls = ⟨trim first, body⟩ :: later := by
  rw [ofLines_eq_ofLinesAt hfirst]
  obtain ⟨hnot, gap, below, rfl, hgap⟩ := List.find?_eq_some_iff_append.1 hfirst
  have hblank : allBlank first = false := by simpa using hnot
  rw [ofLinesAt_append_cons hblank (Nat.le_refl _),
    ofLinesAt_of_forall_allBlank (indent first) (by simpa using hgap), List.nil_append]
  exact exists_ofLinesAt_cons hblank (Nat.le_refl _) below

/-- A line is the head of an entry, and the entries above it hold the lines above it. -/
def OpensBelow (above : List Text) (l : Text) (entries : List Entry) : Prop :=
  ∃ earlier body later, entries = earlier ++ ⟨trim l, body⟩ :: later ∧
    earlier.flatMap allLines = (above.filter (!allBlank ·)).map trim

theorem find?_eq_of_append {other : Text}
    (hfirst : (above ++ below).find? (!allBlank ·) = some first)
    (hother : above.find? (!allBlank ·) = some other) : other = first := by
  rw [List.find?_append, hother, Option.some_or] at hfirst
  exact Option.some.inj hfirst

theorem opensBelow_iff (hfirst : (above ++ l :: below).find? (!allBlank ·) = some first)
    (h : allBlank l = false) :
    OpensBelow above l (ofLines (above ++ l :: below)) ↔ indent l ≤ indent first := by
  constructor
  · rintro ⟨earlier, body, later, hentries, hlines⟩
    have hroles := flatMap_roles_ofLines hfirst
    -- both sides have as many lines in front of the one in question
    have hlength : (earlier.flatMap roles).length =
        ((above.filter (!allBlank ·)).map fun l =>
          (trim l, decide (indent l ≤ indent first))).length := by
      have hlength := congrArg List.length hlines
      rw [← map_fst_flatMap_roles, List.length_map, List.length_map] at hlength
      rwa [List.length_map]
    rw [hentries, List.flatMap_append, List.flatMap_cons, List.filter_append,
      List.filter_cons_of_pos (by simp [h]), List.map_append] at hroles
    have hrole := (List.cons.inj (List.append_inj hroles hlength).2).1
    exact of_decide_eq_true (Prod.mk.inj hrole).2.symm
  · intro hle
    obtain ⟨body, later, hbelow⟩ := exists_ofLinesAt_cons h hle below
    refine ⟨ofLinesAt (indent first) above, body, later, ?_, ?_⟩
    · rw [ofLines_eq_ofLinesAt hfirst, ofLinesAt_append_cons h hle, hbelow]
    · rw [← foldl_pushLine, ← map_fst_flatMap_roles, flatMap_roles_foldl, List.flatMap_nil,
        List.nil_append, List.map_map]
      · rfl
      · exact .inr fun other hother => by rw [find?_eq_of_append hfirst hother]

/-- **The grouping of lines.** Reading them one at a time gives the entries; the lines of the
    entries are the lines that are not blank, in order; the first of these opens the first entry;
    and a line opens an entry exactly when it is indented no deeper than the first one. -/
theorem ofLines_partition (ls : List Text) :
    ofLinesInTurn ls = ofLines ls ∧
    (ofLines ls).flatMap allLines = (ls.filter (!allBlank ·)).map trim ∧
    ∀ first, ls.find? (!allBlank ·) = some first →
      (∃ body later, ofLines ls = ⟨trim first, body⟩ :: later) ∧
      ∀ above l below, ls = above ++ l :: below → allBlank l = false →
        (OpensBelow above l (ofLines ls) ↔ indent l ≤ indent first) := by
  refine ⟨ofLinesInTurn_eq_ofLines ls, flatMap_allLines_ofLines ls,
    fun first hfirst => ⟨exists_ofLines_cons hfirst, ?_⟩⟩
  rintro above l below rfl h
  exact opensBelow_iff hfirst h

/-- The last line is a head, since the blank that leads it is no space and does not indent it. -/
theorem ofLines_partition_irregular :
    [[' '], [' ', 'a'], [' ', ' ', 'b'], ['\u3000', ' ', ' ', 'c']].find? (!allBlank ·) =
        some [' ', 'a'] ∧
      allBlank [' ', ' ', 'b'] = false ∧ allBlank ['\u3000', ' ', ' ', 'c'] = false ∧
      (∃ body later, ofLines [[' '], [' ', 'a'], [' ', ' ', 'b'], ['\u3000', ' ', ' ', 'c']] =
        ⟨['a'], body⟩ :: later) ∧
      ¬OpensBelow [[' '], [' ', 'a']] [' ', ' ', 'b']
        (ofLines [[' '], [' ', 'a'], [' ', ' ', 'b'], ['\u3000', ' ', ' ', 'c']]) ∧
      OpensBelow [[' '], [' ', 'a'], [' ', ' ', 'b']] ['\u3000', ' ', ' ', 'c']
        (ofLines [[' '], [' ', 'a'], [' ', ' ', 'b'], ['\u3000', ' ', ' ', 'c']]) := by
  have hfirst : [[' '], [' ', 'a'], [' ', ' ', 'b'], ['\u3000', ' ', ' ', 'c']].find?
      (!allBlank ·) = some [' ', 'a'] := by decide
  obtain ⟨-, -, hheads⟩ :=
    ofLines_partition [[' '], [' ', 'a'], [' ', ' ', 'b'], ['\u3000', ' ', ' ', 'c']]
  obtain ⟨hopens, hrole⟩ := hheads _ hfirst
  have hdeeper := hrole [[' '], [' ', 'a']] _ _ rfl (by decide)
  have hother := hrole [[' '], [' ', 'a'], [' ', ' ', 'b']] _ [] rfl (by decide)
  exact ⟨hfirst, by decide, by decide, hopens, fun h => absurd (hdeeper.1 h) (by decide),
    hother.2 (by decide)⟩

end CallSchema.Entry
