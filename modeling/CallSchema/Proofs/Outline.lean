import CallSchema.Outline
import Mathlib.Data.List.Basic

/-!
# Outlines of assembled lists

What `Outline.of` makes of a list that is put together from parts: items among which no heading
begins join the preamble of what follows, and a list of blocks, each a heading item with items
below it, is divided into just these blocks. Any list is made of its preamble and such blocks. The
preamble ends where the first heading begins, and the headings of the sections are those that begin
somewhere in the list.

## Main definitions

* `Outline.Quiet` -- no heading begins at any of the items in front of others
-/

namespace CallSchema.Outline

variable {α β γ : Type}

/-- Items at none of which a heading begins come before the preamble of the rest. -/
theorem of_append {heading? : List α → Option β} {pre rest : List α}
    (h : ∀ s a t, pre = s ++ a :: t → heading? (a :: (t ++ rest)) = none) :
    of heading? (pre ++ rest) =
      ⟨pre ++ (of heading? rest).preamble, (of heading? rest).sections⟩ := by
  induction pre with
  | nil => rfl
  | cons a pre ih =>
    have ih := ih fun s b t hs => h (a :: s) b t (by rw [hs, List.cons_append])
    rw [List.cons_append, of_cons_none (h [] a pre rfl), ih, List.cons_append]

/-- No heading begins at any of the items in front of the given rest. -/
def Quiet (heading? : List α → Option β) : List α → List α → Prop
  | [], _ => True
  | a :: pre, rest => heading? (a :: (pre ++ rest)) = none ∧ Quiet heading? pre rest

namespace Quiet

variable {heading? : List α → Option β} {pre pre' rest : List α}

theorem append_iff :
    Quiet heading? (pre ++ pre') rest ↔
      Quiet heading? pre (pre' ++ rest) ∧ Quiet heading? pre' rest := by
  induction pre with
  | nil => simp [Quiet]
  | cons a pre ih => simp only [List.cons_append, Quiet, ih, List.append_assoc, and_assoc]

theorem forall_split (h : Quiet heading? pre rest) :
    ∀ s a t, pre = s ++ a :: t → heading? (a :: (t ++ rest)) = none := by
  rintro s a t rfl
  exact (append_iff.1 h).2.1

end Quiet

@[simp] theorem ofItems_nil (heading? : α → Option β) : ofItems heading? [] = ⟨[], []⟩ := rfl

theorem ofItems_append {heading? : α → Option β} {pre : List α} (rest : List α)
    (h : ∀ a ∈ pre, heading? a = none) :
    ofItems heading? (pre ++ rest) =
      ⟨pre ++ (ofItems heading? rest).preamble, (ofItems heading? rest).sections⟩ :=
  of_append fun s a t hs => h a (by rw [hs]; simp)

theorem ofItems_of_none {heading? : α → Option β} {items : List α}
    (h : ∀ a ∈ items, heading? a = none) : ofItems heading? items = ⟨items, []⟩ := by
  have happend := ofItems_append [] h
  simpa using happend

theorem ofItems_cons_some {heading? : α → Option β} {a : α} {heading : β} {rest : List α}
    (h : heading? a = some heading) :
    ofItems heading? (a :: rest) =
      ⟨[], (heading, (ofItems heading? rest).preamble) :: (ofItems heading? rest).sections⟩ :=
  of_cons_some h

theorem ofItems_cons_none {heading? : α → Option β} {a : α} {rest : List α}
    (h : heading? a = none) :
    ofItems heading? (a :: rest) =
      ⟨a :: (ofItems heading? rest).preamble, (ofItems heading? rest).sections⟩ :=
  of_cons_none h

/-- Items that begin with a heading bring their own sections. -/
theorem ofItems_append_of_preamble {heading? : α → Option β} {rest : List α}
    (h : (ofItems heading? rest).preamble = []) (items : List α) :
    ofItems heading? (items ++ rest) =
      ⟨(ofItems heading? items).preamble,
        (ofItems heading? items).sections ++ (ofItems heading? rest).sections⟩ := by
  induction items with
  | nil =>
    rw [List.nil_append, ofItems_nil, List.nil_append, ← h]
  | cons a items ih =>
    cases hhead : heading? a with
    | none => rw [List.cons_append, ofItems_cons_none hhead, ofItems_cons_none hhead, ih]
    | some b =>
      rw [List.cons_append, ofItems_cons_some hhead, ofItems_cons_some hhead, ih, List.cons_append]

/-- A list of blocks is divided into its blocks. -/
theorem ofItems_flatMap {heading? : α → Option β} {blocks : List γ} {head : γ → α}
    {below : γ → List α} {heading : γ → β}
    (hhead : ∀ b ∈ blocks, heading? (head b) = some (heading b))
    (hbelow : ∀ b ∈ blocks, ∀ a ∈ below b, heading? a = none) :
    ofItems heading? (blocks.flatMap fun b => head b :: below b) =
      ⟨[], blocks.map fun b => (heading b, below b)⟩ := by
  induction blocks with
  | nil => rfl
  | cons b blocks ih =>
    have ih := ih (fun c hc => hhead c (List.mem_cons_of_mem b hc))
      fun c hc => hbelow c (List.mem_cons_of_mem b hc)
    -- the later blocks begin with a heading, so that `below b` is all there is in the section
    rw [List.flatMap_cons, List.cons_append, ofItems_cons_some (hhead b (List.mem_cons_self ..)),
      ofItems_append _ (hbelow b (List.mem_cons_self ..)), ih, List.append_nil, List.map_cons]

/-- Every list is its preamble and its blocks, one for each section: a block is the item with the
    heading of the section and the items of the section below it, none of which is a heading. -/
theorem exists_blocks (heading? : α → Option β) (items : List α) :
    ∃ blocks : List (α × List α),
      items = (ofItems heading? items).preamble ++ blocks.flatMap (fun b => b.1 :: b.2) ∧
      (ofItems heading? items).sections.map (fun part => (some part.1, part.2)) =
        blocks.map (fun b => (heading? b.1, b.2)) ∧
      (∀ a ∈ (ofItems heading? items).preamble, heading? a = none) ∧
      ∀ b ∈ blocks, ∀ a ∈ b.2, heading? a = none := by
  induction items with
  | nil => exact ⟨[], rfl, rfl, List.forall_mem_nil _, List.forall_mem_nil _⟩
  | cons a items ih =>
    obtain ⟨blocks, hitems, hsections, hpreamble, hbodies⟩ := ih
    cases hhead : heading? a with
    | none =>
      rw [ofItems_cons_none hhead]
      exact ⟨blocks, congrArg (a :: ·) hitems, hsections, List.forall_mem_cons.2 ⟨hhead, hpreamble⟩,
        hbodies⟩
    | some b =>
      rw [ofItems_cons_some hhead]
      refine ⟨(a, (ofItems heading? items).preamble) :: blocks, congrArg (a :: ·) hitems, ?_,
        List.forall_mem_nil _, List.forall_mem_cons.2 ⟨hpreamble, hbodies⟩⟩
      rw [List.map_cons, List.map_cons, hhead, hsections]

/-- The headings of the sections are those of the items, in order. -/
theorem ofItems_map_fst (heading? : α → Option β) (items : List α) :
    (ofItems heading? items).sections.map Prod.fst = items.filterMap heading? := by
  induction items with
  | nil => rfl
  | cons a items ih =>
    cases hhead : heading? a with
    | none => rw [ofItems_cons_none hhead, List.filterMap_cons_none hhead, ih]
    | some b => rw [ofItems_cons_some hhead, List.filterMap_cons_some hhead, List.map_cons, ih]

/-- The last section of a list goes on with what stands in front of the first heading of the items
    behind it. -/
theorem ofItems_append_of_concat {heading? : α → Option β} {items : List α}
    {init : List (β × List α)} {last : β} {body : List α}
    (h : (ofItems heading? items).sections = init ++ [(last, body)]) (rest : List α) :
    ofItems heading? (items ++ rest) =
      ⟨(ofItems heading? items).preamble,
        init ++ (last, body ++ (ofItems heading? rest).preamble) ::
          (ofItems heading? rest).sections⟩ := by
  induction items generalizing init with
  | nil => simp at h
  | cons a items ih =>
    cases hhead : heading? a with
    | none =>
      rw [ofItems_cons_none hhead] at h
      rw [List.cons_append, ofItems_cons_none hhead, ofItems_cons_none hhead, ih h]
    | some b =>
      rw [ofItems_cons_some hhead] at h
      rw [List.cons_append, ofItems_cons_some hhead, ofItems_cons_some hhead]
      cases init with
      | nil =>
        -- no heading is left below `a`, so that the rest joins its section
        obtain ⟨hlast, hnil⟩ := List.cons.inj h
        cases hlast
        have hquiet : ∀ c ∈ items, heading? c = none := by
          rw [← List.filterMap_eq_nil_iff, ← ofItems_map_fst, hnil, List.map_nil]
        rw [ofItems_append rest hquiet, ofItems_of_none hquiet]
        rfl
      | cons first init =>
        obtain ⟨rfl, hinit⟩ := List.cons.inj h
        rw [ih hinit]
        rfl

/-! ### Where the sections begin -/

/-- The preamble ends in front of the first heading, or with the list. -/
theorem exists_preamble_append (heading? : List α → Option β) (items : List α) :
    ∃ rest, items = (of heading? items).preamble ++ rest ∧
      (∀ s a t, (of heading? items).preamble = s ++ a :: t → heading? (a :: (t ++ rest)) = none) ∧
      (rest ≠ [] → (heading? rest).isSome = true) := by
  induction items with
  | nil => exact ⟨[], rfl, fun s a t hs => by simp at hs, fun hne => absurd rfl hne⟩
  | cons a items ih =>
    obtain ⟨rest, hsplit, hquiet, hmark⟩ := ih
    cases hhead : heading? (a :: items) with
    | some b =>
      rw [of_cons_some hhead]
      refine ⟨a :: items, rfl, fun s a t hs => ?_, fun _ => by rw [hhead]; rfl⟩
      simp at hs
    | none =>
      rw [of_cons_none hhead]
      refine ⟨rest, congrArg (a :: ·) hsplit, fun s b t hs => ?_, hmark⟩
      -- the item in question is `a` itself, or it stands in the preamble of what follows `a`
      cases s with
      | nil =>
        obtain ⟨rfl, rfl⟩ := List.cons.inj hs
        rw [← hsplit, hhead]
      | cons c s => exact hquiet s b t (List.cons.inj hs).2

/-- Items at none of which a heading begins, in front of a heading, are the preamble. -/
theorem preamble_of_append {heading? : List α → Option β} {pre rest : List α}
    (hquiet : ∀ s a t, pre = s ++ a :: t → heading? (a :: (t ++ rest)) = none)
    (hmark : (heading? rest).isSome = true) : (of heading? (pre ++ rest)).preamble = pre := by
  rw [of_append hquiet]
  cases rest with
  | nil => exact List.append_nil pre
  | cons a rest =>
    obtain ⟨b, hb⟩ := Option.isSome_iff_exists.1 hmark
    rw [of_cons_some hb]
    exact List.append_nil pre

/-- The headings of the sections are those that begin somewhere in the list. -/
theorem exists_mem_sections_iff {heading? : List α → Option β} (hnil : heading? [] = none)
    {items : List α} {b : β} :
    (∃ body, (b, body) ∈ (of heading? items).sections) ↔
      ∃ rest, rest <:+ items ∧ heading? rest = some b := by
  induction items with
  | nil => simp [hnil]
  | cons a items ih =>
    simp only [List.suffix_cons_iff, or_and_right, exists_or, exists_eq_left]
    rw [← ih]
    cases hhead : heading? (a :: items) with
    | some c => simp [of_cons_some hhead, eq_comm, exists_or]
    | none => simp [of_cons_none hhead]

theorem any_sections_iff {heading? : List α → Option β} (hnil : heading? [] = none)
    {items : List α} {p : β → Bool} :
    (of heading? items).sections.any (fun part => p part.1) = true ↔
      ∃ rest, rest <:+ items ∧ ∃ b, heading? rest = some b ∧ p b = true := by
  rw [List.any_eq_true]
  constructor
  · rintro ⟨⟨b, body⟩, hmem, hb⟩
    obtain ⟨rest, hsuffix, hhead⟩ := (exists_mem_sections_iff hnil).1 ⟨body, hmem⟩
    exact ⟨rest, hsuffix, b, hhead, hb⟩
  · rintro ⟨rest, hsuffix, b, hhead, hb⟩
    obtain ⟨body, hmem⟩ := (exists_mem_sections_iff hnil).2 ⟨rest, hsuffix, hhead⟩
    exact ⟨(b, body), hmem, hb⟩

end CallSchema.Outline
