import CallSchema.Proofs.Outline
import Mathlib.Data.List.Chain

/-!
# Places in a list

A part of a list can be taken by its position, which goes wrong where there is no such position.
The headings of a list can be found by position as well, and the sections between them taken as
slices. None of these slices goes wrong, and together they are the sections of the outline
(`Outline.foldSlices_eq_ok`).

## Main definitions

* `Fault`, `Checked` -- what goes wrong with a position, and a result unless something does
* `Checked.item`, `Checked.slice` -- an item and a slice of a list
* `Outline.placesFrom` -- the positions of the headings
* `Outline.withNext` -- the items of a list, each with the one after it
-/

namespace CallSchema

/-- What goes wrong with a position. -/
inductive Fault where
  /-- A position behind the end, or an end in front of the start. -/
  | outOfRange
  /-- A position between the bytes of one character. -/
  | insideCharacter
deriving DecidableEq, Repr

/-- A result, unless some position is wrong. -/
abbrev Checked (α : Type) := Except Fault α

namespace Checked

variable {α β δ : Type}

def item (items : List α) (i : Nat) : Checked α :=
  match items[i]? with
  | some a => .ok a
  | none => .error .outOfRange

/-- The items from one position up to another one. -/
def slice (items : List α) (start stop : Nat) : Checked (List α) :=
  if start ≤ stop ∧ stop ≤ items.length then .ok ((items.take stop).drop start)
  else .error .outOfRange

@[simp] theorem ok_bind (a : α) (f : α → Checked β) : (Except.ok a >>= f) = f a := rfl

@[simp] theorem pure_eq_ok (a : α) : (pure a : Checked α) = .ok a := rfl

@[simp] theorem item_cons_zero (a : α) (items : List α) : item (a :: items) 0 = .ok a := rfl

@[simp] theorem item_cons_succ (a : α) (items : List α) (i : Nat) :
    item (a :: items) (i + 1) = item items i := rfl

theorem slice_append (before middle after : List α) {start stop : Nat}
    (hstart : start = before.length) (hstop : stop = before.length + middle.length) :
    slice (before ++ (middle ++ after)) start stop = .ok middle := by
  subst hstart hstop
  have hrange : before.length ≤ before.length + middle.length ∧
      before.length + middle.length ≤ (before ++ (middle ++ after)).length := by
    simp only [List.length_append]
    omega
  rw [slice, if_pos hrange, ← List.append_assoc, List.take_left' (List.length_append ..),
    List.drop_left]

theorem slice_left (before after : List α) :
    slice (before ++ after) 0 before.length = .ok before :=
  slice_append [] before after rfl (Nat.zero_add _).symm

theorem slice_right (before after : List α) :
    slice (before ++ after) before.length (before ++ after).length = .ok after := by
  have hslice := slice_append before after [] rfl (List.length_append ..)
  rwa [List.append_nil] at hslice

theorem mapM_eq_ok {items : List α} {f : α → Checked β} {g : α → β}
    (h : ∀ a ∈ items, f a = .ok (g a)) : items.mapM f = .ok (items.map g) := by
  induction items with
  | nil => rfl
  | cons a items ih =>
    rw [List.mapM_cons, h a List.mem_cons_self, ih fun b hb => h b (List.mem_cons_of_mem a hb)]
    rfl

end Checked

namespace Outline

open Checked

variable {α β γ δ : Type}

/-- The positions of the headings, given the position of the first item. -/
def placesFrom (heading? : List α → Option β) : Nat → List α → List (Nat × β)
  | _, [] => []
  | start, a :: rest =>
    match heading? (a :: rest) with
    | some heading => (start, heading) :: placesFrom heading? (start + 1) rest
    | none => placesFrom heading? (start + 1) rest

/-- Goes on with one section: the slice from below its heading to the next heading or the end.
    `skip` is the number of items that the heading takes up besides its first one. -/
def sliceStep (items : List α) (skip : Nat) (f : δ → β × List α → δ) (d : δ) (place : Nat × β)
    (next : Option (Nat × β)) : Checked δ := do
  let body ← slice items (place.1 + 1 + skip) (next.elim items.length Prod.fst)
  return f d (place.2, body)

/-- Goes through the sections, given the positions of their headings. -/
def foldSlices (items : List α) (skip : Nat) (f : δ → β × List α → δ) (d : δ)
    (places : List (Nat × β)) : Checked δ :=
  places.zipIdx.foldlM (fun d (place, i) => sliceStep items skip f d place places[i + 1]?) d

/-! ### The positions -/

variable {heading? : List α → Option β} {a : α} {b : β} {items : List α}

theorem placesFrom_cons_some (h : heading? (a :: items) = some b) (start : Nat) :
    placesFrom heading? start (a :: items) =
      (start, b) :: placesFrom heading? (start + 1) items := by
  simp [placesFrom, h]

theorem placesFrom_cons_none (h : heading? (a :: items) = none) (start : Nat) :
    placesFrom heading? start (a :: items) = placesFrom heading? (start + 1) items := by
  simp [placesFrom, h]

theorem map_snd_placesFrom (heading? : List α → Option β) (start : Nat) (items : List α) :
    (placesFrom heading? start items).map Prod.snd = (of heading? items).sections.map Prod.fst := by
  induction items generalizing start with
  | nil => rfl
  | cons a items ih =>
    cases hhead : heading? (a :: items) with
    | some b =>
      rw [placesFrom_cons_some hhead, of_cons_some hhead, List.map_cons, List.map_cons, ih]
    | none => rw [placesFrom_cons_none hhead, of_cons_none hhead, ih]

/-- The first heading, or else the end, comes right behind the preamble. -/
theorem elim_head?_placesFrom (heading? : List α → Option β) (start : Nat) (items : List α) :
    (placesFrom heading? start items).head?.elim (start + items.length) Prod.fst =
      start + (of heading? items).preamble.length := by
  induction items generalizing start with
  | nil => rfl
  | cons a items ih =>
    cases hhead : heading? (a :: items) with
    | some b =>
      rw [placesFrom_cons_some hhead, of_cons_some hhead]
      rfl
    | none =>
      have hnext := ih (start + 1)
      rw [show start + 1 + items.length = start + (a :: items).length by simp; omega] at hnext
      rw [placesFrom_cons_none hhead, of_cons_none hhead, hnext, List.length_cons]
      omega

theorem slice_preamble (heading? : List α → Option β) (items : List α) :
    slice items 0 (of heading? items).preamble.length = .ok (of heading? items).preamble := by
  obtain ⟨rest, hitems, -⟩ := exists_preamble_append heading? items
  have hleft := slice_left (of heading? items).preamble rest
  rwa [← hitems] at hleft

theorem length_preamble_le (heading? : List α → Option β) (items : List α) :
    (of heading? items).preamble.length ≤ items.length := by
  obtain ⟨rest, hitems, -⟩ := exists_preamble_append heading? items
  exact List.IsPrefix.length_le ⟨rest, hitems.symm⟩

/-- Where the sections are long enough, so is the distance from each heading to the end, and to the
    next one. -/
theorem add_le_of_mem_placesFrom {skip start : Nat}
    (hlong : ∀ part ∈ (of heading? items).sections, skip ≤ part.2.length) {p : Nat × β}
    (hp : p ∈ placesFrom heading? start items) : p.1 + 1 + skip ≤ start + items.length := by
  induction items generalizing start with
  | nil => cases hp
  | cons a items ih =>
    rw [List.length_cons]
    cases hhead : heading? (a :: items) with
    | some b =>
      rw [of_cons_some hhead] at hlong
      rw [placesFrom_cons_some hhead] at hp
      obtain rfl | hp := List.mem_cons.1 hp
      · have hfirst : skip ≤ (of heading? items).preamble.length := hlong _ List.mem_cons_self
        have hle := length_preamble_le heading? items
        show start + 1 + skip ≤ start + (items.length + 1)
        omega
      · have hlater := ih (fun part hpart => hlong part (List.mem_cons_of_mem _ hpart)) hp
        omega
    | none =>
      rw [of_cons_none hhead] at hlong
      rw [placesFrom_cons_none hhead] at hp
      have hlater := ih hlong hp
      omega

theorem isChain_placesFrom {skip : Nat}
    (hlong : ∀ part ∈ (of heading? items).sections, skip ≤ part.2.length) (start : Nat) :
    (placesFrom heading? start items).IsChain fun p q => p.1 + 1 + skip ≤ q.1 := by
  induction items generalizing start with
  | nil => exact .nil
  | cons a items ih =>
    cases hhead : heading? (a :: items) with
    | some b =>
      rw [of_cons_some hhead] at hlong
      have hfirst : skip ≤ (of heading? items).preamble.length := hlong _ List.mem_cons_self
      have hnext := elim_head?_placesFrom heading? (start + 1) items
      rw [placesFrom_cons_some hhead, List.isChain_cons]
      refine ⟨fun q hq => ?_, ih (fun part hpart => hlong part (List.mem_cons_of_mem _ hpart)) _⟩
      rw [Option.mem_def.1 hq] at hnext
      change q.1 = _ at hnext
      show start + 1 + skip ≤ q.1
      omega
    | none =>
      rw [of_cons_none hhead] at hlong
      rw [placesFrom_cons_none hhead]
      exact ih hlong _

/-! ### The sections as slices -/

/-- The items of a list, each with the one after it. -/
def withNext : List γ → List (γ × Option γ)
  | [] => []
  | a :: rest => (a, rest.head?) :: withNext rest

/-- Looking one position further finds the item after it. -/
theorem foldlM_zipIdx_next (step : δ → γ → Option γ → Checked δ) (before items : List γ) (d : δ) :
    (items.zipIdx before.length).foldlM
        (fun d (a, i) => step d a (before ++ items)[i + 1]?) d =
      (withNext items).foldlM (fun d (a, next) => step d a next) d := by
  induction items generalizing before d with
  | nil => rfl
  | cons a items ih =>
    have hnext : (before ++ a :: items)[before.length + 1]? = items.head? := by
      rw [List.getElem?_append_right (Nat.le_succ _), List.head?_eq_getElem?]
      simp
    have htail := fun d => ih (before ++ [a]) d
    simp only [List.length_append, List.length_singleton, List.append_assoc,
      List.singleton_append] at htail
    simp only [withNext, List.zipIdx_cons, List.foldlM_cons, hnext, htail]

/-- The slice below a heading is the section, less the items that belong to the heading. -/
theorem sliceStep_eq_ok {skip start : Nat} (f : δ → β × List α → δ) (d : δ) {before : List α}
    (hstart : start = before.length) (hlong : skip ≤ (of heading? items).preamble.length) :
    sliceStep (before ++ a :: items) skip f d (start, b)
        (placesFrom heading? (start + 1) items).head? =
      .ok (f d (b, (of heading? items).preamble.drop skip)) := by
  have hstop := elim_head?_placesFrom heading? (start + 1) items
  obtain ⟨rest, hitems, -⟩ := exists_preamble_append heading? items
  generalize (of heading? items).preamble = pre at *
  have hlength : (before ++ a :: items).length = start + 1 + items.length := by
    simp only [List.length_append, List.length_cons]
    omega
  have hsplit : before ++ a :: items =
      (before ++ a :: pre.take skip) ++ (pre.drop skip ++ rest) := by
    rw [hitems, List.append_assoc, List.cons_append, ← List.append_assoc (pre.take skip),
      List.take_append_drop]
  have hslice : slice (before ++ a :: items) (start + 1 + skip) (start + 1 + pre.length) =
      .ok (pre.drop skip) := by
    rw [hsplit]
    apply slice_append
    · simp only [List.length_append, List.length_cons, List.length_take]
      omega
    · simp only [List.length_append, List.length_cons, List.length_take, List.length_drop]
      omega
  rw [sliceStep, hlength, hstop, hslice]
  rfl

theorem foldlM_withNext {skip start : Nat} (f : δ → β × List α → δ) {all before : List α} (d : δ)
    (hall : all = before ++ items) (hstart : start = before.length)
    (hlong : ∀ part ∈ (of heading? items).sections, skip ≤ part.2.length) :
    (withNext (placesFrom heading? start items)).foldlM
        (fun d (place, next) => sliceStep all skip f d place next) d =
      .ok (((of heading? items).sections.map fun part =>
        (part.1, part.2.drop skip)).foldl f d) := by
  induction items generalizing before start d with
  | nil => rfl
  | cons a items ih =>
    have hall' : all = (before ++ [a]) ++ items := by rw [hall, List.append_assoc]; rfl
    have hstart' : start + 1 = (before ++ [a]).length := by rw [hstart, List.length_append]; rfl
    cases hhead : heading? (a :: items) with
    | some b =>
      rw [of_cons_some hhead] at hlong ⊢
      have hstep := sliceStep_eq_ok (a := a) (b := b) f d hstart (hlong _ List.mem_cons_self)
      rw [placesFrom_cons_some hhead, withNext, List.foldlM_cons]
      simp only [hall, hstep, ok_bind]
      rw [← hall]
      exact ih _ hall' hstart' fun part hpart => hlong part (List.mem_cons_of_mem _ hpart)
    | none =>
      rw [of_cons_none hhead] at hlong ⊢
      rw [placesFrom_cons_none hhead]
      exact ih d hall' hstart' hlong

/-- The slices between the headings are the sections, less the items that belong to a heading. -/
theorem foldSlices_eq_ok {skip : Nat} (f : δ → β × List α → δ) (d : δ)
    (hlong : ∀ part ∈ (of heading? items).sections, skip ≤ part.2.length) :
    foldSlices items skip f d (placesFrom heading? 0 items) =
      .ok (((of heading? items).sections.map fun part =>
        (part.1, part.2.drop skip)).foldl f d) := by
  have hnext := foldlM_zipIdx_next (sliceStep items skip f) [] (placesFrom heading? 0 items) d
  rw [foldSlices]
  exact hnext.trans (foldlM_withNext f d (List.nil_append items).symm rfl hlong)

end Outline

end CallSchema
