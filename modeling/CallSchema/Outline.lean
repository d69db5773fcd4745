/-!
# Outlines

An outline divides a list of items, such as the lines of a text, at the places where a heading
begins. What stands before the first heading is the preamble; every heading owns the items from
its own place up to the next heading, its own item excluded.

## Main definitions

* `Outline` -- a preamble followed by headed sections
* `Outline.of` -- divides a list, given a test for the heading that begins at a place
-/

namespace CallSchema

/-- A preamble and the sections that follow it. -/
structure Outline (α β : Type) where
  preamble : List α
  sections : List (β × List α)
deriving DecidableEq

namespace Outline

variable {α β : Type}

/-- Divides a list wherever `heading?` finds a heading at the start of what is left. -/
def of (heading? : List α → Option β) : List α → Outline α β
  | [] => ⟨[], []⟩
  | a :: rest =>
    let below := of heading? rest
    match heading? (a :: rest) with
    | some heading => ⟨[], (heading, below.preamble) :: below.sections⟩
    | none => ⟨a :: below.preamble, below.sections⟩

/-- Divides a list at the items that are headings on their own. -/
def ofItems (heading? : α → Option β) : List α → Outline α β :=
  of fun items => items.head?.bind heading?

@[simp] theorem of_nil (heading? : List α → Option β) : of heading? [] = ⟨[], []⟩ := rfl

/-- A heading starts a section, which takes the items up to the next heading. -/
theorem of_cons_some {heading? : List α → Option β} {a : α} {rest : List α} {heading : β}
    (h : heading? (a :: rest) = some heading) :
    of heading? (a :: rest) =
      ⟨[], (heading, (of heading? rest).preamble) :: (of heading? rest).sections⟩ := by
  simp [of, h]

/-- An item without a heading belongs to what stands before the next heading. -/
theorem of_cons_none {heading? : List α → Option β} {a : α} {rest : List α}
    (h : heading? (a :: rest) = none) :
    of heading? (a :: rest) =
      ⟨a :: (of heading? rest).preamble, (of heading? rest).sections⟩ := by
  simp [of, h]

end Outline

end CallSchema
