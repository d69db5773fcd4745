import CallSchema.Proofs.Text.Trim
import CallSchema.Text.Word
import CallSchema.TypeHint.Brackets

/-!
# Lower case

Lower case changes the capital letters from A to Z and nothing else. Neither these letters nor the
small ones are brackets, blanks or separators, so that no class of characters that the readers look
at depends on the case.

## Main definitions

* `Text.capitalLetters` -- the letters that lower case changes
* `Text.lower` -- a text in lower case
-/

namespace CallSchema.Text

/-! ### Deciding what holds of the characters of a text

There are finitely many characters, so a statement about those of a text could also be decided by
going through all there are. These two go through the text. -/

instance (priority := high) decidableForallMem {s : Text} {P : Char → Prop} [DecidablePred P] :
    Decidable (∀ c ∈ s, P c) :=
  List.decidableBAll P s

instance (priority := high) decidableExistsMem {s : Text} {P : Char → Prop} [DecidablePred P] :
    Decidable (∃ c ∈ s, P c) :=
  List.decidableBEx P s

/-! ### Lower case -/

def capitalLetters : Text :=
  "ABCDEFGHIJKLMNOPQRSTUVWXYZ".toList

/-- What is the same for every capital letter and its small letter does not depend on the case. -/
theorem congr_toLower {β : Type} (f : Char → β) (h : ∀ c ∈ capitalLetters, f c.toLower = f c)
    (c : Char) : f c.toLower = f c := by
  by_cases hcapital : c.val ≥ 'A'.val ∧ c.val ≤ 'Z'.val
  · have hrange : ∀ n ∈ List.range' 65 26, Char.ofNat n ∈ capitalLetters := by decide +kernel
    have hge := UInt32.le_iff_toNat_le.1 hcapital.1
    have hle := UInt32.le_iff_toNat_le.1 hcapital.2
    have hmem := hrange c.toNat (List.mem_range'_1.2 ⟨hge, Nat.lt_succ_of_le hle⟩)
    rw [Char.ofNat_toNat] at hmem
    exact h c hmem
  · have hsame : c.toLower = c := dif_neg hcapital
    rw [hsame]

@[simp] theorem isBlank_toLower (c : Char) : isBlank c.toLower = isBlank c :=
  congr_toLower isBlank (by decide) c

@[simp] theorem isWord_toLower (c : Char) : isWord c.toLower = isWord c :=
  congr_toLower isWord (by decide +kernel) c

@[simp] theorem isOpening_toLower (c : Char) : isOpening c.toLower = isOpening c :=
  congr_toLower isOpening (by decide) c

@[simp] theorem isClosing_toLower (c : Char) : isClosing c.toLower = isClosing c :=
  congr_toLower isClosing (by decide) c

theorem toLower_eq_comma_iff {c : Char} : c.toLower = ',' ↔ c = ',' :=
  iff_of_eq (congr_toLower (· = ',') (by decide) c)

/-- A text in lower case. -/
def lower (s : Text) : Text :=
  s.map Char.toLower

@[simp] theorem lower_nil : lower [] = [] := rfl

@[simp] theorem lower_cons (c : Char) (s : Text) : lower (c :: s) = c.toLower :: lower s := rfl

@[simp] theorem lower_append (s t : Text) : lower (s ++ t) = lower s ++ lower t :=
  List.map_append

theorem trim_lower (s : Text) : trim (lower s) = lower (trim s) := by
  have hblank : (fun c => isBlank (Char.toLower c)) = isBlank := funext isBlank_toLower
  have hstart : trimStart (lower s) = lower (trimStart s) := by
    rw [lower, trimStart, List.dropWhile_map, trimStart, lower]
    exact congrArg (fun p => (s.dropWhile p).map Char.toLower) hblank
  rw [trim, hstart, lower, trimEnd, dropEndWhile_map, hblank]
  rfl

theorem trim_map_toLower {s : Text} (h : trim s = s) :
    trim (s.map Char.toLower) = s.map Char.toLower := by
  show trim (lower s) = lower s
  rw [trim_lower, h]

theorem lower_eq_nil_iff {s : Text} : lower s = [] ↔ s = [] :=
  List.map_eq_nil_iff

end CallSchema.Text
