import CallSchema.Proofs.Text.Trim
import CallSchema.Text.Word

/-!
# Word characters are not blank

The two classes that the readers of names look at are disjoint, so a name is never trimmed, whether
stars stand in front of it or not.

## Main definitions

* `Text.blankCodes` -- the code points of the blank characters
-/

namespace CallSchema.Text

/-- The code points of the blank characters. -/
def blankCodes : List Nat :=
  [0x09, 0x0A, 0x0B, 0x0C, 0x0D, 0x20, 0x85, 0xA0, 0x1680, 0x2000, 0x2001, 0x2002, 0x2003, 0x2004,
   0x2005, 0x2006, 0x2007, 0x2008, 0x2009, 0x200A, 0x2028, 0x2029, 0x202F, 0x205F, 0x3000]

theorem toNat_mem_blankCodes {c : Char} (h : isBlank c = true) : c.toNat ∈ blankCodes := by
  simp only [isBlank, Bool.or_eq_true, Bool.and_eq_true, decide_eq_true_eq, beq_iff_eq] at h
  simp only [blankCodes, List.mem_cons, List.not_mem_nil, or_false]
  omega

/-- No blank character is a word character. -/
theorem isBlank_of_isWord {c : Char} (h : isWord c = true) : isBlank c = false := by
  -- a class of word characters is a long table, so that it is asked about one code at a time
  have hcodes : ∀ n ∈ blankCodes, isWord (Char.ofNat n) = false := by decide +kernel
  by_contra hb
  rw [Bool.not_eq_false] at hb
  have hword := hcodes c.toNat (toNat_mem_blankCodes hb)
  rw [Char.ofNat_toNat, h] at hword
  cases hword

/-- Blanks, if there are any, keep a word apart from what stands behind them. -/
theorem head?_append_not_isWord {s : Text} {c : Char}
    (hs : ∀ d, s.head? = some d → isBlank d = true) (hc : isWord c = false) (rest : Text) :
    ∀ d, (s ++ c :: rest).head? = some d → isWord d = false := by
  intro d hd
  cases s with
  | nil => rwa [← Option.some.inj hd]
  | cons b s =>
    obtain rfl := Option.some.inj hd
    have hblank := hs b rfl
    by_contra hword
    rw [Bool.not_eq_false] at hword
    rw [isBlank_of_isWord hword] at hblank
    cases hblank

/-- A word that something else follows is what is taken. -/
theorem takeWhile_isWord_append {word rest : Text} (hword : ∀ c ∈ word, isWord c = true)
    (hrest : ∀ c, rest.head? = some c → isWord c = false) :
    (word ++ rest).takeWhile isWord = word ∧ (word ++ rest).dropWhile isWord = rest := by
  rw [List.takeWhile_append_of_pos hword, List.dropWhile_append_of_pos hword]
  cases rest with
  | nil => simp
  | cons c rest =>
    have hc : ¬ isWord c = true := by simp [hrest c rfl]
    rw [List.takeWhile_cons_of_neg hc, List.dropWhile_cons_of_neg hc]
    exact ⟨List.append_nil word, rfl⟩

/-! ### Words with stars in front of them -/

section Starred

variable {word : Text} (hword : ∀ c ∈ word, isWord c = true) (stars : Nat)

include hword

theorem isBlank_of_mem_starred {c : Char} (hc : c ∈ List.replicate stars '*' ++ word) :
    isBlank c = false := by
  rcases List.mem_append.1 hc with hc | hc
  · rw [(List.mem_replicate.1 hc).2]
    decide
  · exact isBlank_of_isWord (hword c hc)

/-- The stars are all that stands in front of the word. -/
theorem dropWhile_trim_starred :
    (trim (List.replicate stars '*' ++ word)).dropWhile (· == '*') = word := by
  have hstars : ∀ c ∈ List.replicate stars '*', (c == '*') = true := by
    intro c hc
    rw [(List.mem_replicate.1 hc).2]
    rfl
  rw [trim_eq_self_of_forall fun c hc => isBlank_of_mem_starred hword stars hc,
    List.dropWhile_append_of_pos hstars]
  apply List.dropWhile_eq_self_iff.2
  intro hlength hstar
  have hhead := hword _ (List.getElem_mem hlength)
  rw [beq_iff_eq.1 hstar] at hhead
  exact absurd hhead (by decide)

end Starred

end CallSchema.Text
