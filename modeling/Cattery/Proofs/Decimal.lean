import Cattery.Decimal.Numeral

namespace Cattery

theorem decimalDigit?_eq (c : Char) :
    decimalDigit? c = if c.isDigit then some (c.toNat - 48) else none := by
  have hdigit : ('0' ≤ c && c ≤ '9') = c.isDigit := by
    rw [Bool.eq_iff_iff, Char.isDigit_iff_toNat, Bool.and_eq_true, decide_eq_true_eq,
      decide_eq_true_eq]
    rfl
  rw [decimalDigit?, hdigit]

/-- Digits are taken up to the first character that is none. -/
theorem takeDigits_append {text rest : List Char} (htext : ∀ c ∈ text, c.isDigit = true)
    (hrest : ∀ c ∈ rest.head?, c.isDigit = false) :
    takeDigits (text ++ rest) = (text.map fun c => c.toNat - 48, rest) := by
  induction text with
  | nil =>
    cases rest with
    | nil => rfl
    | cons c rest =>
      have hc : decimalDigit? c = none := by simp [decimalDigit?_eq, hrest c rfl]
      rw [List.nil_append, takeDigits, hc]
      rfl
  | cons c text ih =>
    have hc : decimalDigit? c = some (c.toNat - 48) := by
      simp [decimalDigit?_eq, htext c List.mem_cons_self]
    rw [List.cons_append, takeDigits, hc, ih fun c' hc' => htext c' (List.mem_cons_of_mem c hc')]
    rfl

theorem natOfDigits_map (text : List Char) :
    natOfDigits (text.map fun c => c.toNat - 48) = Nat.ofDigitChars 10 text 0 := by
  rw [natOfDigits, List.foldl_map, Nat.ofDigitChars_eq_foldl]
  rfl

theorem isDigit_of_mem_toDigits {n : Nat} {c : Char} (h : c ∈ Nat.toDigits 10 n) :
    c.isDigit = true :=
  Nat.isDigit_of_mem_toDigits (by decide) (by decide) h

theorem not_mem_toDigits {c : Char} (hc : c.isDigit = false) (n : Nat) :
    c ∉ Nat.toDigits 10 n := by
  intro hmem
  rw [isDigit_of_mem_toDigits hmem] at hc
  exact absurd hc (by decide)

/-- The digits of a printed number. -/
theorem takeDigits_toDigits (n : Nat) {rest : List Char}
    (hrest : ∀ c ∈ rest.head?, c.isDigit = false) :
    ∃ digits, takeDigits (Nat.toDigits 10 n ++ rest) = (digits, rest) ∧ digits ≠ [] ∧
      natOfDigits digits = n := by
  refine ⟨_, takeDigits_append (fun c hc => isDigit_of_mem_toDigits hc) hrest, ?_, ?_⟩
  · simp
  · rw [natOfDigits_map, Nat.ofDigitChars_ten_toDigits]

end Cattery
