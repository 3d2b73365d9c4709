import Mathlib

/-!
# Decimal numerals

A numeral without leading zeros is the one spelling of its number.
-/

namespace Decimal

/-- Digits, at least one of them, with no leading zero but in `0` itself. -/
structure Numeral (digits : List Char) : Prop where
  nonempty : digits ≠ []
  isDigit : ∀ c ∈ digits, c.isDigit = true
  leading : 1 < digits.length → digits.head? ≠ some '0'

lemma digitChar_of_isDigit {c : Char} (h : c.isDigit = true) :
    (c.toNat - '0'.toNat).digitChar = c := by
  simp only [Char.isDigit, Bool.and_eq_true, decide_eq_true_eq, ge_iff_le, UInt32.le_iff_toNat_le] at h
  have hlow : 48 ≤ c.toNat := h.1
  have hhigh : c.toNat ≤ 57 := h.2
  apply Char.toNat_inj.mp
  rw [Nat.toNat_digitChar_of_lt_ten (show c.toNat - '0'.toNat < 10 by
    change c.toNat - 48 < 10; omega)]
  change 48 + (c.toNat - 48) = c.toNat
  omega

lemma value_lt_of_isDigit {c : Char} (h : c.isDigit = true) : c.toNat - '0'.toNat < 10 := by
  simp only [Char.isDigit, Bool.and_eq_true, decide_eq_true_eq, ge_iff_le, UInt32.le_iff_toNat_le] at h
  have hhigh : c.toNat ≤ 57 := h.2
  change c.toNat - 48 < 10
  omega

/-- Digits behind a number that is not zero are the digits behind its numeral. -/
lemma toDigits_ofDigitChars_append {digits : List Char} (h : ∀ c ∈ digits, c.isDigit = true)
    {start : ℕ} (hstart : 0 < start) :
    Nat.toDigits 10 (Nat.ofDigitChars 10 digits start) = Nat.toDigits 10 start ++ digits := by
  induction digits generalizing start with
  | nil => simp
  | cons c digits ih =>
    obtain ⟨hc, hdigits⟩ := List.forall_mem_cons.mp h
    have hlt := value_lt_of_isDigit hc
    rw [Nat.ofDigitChars_cons, ih hdigits (by omega),
      ← Nat.toDigits_append_toDigits (by decide) hstart hlt, Nat.toDigits_of_lt_base hlt,
      digitChar_of_isDigit hc, List.append_assoc]
    rfl

/-- A numeral is the spelling of its number. -/
lemma Numeral.toDigits_ofDigitChars {digits : List Char} (h : Numeral digits) :
    Nat.toDigits 10 (Nat.ofDigitChars 10 digits 0) = digits := by
  cases digits with
  | nil => exact absurd rfl h.nonempty
  | cons c digits =>
    obtain ⟨hc, hdigits⟩ := List.forall_mem_cons.mp h.isDigit
    have hlt := value_lt_of_isDigit hc
    rw [Nat.ofDigitChars_cons, Nat.mul_zero, Nat.zero_add]
    cases digits with
    | nil => rw [Nat.ofDigitChars_nil, Nat.toDigits_of_lt_base hlt, digitChar_of_isDigit hc]
    | cons d digits =>
      have hpos : 0 < c.toNat - '0'.toNat := by
        by_contra hzero
        have hc0 := digitChar_of_isDigit hc
        rw [Nat.eq_zero_of_not_pos hzero] at hc0
        exact h.leading (by simp) (by rw [List.head?_cons, ← hc0]; rfl)
      rw [toDigits_ofDigitChars_append hdigits hpos, Nat.toDigits_of_lt_base hlt,
        digitChar_of_isDigit hc]
      rfl

end Decimal
