import Mathlib.Data.Nat.Digits.Defs

/-! Numerals: the digits of a number in a base up to ten. -/

namespace Codel00p

def isDigitOf (base : Nat) (c : Char) : Bool := '0'.toNat ≤ c.toNat && c.toNat < '0'.toNat + base

variable {base : Nat}

theorem isDigitOf_digitChar (small : base ≤ 10) {digit : Nat} (fits : digit < base) :
    isDigitOf base digit.digitChar = true := by
  have code : digit.digitChar.toNat = '0'.toNat + digit := Nat.toNat_digitChar_of_lt_ten (by omega)
  simp only [isDigitOf, code, Bool.and_eq_true, decide_eq_true_eq]
  omega

theorem isDigitOf_toDigits (large : 1 < base) (small : base ≤ 10) (value : Nat) :
    ∀ c ∈ Nat.toDigits base value, isDigitOf base c = true := by
  -- The number without its last digit is smaller.
  induction value using Nat.strongRecOn with
  | ind value ih =>
    intro c member
    rw [Nat.toDigits_eq_if large] at member
    split at member
    · next fits =>
      rw [List.mem_singleton.1 member]
      exact isDigitOf_digitChar small fits
    · next more =>
      rcases List.mem_append.1 member with front | last
      · exact ih (value / base) (Nat.div_lt_self (by omega) large) c front
      · rw [List.mem_singleton.1 last]
        exact isDigitOf_digitChar small (Nat.mod_lt value (by omega))

end Codel00p
