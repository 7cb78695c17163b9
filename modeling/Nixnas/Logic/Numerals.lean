import Mathlib.Algebra.Group.Nat.Defs
import Mathlib.Tactic.Tauto

/-!
# Numerals of one width

Decimal numerals with zeros in front.  Texts that have numerals of the same widths in
the same places are ordered, letter by letter, as the numbers are.
-/

set_option autoImplicit false

namespace Nixnas.Logic

/-- The text is the number, in decimal digits of which there are `width`. -/
structure Numeral (xs : List Char) (width value : Nat) : Prop where
  length : xs.length = width
  digits : ∀ c ∈ xs, c.isDigit = true
  value : Nat.ofDigitChars 10 xs 0 = value

def digitValue (c : Char) : Nat := c.toNat - '0'.toNat

theorem isDigit_bounds {c : Char} (isDigit : c.isDigit = true) : 48 ≤ c.toNat ∧ c.toNat ≤ 57 :=
  Char.isDigit_iff_toNat.mp isDigit

theorem digitValue_lt {c : Char} (isDigit : c.isDigit = true) : digitValue c < 10 := by
  have bounds := isDigit_bounds isDigit
  change c.toNat - 48 < 10
  omega

/-- Digits are ordered as their values. -/
theorem digit_lt_iff {c d : Char} (isDigit : c.isDigit = true) (isDigit' : d.isDigit = true) :
    c < d ↔ digitValue c < digitValue d := by
  have bounds := isDigit_bounds isDigit
  have bounds' := isDigit_bounds isDigit'
  rw [Char.lt_def, UInt32.lt_iff_toNat_lt]
  change c.toNat < d.toNat ↔ c.toNat - 48 < d.toNat - 48
  omega

theorem digit_inj {c d : Char} (isDigit : c.isDigit = true) (isDigit' : d.isDigit = true) :
    c = d ↔ digitValue c = digitValue d := by
  have bounds := isDigit_bounds isDigit
  have bounds' := isDigit_bounds isDigit'
  rw [← Char.toNat_inj]
  change c.toNat = d.toNat ↔ c.toNat - 48 = d.toNat - 48
  omega

namespace Numeral

variable {xs ys : List Char} {width value other : Nat}

theorem value_cons (c : Char) (xs : List Char) :
    Nat.ofDigitChars 10 (c :: xs) 0 = 10 ^ xs.length * digitValue c + Nat.ofDigitChars 10 xs 0 := by
  rw [Nat.ofDigitChars_cons, Nat.ofDigitChars_eq_ofDigitChars_zero, Nat.mul_zero, Nat.zero_add]
  rfl

theorem value_lt (numeral : Numeral xs width value) : value < 10 ^ width := by
  obtain ⟨rfl, digits, rfl⟩ := numeral
  induction xs with
  | nil => decide
  | cons c xs ih =>
      rw [List.forall_mem_cons] at digits
      have rest := ih digits.2
      have step : 10 ^ xs.length * (digitValue c + 1) ≤ 10 ^ xs.length * 10 :=
        Nat.mul_le_mul_left _ (digitValue_lt digits.1)
      rw [value_cons, List.length_cons, Nat.pow_succ]
      rw [Nat.mul_succ] at step
      omega

/-- One numeral behind the other. -/
theorem append {width' : Nat} (left : Numeral xs width value) (right : Numeral ys width' other) :
    Numeral (xs ++ ys) (width + width') (10 ^ width' * value + other) where
  length := by rw [List.length_append, left.length, right.length]
  digits c member := (List.mem_append.mp member).elim (left.digits c) (right.digits c)
  value := by
    rw [Nat.ofDigitChars_append, left.value, Nat.ofDigitChars_eq_ofDigitChars_zero, right.value,
      right.length]

theorem of_cons {c : Char} (numeral : Numeral (c :: xs) (width + 1) value) :
    c.isDigit = true ∧ Numeral xs width (Nat.ofDigitChars 10 xs 0) ∧
      value = 10 ^ width * digitValue c + Nat.ofDigitChars 10 xs 0 := by
  have digits := List.forall_mem_cons.mp numeral.digits
  have length : xs.length = width := Nat.succ.inj numeral.length
  refine ⟨digits.1, ⟨length, digits.2, rfl⟩, ?_⟩
  rw [← numeral.value, value_cons, length]

/-- With zeros in front, up to the width. -/
theorem padded {n : Nat} (wide : 0 < width) (fits : n < 10 ^ width) :
    Numeral (List.replicate (width - (Nat.toDigits 10 n).length) '0' ++ Nat.toDigits 10 n) width n where
  length := by
    have short := (Nat.length_toDigits_le_iff (by decide : 1 < 10) wide).mpr fits
    rw [List.length_append, List.length_replicate, Nat.sub_add_cancel short]
  digits c member := by
    rcases List.mem_append.mp member with zero | digit
    · rw [List.eq_of_mem_replicate zero]
      decide
    · exact Nat.isDigit_of_mem_toDigits (by decide) (by decide) digit
  value := by
    rw [Nat.ofDigitChars_append, Nat.ofDigitChars_replicate_zero, Nat.mul_zero,
      Nat.ofDigitChars_ten_toDigits]

/-- The first digits decide, and the rest where they are the same. -/
theorem value_lt_iff {k a b v w : Nat} (small : v < k) (small' : w < k) :
    k * a + v < k * b + w ↔ a < b ∨ a = b ∧ v < w := by
  rcases Nat.lt_trichotomy a b with less | rfl | greater
  · have step : k * (a + 1) ≤ k * b := Nat.mul_le_mul_left k less
    rw [Nat.mul_succ] at step
    omega
  · omega
  · have step : k * (b + 1) ≤ k * a := Nat.mul_le_mul_left k greater
    rw [Nat.mul_succ] at step
    omega

theorem value_eq_iff {k a b v w : Nat} (small : v < k) (small' : w < k) :
    k * a + v = k * b + w ↔ a = b ∧ v = w := by
  have less := @value_lt_iff k a b v w small small'
  have greater := @value_lt_iff k b a w v small' small
  omega

/-- The first places decide, and where they agree what is behind them does. -/
theorem append_lt_append_iff (left : Numeral xs width value) (right : Numeral ys width other)
    (rest rest' : List Char) :
    xs ++ rest < ys ++ rest' ↔ value < other ∨ value = other ∧ rest < rest' := by
  induction width generalizing xs ys value other with
  | zero =>
      cases List.eq_nil_of_length_eq_zero left.length
      cases List.eq_nil_of_length_eq_zero right.length
      cases left.value
      cases right.value
      simp
  | succ width ih =>
      obtain ⟨c, xs, rfl⟩ := List.exists_cons_of_length_eq_add_one left.length
      obtain ⟨d, ys, rfl⟩ := List.exists_cons_of_length_eq_add_one right.length
      obtain ⟨isDigit, front, rfl⟩ := left.of_cons
      obtain ⟨isDigit', back, rfl⟩ := right.of_cons
      rw [List.cons_append, List.cons_append, List.cons_lt_cons_iff, ih front back,
        digit_lt_iff isDigit isDigit', digit_inj isDigit isDigit',
        value_lt_iff front.value_lt back.value_lt, value_eq_iff front.value_lt back.value_lt]
      tauto

theorem lt_iff (left : Numeral xs width value) (right : Numeral ys width other) :
    xs < ys ↔ value < other := by
  have less := left.append_lt_append_iff right [] []
  rw [List.append_nil, List.append_nil] at less
  simpa using less

end Numeral

end Nixnas.Logic
