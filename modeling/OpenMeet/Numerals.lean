import Mathlib.Data.Nat.Digits.Lemmas
import Mathlib.Tactic.Ring

/-!
Numerals of a fixed width, the most significant digit first, and the long
division that takes their digits one after the other.
-/
namespace OpenMeet.Numerals

/-- The digits of a number, padded with zeros to the width. -/
def numeral (base width n : ℕ) : List ℕ := (Nat.digitsAppend base width n).reverse

/-- Horner's rule. -/
def value (base : ℕ) (digits : List ℕ) : ℕ := digits.foldl (fun acc digit => acc * base + digit) 0

def divideDigit (base divisor : ℕ) (acc : ℕ × List ℕ) (digit : ℕ) : ℕ × List ℕ :=
  ((acc.1 * base + digit) % divisor, acc.2 ++ [(acc.1 * base + digit) / divisor])

/-- Divide a numeral digit by digit; the remainder comes first. -/
def longDivision (base divisor : ℕ) (digits : List ℕ) : ℕ × List ℕ :=
  digits.foldl (divideDigit base divisor) (0, [])

section Value

variable {base : ℕ}

@[simp] theorem value_nil : value base [] = 0 := rfl

theorem value_concat (digits : List ℕ) (digit : ℕ) :
    value base (digits ++ [digit]) = value base digits * base + digit := by
  simp [value]

/-- A numeral of value zero has only zeros. -/
theorem eq_replicate_of_value (hbase : 0 < base) {digits : List ℕ} (h : value base digits = 0) :
    digits = List.replicate digits.length 0 := by
  induction digits using List.reverseRecOn with
  | nil => rfl
  | append_singleton digits digit ih =>
    rw [value_concat] at h
    have hfirst : value base digits = 0 := by
      have := (Nat.add_eq_zero_iff.mp h).1
      exact (Nat.mul_eq_zero.mp this).resolve_right (by omega)
    have hlast : digit = 0 := (Nat.add_eq_zero_iff.mp h).2
    rw [List.length_append, List.length_singleton, List.replicate_succ', hlast, ← ih hfirst]

end Value

section Division

variable {base divisor : ℕ}

theorem longDivision_concat (digits : List ℕ) (digit : ℕ) :
    longDivision base divisor (digits ++ [digit]) =
      divideDigit base divisor (longDivision base divisor digits) digit := by
  simp [longDivision]

theorem longDivision_length (digits : List ℕ) :
    (longDivision base divisor digits).2.length = digits.length := by
  induction digits using List.reverseRecOn with
  | nil => rfl
  | append_singleton digits digit ih => simp [longDivision_concat, divideDigit, ih]

theorem longDivision_remainder_lt (hdivisor : 0 < divisor) (digits : List ℕ) :
    (longDivision base divisor digits).1 < divisor := by
  induction digits using List.reverseRecOn with
  | nil => exact hdivisor
  | append_singleton digits digit ih =>
    rw [longDivision_concat]
    exact Nat.mod_lt _ hdivisor

/-- What the division takes apart is the value of the numeral. -/
theorem value_longDivision (digits : List ℕ) :
    value base (longDivision base divisor digits).2 * divisor +
      (longDivision base divisor digits).1 = value base digits := by
  induction digits using List.reverseRecOn with
  | nil => simp [longDivision]
  | append_singleton digits digit ih =>
    rw [longDivision_concat, value_concat, ← ih, divideDigit]
    dsimp only
    generalize longDivision base divisor digits = divided
    rw [value_concat]
    have hsplit := Nat.div_add_mod (divided.1 * base + digit) divisor
    calc (value base divided.2 * base + (divided.1 * base + digit) / divisor) * divisor +
          (divided.1 * base + digit) % divisor
        = value base divided.2 * base * divisor +
            (divisor * ((divided.1 * base + digit) / divisor) +
              (divided.1 * base + digit) % divisor) := by ring
      _ = value base divided.2 * base * divisor + (divided.1 * base + digit) := by rw [hsplit]
      _ = (value base divided.2 * divisor + divided.1) * base + digit := by ring

theorem value_quotient (hdivisor : 0 < divisor) (digits : List ℕ) :
    value base (longDivision base divisor digits).2 = value base digits / divisor := by
  have hvalue : value base (longDivision base divisor digits).2 * divisor + _ = _ :=
    value_longDivision digits
  have hlt : (longDivision base divisor digits).1 < divisor :=
    longDivision_remainder_lt hdivisor digits
  rw [← hvalue, Nat.add_comm, Nat.add_mul_div_right _ _ hdivisor, Nat.div_eq_of_lt hlt,
    Nat.zero_add]

theorem longDivision_remainder (hdivisor : 0 < divisor) (digits : List ℕ) :
    (longDivision base divisor digits).1 = value base digits % divisor := by
  have hvalue : value base (longDivision base divisor digits).2 * divisor + _ = _ :=
    value_longDivision digits
  have hlt : (longDivision base divisor digits).1 < divisor :=
    longDivision_remainder_lt hdivisor digits
  rw [← hvalue, Nat.add_comm, Nat.add_mul_mod_self_right, Nat.mod_eq_of_lt hlt]

end Division

section Numeral

variable {base : ℕ} (hbase : 1 < base)

include hbase

/-- The last digit is the remainder, and the others are the numeral of the quotient. -/
theorem numeral_succ (width n : ℕ) :
    numeral base (width + 1) n = numeral base width (n / base) ++ [n % base] := by
  unfold numeral Nat.digitsAppend
  rw [← List.reverse_cons]
  apply congrArg
  by_cases hn : n = 0
  · subst hn
    simp [List.replicate_succ]
  · rw [Nat.digits_def' hbase (by omega)]
    simp

theorem numeral_length {width n : ℕ} (hn : n < base ^ width) :
    (numeral base width n).length = width := by
  rw [numeral, List.length_reverse, Nat.length_digitsAppend hbase width hn]

theorem lt_of_mem_numeral {width n digit : ℕ} (h : digit ∈ numeral base width n) : digit < base :=
  Nat.lt_of_mem_digitsAppend hbase width digit (List.mem_reverse.mp h)

theorem value_numeral (width n : ℕ) (hn : n < base ^ width) :
    value base (numeral base width n) = n := by
  induction width generalizing n with
  | zero =>
    have : n = 0 := by simpa using hn
    simp [this, numeral, Nat.digitsAppend]
  | succ width ih =>
    have hdiv : n / base < base ^ width := Nat.div_lt_of_lt_mul (by rwa [← Nat.pow_succ'])
    rw [numeral_succ hbase, value_concat, ih _ hdiv, Nat.mul_comm]
    exact Nat.div_add_mod n base

theorem numeral_injective {width n m : ℕ} (hn : n < base ^ width) (hm : m < base ^ width)
    (h : numeral base width n = numeral base width m) : n = m := by
  rw [← value_numeral hbase width n hn, h, value_numeral hbase width m hm]

/-- Each digit by its place. -/
theorem numeral_eq_map (width n : ℕ) (hn : n < base ^ width) :
    numeral base width n =
      (List.range width).map fun i => n / base ^ (width - 1 - i) % base := by
  induction width generalizing n with
  | zero =>
    have : n = 0 := by simpa using hn
    simp [this, numeral, Nat.digitsAppend]
  | succ width ih =>
    have hdiv : n / base < base ^ width := Nat.div_lt_of_lt_mul (by rwa [← Nat.pow_succ'])
    rw [numeral_succ hbase, ih _ hdiv, List.range_succ, List.map_append, List.map_singleton]
    congr 1
    · apply List.map_congr_left
      intro i hi
      have hlt := List.mem_range.mp hi
      rw [Nat.div_div_eq_div_mul, ← Nat.pow_succ']
      congr 3
      omega
    · simp

end Numeral

end OpenMeet.Numerals
