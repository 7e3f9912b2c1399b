import Mathlib.Algebra.Group.Nat.Defs
import PowerSink.Pdo.Field

/-!
# Fields bit by bit

Bit `n` of a field is bit `low + n` of the word. Writing a field sets these bits from the value
and no other, and the number read from a field is a digit of the word in base `2 ^ width`.
-/

namespace PowerSink.FixedPdo.Field

theorem width_bounds (field : Field) : 0 < field.width ∧ field.width ≤ 10 := by
  cases field with
  | fixed => decide
  | reserved => decide
  | flag f => exact ⟨Nat.one_pos, Nat.le_add_left 1 9⟩
  | quantity q => cases q <;> decide

theorem low_add_width_le (field : Field) : field.low + field.width ≤ 32 := by
  cases field with
  | fixed => decide
  | reserved => decide
  | flag f => cases f <;> decide
  | quantity q => cases q <;> decide

theorem low_lt (field : Field) : field.low < 32 :=
  Nat.lt_of_lt_of_le (Nat.lt_add_of_pos_right field.width_bounds.1) field.low_add_width_le

theorem toNat_low (field : Field) : (UInt32.ofNat field.low).toNat = field.low :=
  UInt32.toNat_ofNat_of_lt' (Nat.lt_trans field.low_lt (by decide))

theorem toNat_shift (field : Field) :
    ((UInt32.ofNat field.low).toBitVec % 32).toNat = field.low := by
  rw [BitVec.toNat_umod, UInt32.toNat_toBitVec, toNat_low]
  exact Nat.mod_eq_of_lt field.low_lt

theorem toNat_ones (field : Field) : field.ones.toNat = 2 ^ field.width - 1 := by
  have bound : 2 ^ field.width ≤ 2 ^ 10 := Nat.pow_le_pow_right (by decide) field.width_bounds.2
  rw [ones, Nat.one_shiftLeft]
  exact UInt32.toNat_ofNat_of_lt' (Nat.lt_of_le_of_lt (Nat.sub_le _ 1)
    (Nat.lt_of_le_of_lt bound (by decide)))

theorem testBit_ones (field : Field) (n : Nat) :
    field.ones.toBitVec.getLsbD n = decide (n < field.width) := by
  rw [BitVec.getLsbD, UInt32.toNat_toBitVec, toNat_ones, Nat.testBit_two_pow_sub_one]

theorem toNat_read (field : Field) (word : UInt32) :
    (field.read word).toNat = word.toNat / 2 ^ field.low % 2 ^ field.width := by
  rw [read, UInt32.toNat_and, UInt32.toNat_shiftRight, toNat_low, toNat_ones,
    Nat.mod_eq_of_lt field.low_lt, Nat.shiftRight_eq_div_pow, Nat.and_two_pow_sub_one_eq_mod]

theorem testBit_read (field : Field) (word : UInt32) (n : Nat) :
    (field.read word).toBitVec.getLsbD n =
      (decide (n < field.width) && word.toBitVec.getLsbD (field.low + n)) := by
  have shift : field.low % 32 = field.low := Nat.mod_eq_of_lt field.low_lt
  simp [read, BitVec.getLsbD_ushiftRight, shift, testBit_ones, Bool.and_comm]

theorem testBit_write (field : Field) (value word : UInt32) (n : Nat) :
    (field.write value word).toBitVec.getLsbD n =
      if field.low ≤ n ∧ n < field.low + field.width then
        value.toBitVec.getLsbD (n - field.low)
      else
        word.toBitVec.getLsbD n := by
  have fits := field.low_add_width_le
  simp only [write, UInt32.toBitVec_or, UInt32.toBitVec_and, UInt32.toBitVec_not,
    UInt32.toBitVec_shiftLeft, BitVec.shiftLeft_eq', toNat_shift, BitVec.getLsbD_or,
    BitVec.getLsbD_and, BitVec.getLsbD_not, BitVec.getLsbD_shiftLeft, testBit_ones]
  by_cases inside : n < 32
  · by_cases below : n < field.low
    · simp [inside, below, Nat.not_le.mpr below]
    · have offset : n - field.low < field.width ↔ n < field.low + field.width := by omega
      by_cases covered : n < field.low + field.width
      · simp [inside, below, Nat.le_of_not_lt below, offset, covered]
      · simp [inside, below, offset, covered]
  · have outside := BitVec.getLsbD_of_ge word.toBitVec n (Nat.le_of_not_lt inside)
    rw [if_neg (by omega), outside]
    simp [inside]

end PowerSink.FixedPdo.Field
