import PowerSink.Pdo.Field.Bits

/-!
# Fields share out the word

No two fields have a bit in common and every bit belongs to a field. A write is therefore seen by
its own field alone, which reads as the low bits of the value, and a word is what its fields read.
-/

namespace PowerSink.FixedPdo.Field

theorem mem_all (field : Field) : field ∈ all := by
  cases field with
  | fixed => decide
  | reserved => decide
  | flag f => cases f <;> decide
  | quantity q => cases q <;> decide

theorem apart {a b : Field} (hNe : a ≠ b) :
    a.low + a.width ≤ b.low ∨ b.low + b.width ≤ a.low := by
  have hAll : ∀ a ∈ all, ∀ b ∈ all, a ≠ b →
      a.low + a.width ≤ b.low ∨ b.low + b.width ≤ a.low := by
    decide
  exact hAll a a.mem_all b b.mem_all hNe

theorem exists_low_le {n : Nat} (hn : n < 32) :
    ∃ field : Field, field.low ≤ n ∧ n < field.low + field.width := by
  have hAll : ∀ n < 32, ∃ field ∈ all, field.low ≤ n ∧ n < field.low + field.width := by
    decide
  obtain ⟨field, _, hField⟩ := hAll n hn
  exact ⟨field, hField⟩

/-- The low bits of a value, as many as the field has. -/
def clip (field : Field) (value : UInt32) : UInt32 := value &&& field.ones

theorem testBit_clip (field : Field) (value : UInt32) (n : Nat) :
    (field.clip value).toBitVec.getLsbD n =
      (decide (n < field.width) && value.toBitVec.getLsbD n) := by
  rw [clip, UInt32.toBitVec_and, BitVec.getLsbD_and, testBit_ones, Bool.and_comm]

theorem toNat_clip (field : Field) (value : UInt32) :
    (field.clip value).toNat = value.toNat % 2 ^ field.width := by
  rw [clip, UInt32.toNat_and, toNat_ones, Nat.and_two_pow_sub_one_eq_mod]

theorem toNat_read_lt (field : Field) (word : UInt32) :
    (field.read word).toNat < 2 ^ field.width := by
  rw [toNat_read]
  exact Nat.mod_lt _ (Nat.two_pow_pos _)

theorem toNat_clip_ofNat (field : Field) {n : Nat} (hn : n < 2 ^ field.width) :
    (field.clip (UInt32.ofNat n)).toNat = n := by
  have hWidth : 2 ^ field.width ≤ 2 ^ 10 := Nat.pow_le_pow_right (by decide) field.width_bounds.2
  have hWord : n < UInt32.size := Nat.lt_trans (Nat.lt_of_lt_of_le hn hWidth) (by decide)
  rw [toNat_clip, UInt32.toNat_ofNat_of_lt' hWord, Nat.mod_eq_of_lt hn]

theorem read_write_self (field : Field) (value word : UInt32) :
    field.read (field.write value word) = field.clip value := by
  apply UInt32.toBitVec_inj.mp
  apply BitVec.eq_of_getLsbD_eq
  intro n _
  rw [testBit_read, testBit_clip, testBit_write]
  by_cases hn : n < field.width
  · have hInside : field.low ≤ field.low + n ∧ field.low + n < field.low + field.width := by omega
    rw [if_pos hInside, Nat.add_sub_cancel_left]
  · simp [hn]

theorem read_write_of_ne {field other : Field} (hNe : other ≠ field) (value word : UInt32) :
    other.read (field.write value word) = other.read word := by
  apply UInt32.toBitVec_inj.mp
  apply BitVec.eq_of_getLsbD_eq
  intro n _
  rw [testBit_read, testBit_read, testBit_write]
  by_cases hn : n < other.width
  · have hOutside : ¬(field.low ≤ other.low + n ∧ other.low + n < field.low + field.width) := by
      have hApart := apart hNe
      omega
    rw [if_neg hOutside]
  · simp [hn]

theorem eq_of_read_eq {a b : UInt32} (hRead : ∀ field : Field, field.read a = field.read b) :
    a = b := by
  apply UInt32.toBitVec_inj.mp
  apply BitVec.eq_of_getLsbD_eq
  intro n hn
  obtain ⟨field, hLow, hHigh⟩ := exists_low_le hn
  have hBit : ∀ word : UInt32,
      (field.read word).toBitVec.getLsbD (n - field.low) = word.toBitVec.getLsbD n := by
    intro word
    have hInside : n - field.low < field.width := by omega
    rw [testBit_read, decide_eq_true hInside, Bool.true_and, Nat.add_sub_cancel' hLow]
  rw [← hBit a, ← hBit b, hRead field]

end PowerSink.FixedPdo.Field
