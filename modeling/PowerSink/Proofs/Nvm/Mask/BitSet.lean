import Mathlib.Algebra.BigOperators.Group.Finset.Basic
import Mathlib.Data.Finset.SymmDiff
import PowerSink.Proofs.Nvm.Difference
import PowerSink.Proofs.Nvm.Index

/-!
# Masks as sets of bit numbers

The bits that are set in a mask form a finite set of numbers below eight. Only one mask has a given
set, each operation on masks is one on sets, and the sectors of a mask are the numbers below five in
its set. What `count` counts beyond the sectors are the numbers from five on.
-/

namespace PowerSink.SectorMask

open Finset
open scoped symmDiff

def bitSet (m : SectorMask) : Finset ℕ := (range 8).filter fun n => m.bits.toNat.testBit n

theorem mem_bitSet {m : SectorMask} {n : ℕ} : n ∈ m.bitSet ↔ m.testBit n = true := by
  have hBit : m.testBit n = m.bits.toNat.testBit n := rfl
  rw [bitSet, mem_filter, mem_range, ← hBit]
  refine and_iff_right_of_imp fun hSet => ?_
  by_contra hn
  rw [testBit_eq_false (Nat.le_of_not_lt hn)] at hSet
  cases hSet

theorem mem_iff_mem_bitSet {m : SectorMask} {i : SectorIndex} : i ∈ m ↔ i.toNat ∈ m.bitSet :=
  mem_bitSet.symm

theorem bitSet_injective : Function.Injective bitSet := by
  intro a b hSame
  ext n _
  rw [Bool.eq_iff_iff, ← mem_bitSet, ← mem_bitSet, hSame]

@[simp] theorem bitSet_empty : (∅ : SectorMask).bitSet = ∅ := by
  ext n
  simp [mem_bitSet]

@[simp] theorem bitSet_union (a b : SectorMask) : (a ∪ b).bitSet = a.bitSet ∪ b.bitSet := by
  ext n
  simp [mem_bitSet]

@[simp] theorem bitSet_inter (a b : SectorMask) : (a ∩ b).bitSet = a.bitSet ∩ b.bitSet := by
  ext n
  simp [mem_bitSet]

@[simp] theorem bitSet_sdiff (a b : SectorMask) : (a \ b).bitSet = a.bitSet \ b.bitSet := by
  ext n
  simp [mem_bitSet]

@[simp] theorem bitSet_symmDiff (a b : SectorMask) :
    (symmDiff a b).bitSet = a.bitSet ∆ b.bitSet := by
  ext n
  cases hA : a.testBit n <;> cases hB : b.testBit n <;>
    simp [mem_bitSet, Finset.mem_symmDiff, hA, hB]

@[simp] theorem bitSet_single (i : SectorIndex) : (single i).bitSet = {i.toNat} := by
  ext n
  simp [mem_bitSet, testBit_single]

@[simp] theorem bitSet_insert (i : SectorIndex) (m : SectorMask) :
    (m.insert i).bitSet = Insert.insert i.toNat m.bitSet := by
  rw [insert, bitSet_union, bitSet_single, union_comm, singleton_union]

theorem bitSet_ofList (indices : List SectorIndex) :
    (ofList indices).bitSet = (indices.map SectorIndex.toNat).toFinset := by
  ext n
  rw [mem_bitSet, testBit_ofList, List.any_eq_true, List.mem_toFinset, List.mem_map]
  exact exists_congr fun i => and_congr_right fun _ => decide_eq_true_iff.trans eq_comm

@[simp] theorem bitSet_all : all.bitSet = range sectorCount := by
  ext n
  rw [mem_bitSet, testBit_all, decide_eq_true_eq, mem_range]

theorem subset_iff_bitSet {a b : SectorMask} : a ⊆ b ↔ a.bitSet ⊆ b.bitSet := by
  rw [subset_iff]
  exact forall_congr' fun n => by rw [mem_bitSet, mem_bitSet]

theorem eq_empty_iff {m : SectorMask} : m = ∅ ↔ m.bitSet = ∅ := by
  rw [← bitSet_empty, bitSet_injective.eq_iff]

theorem isEmpty_eq (m : SectorMask) : m.isEmpty = decide (m.bitSet = ∅) :=
  decide_eq_decide.mpr eq_empty_iff

theorem isAll_eq (m : SectorMask) : m.isAll = decide (range sectorCount ⊆ m.bitSet) := by
  rw [isAll, decide_eq_decide, subset_iff_bitSet, bitSet_all]

theorem intersects_eq (a b : SectorMask) :
    a.intersects b = decide (a.bitSet ∩ b.bitSet).Nonempty := by
  rw [intersects, decide_eq_decide, ne_eq, eq_empty_iff, bitSet_inter, nonempty_iff_ne_empty]

theorem bitSet_ofBitsTruncate (bits : UInt8) :
    (ofBitsTruncate bits).bitSet = (SectorMask.mk bits).bitSet ∩ range sectorCount := by
  rw [ofBitsTruncate, bitSet_inter, bitSet_all]

theorem ofBits?_eq (bits : UInt8) :
    ofBits? bits =
      if (SectorMask.mk bits).bitSet ⊆ range sectorCount then some ⟨bits⟩ else none := by
  rw [ofBits?]
  refine if_congr ?_ rfl rfl
  rw [← bitSet_injective.eq_iff, bitSet_ofBitsTruncate, inter_eq_left]

/-- Bits that no sector uses are clear in every complement. -/
theorem bitSet_complement (m : SectorMask) : m.complement.bitSet = range sectorCount \ m.bitSet := by
  ext n
  rw [complement, bitSet_ofBitsTruncate, Finset.mem_inter, Finset.mem_sdiff, and_comm, mem_bitSet,
    mem_bitSet]
  refine and_congr_right fun hn => ?_
  have hWidth : n < 8 := Nat.lt_trans (mem_range.mp hn) (by decide)
  simp [testBit, hWidth]

theorem known_iff {m : SectorMask} : m.Known ↔ m.bitSet ⊆ range sectorCount := by
  constructor
  · intro hKnown n hn
    rw [mem_range]
    by_contra hUnused
    rw [mem_bitSet, hKnown n (Nat.le_of_not_lt hUnused)] at hn
    cases hn
  · intro hSubset n hn
    rw [← Bool.not_eq_true, ← mem_bitSet]
    intro hMem
    exact Nat.not_lt.mpr hn (mem_range.mp (hSubset hMem))

theorem pairwise_sectors (m : SectorMask) : m.sectors.Pairwise (· < ·) :=
  SectorIndex.pairwise_all.filter _

/-- The sectors of a mask in ascending order, as numbers. -/
theorem map_toNat_sectors (m : SectorMask) :
    m.sectors.map SectorIndex.toNat = (List.range sectorCount).filter fun n => n ∈ m.bitSet := by
  rw [← SectorIndex.map_toNat_all, List.filter_map]
  exact congrArg (List.map SectorIndex.toNat)
    (List.filter_congr fun i _ => decide_eq_decide.mpr mem_iff_mem_bitSet)

theorem count_eq_card (m : SectorMask) : m.count = m.bitSet.card := by
  have hNumbers : m.bitNumbers.map Fin.val =
      (List.range 8).filter fun n => decide (m.testBit n = true) := by
    simp only [Bool.decide_eq_true]
    rw [bitNumbers, ← List.map_coe_finRange_eq_range, List.filter_map]
    rfl
  rw [count, ← List.length_map Fin.val, hNumbers]
  rfl

theorem sum_two_pow_testBit (v k : ℕ) :
    ∑ n ∈ (range k).filter (fun n => v.testBit n), 2 ^ n = v % 2 ^ k := by
  induction k with
  | zero => simp [Nat.mod_one]
  | succ k ih =>
    rw [sum_filter] at ih ⊢
    rw [sum_range_succ, ih, Nat.mod_pow_succ, Nat.testBit_eq_decide_div_mod_eq]
    rcases Nat.mod_two_eq_zero_or_one (v / 2 ^ k) with hBit | hBit <;> simp [hBit]

theorem sum_two_pow_bitSet (m : SectorMask) : ∑ n ∈ m.bitSet, 2 ^ n = m.bits.toNat :=
  (sum_two_pow_testBit m.bits.toNat 8).trans (Nat.mod_eq_of_lt m.bits.toNat_lt)

theorem length_sectors (m : SectorMask) :
    m.sectors.length = (m.bitSet ∩ range sectorCount).card := by
  have hLength := congrArg List.length m.map_toNat_sectors
  rw [List.length_map] at hLength
  rw [hLength, inter_comm, ← filter_mem_eq_inter]
  rfl

theorem count_eq_add (m : SectorMask) :
    m.count = m.sectors.length + (m.bitSet \ range sectorCount).card := by
  rw [count_eq_card, length_sectors, card_inter_add_card_sdiff]

theorem Known.count_eq {m : SectorMask} (hKnown : m.Known) : m.count = m.sectors.length := by
  rw [count_eq_add, sdiff_eq_empty_iff_subset.mpr (known_iff.mp hKnown), card_empty, Nat.add_zero]

end PowerSink.SectorMask
