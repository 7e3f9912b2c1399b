import PowerSink.Nvm.Image

/-!
# The sectors that differ

A mask whose unused bits are clear is the set of its members, and every difference is such a mask.
It is empty only for equal sectors. `Locates` says in terms of single bytes that a mask names the
sectors in which a memory is not the image; only one mask does, and only if there is such a sector.
-/

namespace PowerSink

namespace SectorMask

def Known (m : SectorMask) : Prop := ∀ n, sectorCount ≤ n → m.testBit n = false

theorem eq_of_known {a b : SectorMask} (hA : a.Known) (hB : b.Known)
    (hMem : ∀ i, i ∈ a ↔ i ∈ b) : a = b := by
  ext n _
  by_cases hn : n < sectorCount
  · have hBit := hMem (.ofFin ⟨n, hn⟩)
    rw [mem_iff, mem_iff, SectorIndex.toNat_ofFin] at hBit
    exact Bool.eq_iff_iff.mpr hBit
  · rw [hA n (Nat.le_of_not_lt hn), hB n (Nat.le_of_not_lt hn)]

theorem known_empty : (∅ : SectorMask).Known := fun n _ => testBit_empty n

theorem known_ofList (indices : List SectorIndex) : (ofList indices).Known := by
  intro n hn
  rw [testBit_ofList, List.any_eq_false]
  intro i _ hEq
  have hLt := i.toNat_lt
  have hNat := of_decide_eq_true hEq
  omega

theorem Known.inter {a : SectorMask} (hA : a.Known) (b : SectorMask) : (a ∩ b).Known := by
  intro n hn
  rw [testBit_inter, hA n hn, Bool.false_and]

theorem Known.sdiff {a : SectorMask} (hA : a.Known) (b : SectorMask) : (a \ b).Known := by
  intro n hn
  rw [testBit_sdiff, hA n hn, Bool.false_and]

theorem Known.symmDiff {a b : SectorMask} (hA : a.Known) (hB : b.Known) :
    (symmDiff a b).Known := by
  intro n hn
  rw [testBit_symmDiff, hA n hn, hB n hn, Bool.xor_false]

@[simp] theorem not_mem_empty (i : SectorIndex) : i ∉ (∅ : SectorMask) := by
  simp [mem_iff]

@[simp] theorem mem_inter {i : SectorIndex} {a b : SectorMask} : i ∈ a ∩ b ↔ i ∈ a ∧ i ∈ b := by
  simp [mem_iff]

@[simp] theorem mem_sdiff {i : SectorIndex} {a b : SectorMask} : i ∈ a \ b ↔ i ∈ a ∧ i ∉ b := by
  simp [mem_iff]

@[simp] theorem mem_union {i : SectorIndex} {a b : SectorMask} : i ∈ a ∪ b ↔ i ∈ a ∨ i ∈ b := by
  simp [mem_iff]

@[simp] theorem mem_symmDiff {i : SectorIndex} {a b : SectorMask} :
    i ∈ symmDiff a b ↔ ¬(i ∈ a ↔ i ∈ b) := by
  rw [mem_iff, mem_iff, mem_iff, testBit_symmDiff]
  cases a.testBit i.toNat <;> cases b.testBit i.toNat <;> decide

theorem Known.subset_iff {a b : SectorMask} (hA : a.Known) : a ⊆ b ↔ ∀ i ∈ a, i ∈ b := by
  constructor
  · intro h i hi
    exact (SectorMask.subset_iff.mp h) i.toNat hi
  · intro h
    exact eq_of_known (hA.inter b) hA fun i => by
      rw [mem_inter]
      exact and_iff_left_of_imp (h i)

theorem single_subset_iff {i : SectorIndex} {m : SectorMask} : single i ⊆ m ↔ i ∈ m := by
  rw [SectorMask.subset_iff]
  constructor
  · intro h
    exact h i.toNat (by rw [testBit_single, decide_eq_true_eq])
  · intro hi n hn
    rw [testBit_single, decide_eq_true_eq] at hn
    rwa [hn]

@[simp] theorem empty_inter (a : SectorMask) : ∅ ∩ a = ∅ := by
  ext n _
  rw [testBit_inter, testBit_empty, Bool.false_and]

@[simp] theorem inter_empty (a : SectorMask) : a ∩ ∅ = ∅ := by
  ext n _
  rw [testBit_inter, testBit_empty, Bool.and_false]

theorem inter_inter_self (a b : SectorMask) : a ∩ b ∩ b = a ∩ b := by
  ext n _
  rw [testBit_inter, testBit_inter, Bool.and_assoc, Bool.and_self]

theorem inter_subset_left (a b : SectorMask) : a ∩ b ⊆ a := by
  rw [SectorMask.subset_iff]
  intro n hn
  rw [testBit_inter, Bool.and_eq_true] at hn
  exact hn.1

end SectorMask

theorem exists_get_ne_iff {α : Type} {n : Nat} {xs ys : Vector α n} :
    (∃ j : Fin n, xs.get j ≠ ys.get j) ↔ xs ≠ ys := by
  constructor
  · rintro ⟨j, hNe⟩ rfl
    exact hNe rfl
  · intro hNe
    rw [ne_eq, Vector.ext_iff, Classical.not_forall] at hNe
    obtain ⟨j, hNe⟩ := hNe
    obtain ⟨hj, hNe⟩ := Classical.not_forall.mp hNe
    exact ⟨⟨j, hj⟩, hNe⟩

namespace NvmImage

variable {image : NvmImage} {found : Sectors}

theorem known_diff (image : NvmImage) (found : Sectors) : (image.diff found).Known :=
  SectorMask.known_ofList _

theorem not_mem_diff {i : SectorIndex} :
    i ∉ image.diff found ↔ found.get i.toFin = image.sectorAt i := by
  rw [mem_diff, Classical.not_not]
  exact eq_comm

theorem not_mem_diff_ofFin {i : Fin sectorCount} :
    SectorIndex.ofFin i ∉ image.diff found ↔ found.get i = image.sectors.get i := by
  rw [not_mem_diff, sectorAt, SectorIndex.toFin_ofFin]

theorem diff_eq_empty_iff : image.diff found = ∅ ↔ found = image.sectors := by
  constructor
  · intro hEmpty
    apply Vector.ext
    intro n hn
    have hSame : SectorIndex.ofFin ⟨n, hn⟩ ∉ image.diff found := by
      rw [hEmpty]
      exact SectorMask.not_mem_empty _
    exact not_mem_diff_ofFin.mp hSame
  · rintro rfl
    exact SectorMask.eq_of_known (known_diff image _) SectorMask.known_empty fun i => by
      simp [sectorAt]

theorem isEmpty_diff : (image.diff found).isEmpty = decide (found = image.sectors) := by
  rw [SectorMask.isEmpty, decide_eq_decide]
  exact diff_eq_empty_iff

theorem mem_diff_iff_byte {i : SectorIndex} :
    i ∈ image.diff found ↔ ∃ j, (found.get i.toFin).get j ≠ (image.sectorAt i).get j := by
  rw [mem_diff, exists_get_ne_iff]
  exact ne_comm

theorem exists_byte_ne_iff :
    (∃ i j, (found.get i).get j ≠ (image.sectors.get i).get j) ↔
      found ≠ image.sectors := by
  rw [← exists_get_ne_iff]
  exact exists_congr fun _ => exists_get_ne_iff

theorem forall_byte_eq_iff :
    (∀ i j, (found.get i).get j = (image.sectors.get i).get j) ↔ found = image.sectors := by
  constructor
  · intro hSame
    apply Classical.byContradiction
    intro hNe
    obtain ⟨i, j, hByte⟩ := exists_byte_ne_iff.mpr hNe
    exact hByte (hSame i j)
  · rintro rfl i j
    rfl

/-- At least one sector of `found` is not that of the image, and `m` is the set of all such sectors. -/
structure Locates (image : NvmImage) (found : Sectors) (m : SectorMask) : Prop where
  nonempty : m ≠ ∅
  known : m.Known
  mem_iff : ∀ i, i ∈ m ↔ ∃ j, (found.get i.toFin).get j ≠ (image.sectorAt i).get j

theorem locates_iff {m : SectorMask} :
    image.Locates found m ↔ found ≠ image.sectors ∧ m = image.diff found := by
  constructor
  · intro h
    have hEq : m = image.diff found := SectorMask.eq_of_known h.known (known_diff image found)
      fun i => (h.mem_iff i).trans mem_diff_iff_byte.symm
    exact ⟨fun hSame => h.nonempty (hEq.trans (diff_eq_empty_iff.mpr hSame)), hEq⟩
  · rintro ⟨hNe, rfl⟩
    exact ⟨fun hEmpty => hNe (diff_eq_empty_iff.mp hEmpty), known_diff image found,
      fun _ => mem_diff_iff_byte⟩

end NvmImage

end PowerSink
