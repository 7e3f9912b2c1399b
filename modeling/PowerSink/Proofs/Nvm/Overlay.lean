import PowerSink.Proofs.Nvm.Flat
import PowerSink.Proofs.Nvm.Mask.BitSet

/-!
# The difference as a least mask

Writing an image over some sectors of a memory gives the image exactly if these are all the sectors
that differ and possibly more. So the difference is the smallest set of sectors to write. It behaves
as a distance: nothing for equal images, the same from both sides, and never more than two differences
by way of a third image.
-/

namespace PowerSink

namespace NvmImage

/-- The sectors `found`, those in the mask replaced by the image's. -/
def overlay (image : NvmImage) (found : Sectors) (m : SectorMask) : Sectors :=
  Vector.ofFn fun i =>
    if SectorIndex.ofFin i ∈ m then image.sectors.get i else found.get i

theorem get_overlay (image : NvmImage) (found : Sectors) (m : SectorMask) (i : Fin sectorCount) :
    (image.overlay found m).get i =
      if SectorIndex.ofFin i ∈ m then image.sectors.get i else found.get i :=
  Vector.getElem_ofFn i.isLt

section Least

variable {image : NvmImage} {found : Sectors} {m : SectorMask}

theorem overlay_eq_iff : image.overlay found m = image.sectors ↔ image.diff found ⊆ m := by
  rw [(known_diff image found).subset_iff]
  constructor
  · intro hWhole i hi
    by_contra hOut
    have hKept := image.get_overlay found m i.toFin
    rw [SectorIndex.ofFin_toFin, if_neg hOut, hWhole] at hKept
    exact mem_diff.mp hi hKept
  · intro hAll
    apply Vector.ext
    intro n hn
    refine (image.get_overlay found m ⟨n, hn⟩).trans ?_
    by_cases hIn : SectorIndex.ofFin ⟨n, hn⟩ ∈ m
    · rw [if_pos hIn]
      rfl
    · rw [if_neg hIn]
      exact not_mem_diff_ofFin.mp fun hi => hIn (hAll _ hi)

theorem overlay_diff : image.overlay found (image.diff found) = image.sectors :=
  overlay_eq_iff.mpr ((known_diff image found).subset_iff.mpr fun _ => id)

end Least

section Bytes

variable {a b : NvmImage}

theorem mem_diff_iff_flat {i : SectorIndex} :
    i ∈ a.diff b.sectors ↔ ∃ n, n / sectorSize = i.toNat ∧ a.toBytes[n]? ≠ b.toBytes[n]? := by
  rw [mem_diff_iff_byte]
  constructor
  · rintro ⟨j, hByte⟩
    refine ⟨sectorSize * i.toNat + j.val, ?_, ?_⟩
    · have hj := j.isLt
      simp only [sectorSize] at hj ⊢
      omega
    · rw [a.getElem?_toBytes_of_lt i.toNat_lt j.isLt, b.getElem?_toBytes_of_lt i.toNat_lt j.isLt]
      exact fun hSame => hByte (Option.some.inj hSame).symm
  · rintro ⟨n, hRow, hByte⟩
    refine ⟨⟨n % sectorSize, Nat.mod_lt n (by decide)⟩, fun hSame => hByte ?_⟩
    rw [a.getElem?_toBytes_of_div hRow, b.getElem?_toBytes_of_div hRow]
    exact congrArg some hSame.symm

/-- Behind the last sector there is no byte that could differ. -/
theorem testBit_diff_iff_flat {i : Nat} :
    (a.diff b.sectors).testBit i = true ↔
      ∃ n, n / sectorSize = i ∧ a.toBytes[n]? ≠ b.toBytes[n]? := by
  by_cases hi : i < sectorCount
  · have hMem : SectorIndex.ofFin ⟨i, hi⟩ ∈ a.diff b.sectors ↔ _ := mem_diff_iff_flat
    rwa [SectorMask.mem_iff, SectorIndex.toNat_ofFin] at hMem
  · rw [known_diff a b.sectors i (Nat.le_of_not_lt hi)]
    refine iff_of_false Bool.false_ne_true ?_
    rintro ⟨n, rfl, hByte⟩
    have hBehind : imageSize ≤ n := by
      rw [Nat.div_lt_iff_lt_mul (by decide)] at hi
      exact Nat.le_of_not_lt hi
    rw [Vector.getElem?_eq_none hBehind, Vector.getElem?_eq_none hBehind] at hByte
    exact hByte rfl

theorem isEmpty_diff_iff : (a.diff b.sectors).isEmpty = true ↔ a = b := by
  rw [isEmpty_diff, decide_eq_true_eq]
  constructor
  · intro hSame
    exact congrArg NvmImage.mk hSame.symm
  · rintro rfl
    rfl

end Bytes

section Distance

theorem diff_comm (a b : NvmImage) : a.diff b.sectors = b.diff a.sectors :=
  SectorMask.eq_of_known (known_diff a b.sectors) (known_diff b a.sectors) fun i => by
    rw [mem_diff, mem_diff]
    exact ne_comm

variable (a b c : NvmImage)

theorem diff_subset_union :
    a.diff c.sectors ⊆ a.diff b.sectors ∪ b.diff c.sectors := by
  rw [(known_diff a c.sectors).subset_iff]
  intro i hi
  rw [mem_diff] at hi
  rw [SectorMask.mem_union, mem_diff, mem_diff]
  by_contra hNone
  rw [not_or, Classical.not_not, Classical.not_not] at hNone
  exact hi (hNone.1.trans hNone.2)

theorem symmDiff_subset_diff :
    SectorMask.symmDiff (a.diff b.sectors) (b.diff c.sectors) ⊆ a.diff c.sectors := by
  rw [((known_diff a b.sectors).symmDiff (known_diff b c.sectors)).subset_iff]
  intro i hi
  rw [SectorMask.mem_symmDiff, mem_diff, mem_diff] at hi
  rw [mem_diff]
  -- If the outer images agree, the middle one differs from both of them or from neither.
  intro hSame
  apply hi
  change a.sectorAt i = c.sectorAt i at hSame
  change a.sectorAt i ≠ b.sectorAt i ↔ b.sectorAt i ≠ c.sectorAt i
  rw [hSame]
  exact ne_comm

end Distance

end NvmImage

open NvmImage in
/-- The difference is the smallest set of sectors to overwrite, named sector by sector by the bytes that
differ, and it is symmetric and obeys the triangle laws. -/
theorem difference_is_least_overlay (a b c : NvmImage) :
    let ab := a.diff b.sectors
    let bc := b.diff c.sectors
    let ac := a.diff c.sectors
    (∀ i : Nat, ab.testBit i = true ↔ ∃ n, n / 8 = i ∧ a.toBytes[n]? ≠ b.toBytes[n]?) ∧
    (∀ n : Nat, ab.testBit (5 + n) = false) ∧
    ab.count = ab.sectors.length ∧
    a.overlay b.sectors ab = a.sectors ∧
    (∀ m, a.overlay b.sectors m = a.sectors ↔ ab ⊆ m) ∧
    (ab.isEmpty = true ↔ a = b) ∧
    (a = b ↔ a.toBytes = b.toBytes) ∧
    ab = b.diff a.sectors ∧
    ac ⊆ ab ∪ bc ∧
    SectorMask.symmDiff ab bc ⊆ ac := by
  intro ab bc ac
  have hKnown : ab.Known := known_diff a b.sectors
  exact ⟨fun _ => testBit_diff_iff_flat, fun n => hKnown (5 + n) (Nat.le_add_right 5 n),
    hKnown.count_eq, overlay_diff, fun _ => overlay_eq_iff, isEmpty_diff_iff,
    toBytes_injective.eq_iff.symm, diff_comm a b, diff_subset_union a b c,
    symmDiff_subset_diff a b c⟩

end PowerSink
