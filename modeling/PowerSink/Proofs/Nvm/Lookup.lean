import Mathlib.Algebra.Group.Nat.Defs
import PowerSink.Proofs.Nvm.Flat
import PowerSink.Proofs.Nvm.Index

/-!
# Looking up a sector

A sector is reached by its number, by a checked index, by its position among all sectors or all entries,
and as a slice of either flat form. All of these accept the same numbers, because each of them is
`SectorIndex.ofNat?` followed by one look-up, and they give the same bytes. A refusal shows the number
that was asked for, however large it is.
-/

namespace PowerSink

namespace NvmImage

variable (image : NvmImage) (n : Nat)

theorem sector_eq_map : image.sector n = (SectorIndex.check n).map image.sectorAt := by
  rw [sector]
  cases SectorIndex.check n <;> rfl

theorem getElem?_sectors : image.sectors[n]? = (SectorIndex.ofNat? n).map image.sectorAt := by
  by_cases hn : n < sectorCount
  · rw [Vector.getElem?_eq_getElem hn, SectorIndex.ofNat?_of_lt hn, Option.map_some, sectorAt,
      SectorIndex.toFin_ofFin]
    rfl
  · rw [Vector.getElem?_eq_none (Nat.le_of_not_lt hn),
      SectorIndex.ofNat?_of_le (Nat.le_of_not_lt hn), Option.map_none]

theorem getElem?_entries :
    image.entries[n]? = (SectorIndex.ofNat? n).map fun i => (i, image.sectorAt i) := by
  rw [entries, List.getElem?_map, SectorIndex.getElem?_all]

theorem map_toNat_entries :
    image.entries.map (fun entry => entry.1.toNat) = List.range sectorCount := by
  rw [entries, List.map_map, ← SectorIndex.map_toNat_all]
  rfl

/-- Every way to the sector takes the number, and all of them lead to the same bytes. -/
structure Finds (i : SectorIndex) (found : Sector) : Prop where
  index : SectorIndex.ofNat? n = some i
  check : SectorIndex.check n = .ok i
  address : i.address.toNat = n
  toNat : i.toNat = n
  sector : image.sector n = .ok found
  sectorAt : (SectorIndex.check n).map image.sectorAt = .ok found
  sectors : image.sectors[n]? = some found
  entries : image.entries[n]? = some (i, found)
  bytes : image.bytes.toArray.extract (8 * n) (8 * n + 8) = found.toArray
  toBytes : image.toBytes.toArray.extract (8 * n) (8 * n + 8) = found.toArray

/-- No way leads anywhere, and the number is reported as it was given. -/
structure Refuses : Prop where
  index : SectorIndex.ofNat? n = none
  check : SectorIndex.check n = .error (.outOfRange n)
  sector : image.sector n = .error (.outOfRange n)
  sectorAt : (SectorIndex.check n).map image.sectorAt = .error (.outOfRange n)
  sectors : image.sectors[n]? = none
  entries : image.entries[n]? = none

variable {n}

theorem finds_of_lt (hn : n < sectorCount) :
    image.Finds n (.ofFin ⟨n, hn⟩) (image.sectorAt (.ofFin ⟨n, hn⟩)) := by
  have hIndex : SectorIndex.ofNat? n = some (.ofFin ⟨n, hn⟩) := SectorIndex.ofNat?_of_lt hn
  have hCheck : SectorIndex.check n = .ok (.ofFin ⟨n, hn⟩) := SectorIndex.check_of_lt hn
  have hSlice : image.toBytes.toArray.extract (8 * n) (8 * n + 8) =
      (image.sectorAt (.ofFin ⟨n, hn⟩)).toArray := by
    rw [sectorAt, SectorIndex.toFin_ofFin]
    exact (image.toArray_sector ⟨n, hn⟩).symm
  exact {
    index := hIndex
    check := hCheck
    address := SectorIndex.toNat_ofFin ⟨n, hn⟩
    toNat := SectorIndex.toNat_ofFin ⟨n, hn⟩
    sector := by
      rw [sector_eq_map, hCheck]
      rfl
    sectorAt := by
      rw [hCheck]
      rfl
    sectors := by
      rw [getElem?_sectors, hIndex]
      rfl
    entries := by
      rw [getElem?_entries, hIndex]
      rfl
    bytes := by
      rw [bytes_eq_toBytes]
      exact hSlice
    toBytes := hSlice }

theorem refuses_of_le (hn : sectorCount ≤ n) : image.Refuses n := by
  have hIndex : SectorIndex.ofNat? n = none := SectorIndex.ofNat?_of_le hn
  have hCheck : SectorIndex.check n = .error (.outOfRange n) := SectorIndex.check_of_le hn
  exact {
    index := hIndex
    check := hCheck
    sector := by
      rw [sector_eq_map, hCheck]
      rfl
    sectorAt := by
      rw [hCheck]
      rfl
    sectors := by
      rw [getElem?_sectors, hIndex]
      rfl
    entries := by
      rw [getElem?_entries, hIndex]
      rfl }

theorem lt_iff_finds : n < sectorCount ↔ ∃ i found, image.Finds n i found := by
  constructor
  · intro hn
    exact ⟨_, _, image.finds_of_lt hn⟩
  · rintro ⟨i, _, hFinds⟩
    rw [← hFinds.toNat]
    exact i.toNat_lt

theorem le_iff_refuses : sectorCount ≤ n ↔ image.Refuses n := by
  constructor
  · exact image.refuses_of_le
  · intro hRefuses
    apply Nat.le_of_not_lt
    intro hn
    cases hRefuses.index.symm.trans (SectorIndex.ofNat?_of_lt hn)

end NvmImage

/-- Whether a number is accepted does not depend on where it is looked up, and neither does what is found. -/
theorem sector_lookups_agree (image : NvmImage) :
    (∀ n : Nat, n < 5 ↔ ∃ i found, image.Finds n i found) ∧
    (∀ n : Nat, 5 ≤ n ↔ image.Refuses n) ∧
    image.entries.map (fun entry => entry.1.toNat) = [0, 1, 2, 3, 4] ∧
    (∀ v : Int, SectorIndex.checkInt v =
      if 0 ≤ v then SectorIndex.check v.toNat else .error (.outOfRange (2 ^ 64 - 1))) ∧
    ∀ n : Nat,
      (n < 5 ↔ ∃ found, factorySector n = .ok found ∧
        factoryBytes.toArray.extract (8 * n) (8 * n + 8) = found.toArray) ∧
      (5 ≤ n ↔ factorySector n = .error (.outOfRange n)) := by
  refine ⟨fun _ => image.lt_iff_finds, fun _ => image.le_iff_refuses, image.map_toNat_entries,
    SectorIndex.checkInt_eq, ?_⟩
  intro n
  constructor
  · constructor
    · intro hn
      have hFinds := NvmImage.factory.finds_of_lt hn
      exact ⟨_, hFinds.sector, hFinds.toBytes⟩
    · rintro ⟨found, hFound, _⟩
      apply Nat.lt_of_not_le
      intro hn
      cases hFound.symm.trans (NvmImage.factory.refuses_of_le hn).sector
  · constructor
    · intro hn
      exact (NvmImage.factory.refuses_of_le hn).sector
    · intro hRefused
      apply Nat.le_of_not_lt
      intro hn
      cases hRefused.symm.trans (NvmImage.factory.finds_of_lt hn).sector

end PowerSink
