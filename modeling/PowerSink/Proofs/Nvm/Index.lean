import PowerSink.Nvm.Index

/-!
# Checking lists of sector numbers

A list of numbers becomes a list of indices if each of them names a sector. Otherwise the first one
that names none is reported, whatever stands behind it.
-/

namespace PowerSink.SectorIndex

theorem map_toNat_all : all.map toNat = List.range sectorCount := by
  decide

theorem pairwise_all : all.Pairwise (· < ·) := by
  decide

theorem ofNat?_of_lt {n : Nat} (hn : n < sectorCount) : ofNat? n = some (ofFin ⟨n, hn⟩) :=
  dif_pos hn

theorem ofNat?_of_le {n : Nat} (hn : sectorCount ≤ n) : ofNat? n = none :=
  dif_neg (Nat.not_lt.mpr hn)

/-- The position of an index in the list of all indices is its number. -/
theorem getElem?_all (n : Nat) : all[n]? = ofNat? n := by
  by_cases hn : n < sectorCount
  · rw [all, List.getElem?_map, ofNat?_of_lt hn, List.getElem?_eq_getElem (by simpa using hn),
      List.getElem_finRange]
    rfl
  · rw [ofNat?_of_le (Nat.le_of_not_lt hn), List.getElem?_eq_none]
    exact Nat.le_of_not_lt hn

theorem checkInt_eq (v : Int) :
    checkInt v = if 0 ≤ v then check v.toNat else .error (.outOfRange (UInt64.size - 1)) := by
  cases v with
  | ofNat n => exact (if_pos (Int.natCast_nonneg n)).symm
  | negSucc n => exact (if_neg (Int.not_le.mpr (Int.negSucc_lt_zero n))).symm

theorem checkAll_cons_of_lt {n : Nat} (hn : n < sectorCount) (rest : List Nat) :
    checkAll (n :: rest) = (checkAll rest).map fun found => ofFin ⟨n, hn⟩ :: found := by
  rw [checkAll, List.mapM_cons, check_of_lt hn, checkAll]
  cases rest.mapM check <;> rfl

theorem checkAll_cons_of_le {n : Nat} (hn : sectorCount ≤ n) (rest : List Nat) :
    checkAll (n :: rest) = .error (.outOfRange n) := by
  rw [checkAll, List.mapM_cons, check_of_le hn]
  rfl

theorem checkAll_of_find?_eq_none {ns : List Nat}
    (hNone : ns.find? (fun n => decide (sectorCount ≤ n)) = none) :
    ∃ found, checkAll ns = .ok found ∧ found.map toNat = ns := by
  induction ns with
  | nil => exact ⟨[], rfl, rfl⟩
  | cons n rest ih =>
    by_cases hn : n < sectorCount
    · rw [List.find?_cons_of_neg (by simpa using hn)] at hNone
      obtain ⟨found, hFound, hNumbers⟩ := ih hNone
      refine ⟨ofFin ⟨n, hn⟩ :: found, ?_, ?_⟩
      · rw [checkAll_cons_of_lt hn, hFound]
        rfl
      · rw [List.map_cons, toNat_ofFin, hNumbers]
    · rw [List.find?_cons_of_pos (by simpa using hn)] at hNone
      cases hNone

theorem checkAll_of_find?_eq_some {ns : List Nat} {bad : Nat}
    (hSome : ns.find? (fun n => decide (sectorCount ≤ n)) = some bad) :
    checkAll ns = .error (.outOfRange bad) := by
  induction ns with
  | nil => cases hSome
  | cons n rest ih =>
    by_cases hn : n < sectorCount
    · rw [List.find?_cons_of_neg (by simpa using hn)] at hSome
      rw [checkAll_cons_of_lt hn, ih hSome]
      rfl
    · rw [List.find?_cons_of_pos (by simpa using hn)] at hSome
      obtain rfl := Option.some.inj hSome
      exact checkAll_cons_of_le (Nat.le_of_not_lt hn) rest

end PowerSink.SectorIndex
