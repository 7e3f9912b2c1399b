import Mathlib.Data.List.Dedup
import PowerSink.Nvm.Mask.Step
import PowerSink.Proofs.Nvm.Mask.BitSet

/-!
# Sorting sectors and collecting them

A list of numbers is sorted as sectors and collected into a mask under the same condition, and the mask
lists its sectors as the sorted list does without its repetitions. The mask depends on nothing but which
numbers are in the list, so it is also reached by inserting them one by one in any order.
-/

namespace PowerSink

namespace SectorIndex

theorem lt_iff {i j : SectorIndex} : i < j ↔ i.toNat < j.toNat := UInt8.lt_iff_toNat_lt

instance : Std.IsLinearOrder SectorIndex where
  le_refl i := le_iff.mpr (Nat.le_refl i.toNat)
  le_trans _ _ _ hij hjk := le_iff.mpr (Nat.le_trans (le_iff.mp hij) (le_iff.mp hjk))
  le_antisymm _ _ hij hji := toNat_injective (Nat.le_antisymm (le_iff.mp hij) (le_iff.mp hji))
  le_total i j := (Nat.le_total i.toNat j.toNat).imp le_iff.mpr le_iff.mpr

instance : Std.LawfulOrderLeftLeaningMin SectorIndex where
  min_eq_left _ _ hLe := if_pos hLe
  min_eq_right _ _ hNotLe := if_neg hNotLe

instance : Std.LawfulOrderLeftLeaningMax SectorIndex where
  max_eq_left i j hLe := by
    by_cases hSame : i ≤ j
    · exact (if_pos hSame).trans (Std.le_antisymm hLe hSame)
    · exact if_neg hSame
  max_eq_right _ _ hNotLe := if_pos (Std.le_of_not_ge hNotLe)

section Sorted

variable (indices : List SectorIndex)

theorem sort_perm : (sort indices).Perm indices := List.mergeSort_perm indices _

theorem pairwise_sort : (sort indices).Pairwise (· ≤ ·) := by
  have hPairwise : (sort indices).Pairwise fun i j => decide (i ≤ j) = true := by
    apply List.pairwise_mergeSort
    · intro i j k hij hjk
      rw [decide_eq_true_eq] at hij hjk ⊢
      exact Std.le_trans hij hjk
    · intro i j
      rw [Bool.or_eq_true, decide_eq_true_eq, decide_eq_true_eq]
      exact Std.le_total
  exact hPairwise.imp of_decide_eq_true

theorem min?_eq_head?_sort : indices.min? = (sort indices).head? := by
  have hPerm := sort_perm indices
  have hSorted := pairwise_sort indices
  cases hSort : sort indices with
  | nil =>
    rw [hSort] at hPerm
    rw [hPerm.symm.eq_nil]
    rfl
  | cons first rest =>
    rw [hSort] at hPerm hSorted
    apply List.min?_eq_some_iff.mpr
    refine ⟨hPerm.mem_iff.mp List.mem_cons_self, fun i hi => ?_⟩
    rcases List.mem_cons.mp (hPerm.mem_iff.mpr hi) with rfl | hRest
    · exact Std.le_refl _
    · exact List.rel_of_pairwise_cons hSorted hRest

theorem max?_eq_getLast?_sort : indices.max? = (sort indices).getLast? := by
  have hPerm := sort_perm indices
  have hSorted := pairwise_sort indices
  rcases List.eq_nil_or_concat' (sort indices) with hSort | ⟨others, last, hSort⟩
  · rw [hSort] at hPerm
    rw [hSort, hPerm.symm.eq_nil]
    rfl
  · rw [hSort] at hPerm hSorted
    rw [hSort, List.getLast?_concat]
    apply List.max?_eq_some_iff.mpr
    obtain ⟨_, _, hBelow⟩ := List.pairwise_append.mp hSorted
    refine ⟨hPerm.mem_iff.mp (List.mem_append_right _ List.mem_cons_self), fun i hi => ?_⟩
    rcases List.mem_append.mp (hPerm.mem_iff.mpr hi) with hOther | hLast
    · exact hBelow i hOther last List.mem_cons_self
    · rw [List.mem_singleton.mp hLast]
      exact Std.le_refl last

end Sorted

theorem check_toNat (i : SectorIndex) : check i.toNat = .ok i := by
  rw [check_of_lt i.toNat_lt]
  exact congrArg Except.ok (toNat_injective (toNat_ofFin _))

theorem exists_checkAll {numbers : List Nat} (hInside : ∀ n ∈ numbers, n < sectorCount) :
    ∃ indices, checkAll numbers = .ok indices ∧ indices.map toNat = numbers := by
  apply checkAll_of_find?_eq_none
  rw [List.find?_eq_none]
  intro n hn
  rw [decide_eq_true_eq]
  exact Nat.not_le.mpr (hInside n hn)

theorem mem_map_toNat {indices : List SectorIndex} {i : SectorIndex} :
    i.toNat ∈ indices.map toNat ↔ i ∈ indices := by
  constructor
  · intro hi
    obtain ⟨j, hj, hSame⟩ := List.mem_map.mp hi
    rwa [← toNat_injective hSame]
  · exact List.mem_map_of_mem

end SectorIndex

namespace SectorMask

theorem ofList_congr {first second : List SectorIndex}
    (hSame : ∀ n, n ∈ first.map SectorIndex.toNat ↔ n ∈ second.map SectorIndex.toNat) :
    ofList first = ofList second := by
  apply eq_of_known (known_ofList first) (known_ofList second)
  intro i
  rw [mem_ofList, mem_ofList, ← SectorIndex.mem_map_toNat, hSame, SectorIndex.mem_map_toNat]

/-- A mask lists its sectors in ascending order, each of them once. -/
theorem sectors_ofList (indices : List SectorIndex) :
    (ofList indices).sectors = (SectorIndex.sort indices).dedup := by
  -- Both lists ascend and have the same sectors, each once, so they are permutations in one order.
  have hNumbers : (ofList indices).sectors.Pairwise fun i j => i.toNat < j.toNat :=
    (pairwise_sectors _).imp SectorIndex.lt_iff.mp
  have hNodup : (ofList indices).sectors.Nodup :=
    hNumbers.imp fun hLt hEq => Nat.ne_of_lt hLt (congrArg SectorIndex.toNat hEq)
  have hAscending : (ofList indices).sectors.Pairwise (· ≤ ·) :=
    hNumbers.imp fun hLt => SectorIndex.le_iff.mpr (Nat.le_of_lt hLt)
  have hPerm : (ofList indices).sectors.Perm (SectorIndex.sort indices).dedup := by
    rw [List.perm_ext_iff_of_nodup hNodup (List.nodup_dedup _)]
    intro i
    rw [mem_sectors, mem_ofList, List.mem_dedup, (SectorIndex.sort_perm indices).mem_iff]
  exact hPerm.eq_of_pairwise (fun _ _ _ _ => Std.le_antisymm) hAscending
    ((SectorIndex.pairwise_sort indices).sublist (List.dedup_sublist _))

theorem final_insertSector (indices : List SectorIndex) (m : SectorMask) :
    final step m (indices.map fun i => .insertSector i.toNat) =
      indices.foldl (fun reached i => reached.insert i) m := by
  induction indices generalizing m with
  | nil => rfl
  | cons i rest ih =>
    rw [List.map_cons, final_cons, step, SectorIndex.check_toNat]
    exact ih (m.insert i)

theorem final_inserts {numbers : List Nat} {indices : List SectorIndex}
    (hNumbers : indices.map SectorIndex.toNat = numbers) :
    final step ∅ (numbers.map .insertSector) = ofList indices := by
  rw [← hNumbers, List.map_map]
  exact final_insertSector indices ∅

/-- All about a list of numbers that are sectors: their indices, these in order, and their set. -/
structure Collects (numbers : List Nat) (indices sorted : List SectorIndex) (mask : SectorMask) :
    Prop where
  indices_eq : indices.map SectorIndex.toNat = numbers
  permutation : (sorted.map SectorIndex.toNat).Perm numbers
  ascending : sorted.Pairwise (· ≤ ·)
  numbers_ascending : (sorted.map SectorIndex.toNat).Pairwise (· ≤ ·)
  least : indices.min? = sorted.head?
  greatest : indices.max? = sorted.getLast?
  least_absent : indices.min? = none ↔ numbers = []
  greatest_absent : indices.max? = none ↔ numbers = []
  sectors : mask.sectors = sorted.dedup
  count : mask.count = numbers.toFinset.card
  inserts : ∀ order : List Nat, (∀ n, n ∈ order ↔ n ∈ numbers) →
    final step ∅ (order.map .insertSector) = mask

theorem collects {numbers : List Nat} {indices : List SectorIndex}
    (hIndices : indices.map SectorIndex.toNat = numbers) :
    Collects numbers indices (SectorIndex.sort indices) (ofList indices) := by
  have hPerm := SectorIndex.sort_perm indices
  have hSorted := SectorIndex.pairwise_sort indices
  have hNil : indices = [] ↔ numbers = [] := by rw [← hIndices, List.map_eq_nil_iff]
  exact {
    indices_eq := hIndices
    permutation := hIndices ▸ hPerm.map SectorIndex.toNat
    ascending := hSorted
    numbers_ascending := List.pairwise_map.mpr (hSorted.imp SectorIndex.le_iff.mp)
    least := SectorIndex.min?_eq_head?_sort indices
    greatest := SectorIndex.max?_eq_getLast?_sort indices
    least_absent := List.min?_eq_none_iff.trans hNil
    greatest_absent := List.max?_eq_none_iff.trans hNil
    sectors := sectors_ofList indices
    count := by rw [count_eq_card, bitSet_ofList, hIndices]
    inserts := by
      intro order hOrder
      have hInside : ∀ n ∈ order, n < sectorCount := by
        intro n hn
        rw [hOrder, ← hIndices] at hn
        obtain ⟨i, _, rfl⟩ := List.mem_map.mp hn
        exact i.toNat_lt
      obtain ⟨others, _, hOthers⟩ := SectorIndex.exists_checkAll hInside
      rw [final_inserts hOthers]
      apply ofList_congr
      rw [hOthers, hIndices]
      exact hOrder }

theorem step_collect {numbers : List Nat} {indices : List SectorIndex}
    (hCheck : SectorIndex.checkAll numbers = .ok indices) (m : SectorMask) :
    step m (.collect numbers) = (.done, ofList indices) := by
  rw [step, hCheck]

theorem step_collect_of_find? {numbers : List Nat} {bad : Nat}
    (hBad : numbers.find? (fun n => decide (sectorCount ≤ n)) = some bad) (m : SectorMask) :
    step m (.collect numbers) = (.refused (.outOfRange bad), m) := by
  rw [step, SectorIndex.checkAll_of_find?_eq_some hBad]

theorem step_collect_of_outside {numbers : List Nat} (hOutside : ¬∀ n ∈ numbers, n < sectorCount)
    (m : SectorMask) : (step m (.collect numbers)).2 = m := by
  cases hBad : numbers.find? fun n => decide (sectorCount ≤ n) with
  | some bad => rw [step_collect_of_find? hBad]
  | none =>
    refine absurd (fun n hn => ?_) hOutside
    have hNot := List.find?_eq_none.mp hBad n hn
    rwa [decide_eq_true_eq, Nat.not_le] at hNot

/-- A list that is refused leaves the mask alone in any order, even if another number is reported. -/
theorem step_collect_perm {first second : List Nat} (hPerm : first.Perm second) (m : SectorMask) :
    (step m (.collect first)).2 = (step m (.collect second)).2 := by
  by_cases hInside : ∀ n ∈ second, n < sectorCount
  · obtain ⟨others, hOthers, hFirst⟩ :=
      SectorIndex.exists_checkAll fun n hn => hInside n (hPerm.mem_iff.mp hn)
    obtain ⟨indices, hIndices, hSecond⟩ := SectorIndex.exists_checkAll hInside
    rw [step_collect hOthers, step_collect hIndices]
    apply ofList_congr
    rw [hFirst, hSecond]
    exact fun n => hPerm.mem_iff
  · have hOutside : ¬∀ n ∈ first, n < sectorCount := by
      intro hAll
      exact hInside fun n hn => hAll n (hPerm.mem_iff.mpr hn)
    rw [step_collect_of_outside hOutside, step_collect_of_outside hInside]

end SectorMask

/-- A list is sorted if and only if it can be collected; otherwise both name its first number that is no
sector. Sorting and collecting agree on which sectors there are and on their order. -/
theorem sorting_agrees_with_collecting (numbers : List Nat) :
    (∀ bad, numbers.find? (fun n => decide (5 ≤ n)) = some bad →
      (SectorIndex.checkAll numbers).map SectorIndex.sort = .error (.outOfRange bad) ∧
      ∀ m, SectorMask.step m (.collect numbers) = (.refused (.outOfRange bad), m)) ∧
    ((∀ n ∈ numbers, n < 5) → ∃ indices sorted mask,
      SectorIndex.checkAll numbers = .ok indices ∧
      (SectorIndex.checkAll numbers).map SectorIndex.sort = .ok sorted ∧
      (∀ m, SectorMask.step m (.collect numbers) = (.done, mask)) ∧
      SectorMask.Collects numbers indices sorted mask) ∧
    ∀ (order : List Nat) (m : SectorMask), order.Perm numbers →
      (SectorMask.step m (.collect order)).2 = (SectorMask.step m (.collect numbers)).2 := by
  refine ⟨?_, ?_, fun _ m hPerm => SectorMask.step_collect_perm hPerm m⟩
  · intro bad hBad
    refine ⟨?_, SectorMask.step_collect_of_find? hBad⟩
    rw [SectorIndex.checkAll_of_find?_eq_some hBad]
    rfl
  · intro hInside
    obtain ⟨indices, hCheck, hIndices⟩ := SectorIndex.exists_checkAll hInside
    refine ⟨indices, SectorIndex.sort indices, .ofList indices, hCheck, ?_,
      SectorMask.step_collect hCheck, SectorMask.collects hIndices⟩
    rw [hCheck]
    rfl

/-- Two numbers out of range of which the larger one comes first, and a list with a repetition. -/
theorem sorting_agrees_with_collecting_repeated :
    let bad := [1, 260, 5]
    let good := [3, 0, 4, 3]
    bad.find? (fun n => decide (5 ≤ n)) = some 260 ∧
      (SectorIndex.checkAll bad).map SectorIndex.sort = .error (.outOfRange 260) ∧
      (∀ n ∈ good, n < 5) ∧ [4, 3, 3, 0].Perm good ∧
      (SectorMask.step ⟨0xE2⟩ (.collect [4, 3, 3, 0])).2 = ⟨0x19⟩ ∧
      ∃ sorted, (SectorIndex.checkAll good).map SectorIndex.sort = .ok sorted ∧
        (SectorMask.mk 0x19).sectors = sorted.dedup ∧ (SectorMask.mk 0x19).count = 3 ∧
        final SectorMask.step ∅ ([0, 3, 4, 0].map .insertSector) = ⟨0x19⟩ := by
  intro bad good
  obtain ⟨hRefused, _, _⟩ := sorting_agrees_with_collecting bad
  obtain ⟨_, hCollected, hPermuted⟩ := sorting_agrees_with_collecting good
  have hBad : bad.find? (fun n => decide (5 ≤ n)) = some 260 := by decide
  have hGood : ∀ n ∈ good, n < 5 := by decide
  have hPerm : [4, 3, 3, 0].Perm good := by decide
  obtain ⟨indices, sorted, mask, _, hSorted, hStep, hCollects⟩ := hCollected hGood
  have hReached : (SectorMask.step ∅ (.collect good)).2 = ⟨0x19⟩ := by decide
  have hMask : mask = ⟨0x19⟩ := (congrArg Prod.snd (hStep ∅)).symm.trans hReached
  have hOrder : ∀ n, n ∈ [0, 3, 4, 0] ↔ n ∈ good := by
    intro n
    simp only [good, List.mem_cons, List.not_mem_nil, or_false]
    omega
  rw [hMask] at hCollects
  refine ⟨hBad, (hRefused 260 hBad).1, hGood, hPerm, ?_, sorted, hSorted, hCollects.sectors,
    hCollects.count, hCollects.inserts _ hOrder⟩
  rw [hPermuted _ _ hPerm, hStep, hMask]

end PowerSink
