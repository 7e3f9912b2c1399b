import Mathlib.Algebra.BigOperators.Group.Finset.Basic
import PowerSink.Nvm.Mask.Step
import PowerSink.Proofs.Nvm.Mask.BitSet
import PowerSink.Proofs.Trace

/-!
# Runs of steps on a mask

The reference is a machine on plain sets of bit numbers. A mask and the set of its bits, put through
the same steps, give the same answers and stay together, whether or not unused bits are set, and after
each step every observer of the mask is read off the set. A refused step leaves the mask alone.
-/

namespace PowerSink

open Finset
open scoped symmDiff

namespace BitSet

inductive Answer where
  | done
  | refused (error : ImageError)
  | truth (value : Bool)
  | sets (items : List (Finset ℕ))
  | named (items : List (String × Finset ℕ))
  | text (value : String)

def flagNames : List (String × ℕ) :=
  [("SECTOR_0", 0), ("SECTOR_1", 1), ("SECTOR_2", 2), ("SECTOR_3", 3), ("SECTOR_4", 4)]

/-- A set for each sector and one for all other numbers together, if there are any. -/
def flags (s : Finset ℕ) : List (Finset ℕ) :=
  ((List.range 5).filter fun n => n ∈ s).map (fun n => {n}) ++
    if s \ range 5 = ∅ then [] else [s \ range 5]

def named (s : Finset ℕ) : List (String × Finset ℕ) :=
  (flagNames.filter fun flag => flag.2 ∈ s).map fun flag => (flag.1, {flag.2})

def text (s : Finset ℕ) : String := "SectorMask(" ++ toString (∑ n ∈ s, 2 ^ n) ++ ")"

def step (s : Finset ℕ) : SectorMask.Step → Answer × Finset ℕ
  | .insertSector index =>
    if index < 5 then (.done, insert index s) else (.refused (.outOfRange index), s)
  | .containsSector index =>
    if index < 5 then (.truth (decide (index ∈ s)), s) else (.refused (.outOfRange index), s)
  | .ofBits bits =>
    let candidate := (SectorMask.mk bits).bitSet
    if candidate ⊆ range 5 then (.truth true, candidate) else (.truth false, s)
  | .ofBitsTruncate bits => (.done, (SectorMask.mk bits).bitSet ∩ range 5)
  | .ofName name =>
    match flagNames.find? fun flag => flag.1 = name with
    | some flag => (.truth true, {flag.2})
    | none => (.truth false, s)
  | .contains operand => (.truth (decide (operand.bitSet ⊆ s)), s)
  | .intersects operand => (.truth (decide (s ∩ operand.bitSet).Nonempty), s)
  | .equals operand => (.truth (decide (s = operand.bitSet)), s)
  | .union operand => (.done, s ∪ operand.bitSet)
  | .difference operand => (.done, s \ operand.bitSet)
  | .intersection operand => (.done, s ∩ operand.bitSet)
  | .symmetricDifference operand => (.done, s ∆ operand.bitSet)
  | .set operand on => (.done, if on then s ∪ operand.bitSet else s \ operand.bitSet)
  | .complement => (.done, range 5 \ s)
  | .isEmpty => (.truth (decide (s = ∅)), s)
  | .isAll => (.truth (decide (range 5 ⊆ s)), s)
  | .flags => (.sets (flags s), s)
  | .named => (.named (named s), s)
  | .text => (.text (text s), s)
  | .collect indices =>
    match indices.find? fun index => 5 ≤ index with
    | some index => (.refused (.outOfRange index), s)
    | none => (.done, indices.toFinset)

end BitSet

namespace SectorMask

def Reply.answer : Reply → BitSet.Answer
  | done => .done
  | refused error => .refused error
  | truth value => .truth value
  | masks items => .sets (items.map bitSet)
  | named items => .named (items.map fun item => (item.1, item.2.bitSet))
  | text value => .text value

/-- What the steps reply that cannot be carried out, whatever the mask. -/
def Step.refusal? : Step → Option Reply
  | insertSector index => if index < 5 then none else some (.refused (.outOfRange index))
  | containsSector index => if index < 5 then none else some (.refused (.outOfRange index))
  | ofBits bits => if (SectorMask.mk bits).bitSet ⊆ range 5 then none else some (.truth false)
  | ofName name =>
    if name ∈ BitSet.flagNames.map Prod.fst then none else some (.truth false)
  | collect indices =>
    (indices.find? fun index => 5 ≤ index).map fun index => .refused (.outOfRange index)
  | _ => none

/-- All observers of a mask, in terms of a set of bit numbers. -/
structure Shows (m : SectorMask) (s : Finset ℕ) : Prop where
  subset_range : s ⊆ range 8
  mem_iff : ∀ i : SectorIndex, i ∈ m ↔ i.toNat ∈ s
  sectors : m.sectors.map SectorIndex.toNat = (List.range 5).filter fun n => n ∈ s
  count : m.count = s.card
  count_eq_add : m.count = m.sectors.length + (s \ range 5).card
  isEmpty_iff : m.isEmpty = true ↔ s = ∅
  isAll_iff : m.isAll = true ↔ range 5 ⊆ s

theorem shows_bitSet (m : SectorMask) : m.Shows m.bitSet where
  subset_range := filter_subset _ _
  mem_iff _ := mem_iff_mem_bitSet
  sectors := m.map_toNat_sectors
  count := m.count_eq_card
  count_eq_add := m.count_eq_add
  isEmpty_iff := by rw [isEmpty_eq, decide_eq_true_iff]
  isAll_iff := by rw [isAll_eq, decide_eq_true_iff]

theorem flags_bitSet (m : SectorMask) : m.flags.map bitSet = BitSet.flags m.bitSet := by
  have hSingles : (m.sectors.map single).map bitSet =
      ((List.range 5).filter fun n => n ∈ m.bitSet).map fun n => {n} := by
    rw [← map_toNat_sectors, List.map_map, List.map_map]
    exact List.map_congr_left fun i _ => bitSet_single i
  have hRest : (m \ all).bitSet = m.bitSet \ range 5 := by
    rw [bitSet_sdiff, bitSet_all]
  rw [flags, BitSet.flags, List.map_append, hSingles, ← hRest]
  refine congrArg _ ?_
  by_cases hNone : m \ all = ∅
  · rw [if_pos hNone, if_pos (eq_empty_iff.mp hNone)]
    rfl
  · rw [if_neg hNone, if_neg (mt eq_empty_iff.mpr hNone)]
    rfl

theorem flagNames_eq :
    BitSet.flagNames = SectorIndex.all.map fun i => (flagName i, i.toNat) := by
  decide

theorem named_bitSet (m : SectorMask) :
    m.named.map (fun item => (item.1, item.2.bitSet)) = BitSet.named m.bitSet := by
  have hFlags : BitSet.flagNames.filter (fun flag => flag.2 ∈ m.bitSet) =
      m.sectors.map fun i => (flagName i, i.toNat) := by
    rw [flagNames_eq, List.filter_map]
    exact congrArg (List.map _)
      (List.filter_congr fun i _ => decide_eq_decide.mpr mem_iff_mem_bitSet.symm)
  rw [named, BitSet.named, hFlags, List.map_map, List.map_map]
  refine List.map_congr_left fun i _ => ?_
  exact congrArg (Prod.mk (flagName i)) (bitSet_single i)

theorem text_bitSet (m : SectorMask) : m.text = BitSet.text m.bitSet := by
  rw [text, BitSet.text, sum_two_pow_bitSet]

theorem ofName?_eq (name : String) :
    (BitSet.flagNames.find? fun flag => flag.1 = name).map (fun flag => ({flag.2} : Finset ℕ)) =
      (ofName? name).map bitSet := by
  rw [ofName?, flagNames_eq, List.find?_map, Option.map_map, Option.map_map]
  exact congrArg (Option.map · _) (funext fun i => (bitSet_single i).symm)

theorem ofName?_eq_none {name : String}
    (hNone : BitSet.flagNames.find? (fun flag => flag.1 = name) = none) : ofName? name = none := by
  have hName := ofName?_eq name
  rw [hNone] at hName
  exact Option.map_eq_none_iff.mp hName.symm

theorem bitSet_step (m : SectorMask) (s : Step) :
    BitSet.step m.bitSet s = ((step m s).1.answer, (step m s).2.bitSet) := by
  cases s with
  | insertSector index =>
    rcases Nat.lt_or_ge index 5 with hIndex | hIndex
    · rw [step, SectorIndex.check_of_lt hIndex, BitSet.step, if_pos hIndex, bitSet_insert,
        SectorIndex.toNat_ofFin]
      rfl
    · rw [step, SectorIndex.check_of_le hIndex, BitSet.step, if_neg (Nat.not_lt.mpr hIndex)]
      rfl
  | containsSector index =>
    rcases Nat.lt_or_ge index 5 with hIndex | hIndex
    · rw [step, SectorIndex.check_of_lt hIndex, BitSet.step, if_pos hIndex]
      simp [Reply.answer, mem_iff_mem_bitSet]
    · rw [step, SectorIndex.check_of_le hIndex, BitSet.step, if_neg (Nat.not_lt.mpr hIndex)]
      rfl
  | ofBits bits =>
    rw [step, ofBits?_eq, BitSet.step]
    by_cases hKnown : (SectorMask.mk bits).bitSet ⊆ range 5
    · rw [if_pos hKnown, if_pos hKnown]
      rfl
    · rw [if_neg hKnown, if_neg hKnown]
      rfl
  | ofBitsTruncate bits =>
    rw [step, BitSet.step, bitSet_ofBitsTruncate]
    rfl
  | ofName name =>
    rw [step, BitSet.step]
    cases hFlag : BitSet.flagNames.find? fun flag => flag.1 = name with
    | none =>
      rw [ofName?_eq_none hFlag]
      rfl
    | some flag =>
      have hName := ofName?_eq name
      rw [hFlag] at hName
      obtain ⟨found, hFound, hSet⟩ := Option.map_eq_some_iff.mp hName.symm
      rw [hFound]
      exact congrArg (Prod.mk (BitSet.Answer.truth true)) hSet.symm
  | contains operand => simp only [step, BitSet.step, Reply.answer, subset_iff_bitSet]
  | intersects operand => rw [step, BitSet.step, Reply.answer, intersects_eq]
  | equals operand => simp only [step, BitSet.step, Reply.answer, bitSet_injective.eq_iff]
  | union operand => rw [step, BitSet.step, Reply.answer, bitSet_union]
  | difference operand => rw [step, BitSet.step, Reply.answer, bitSet_sdiff]
  | intersection operand => rw [step, BitSet.step, Reply.answer, bitSet_inter]
  | symmetricDifference operand => rw [step, BitSet.step, Reply.answer, bitSet_symmDiff]
  | set operand on =>
    rw [step, BitSet.step, Reply.answer, set, apply_ite bitSet, bitSet_union, bitSet_sdiff]
  | complement => rw [step, BitSet.step, Reply.answer, bitSet_complement]
  | isEmpty => rw [step, BitSet.step, Reply.answer, isEmpty_eq]
  | isAll => rw [step, BitSet.step, Reply.answer, isAll_eq]
  | flags => rw [step, BitSet.step, Reply.answer, flags_bitSet]
  | named => rw [step, BitSet.step, Reply.answer, named_bitSet]
  | text => rw [step, BitSet.step, Reply.answer, text_bitSet]
  | collect indices =>
    rw [step, BitSet.step]
    cases hBad : indices.find? fun index => 5 ≤ index with
    | none =>
      obtain ⟨found, hFound, hNumbers⟩ := SectorIndex.checkAll_of_find?_eq_none hBad
      rw [hFound]
      exact congrArg (Prod.mk BitSet.Answer.done) (by rw [bitSet_ofList, hNumbers])
    | some index =>
      rw [SectorIndex.checkAll_of_find?_eq_some hBad]
      rfl

theorem step_of_refusal {s : Step} {reply : Reply} (hRefusal : s.refusal? = some reply)
    (m : SectorMask) : step m s = (reply, m) := by
  cases s with
  | insertSector index | containsSector index =>
    obtain ⟨hIndex, hReply⟩ := Option.ite_none_left_eq_some.mp hRefusal
    obtain rfl := Option.some.inj hReply
    rw [step, SectorIndex.check_of_le (Nat.le_of_not_lt hIndex)]
  | ofBits bits =>
    obtain ⟨hUnknown, hReply⟩ := Option.ite_none_left_eq_some.mp hRefusal
    obtain rfl := Option.some.inj hReply
    rw [step, ofBits?_eq, if_neg hUnknown, adopt]
  | ofName name =>
    obtain ⟨hOther, hReply⟩ := Option.ite_none_left_eq_some.mp hRefusal
    obtain rfl := Option.some.inj hReply
    have hFlag : BitSet.flagNames.find? (fun flag => flag.1 = name) = none := by
      rw [List.find?_eq_none]
      intro flag hMem hName
      exact hOther (List.mem_map.mpr ⟨flag, hMem, of_decide_eq_true hName⟩)
    rw [step, ofName?_eq_none hFlag, adopt]
  | collect indices =>
    obtain ⟨index, hBad, rfl⟩ := Option.map_eq_some_iff.mp hRefusal
    rw [step, SectorIndex.checkAll_of_find?_eq_some hBad]
  | _ => cases hRefusal

end SectorMask

/-- A mask is as good as a set: no sequence of steps, from any byte, tells the two apart. -/
theorem masks_run_as_sets (start : SectorMask) (steps : List SectorMask.Step) :
    let reached := final SectorMask.step start steps
    (trace SectorMask.step start steps).map (fun entry => (entry.1.answer, entry.2.bitSet)) =
      trace BitSet.step start.bitSet steps ∧
    reached.Shows (final BitSet.step start.bitSet steps) ∧
    ∀ next reply, SectorMask.Step.refusal? next = some reply →
      SectorMask.step reached next = (reply, reached) := by
  intro reached
  refine ⟨(trace_view SectorMask.bitSet_step start steps).symm, ?_, ?_⟩
  · rw [final_view SectorMask.bitSet_step]
    exact reached.shows_bitSet
  · intro next reply hRefusal
    exact SectorMask.step_of_refusal hRefusal reached

/-- Two sectors and three unused bits are set when a list with two numbers out of range is tried. -/
theorem masks_run_as_sets_unused_bits :
    let start : SectorMask := ⟨0xE2⟩
    let steps : List SectorMask.Step := [.symmetricDifference ⟨0x03⟩, .insertSector 4]
    let next : SectorMask.Step := .collect [1, 260, 5]
    let reached := final SectorMask.step start steps
    next.refusal? = some (.refused (.outOfRange 260)) ∧
      SectorMask.step reached next = (.refused (.outOfRange 260), reached) ∧
      reached = ⟨0xF1⟩ ∧ reached.Shows {0, 4, 5, 6, 7} := by
  intro start steps next reached
  obtain ⟨_, hShows, hRefused⟩ := masks_run_as_sets start steps
  have hSet : final BitSet.step start.bitSet steps = {0, 4, 5, 6, 7} := by decide
  have hReached : reached = ⟨0xF1⟩ := by decide
  have hRefusal : next.refusal? = some (.refused (.outOfRange 260)) := rfl
  rw [hSet] at hShows
  exact ⟨hRefusal, hRefused next _ hRefusal, hReached, hShows⟩

end PowerSink
