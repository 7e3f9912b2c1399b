import Mathlib.Algebra.Group.Nat.Defs
import Mathlib.Data.List.Basic
import Mathlib.Logic.Function.Iterate
import PowerSink.Nvm.Span
import PowerSink.Proofs.Nvm.Index
import PowerSink.Proofs.Trace

/-!
# Walks as lists taken from at both ends

The reference is a plain list of numbers that loses elements at its ends. What a walk has left is always
a list of consecutive numbers, and each pull does to it what it does to the reference. Whatever the
pulls, the items from the front, the rest, and the items from the back, turned around, stand in the
order of the sectors; pulls without a skip lose none.
-/

namespace PowerSink

namespace Span.Pull

def isFront : Pull → Bool
  | next | nth _ => true
  | nextBack | nthBack _ => false

def isSingle : Pull → Bool
  | next | nextBack => true
  | nth _ | nthBack _ => false

end Span.Pull

namespace Queue

def takeFirst (left : List Nat) : Option Nat × List Nat := (left.head?, left.tail)

def takeLast (left : List Nat) : Option Nat × List Nat := (left.getLast?, left.dropLast)

/-- A skip past the other end drops all there is. -/
def pull (left : List Nat) : Span.Pull → Option Nat × List Nat
  | .next => takeFirst left
  | .nextBack => takeLast left
  | .nth skip => takeFirst (left.drop (min skip left.length))
  | .nthBack skip => takeLast (left.take (left.length - min skip left.length))

/-- The items that the pulls at one end have yielded, the first one first. -/
def taken (front : Bool) (pulls : List Span.Pull) (items : List (Option Nat)) : List Nat :=
  (pulls.zip items).filterMap fun entry => if entry.1.isFront = front then entry.2 else none

/-- What was taken from the front, what is left, and what was taken from the back, in the order in
which it stood in the list. -/
def gathered (left : List Nat) (pulls : List Span.Pull) : List Nat :=
  let items := (trace pull left pulls).map Prod.fst
  taken true pulls items ++ final pull left pulls ++ (taken false pulls items).reverse

theorem pull_next (left : List Nat) : pull left .next = pull left (.nth 0) := by
  rw [pull, pull, Nat.zero_min, List.drop_zero]

theorem pull_nextBack (left : List Nat) : pull left .nextBack = pull left (.nthBack 0) := by
  rw [pull, pull, Nat.zero_min, Nat.sub_zero, List.take_length]

theorem pull_nth_of_le {left : List Nat} {skip : Nat} (hSkip : left.length ≤ skip) :
    pull left (.nth skip) = (none, []) := by
  rw [pull, Nat.min_eq_right hSkip, List.drop_length]
  rfl

theorem pull_nthBack_of_le {left : List Nat} {skip : Nat} (hSkip : left.length ≤ skip) :
    pull left (.nthBack skip) = (none, []) := by
  rw [pull, Nat.min_eq_right hSkip, Nat.sub_self, List.take_zero]
  rfl

theorem pull_nil (p : Span.Pull) : pull [] p = (none, []) := by
  cases p with
  | next => rfl
  | nextBack => rfl
  | nth skip => exact pull_nth_of_le (Nat.zero_le skip)
  | nthBack skip => exact pull_nthBack_of_le (Nat.zero_le skip)

section Ranges

variable (start length : Nat)

theorem takeFirst_range' :
    takeFirst (List.range' start length) =
      (if length = 0 then none else some start, List.range' (start + 1) (length - 1)) := by
  rw [takeFirst, List.head?_range', List.tail_range']

theorem takeLast_range' :
    takeLast (List.range' start length) =
      (if length = 0 then none else some (start + length - 1), List.range' start (length - 1)) := by
  rw [takeLast, List.getLast?_range', List.dropLast_eq_take, List.length_range',
    List.take_range'_of_length_ge (Nat.sub_le length 1)]

theorem pull_nth_range' {skip : Nat} (hSkip : skip < length) :
    pull (List.range' start length) (.nth skip) =
      (some (start + skip), List.range' (start + skip + 1) (length - skip - 1)) := by
  rw [pull, List.length_range', Nat.min_eq_left (Nat.le_of_lt hSkip), List.drop_range',
    takeFirst_range', Nat.mul_one, if_neg (by omega)]

theorem pull_nthBack_range' {skip : Nat} (hSkip : skip < length) :
    pull (List.range' start length) (.nthBack skip) =
      (some (start + length - skip - 1), List.range' start (length - skip - 1)) := by
  have hLast : start + (length - skip) - 1 = start + length - skip - 1 := by omega
  rw [pull, List.length_range', Nat.min_eq_left (Nat.le_of_lt hSkip),
    List.take_range'_of_length_ge (Nat.sub_le _ _), takeLast_range', if_neg (by omega), hLast]

end Ranges

theorem takeFirst_append (left : List Nat) :
    (takeFirst left).1.toList ++ (takeFirst left).2 = left := by
  cases left <;> rfl

theorem takeLast_append (left : List Nat) : (takeLast left).2 ++ (takeLast left).1.toList = left := by
  rcases List.eq_nil_or_concat left with rfl | ⟨others, last, rfl⟩
  · rfl
  · simp [takeLast]

theorem pull_sublist_of_front {p : Span.Pull} (hFront : p.isFront = true) (left : List Nat) :
    ((pull left p).1.toList ++ (pull left p).2).Sublist left := by
  cases p with
  | next =>
    rw [pull, takeFirst_append]
  | nth skip =>
    rw [pull, takeFirst_append]
    exact List.drop_sublist _ _
  | nextBack => cases hFront
  | nthBack skip => cases hFront

theorem pull_sublist_of_back {p : Span.Pull} (hBack : p.isFront = false) (left : List Nat) :
    ((pull left p).2 ++ (pull left p).1.toList).Sublist left := by
  cases p with
  | next => cases hBack
  | nth skip => cases hBack
  | nextBack =>
    rw [pull, takeLast_append]
  | nthBack skip =>
    rw [pull, takeLast_append]
    exact List.take_sublist _ _

theorem taken_cons (front : Bool) (p : Span.Pull) (pulls : List Span.Pull) (item : Option Nat)
    (items : List (Option Nat)) :
    taken front (p :: pulls) (item :: items) =
      (if p.isFront = front then item.toList else []) ++ taken front pulls items := by
  rw [taken, List.zip_cons_cons, List.filterMap_cons]
  by_cases h : p.isFront = front
  · cases item <;> simp [h, taken]
  · simp [h, taken]

theorem gathered_nil (left : List Nat) : gathered left [] = left := List.append_nil left

theorem gathered_cons_of_front {p : Span.Pull} (hFront : p.isFront = true) (left : List Nat)
    (pulls : List Span.Pull) :
    gathered left (p :: pulls) = (pull left p).1.toList ++ gathered (pull left p).2 pulls := by
  simp [gathered, trace, taken_cons, hFront]

theorem gathered_cons_of_back {p : Span.Pull} (hBack : p.isFront = false) (left : List Nat)
    (pulls : List Span.Pull) :
    gathered left (p :: pulls) = gathered (pull left p).2 pulls ++ (pull left p).1.toList := by
  have hItem : (pull left p).1.toList.reverse = (pull left p).1.toList := by
    cases (pull left p).1 <;> rfl
  simp [gathered, trace, taken_cons, hBack, hItem]

/-- The three parts of a run stand in the order of the numbers, and no number is in two of them. -/
structure InOrder (front rest back : List Nat) : Prop where
  front_ascending : front.Pairwise (· < ·)
  back_descending : back.Pairwise (· > ·)
  taken_once : (front ++ back).Nodup
  front_lt_rest : ∀ a ∈ front, ∀ n ∈ rest, a < n
  rest_lt_back : ∀ n ∈ rest, ∀ b ∈ back, n < b
  front_lt_back : ∀ a ∈ front, ∀ b ∈ back, a < b

theorem inOrder_of_pairwise {front rest back : List Nat}
    (hPairwise : (front ++ rest ++ back.reverse).Pairwise (· < ·)) : InOrder front rest back := by
  obtain ⟨hFrontRest, hBack, hAcross⟩ := List.pairwise_append.mp hPairwise
  obtain ⟨hFront, _, hLess⟩ := List.pairwise_append.mp hFrontRest
  have hFrontBack : ∀ a ∈ front, ∀ b ∈ back, a < b := fun a ha b hb =>
    hAcross a (List.mem_append_left rest ha) b (List.mem_reverse.mpr hb)
  have hDescending : back.Pairwise (· > ·) := List.pairwise_reverse.mp hBack
  exact {
    front_ascending := hFront
    back_descending := hDescending
    taken_once := List.nodup_append.mpr ⟨hFront.imp Nat.ne_of_lt, hDescending.imp Nat.ne_of_gt,
      fun a ha b hb => Nat.ne_of_lt (hFrontBack a ha b hb)⟩
    front_lt_rest := hLess
    rest_lt_back := fun n hn b hb =>
      hAcross n (List.mem_append_right front hn) b (List.mem_reverse.mpr hb)
    front_lt_back := hFrontBack }

/-- Skipped elements are lost and the others keep their order. -/
theorem gathered_sublist (left : List Nat) (pulls : List Span.Pull) :
    (gathered left pulls).Sublist left := by
  -- On the pulls, for every list: an item stays at the end it was taken from, so a step only drops some.
  induction pulls generalizing left with
  | nil => rw [gathered_nil]
  | cons p rest ih =>
    have hRest := ih (pull left p).2
    cases hEnd : p.isFront with
    | true =>
      rw [gathered_cons_of_front hEnd]
      exact (hRest.append_left _).trans (pull_sublist_of_front hEnd left)
    | false =>
      rw [gathered_cons_of_back hEnd]
      exact (hRest.append_right _).trans (pull_sublist_of_back hEnd left)

theorem gathered_eq {pulls : List Span.Pull} (hSingle : ∀ p ∈ pulls, p.isSingle = true)
    (left : List Nat) : gathered left pulls = left := by
  induction pulls generalizing left with
  | nil => exact gathered_nil left
  | cons p rest ih =>
    obtain ⟨hHere, hRest⟩ := List.forall_mem_cons.mp hSingle
    cases p with
    | next => rw [gathered_cons_of_front rfl, ih hRest, pull, takeFirst_append]
    | nextBack => rw [gathered_cons_of_back rfl, ih hRest, pull, takeLast_append]
    | nth skip => cases hHere
    | nthBack skip => cases hHere

end Queue

namespace Span

def numbers (s : Span) : List Nat := s.toList.map SectorIndex.toNat

theorem numbers_eq (s : Span) : s.numbers = List.range' s.start s.length := by
  -- There are few bounds, so all pairs of them can be tried.
  have counted : ∀ stop ≤ sectorCount, ∀ start ≤ stop,
      (SectorIndex.all.filter fun i => decide (start ≤ i.toNat ∧ i.toNat < stop)).map
        SectorIndex.toNat = List.range' start (stop - start) := by
    decide
  exact counted s.stop s.stop_le s.start s.start_le_stop

theorem length_numbers (s : Span) : s.numbers.length = s.length := by
  rw [numbers, List.length_map, length_toList]

theorem lt_length_iff (s : Span) {skip : Nat} : skip < s.length ↔ s.start + skip < s.stop := by
  rw [length]
  omega

theorem start_eq_stop {s : Span} (hLeft : ¬s.start < s.stop) : s.start = s.stop :=
  Nat.le_antisymm s.start_le_stop (Nat.le_of_not_lt hLeft)

theorem pull_numbers_nth (s : Span) (skip : Nat) :
    Queue.pull s.numbers (.nth skip) =
      ((s.nth skip).1.map SectorIndex.toNat, (s.nth skip).2.numbers) := by
  by_cases h : s.start + skip < s.stop
  · rw [numbers_eq, Queue.pull_nth_range' _ _ (s.lt_length_iff.mpr h), nth, dif_pos h, numbers_eq]
    simp only [Option.map_some, SectorIndex.toNat_ofFin, length]
    congr 2
    omega
  · have hSkip : s.numbers.length ≤ skip := by
      rw [length_numbers]
      exact Nat.le_of_not_lt (mt s.lt_length_iff.mp h)
    rw [Queue.pull_nth_of_le hSkip, nth, dif_neg h, numbers_eq, length, Nat.sub_self]
    rfl

theorem pull_numbers_nthBack (s : Span) (skip : Nat) :
    Queue.pull s.numbers (.nthBack skip) =
      ((s.nthBack skip).1.map SectorIndex.toNat, (s.nthBack skip).2.numbers) := by
  have hStop : s.start + s.length = s.stop := Nat.add_sub_cancel' s.start_le_stop
  by_cases h : s.start + skip < s.stop
  · rw [numbers_eq, Queue.pull_nthBack_range' _ _ (s.lt_length_iff.mpr h), hStop, nthBack,
      dif_pos h, numbers_eq]
    simp only [Option.map_some, SectorIndex.toNat_ofFin, length]
    congr 2
    omega
  · have hSkip : s.numbers.length ≤ skip := by
      rw [length_numbers]
      exact Nat.le_of_not_lt (mt s.lt_length_iff.mp h)
    rw [Queue.pull_nthBack_of_le hSkip, nthBack, dif_neg h, numbers_eq, length, Nat.sub_self]
    rfl

/-- Each pull does to the numbers what it does to a list. -/
theorem pull_numbers (s : Span) (p : Pull) :
    Queue.pull s.numbers p = ((s.pull p).1.map SectorIndex.toNat, (s.pull p).2.numbers) := by
  cases p with
  | next =>
    rw [Queue.pull_next]
    exact s.pull_numbers_nth 0
  | nextBack =>
    rw [Queue.pull_nextBack]
    exact s.pull_numbers_nthBack 0
  | nth skip => exact s.pull_numbers_nth skip
  | nthBack skip => exact s.pull_numbers_nthBack skip

theorem trace_numbers (s : Span) (pulls : List Pull) :
    trace Queue.pull s.numbers pulls =
      (trace pull s pulls).map fun entry =>
        (entry.1.map SectorIndex.toNat, entry.2.numbers) :=
  trace_view pull_numbers s pulls

theorem final_numbers (s : Span) (pulls : List Pull) :
    final Queue.pull s.numbers pulls = (final pull s pulls).numbers :=
  final_view pull_numbers s pulls

theorem numbers_all : all.numbers = [0, 1, 2, 3, 4] := by
  decide

section Skips

theorem nth_succ (s : Span) (skip : Nat) : s.nth (skip + 1) = s.next.2.nth skip := by
  have hAssoc : s.start + (skip + 1) = s.start + 1 + skip := by omega
  by_cases hLeft : s.start < s.stop
  · simp only [next, nth, Nat.add_zero, dif_pos hLeft, hAssoc]
  · have hFirst : ¬s.start + 0 < s.stop := hLeft
    have hSkipped : ¬s.start + (skip + 1) < s.stop := by omega
    have hEmpty : ¬s.stop + skip < s.stop := by omega
    simp only [next, nth, dif_neg hFirst, dif_neg hSkipped, dif_neg hEmpty]

theorem nthBack_succ (s : Span) (skip : Nat) :
    s.nthBack (skip + 1) = s.nextBack.2.nthBack skip := by
  by_cases hLeft : s.start < s.stop
  · have hFirst : s.start + 0 < s.stop := hLeft
    have hStop : s.stop - (skip + 1) - 1 = s.stop - 0 - 1 - skip - 1 := by omega
    by_cases hSkip : s.start + (skip + 1) < s.stop
    · have hThere : s.start + skip < s.stop - 0 - 1 := by omega
      simp only [nextBack, nthBack, dif_pos hFirst, dif_pos hSkip, dif_pos hThere, hStop]
    · have hThere : ¬s.start + skip < s.stop - 0 - 1 := by omega
      simp only [nextBack, nthBack, dif_pos hFirst, dif_neg hSkip, dif_neg hThere]
  · have hFirst : ¬s.start + 0 < s.stop := hLeft
    have hSkipped : ¬s.start + (skip + 1) < s.stop := by omega
    have hEmpty : ¬s.start + skip < s.start := by omega
    simp only [nextBack, nthBack, dif_neg hFirst, dif_neg hSkipped, dif_neg hEmpty]

/-- An end without an item has none behind it, however many are skipped. -/
theorem nth_of_next_none {s : Span} (hNone : s.next.1 = none) (skip : Nat) :
    s.next.2.nth skip = (none, s.next.2) := by
  by_cases hFirst : s.start + 0 < s.stop
  · rw [next, nth, dif_pos hFirst] at hNone
    cases hNone
  · have hNext : s.next = (none, ⟨s.stop, s.stop, Nat.le_refl _, s.stop_le⟩) := dif_neg hFirst
    have hEmpty : ¬s.stop + skip < s.stop := by omega
    rw [hNext]
    exact dif_neg hEmpty

theorem nthBack_of_nextBack_none {s : Span} (hNone : s.nextBack.1 = none) (skip : Nat) :
    s.nextBack.2.nthBack skip = (none, s.nextBack.2) := by
  by_cases hFirst : s.start + 0 < s.stop
  · rw [nextBack, nthBack, dif_pos hFirst] at hNone
    cases hNone
  · have hBound := Nat.le_trans s.start_le_stop s.stop_le
    have hNext : s.nextBack = (none, ⟨s.start, s.start, Nat.le_refl _, hBound⟩) := dif_neg hFirst
    have hEmpty : ¬s.start + skip < s.start := by omega
    rw [hNext]
    exact dif_neg hEmpty

/-- A skip is so many pulls whose items are thrown away, so no position behind an end is ever needed. -/
theorem nth_eq_iterate (s : Span) (skip : Nat) :
    s.nth skip = ((fun left : Span => left.next.2)^[skip] s).next := by
  induction skip generalizing s with
  | zero => rfl
  | succ skip ih => rw [nth_succ, ih, Function.iterate_succ_apply]

theorem nthBack_eq_iterate (s : Span) (skip : Nat) :
    s.nthBack skip = ((fun left : Span => left.nextBack.2)^[skip] s).nextBack := by
  induction skip generalizing s with
  | zero => rfl
  | succ skip ih => rw [nthBack_succ, ih, Function.iterate_succ_apply]

end Skips

section Items

variable {s left : Span} {i : SectorIndex}

theorem toList_of_next_some (hNext : s.next = (some i, left)) : s.toList = i :: left.toList := by
  have hPull := s.pull_numbers .next
  have hNumbers := Queue.takeFirst_append s.numbers
  rw [pull, hNext] at hPull
  rw [show Queue.takeFirst s.numbers = _ from hPull] at hNumbers
  exact (List.map_inj_right fun _ _ => SectorIndex.toNat_injective).mp hNumbers.symm

theorem toList_of_next_none (hNext : s.next = (none, left)) : s.toList = [] := by
  have hPull := s.pull_numbers .next
  rw [pull, hNext] at hPull
  have hNumbers : s.numbers = [] := List.head?_eq_none_iff.mp (Prod.mk.inj hPull).1
  exact List.map_eq_nil_iff.mp hNumbers

end Items

section Exhausted

variable {s : Span}

theorem pull_eq_none {p : Pull} (hPull : Queue.pull s.numbers p = (none, [])) :
    (s.pull p).1 = none ∧ (s.pull p).2.numbers = [] := by
  rw [pull_numbers] at hPull
  obtain ⟨hItem, hRest⟩ := Prod.mk.inj hPull
  exact ⟨Option.map_eq_none_iff.mp hItem, hRest⟩

theorem nth_of_le {skip : Nat} (hSkip : s.length ≤ skip) :
    (s.nth skip).1 = none ∧ (s.nth skip).2.numbers = [] := by
  rw [← length_numbers] at hSkip
  exact pull_eq_none (Queue.pull_nth_of_le hSkip)

theorem nthBack_of_le {skip : Nat} (hSkip : s.length ≤ skip) :
    (s.nthBack skip).1 = none ∧ (s.nthBack skip).2.numbers = [] := by
  rw [← length_numbers] at hSkip
  exact pull_eq_none (Queue.pull_nthBack_of_le hSkip)

theorem eq_none_of_exhausted (hLeft : s.numbers = []) {pulls : List Pull}
    {entry : Option SectorIndex × Span} (hEntry : entry ∈ trace pull s pulls) : entry.1 = none := by
  have hTrace : (trace pull s pulls).map _ = List.replicate pulls.length (none, []) :=
    (s.trace_numbers pulls).symm.trans
      (trace_eq_replicate hLeft.symm fun p _ => by rw [hLeft, Queue.pull_nil])
  have hSame := List.eq_of_mem_replicate (hTrace ▸ List.mem_map_of_mem hEntry)
  exact Option.map_eq_none_iff.mp (Prod.mk.inj hSame).1

end Exhausted

end Span

/-- Taking sectors from both ends, with any skips, is taking numbers from both ends of a list. -/
theorem walks_are_queues (pulls : List Span.Pull) :
    let entries := trace Span.pull Span.all pulls
    let reached := final Span.pull Span.all pulls
    let items := entries.map fun entry => entry.1.map SectorIndex.toNat
    let front := Queue.taken true pulls items
    let back := Queue.taken false pulls items
    entries.map (fun entry => (entry.1.map SectorIndex.toNat, entry.2.numbers)) =
      trace Queue.pull [0, 1, 2, 3, 4] pulls ∧
    (∀ entry ∈ entries, entry.2.length = entry.2.numbers.length ∧
      entry.2.numbers = List.range' entry.2.start entry.2.length) ∧
    Queue.InOrder front reached.numbers back ∧
    ((∀ p ∈ pulls, p.isSingle = true) →
      front ++ reached.numbers ++ back.reverse = [0, 1, 2, 3, 4]) ∧
    (∀ skip,
      reached.nth skip = ((fun left : Span => left.next.2)^[skip] reached).next ∧
      reached.nthBack skip = ((fun left : Span => left.nextBack.2)^[skip] reached).nextBack) ∧
    (∀ skip, reached.length ≤ skip →
      ((reached.nth skip).1 = none ∧ (reached.nth skip).2.numbers = []) ∧
      (reached.nthBack skip).1 = none ∧ (reached.nthBack skip).2.numbers = []) ∧
    (reached.numbers = [] → ∀ later, ∀ entry ∈ trace Span.pull reached later, entry.1 = none) := by
  intro entries reached items front back
  have hTrace := Span.all.trace_numbers pulls
  rw [Span.numbers_all] at hTrace
  have hItems : (trace Queue.pull [0, 1, 2, 3, 4] pulls).map Prod.fst = items := by
    rw [hTrace, List.map_map]
    rfl
  have hReached : final Queue.pull [0, 1, 2, 3, 4] pulls = reached.numbers := by
    rw [← Span.numbers_all]
    exact Span.all.final_numbers pulls
  have hGathered : Queue.gathered [0, 1, 2, 3, 4] pulls =
      front ++ reached.numbers ++ back.reverse := by
    rw [Queue.gathered, hItems, hReached]
  refine ⟨hTrace.symm, ?_, ?_, ?_, ?_, ?_, ?_⟩
  · intro entry _
    exact ⟨entry.2.length_numbers.symm, entry.2.numbers_eq⟩
  · have hAscending : [0, 1, 2, 3, 4].Pairwise (· < ·) := by decide
    apply Queue.inOrder_of_pairwise
    rw [← hGathered]
    exact hAscending.sublist (Queue.gathered_sublist _ pulls)
  · intro hSingle
    rw [← hGathered]
    exact Queue.gathered_eq hSingle _
  · intro skip
    exact ⟨reached.nth_eq_iterate skip, reached.nthBack_eq_iterate skip⟩
  · intro skip hSkip
    exact ⟨Span.nth_of_le hSkip, Span.nthBack_of_le hSkip⟩
  · intro hLeft later entry hEntry
    exact Span.eq_none_of_exhausted hLeft hEntry

/-- Three pulls without a skip leave two sectors, and the largest skip of 64 bits takes these. -/
theorem walks_are_queues_past_the_end :
    let pulls : List Span.Pull := [.next, .nextBack, .nextBack]
    let skip := 2 ^ 64 - 1
    let reached := final Span.pull Span.all pulls
    let emptied := final Span.pull Span.all (pulls ++ [.nth skip])
    (∀ p ∈ pulls, p.isSingle = true) ∧ [0] ++ reached.numbers ++ [4, 3].reverse = [0, 1, 2, 3, 4] ∧
      reached.length = reached.numbers.length ∧
      reached.length ≤ skip ∧ (reached.nth skip).1 = none ∧ (reached.nthBack skip).1 = none ∧
      emptied.numbers = [] ∧
      ∀ entry ∈ trace Span.pull emptied [.next, .nthBack 1], entry.1 = none := by
  intro pulls skip reached emptied
  obtain ⟨_, hEntries, _, hGathered, _, hSkips, _⟩ := walks_are_queues pulls
  obtain ⟨_, _, _, _, _, _, hExhausted⟩ := walks_are_queues (pulls ++ [.nth skip])
  have hSingle : ∀ p ∈ pulls, p.isSingle = true := by decide
  have hLast : ((some (SectorIndex.ofFin 3), reached) : Option SectorIndex × Span) ∈
      trace Span.pull Span.all pulls := .tail _ (.tail _ (.head _))
  have hSkip : reached.length ≤ skip := by decide
  have hEmptied : emptied.numbers = [] := by decide
  exact ⟨hSingle, hGathered hSingle, (hEntries _ hLast).1, hSkip, (hSkips skip hSkip).1.1,
    (hSkips skip hSkip).2.1, hEmptied, hExhausted hEmptied _⟩

end PowerSink
