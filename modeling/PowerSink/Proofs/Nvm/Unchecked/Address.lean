import PowerSink.Proofs.Nvm.Difference
import PowerSink.Proofs.Nvm.Span
import PowerSink.Proofs.Nvm.Unchecked.Trap

/-!
# Addresses without a bound

Here an address is a byte that could have any value, and whatever is done with it relies on its bound
without looking at it again. The only check is the one by which a number becomes an address. A walk counts
addresses up and down between two bytes, and a mask shifts a bit by an address. Side by side with the
indices that carry their bound, numbers, walks and masks give the same addresses and never trap.
-/

namespace PowerSink

namespace Unchecked

section Numbers

def ofNat? (n : Nat) : Except Trap (Option UInt8) := do
  if n < sectorCount then
    return some (← narrow n)
  return none

def check (n : Nat) : Except Trap (Except ImageError UInt8) := do
  match ← ofNat? n with
  | some a => return .ok a
  | none => return .error (.outOfRange n)

def checkInt (v : Int) : Except Trap (Except ImageError UInt8) :=
  if 0 ≤ v then check v.toNat else return .error (.outOfRange (UInt64.size - 1))

theorem ofNat?_eq (n : Nat) :
    ofNat? n = .ok ((SectorIndex.ofNat? n).map SectorIndex.address) := by
  rcases Nat.lt_or_ge n sectorCount with hn | hn
  · have hByte : n < UInt8.size := Nat.lt_trans hn (by decide)
    rw [ofNat?, if_pos hn, narrow_of_lt hByte, SectorIndex.ofNat?_of_lt hn]
    rfl
  · rw [ofNat?, if_neg (Nat.not_lt.mpr hn), SectorIndex.ofNat?_of_le hn]
    rfl

theorem check_eq (n : Nat) : check n = .ok ((SectorIndex.check n).map SectorIndex.address) := by
  rw [check, ofNat?_eq, ok_bind, SectorIndex.check]
  cases SectorIndex.ofNat? n <;> rfl

theorem checkInt_eq (v : Int) :
    checkInt v = .ok ((SectorIndex.checkInt v).map SectorIndex.address) := by
  rw [checkInt, SectorIndex.checkInt_eq]
  split
  · exact check_eq v.toNat
  · rfl

end Numbers

/-- What is left between two addresses. -/
structure Walk where
  start : UInt8
  stop : UInt8

namespace Walk

def all : Walk := ⟨0, UInt8.ofNat sectorCount⟩

def length (w : Walk) : Nat := w.stop.toNat - w.start.toNat

def next (w : Walk) : Option UInt8 × Walk :=
  if w.start < w.stop then (some w.start, ⟨w.start + 1, w.stop⟩) else (none, w)

def nextBack (w : Walk) : Option UInt8 × Walk :=
  if w.start < w.stop then (some (w.stop - 1), ⟨w.start, w.stop - 1⟩) else (none, w)

/-- Addresses that are skipped are taken one by one, and the skipping ends where there are no more. -/
def skip (take : Walk → Option UInt8 × Walk) (w : Walk) : Nat → Option UInt8 × Walk
  | 0 => take w
  | n + 1 =>
    match take w with
    | (some _, left) => skip take left n
    | (none, left) => (none, left)

def pull (w : Walk) : Span.Pull → Option UInt8 × Walk
  | .next => w.next
  | .nextBack => w.nextBack
  | .nth n => skip next w n
  | .nthBack n => skip nextBack w n

theorem length_of_next {w left : Walk} {a : UInt8} (hNext : w.next = (some a, left)) :
    left.length < w.length := by
  rw [next] at hNext
  split at hNext
  · rename_i hLess
    obtain ⟨_, rfl⟩ := Prod.mk.inj hNext
    rw [UInt8.lt_iff_toNat_lt] at hLess
    have hStop := w.stop.toNat_lt
    simp only [length, UInt8.toNat_add, UInt8.reduceToNat]
    omega
  · cases hNext

/-- All that is left, the first address first. -/
def rest (w : Walk) : List UInt8 :=
  match _hNext : w.next with
  | (some a, left) => a :: left.rest
  | (none, _) => []
termination_by w.length
decreasing_by exact length_of_next _hNext

theorem rest_of_some {w left : Walk} {a : UInt8} (hNext : w.next = (some a, left)) :
    w.rest = a :: left.rest := by
  rw [rest]
  split
  · rename_i b other hOther
    obtain ⟨hSame, rfl⟩ := Prod.mk.inj (hNext.symm.trans hOther)
    obtain rfl := Option.some.inj hSame
    rfl
  · rename_i other hOther
    cases (Prod.mk.inj (hNext.symm.trans hOther)).1

theorem rest_of_none {w left : Walk} (hNext : w.next = (none, left)) : w.rest = [] := by
  rw [rest]
  split
  · rename_i b other hOther
    cases (Prod.mk.inj (hNext.symm.trans hOther)).1
  · rfl

def ofSpan (s : Span) : Walk := ⟨UInt8.ofNat s.start, UInt8.ofNat s.stop⟩

/-- What a pull from a span gives, without the bounds. -/
def view (pulled : Option SectorIndex × Span) : Option UInt8 × Walk :=
  (pulled.1.map SectorIndex.address, ofSpan pulled.2)

theorem ofSpan_lt_iff (s : Span) : (ofSpan s).start < (ofSpan s).stop ↔ s.start < s.stop := by
  have hStop : s.stop < UInt8.size := Nat.lt_of_le_of_lt s.stop_le (by decide)
  have hStart : s.start < UInt8.size := Nat.lt_of_le_of_lt s.start_le_stop hStop
  rw [ofSpan, UInt8.lt_iff_toNat_lt, UInt8.toNat_ofNat_of_lt' hStart, UInt8.toNat_ofNat_of_lt' hStop]

theorem next_ofSpan (s : Span) : (ofSpan s).next = view s.next := by
  rw [next, Span.next, Span.nth]
  by_cases hLeft : s.start + 0 < s.stop
  · have hUp : UInt8.ofNat (s.start + 1) = UInt8.ofNat s.start + 1 := UInt8.ofNat_add s.start 1
    rw [if_pos ((ofSpan_lt_iff s).mpr hLeft), dif_pos hLeft]
    change (_, Walk.mk (UInt8.ofNat s.start + 1) _) = (_, Walk.mk (UInt8.ofNat (s.start + 1)) _)
    rw [hUp]
    rfl
  · rw [if_neg (mt (ofSpan_lt_iff s).mp hLeft), dif_neg hLeft]
    change (none, Walk.mk (UInt8.ofNat s.start) _) = (none, Walk.mk (UInt8.ofNat s.stop) _)
    rw [Span.start_eq_stop hLeft]

theorem nextBack_ofSpan (s : Span) : (ofSpan s).nextBack = view s.nextBack := by
  rw [nextBack, Span.nextBack, Span.nthBack]
  by_cases hLeft : s.start + 0 < s.stop
  · have hPositive : 1 ≤ s.stop := by omega
    have hDown : UInt8.ofNat (s.stop - 1) = UInt8.ofNat s.stop - 1 := UInt8.ofNat_sub hPositive
    rw [if_pos ((ofSpan_lt_iff s).mpr hLeft), dif_pos hLeft]
    change (some (UInt8.ofNat s.stop - 1), Walk.mk _ (UInt8.ofNat s.stop - 1)) =
      (some (UInt8.ofNat (s.stop - 1)), Walk.mk _ (UInt8.ofNat (s.stop - 1)))
    rw [hDown]
    rfl
  · rw [if_neg (mt (ofSpan_lt_iff s).mp hLeft), dif_neg hLeft]
    change (none, Walk.mk _ (UInt8.ofNat s.stop)) = (none, Walk.mk _ (UInt8.ofNat s.start))
    rw [Span.start_eq_stop hLeft]

/-- At either end, skipping one address after the other comes to the address behind them. -/
theorem skip_ofSpan {take : Walk → Option UInt8 × Walk} {first : Span → Option SectorIndex × Span}
    {behind : Span → Nat → Option SectorIndex × Span}
    (hTake : ∀ s, take (ofSpan s) = view (first s)) (hZero : ∀ s, behind s 0 = first s)
    (hSucc : ∀ s n, behind s (n + 1) = behind (first s).2 n)
    (hNone : ∀ s, (first s).1 = none → ∀ n, behind (first s).2 n = (none, (first s).2))
    (s : Span) (n : Nat) : skip take (ofSpan s) n = view (behind s n) := by
  induction n generalizing s with
  | zero => rw [skip, hTake, hZero]
  | succ n ih =>
    rw [skip, hTake, hSucc, view]
    cases hFirst : (first s).1 with
    | none =>
      rw [hNone s hFirst]
      rfl
    | some i => exact ih (first s).2

theorem pull_ofSpan (s : Span) (p : Span.Pull) : (ofSpan s).pull p = view (s.pull p) := by
  cases p with
  | next => exact next_ofSpan s
  | nextBack => exact nextBack_ofSpan s
  | nth n =>
    exact skip_ofSpan next_ofSpan (fun _ => rfl) Span.nth_succ
      (fun _ => Span.nth_of_next_none) s n
  | nthBack n =>
    exact skip_ofSpan nextBack_ofSpan (fun _ => rfl) Span.nthBack_succ
      (fun _ => Span.nthBack_of_nextBack_none) s n

theorem trace_all (pulls : List Span.Pull) :
    trace pull all pulls = (trace Span.pull Span.all pulls).map view :=
  trace_view pull_ofSpan Span.all pulls

theorem rest_ofSpan (s : Span) : (ofSpan s).rest = s.toList.map SectorIndex.address := by
  -- On what the span has left, since the recursion of the walk only follows its own bytes.
  induction hList : s.toList generalizing s with
  | nil =>
    cases hNext : s.next with
    | mk item left =>
      cases item with
      | none => exact rest_of_none ((next_ofSpan s).trans (congrArg view hNext))
      | some i => cases (Span.toList_of_next_some hNext).symm.trans hList
  | cons i later ih =>
    cases hNext : s.next with
    | mk item left =>
      cases item with
      | none => cases (Span.toList_of_next_none hNext).symm.trans hList
      | some j =>
        obtain ⟨rfl, hLeft⟩ := List.cons.inj ((Span.toList_of_next_some hNext).symm.trans hList)
        rw [rest_of_some ((next_ofSpan s).trans (congrArg view hNext)), ih left hLeft]
        rfl

theorem rest_all : all.rest = SectorIndex.all.map SectorIndex.address :=
  rest_ofSpan Span.all

end Walk

section Masks

def single (a : UInt8) : Except Trap SectorMask := do
  return ⟨← shiftLeft 1 a⟩

def containsSector (m : SectorMask) (a : UInt8) : Except Trap Bool := do
  return decide ((← single a) ⊆ m)

def insertSector (m : SectorMask) (a : UInt8) : Except Trap SectorMask := do
  return m ∪ (← single a)

def sectors (m : SectorMask) : Except Trap (List UInt8) :=
  Walk.all.rest.filterM (containsSector m)

theorem single_eq (i : SectorIndex) : single i.address = .ok (.single i) := by
  have hWidth : i.address.toNat < 8 := Nat.lt_trans i.address_lt (by decide)
  rw [single, shiftLeft_of_lt 1 hWidth]
  rfl

theorem containsSector_eq (m : SectorMask) (i : SectorIndex) :
    containsSector m i.address = .ok (decide (i ∈ m)) := by
  rw [containsSector, single_eq, ok_bind, decide_eq_decide.mpr SectorMask.single_subset_iff]
  rfl

theorem insertSector_eq (m : SectorMask) (i : SectorIndex) :
    insertSector m i.address = .ok (m.insert i) := by
  rw [insertSector, single_eq]
  rfl

/-- A list is filtered as a whole if the question never traps. -/
theorem filterM_map {α β : Type} {f : α → β} {ask : β → Except Trap Bool} {keep : α → Bool}
    (hAsk : ∀ x, ask (f x) = .ok (keep x)) (xs : List α) :
    (xs.map f).filterM ask = .ok ((xs.filter keep).map f) := by
  -- What is kept is gathered backwards, so the induction is for any list gathered before.
  have general (gathered : List β) :
      (xs.map f).filterAuxM ask gathered = .ok (((xs.filter keep).map f).reverse ++ gathered) := by
    induction xs generalizing gathered with
    | nil => rfl
    | cons x xs ih =>
      rw [List.map_cons, List.filterAuxM, hAsk, ok_bind, ih, List.filter_cons]
      cases keep x with
      | true => simp
      | false => rfl
  rw [List.filterM, general, ok_bind, List.append_nil, List.reverse_reverse]
  rfl

theorem sectors_eq (m : SectorMask) : sectors m = .ok (m.sectors.map SectorIndex.address) := by
  rw [sectors, Walk.rest_all]
  exact filterM_map (containsSector_eq m) SectorIndex.all

end Masks

end Unchecked

end PowerSink
