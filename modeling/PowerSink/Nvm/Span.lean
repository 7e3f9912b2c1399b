import PowerSink.Nvm.Index
import PowerSink.Trace

/-!
# Walks over the sectors from both ends

A span is what is left of the sectors between two ends. Either end can be asked for its next
index, or for the one behind any number of skipped indices. Skipping past the other end leaves
nothing. Positions are natural numbers, so no skip is too large.
-/

namespace PowerSink

structure Span where
  start : Nat
  stop : Nat
  start_le_stop : start ≤ stop
  stop_le : stop ≤ sectorCount

namespace Span

def all : Span := ⟨0, sectorCount, Nat.zero_le _, Nat.le_refl _⟩

def length (s : Span) : Nat := s.stop - s.start

/-- What is left, in address order. -/
def toList (s : Span) : List SectorIndex :=
  SectorIndex.all.filter fun i => s.start ≤ i.toNat ∧ i.toNat < s.stop

/-- There are few enough spans to count each of them. -/
theorem length_toList (s : Span) : s.toList.length = s.length := by
  have counted : ∀ stop ≤ sectorCount, ∀ start ≤ stop,
      (SectorIndex.all.filter fun i => decide (start ≤ i.toNat ∧ i.toNat < stop)).length =
        stop - start := by
    decide
  exact counted s.stop s.stop_le s.start s.start_le_stop

/-- The index behind the first `skip` ones; all of these leave the span. -/
def nth (s : Span) (skip : Nat) : Option SectorIndex × Span :=
  if h : s.start + skip < s.stop then
    (some (.ofFin ⟨s.start + skip, Nat.lt_of_lt_of_le h s.stop_le⟩),
      { start := s.start + skip + 1, stop := s.stop, start_le_stop := h, stop_le := s.stop_le })
  else
    (none,
      { start := s.stop, stop := s.stop, start_le_stop := Nat.le_refl _, stop_le := s.stop_le })

/-- The index before the last `skip` ones; all of these leave the span. -/
def nthBack (s : Span) (skip : Nat) : Option SectorIndex × Span :=
  if h : s.start + skip < s.stop then
    have bound := s.stop_le
    (some (.ofFin ⟨s.stop - skip - 1, by omega⟩),
      { start := s.start, stop := s.stop - skip - 1,
        start_le_stop := by omega, stop_le := by omega })
  else
    (none,
      { start := s.start, stop := s.start, start_le_stop := Nat.le_refl _,
        stop_le := Nat.le_trans s.start_le_stop s.stop_le })

def next (s : Span) : Option SectorIndex × Span := s.nth 0

def nextBack (s : Span) : Option SectorIndex × Span := s.nthBack 0

inductive Pull where
  | next
  | nextBack
  | nth (skip : Nat)
  | nthBack (skip : Nat)

def pull (s : Span) : Pull → Option SectorIndex × Span
  | .next => s.next
  | .nextBack => s.nextBack
  | .nth skip => s.nth skip
  | .nthBack skip => s.nthBack skip

end Span

end PowerSink
