import PowerSink.Nvm.Layout

/-!
# Operations without a check

An access, a shift, a narrowing, a step of a counter or a copy whose bound nobody has checked gives
a result or a trap, and the trap shows what was out of range. These are the operations that computations
on bare numbers are made of. A loop that writes one position after the other goes through the `filled`
vectors, and it never traps on them.
-/

namespace PowerSink

/-- What stops an operation whose bound does not hold. -/
inductive Trap where
  | access (position size : Nat)
  | shift (amount : Nat)
  | narrowing (value : Nat)
  | increment (value : Nat)
  | copy (found expected : Nat)
  deriving DecidableEq

namespace Unchecked

variable {α β : Type} {size : Nat}

@[simp] theorem ok_bind (x : α) (next : α → Except Trap β) :
    (Except.ok x >>= next : Except Trap β) = next x := rfl

/-- A computation that gives a result has not trapped on the way. -/
theorem exists_of_bind {first : Except Trap α} {next : α → Except Trap β} {y : β}
    (h : first >>= next = .ok y) : ∃ x, first = .ok x ∧ next x = .ok y := by
  cases first with
  | error trap => cases h
  | ok x => exact ⟨x, rfl, h⟩

def get (xs : Vector α size) (n : Nat) : Except Trap α :=
  if h : n < size then .ok xs[n] else .error (.access n size)

def set (xs : Vector α size) (n : Nat) (x : α) : Except Trap (Vector α size) :=
  if h : n < size then .ok (xs.set n x h) else .error (.access n size)

/-- A byte can be shifted by less than its width. -/
def shiftLeft (byte amount : UInt8) : Except Trap UInt8 :=
  if amount.toNat < 8 then .ok (byte <<< amount) else .error (.shift amount.toNat)

/-- The byte of a number that has to fit. -/
def narrow (n : Nat) : Except Trap UInt8 :=
  if n < UInt8.size then .ok (UInt8.ofNat n) else .error (.narrowing n)

/-- Counters have 64 bits. -/
def increment (n : Nat) : Except Trap Nat :=
  if n + 1 < UInt64.size then .ok (n + 1) else .error (.increment n)

/-- A piece of a buffer is copied to a place of its own length. -/
def copy (piece : Array α) : Except Trap (Vector α size) :=
  if h : piece.size = size then .ok ⟨piece, h⟩ else .error (.copy piece.size size)

theorem get_of_lt (xs : Vector α size) {n : Nat} (hn : n < size) : get xs n = .ok xs[n] :=
  dif_pos hn

/-- An access gives what a checked one gives and traps where that gives nothing. -/
theorem get_eq_ok_iff {xs : Vector α size} {n : Nat} {x : α} :
    get xs n = .ok x ↔ xs[n]? = some x := by
  by_cases hn : n < size
  · rw [get_of_lt xs hn, Vector.getElem?_eq_getElem hn]
    constructor
    · intro h
      exact congrArg some (Except.ok.inj h)
    · intro h
      exact congrArg Except.ok (Option.some.inj h)
  · rw [get, dif_neg hn, Vector.getElem?_eq_none (Nat.le_of_not_lt hn)]
    constructor
    · intro h
      cases h
    · intro h
      cases h

theorem set_of_lt (xs : Vector α size) {n : Nat} (hn : n < size) (x : α) :
    set xs n x = .ok (xs.set n x hn) :=
  dif_pos hn

theorem shiftLeft_of_lt (byte : UInt8) {amount : UInt8} (hAmount : amount.toNat < 8) :
    shiftLeft byte amount = .ok (byte <<< amount) :=
  if_pos hAmount

theorem narrow_of_lt {n : Nat} (hn : n < UInt8.size) : narrow n = .ok (UInt8.ofNat n) :=
  if_pos hn

theorem increment_of_lt {n : Nat} (hn : n + 1 < UInt64.size) : increment n = .ok (n + 1) :=
  if_pos hn

theorem eq_of_increment {n m : Nat} (h : increment n = .ok m) : m = n + 1 := by
  rw [increment] at h
  split at h
  · exact (Except.ok.inj h).symm
  · cases h

theorem copy_toArray (xs : Vector α size) : copy xs.toArray = .ok xs :=
  dif_pos xs.size_toArray

/-- The values of `f` stand at the first `n` positions and `blank` stands behind them. -/
def filled (f : Fin size → α) (blank : α) (n : Nat) : Vector α size :=
  Vector.ofFn fun k => if k.val < n then f k else blank

section Filled

variable (f : Fin size → α) (blank : α)

theorem getElem_filled (n : Nat) {k : Nat} (hk : k < size) :
    (filled f blank n)[k] = if k < n then f ⟨k, hk⟩ else blank :=
  Vector.getElem_ofFn hk

theorem filled_zero : filled f blank 0 = Vector.replicate size blank := by
  apply Vector.ext
  intro k hk
  rw [getElem_filled, if_neg (Nat.not_lt_zero k), Vector.getElem_replicate]

theorem filled_size : filled f blank size = Vector.ofFn f := by
  apply Vector.ext
  intro k hk
  rw [getElem_filled, if_pos hk, Vector.getElem_ofFn]

/-- Writing the next value moves on by one position. -/
theorem set_filled {n : Nat} (hn : n < size) :
    set (filled f blank n) n (f ⟨n, hn⟩) = .ok (filled f blank (n + 1)) := by
  rw [set_of_lt _ hn]
  apply congrArg Except.ok
  apply Vector.ext
  intro k hk
  rw [Vector.getElem_set, getElem_filled, getElem_filled]
  rcases Nat.lt_trichotomy k n with hLess | rfl | hGreater
  · rw [if_neg (by omega), if_pos hLess, if_pos (by omega)]
  · rw [if_pos rfl, if_pos (by omega)]
  · rw [if_neg (by omega), if_neg (by omega), if_neg (by omega)]

theorem foldlM_range_filled (write : Vector α size → Nat → Except Trap (Vector α size))
    (hWrite : ∀ n < size, write (filled f blank n) n = .ok (filled f blank (n + 1))) {n : Nat}
    (hn : n ≤ size) : (List.range n).foldlM write (filled f blank 0) = .ok (filled f blank n) := by
  induction n with
  | zero => rfl
  | succ n ih =>
    rw [List.range_succ, List.foldlM_append, ih (Nat.le_of_succ_le hn)]
    exact congrArg (· >>= pure) (hWrite n hn)

end Filled

end Unchecked

end PowerSink
