import PowerSink.Nvm.Index

/-!
# Sets of sectors

A mask keeps one bit for each sector in a byte. The byte has three more bits, numbered 5 to 7,
which no sector uses. They take part in the bitwise operations and in `count`, and they are
dropped by `ofBitsTruncate` and `complement` and refused by `ofBits?`.

Membership is the view of a mask as a set of sectors. `testBit` is the finer view that also
sees the unused bits.
-/

namespace PowerSink

structure SectorMask where
  bits : UInt8
  deriving DecidableEq

namespace SectorMask

def testBit (m : SectorMask) (n : Nat) : Bool := m.bits.toBitVec.getLsbD n

instance : Membership SectorIndex SectorMask := ⟨fun m i => m.testBit i.toNat = true⟩

instance (i : SectorIndex) (m : SectorMask) : Decidable (i ∈ m) :=
  inferInstanceAs (Decidable (m.testBit i.toNat = true))

theorem mem_iff {i : SectorIndex} {m : SectorMask} : i ∈ m ↔ m.testBit i.toNat = true := Iff.rfl

theorem testBit_eq_false {m : SectorMask} {n : Nat} (h : 8 ≤ n) : m.testBit n = false :=
  BitVec.getLsbD_of_ge _ _ h

@[ext] theorem ext {a b : SectorMask} (h : ∀ n < 8, a.testBit n = b.testBit n) : a = b := by
  cases a; cases b
  congr 1
  exact UInt8.toBitVec_inj.mp (BitVec.eq_of_getLsbD_eq h)

instance : EmptyCollection SectorMask := ⟨⟨0⟩⟩

instance : Inhabited SectorMask := ⟨∅⟩

instance : Union SectorMask := ⟨fun a b => ⟨a.bits ||| b.bits⟩⟩

instance : Inter SectorMask := ⟨fun a b => ⟨a.bits &&& b.bits⟩⟩

instance : SDiff SectorMask := ⟨fun a b => ⟨a.bits &&& ~~~b.bits⟩⟩

/-- The bits in exactly one of two masks. -/
def symmDiff (a b : SectorMask) : SectorMask := ⟨a.bits ^^^ b.bits⟩

@[simp] theorem testBit_empty (n : Nat) : (∅ : SectorMask).testBit n = false := by
  change (0 : UInt8).toBitVec.getLsbD n = false
  simp

@[simp] theorem testBit_union (a b : SectorMask) (n : Nat) :
    (a ∪ b).testBit n = (a.testBit n || b.testBit n) := by
  change (a.bits ||| b.bits).toBitVec.getLsbD n = _
  simp [testBit]

@[simp] theorem testBit_inter (a b : SectorMask) (n : Nat) :
    (a ∩ b).testBit n = (a.testBit n && b.testBit n) := by
  change (a.bits &&& b.bits).toBitVec.getLsbD n = _
  simp [testBit]

@[simp] theorem testBit_sdiff (a b : SectorMask) (n : Nat) :
    (a \ b).testBit n = (a.testBit n && !b.testBit n) := by
  change (a.bits &&& ~~~b.bits).toBitVec.getLsbD n = _
  by_cases h : n < 8
  · simp [testBit, h]
  · simp [testBit, BitVec.getLsbD_of_ge _ n (Nat.le_of_not_lt h)]

@[simp] theorem testBit_symmDiff (a b : SectorMask) (n : Nat) :
    (symmDiff a b).testBit n = (a.testBit n ^^ b.testBit n) := by
  simp [symmDiff, testBit]

def single (i : SectorIndex) : SectorMask := ⟨1 <<< i.address⟩

theorem testBit_single (i : SectorIndex) (n : Nat) :
    (single i).testBit n = decide (n = i.toNat) := by
  have bound : i.toNat < 8 := Nat.lt_trans i.toNat_lt (by decide)
  have shift : i.address.toNat % 8 = i.toNat := Nat.mod_eq_of_lt bound
  rw [Bool.eq_iff_iff]
  simp [single, testBit, UInt8.toBitVec_shiftLeft, BitVec.getLsbD_shiftLeft, shift]
  omega

@[simp] theorem mem_single {i j : SectorIndex} : i ∈ single j ↔ i = j := by
  rw [mem_iff, testBit_single, decide_eq_true_eq]
  exact ⟨SectorIndex.toNat_injective, congrArg SectorIndex.toNat⟩

def insert (i : SectorIndex) (m : SectorMask) : SectorMask := m ∪ single i

theorem testBit_insert (i : SectorIndex) (m : SectorMask) (n : Nat) :
    (m.insert i).testBit n = (m.testBit n || decide (n = i.toNat)) := by
  rw [insert, testBit_union, testBit_single]

def ofList (indices : List SectorIndex) : SectorMask :=
  indices.foldl (fun m i => m.insert i) ∅

theorem testBit_ofList (indices : List SectorIndex) (n : Nat) :
    (ofList indices).testBit n = indices.any fun i => decide (n = i.toNat) := by
  have general (start : SectorMask) :
      (indices.foldl (fun m i => m.insert i) start).testBit n =
        (start.testBit n || indices.any fun i => decide (n = i.toNat)) := by
    induction indices generalizing start with
    | nil => simp
    | cons i rest ih => rw [List.foldl_cons, ih, testBit_insert, List.any_cons, Bool.or_assoc]
  rw [ofList, general, testBit_empty, Bool.false_or]

@[simp] theorem mem_ofList {i : SectorIndex} {indices : List SectorIndex} :
    i ∈ ofList indices ↔ i ∈ indices := by
  rw [mem_iff, testBit_ofList, List.any_eq_true]
  constructor
  · rintro ⟨j, hj, h⟩
    rwa [SectorIndex.toNat_injective (of_decide_eq_true h)]
  · intro h
    exact ⟨i, h, decide_eq_true rfl⟩

/-- Every sector and no unused bit. -/
def all : SectorMask := ofList SectorIndex.all

theorem testBit_all (n : Nat) : all.testBit n = decide (n < sectorCount) := by
  rw [all, testBit_ofList, Bool.eq_iff_iff, List.any_eq_true, decide_eq_true_eq]
  constructor
  · rintro ⟨i, _, h⟩
    rw [of_decide_eq_true h]
    exact i.toNat_lt
  · intro h
    exact ⟨.ofFin ⟨n, h⟩, SectorIndex.mem_all _, by simp⟩

def ofBitsTruncate (bits : UInt8) : SectorMask := ⟨bits⟩ ∩ all

def ofBits? (bits : UInt8) : Option SectorMask :=
  if ofBitsTruncate bits = ⟨bits⟩ then some ⟨bits⟩ else none

def complement (m : SectorMask) : SectorMask := ofBitsTruncate (~~~m.bits)

instance : HasSubset SectorMask := ⟨fun a b => a ∩ b = a⟩

instance (a b : SectorMask) : Decidable (a ⊆ b) := inferInstanceAs (Decidable (a ∩ b = a))

theorem subset_iff {a b : SectorMask} : a ⊆ b ↔ ∀ n, a.testBit n → b.testBit n := by
  constructor
  · intro h n ha
    have hn := congrArg (fun m => testBit m n) (show a ∩ b = a from h)
    simpa [ha] using hn
  · intro h
    change a ∩ b = a
    ext n hn
    have := h n
    cases ha : a.testBit n <;> simp_all

def intersects (a b : SectorMask) : Bool := decide (a ∩ b ≠ ∅)

def isEmpty (m : SectorMask) : Bool := decide (m = ∅)

def isAll (m : SectorMask) : Bool := decide (all ⊆ m)

def set (m operand : SectorMask) (on : Bool) : SectorMask :=
  if on then m ∪ operand else m \ operand

/-- Numbers of the bits that are set, unused ones included. -/
def bitNumbers (m : SectorMask) : List (Fin 8) :=
  (List.finRange 8).filter fun n => m.testBit n

def count (m : SectorMask) : Nat := m.bitNumbers.length

/-- The sectors of a mask in address order. -/
def sectors (m : SectorMask) : List SectorIndex :=
  SectorIndex.all.filter fun i => i ∈ m

@[simp] theorem mem_sectors {i : SectorIndex} {m : SectorMask} : i ∈ m.sectors ↔ i ∈ m := by
  simp [sectors]

def flagName (i : SectorIndex) : String := "SECTOR_" ++ toString i.toNat

def ofName? (name : String) : Option SectorMask :=
  (SectorIndex.all.find? fun i => flagName i = name).map single

/-- A mask for each sector and then one for all unused bits together, if there are any. -/
def flags (m : SectorMask) : List SectorMask :=
  m.sectors.map single ++ if m \ all = ∅ then [] else [m \ all]

def named (m : SectorMask) : List (String × SectorMask) :=
  m.sectors.map fun i => (flagName i, single i)

def text (m : SectorMask) : String := "SectorMask(" ++ toString m.bits.toNat ++ ")"

end SectorMask

end PowerSink
