import PowerSink.Error
import PowerSink.Nvm.Layout

/-!
# Sector indices

An index carries the address of its sector together with the bound, so that no access through
an index can fail. Numbers from outside become indices only here, and a refusal reports the
number itself. A negative number counts as the largest 64-bit one in that report.
-/

namespace PowerSink

structure SectorIndex where
  address : UInt8
  address_lt : address.toNat < sectorCount
  deriving DecidableEq

namespace SectorIndex

def toNat (i : SectorIndex) : Nat := i.address.toNat

def toFin (i : SectorIndex) : Fin sectorCount := ⟨i.address.toNat, i.address_lt⟩

theorem toNat_lt (i : SectorIndex) : i.toNat < sectorCount := i.address_lt

theorem toNat_injective {i j : SectorIndex} (h : i.toNat = j.toNat) : i = j := by
  cases i; cases j
  simpa [toNat, UInt8.toNat_inj] using h

def ofFin (i : Fin sectorCount) : SectorIndex where
  address := UInt8.ofNat i.val
  address_lt := by
    rw [UInt8.toNat_ofNat_of_lt' (Nat.lt_trans i.isLt (by decide))]
    exact i.isLt

@[simp] theorem toNat_ofFin (i : Fin sectorCount) : (ofFin i).toNat = i.val :=
  UInt8.toNat_ofNat_of_lt' (Nat.lt_trans i.isLt (by decide))

@[simp] theorem toFin_ofFin (i : Fin sectorCount) : (ofFin i).toFin = i :=
  Fin.ext (toNat_ofFin i)

@[simp] theorem ofFin_toFin (i : SectorIndex) : ofFin i.toFin = i :=
  toNat_injective (toNat_ofFin i.toFin)

def ofNat? (n : Nat) : Option SectorIndex :=
  if h : n < sectorCount then some (ofFin ⟨n, h⟩) else none

def check (n : Nat) : Except ImageError SectorIndex :=
  match ofNat? n with
  | some i => .ok i
  | none => .error (.outOfRange n)

theorem check_of_lt {n : Nat} (h : n < sectorCount) : check n = .ok (ofFin ⟨n, h⟩) := by
  rw [check, ofNat?, dif_pos h]

theorem check_of_le {n : Nat} (h : sectorCount ≤ n) : check n = .error (.outOfRange n) := by
  rw [check, ofNat?, dif_neg (Nat.not_lt.mpr h)]

def checkInt : Int → Except ImageError SectorIndex
  | .ofNat n => check n
  | .negSucc _ => .error (.outOfRange (UInt64.size - 1))

/-- The first number that names no sector decides the refusal. -/
def checkAll (ns : List Nat) : Except ImageError (List SectorIndex) :=
  ns.mapM check

/-- Every index once, in address order. -/
def all : List SectorIndex :=
  (List.finRange sectorCount).map ofFin

@[simp] theorem mem_all (i : SectorIndex) : i ∈ all :=
  List.mem_map.mpr ⟨i.toFin, List.mem_finRange i.toFin, ofFin_toFin i⟩

instance : LE SectorIndex := ⟨fun i j => i.address ≤ j.address⟩

instance : LT SectorIndex := ⟨fun i j => i.address < j.address⟩

instance : DecidableRel (LE.le (α := SectorIndex)) := fun i j =>
  inferInstanceAs (Decidable (i.address ≤ j.address))

instance : DecidableRel (LT.lt (α := SectorIndex)) := fun i j =>
  inferInstanceAs (Decidable (i.address < j.address))

instance : Min SectorIndex := minOfLe

instance : Max SectorIndex := maxOfLe

theorem le_iff {i j : SectorIndex} : i ≤ j ↔ i.toNat ≤ j.toNat := UInt8.le_iff_toNat_le

/-- Ascending, duplicates kept. -/
def sort (indices : List SectorIndex) : List SectorIndex :=
  indices.mergeSort fun i j => decide (i ≤ j)

def text (i : SectorIndex) : String := "SectorIndex(" ++ toString i.toNat ++ ")"

end SectorIndex

end PowerSink
