import PowerSink.Nvm.Mask
import PowerSink.Trace

/-!
# Steps on a mask

One step changes a mask, asks about it, or does both. Sectors arrive as numbers and single flags
as names, and a step that cannot make sense of them leaves the mask as it was.
-/

namespace PowerSink.SectorMask

inductive Step where
  | insertSector (index : Nat)
  | containsSector (index : Nat)
  | ofBits (bits : UInt8)
  | ofBitsTruncate (bits : UInt8)
  | ofName (name : String)
  | contains (operand : SectorMask)
  | intersects (operand : SectorMask)
  | equals (operand : SectorMask)
  | union (operand : SectorMask)
  | difference (operand : SectorMask)
  | intersection (operand : SectorMask)
  | symmetricDifference (operand : SectorMask)
  | set (operand : SectorMask) (on : Bool)
  | complement
  | isEmpty
  | isAll
  | flags
  | named
  | text
  | collect (indices : List Nat)

inductive Reply where
  | done
  | refused (error : ImageError)
  | truth (value : Bool)
  | masks (items : List SectorMask)
  | named (items : List (String × SectorMask))
  | text (value : String)

/-- The mask becomes the candidate if there is one; the reply tells whether there was. -/
def adopt (m : SectorMask) : Option SectorMask → Reply × SectorMask
  | some candidate => (.truth true, candidate)
  | none => (.truth false, m)

def step (m : SectorMask) : Step → Reply × SectorMask
  | .insertSector index =>
    match SectorIndex.check index with
    | .ok i => (.done, m.insert i)
    | .error e => (.refused e, m)
  | .containsSector index =>
    match SectorIndex.check index with
    | .ok i => (.truth (decide (i ∈ m)), m)
    | .error e => (.refused e, m)
  | .ofBits bits => m.adopt (SectorMask.ofBits? bits)
  | .ofBitsTruncate bits => (.done, SectorMask.ofBitsTruncate bits)
  | .ofName name => m.adopt (ofName? name)
  | .contains operand => (.truth (decide (operand ⊆ m)), m)
  | .intersects operand => (.truth (m.intersects operand), m)
  | .equals operand => (.truth (decide (m = operand)), m)
  | .union operand => (.done, m ∪ operand)
  | .difference operand => (.done, m \ operand)
  | .intersection operand => (.done, m ∩ operand)
  | .symmetricDifference operand => (.done, symmDiff m operand)
  | .set operand on => (.done, m.set operand on)
  | .complement => (.done, m.complement)
  | .isEmpty => (.truth m.isEmpty, m)
  | .isAll => (.truth m.isAll, m)
  | .flags => (.masks m.flags, m)
  | .named => (.named m.named, m)
  | .text => (.text m.text, m)
  | .collect indices =>
    match SectorIndex.checkAll indices with
    | .ok found => (.done, ofList found)
    | .error e => (.refused e, m)

end PowerSink.SectorMask
