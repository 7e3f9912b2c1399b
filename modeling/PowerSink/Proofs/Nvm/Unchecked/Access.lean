import PowerSink.Proofs.Nvm.Lookup
import PowerSink.Proofs.Nvm.Unchecked.Address
import PowerSink.Proofs.Nvm.Unchecked.Copying

/-!
# Accesses by addresses without a bound

An image looks its sectors up by addresses, and compares them with those of a controller, without asking
whether an address is in range. `Produced` holds of the addresses that come out of numbers, walks, masks
and images. These are exactly the ones below five, and each of them can be used wherever an address is
used. So no computation traps, and each gives what it gives on checked indices.
-/

namespace PowerSink

namespace Unchecked

def sectorAt (image : NvmImage) (a : UInt8) : Except Trap Sector := get image.sectors a.toNat

def sector (image : NvmImage) (n : Nat) : Except Trap (Except ImageError Sector) := do
  match ← check n with
  | .ok a => return .ok (← sectorAt image a)
  | .error e => return .error e

def entries (image : NvmImage) : Except Trap (List (UInt8 × Sector)) :=
  Walk.all.rest.mapM fun a => do return (a, ← sectorAt image a)

def markDifferent (image : NvmImage) (found : Sectors) (m : SectorMask) (a : UInt8) :
    Except Trap SectorMask := do
  if (← sectorAt image a) ≠ (← get found a.toNat) then
    insertSector m a
  else
    return m

def diff (image : NvmImage) (found : Sectors) : Except Trap SectorMask :=
  Walk.all.rest.foldlM (markDifferent image found) ∅

theorem get_address (rows : Sectors) (i : SectorIndex) :
    get rows i.address.toNat = .ok (rows.get i.toFin) :=
  get_of_lt rows i.address_lt

section Images

variable (image : NvmImage)

theorem sectorAt_eq (i : SectorIndex) : sectorAt image i.address = .ok (image.sectorAt i) :=
  get_address image.sectors i

/-- No address but those below five can be looked up. -/
theorem exists_sectorAt_iff {a : UInt8} :
    (∃ contents, sectorAt image a = .ok contents) ↔ a.toNat < sectorCount := by
  constructor
  · rintro ⟨contents, hContents⟩
    obtain ⟨hLess, _⟩ := Vector.getElem?_eq_some_iff.mp (get_eq_ok_iff.mp hContents)
    exact hLess
  · intro hLess
    exact ⟨_, get_of_lt image.sectors hLess⟩

example : sectorAt .factory 5 = .error (.access 5 5) := rfl

theorem sector_eq (n : Nat) : sector image n = .ok (image.sector n) := by
  rw [sector, check_eq, ok_bind, NvmImage.sector_eq_map]
  cases SectorIndex.check n with
  | ok i =>
    change (sectorAt image i.address >>= fun found => pure (Except.ok found)) = _
    rw [sectorAt_eq]
    rfl
  | error e => rfl

theorem entries_eq :
    entries image = .ok (image.entries.map fun entry => (entry.1.address, entry.2)) := by
  have hEntry : (fun a => do return (a, ← sectorAt image a)) ∘ SectorIndex.address =
      fun i => (pure (i.address, image.sectorAt i) : Except Trap (UInt8 × Sector)) := by
    funext i
    rw [Function.comp_apply, sectorAt_eq]
    rfl
  rw [entries, Walk.rest_all, List.mapM_map, hEntry, List.mapM_pure, NvmImage.entries, List.map_map]
  rfl

theorem markDifferent_eq (found : Sectors) (m : SectorMask) (i : SectorIndex) :
    markDifferent image found m i.address =
      .ok (if image.sectorAt i ≠ found.get i.toFin then m.insert i else m) := by
  rw [markDifferent, sectorAt_eq, ok_bind, get_address, ok_bind]
  split
  · exact insertSector_eq m i
  · rfl

theorem diff_eq (found : Sectors) : diff image found = .ok (image.diff found) := by
  have hMark : (fun m i => markDifferent image found m (SectorIndex.address i)) =
      fun m i => (pure (if image.sectorAt i ≠ found.get i.toFin then m.insert i else m) :
        Except Trap SectorMask) := by
    funext m i
    exact markDifferent_eq image found m i
  rw [diff, Walk.rest_all, List.foldlM_map, hMark, List.foldlM_pure, NvmImage.diff,
    SectorMask.ofList, List.foldl_filter]
  simp only [decide_eq_true_eq]
  rfl

end Images

/-- The addresses that come out of an operation. -/
inductive Produced (a : UInt8) : Prop where
  | number (n : Nat) (hNumber : ofNat? n = .ok (some a))
  | checked (n : Nat) (hChecked : check n = .ok (.ok a))
  | checkedInt (v : Int) (hChecked : checkInt v = .ok (.ok a))
  | walked (pulls : List Span.Pull) (left : Walk)
      (hPulled : (some a, left) ∈ trace Walk.pull Walk.all pulls)
  | inMask (m : SectorMask) (found : List UInt8) (hSectors : sectors m = .ok found)
      (hMem : a ∈ found)
  | inImage (image : NvmImage) (found : List (UInt8 × Sector)) (contents : Sector)
      (hEntries : entries image = .ok found) (hMem : (a, contents) ∈ found)

theorem exists_index_of_check {answer : Except ImageError SectorIndex} {a : UInt8}
    (hAnswer : answer.map SectorIndex.address = .ok a) : ∃ i : SectorIndex, i.address = a := by
  cases answer with
  | ok i => exact ⟨i, Except.ok.inj hAnswer⟩
  | error e => cases hAnswer

theorem Produced.exists_index {a : UInt8} (hProduced : Produced a) :
    ∃ i : SectorIndex, i.address = a := by
  cases hProduced with
  | number n hNumber =>
    rw [ofNat?_eq] at hNumber
    obtain ⟨i, _, hAddress⟩ := Option.map_eq_some_iff.mp (Except.ok.inj hNumber)
    exact ⟨i, hAddress⟩
  | checked n hChecked =>
    rw [check_eq] at hChecked
    exact exists_index_of_check (Except.ok.inj hChecked)
  | checkedInt v hChecked =>
    rw [checkInt_eq] at hChecked
    exact exists_index_of_check (Except.ok.inj hChecked)
  | walked pulls left hPulled =>
    rw [Walk.trace_all] at hPulled
    obtain ⟨entry, _, hEntry⟩ := List.mem_map.mp hPulled
    obtain ⟨i, _, hAddress⟩ := Option.map_eq_some_iff.mp (Prod.mk.inj hEntry).1
    exact ⟨i, hAddress⟩
  | inMask m found hSectors hMem =>
    rw [sectors_eq] at hSectors
    obtain rfl := Except.ok.inj hSectors
    obtain ⟨i, _, hAddress⟩ := List.mem_map.mp hMem
    exact ⟨i, hAddress⟩
  | inImage image found contents hEntries hMem =>
    rw [entries_eq] at hEntries
    obtain rfl := Except.ok.inj hEntries
    obtain ⟨entry, _, hEntry⟩ := List.mem_map.mp hMem
    exact ⟨entry.1, (Prod.mk.inj hEntry).1⟩

theorem produced_address (i : SectorIndex) : Produced i.address := by
  have hNumber : ofNat? i.toNat = .ok (some i.address) := by
    have hSame : SectorIndex.ofFin ⟨i.toNat, i.toNat_lt⟩ = i := i.ofFin_toFin
    rw [ofNat?_eq, SectorIndex.ofNat?_of_lt i.toNat_lt, hSame]
    rfl
  exact .number i.toNat hNumber

theorem produced_iff_lt {a : UInt8} : Produced a ↔ a.toNat < sectorCount := by
  constructor
  · intro hProduced
    obtain ⟨i, rfl⟩ := hProduced.exists_index
    exact i.address_lt
  · intro hLess
    exact produced_address ⟨a, hLess⟩

/-- Wherever an address is used, this one gives what the index gives. -/
structure Stands (a : UInt8) (i : SectorIndex) : Prop where
  address : i.address = a
  sectorAt : ∀ image, Unchecked.sectorAt image a = .ok (image.sectorAt i)
  found : ∀ rows : Sectors, get rows a.toNat = .ok (rows.get i.toFin)
  single : Unchecked.single a = .ok (.single i)
  contains : ∀ m, containsSector m a = .ok (decide (i ∈ m))
  insert : ∀ m, insertSector m a = .ok (m.insert i)

theorem stands (i : SectorIndex) : Stands i.address i where
  address := rfl
  sectorAt image := sectorAt_eq image i
  found rows := get_address rows i
  single := single_eq i
  contains m := containsSector_eq m i
  insert m := insertSector_eq m i

theorem produced_iff_stands {a : UInt8} : Produced a ↔ ∃ i, Stands a i := by
  constructor
  · intro hProduced
    obtain ⟨i, rfl⟩ := hProduced.exists_index
    exact ⟨i, stands i⟩
  · rintro ⟨i, hStands⟩
    rw [← hStands.address]
    exact produced_address i

end Unchecked

open Unchecked in
/-- The bound is checked where a number becomes an address and nowhere else, and yet no look-up, shift,
narrowing or copy is ever out of range. -/
theorem unchecked_code_never_traps :
    (∀ a, Produced a ↔ a.toNat < 5) ∧
    (∀ a, Produced a ↔ ∃ i, Stands a i) ∧
    (∀ n, Unchecked.ofNat? n = .ok ((SectorIndex.ofNat? n).map SectorIndex.address)) ∧
    (∀ n, Unchecked.check n = .ok ((SectorIndex.check n).map SectorIndex.address)) ∧
    (∀ v, Unchecked.checkInt v = .ok ((SectorIndex.checkInt v).map SectorIndex.address)) ∧
    (∀ pulls, trace Walk.pull Walk.all pulls =
      (trace Span.pull Span.all pulls).map fun entry =>
        (entry.1.map SectorIndex.address, Walk.ofSpan entry.2)) ∧
    (∀ m, Unchecked.sectors m = .ok (m.sectors.map SectorIndex.address)) ∧
    (∀ image,
      (∀ a, (∃ contents, Unchecked.sectorAt image a = .ok contents) ↔ Produced a) ∧
      (∀ n, Unchecked.sector image n = .ok (image.sector n)) ∧
      Unchecked.entries image =
        .ok (image.entries.map fun entry => (entry.1.address, entry.2)) ∧
      (∀ found, Unchecked.diff image found = .ok (image.diff found)) ∧
      Copying.start.run image = .ok (40, ⟨40, image.toBytes, List.range 40⟩)) ∧
    ∀ buffer, Unchecked.ofBytes buffer = .ok (NvmImage.ofBytes buffer) := by
  refine ⟨fun _ => produced_iff_lt, fun _ => produced_iff_stands, ofNat?_eq, check_eq, checkInt_eq,
    Walk.trace_all, sectors_eq, ?_, ofBytes_eq⟩
  intro image
  have hRun := Copying.run_reached image (Nat.zero_add imageSize)
  rw [Copying.reached_zero, Copying.reached_imageSize] at hRun
  exact ⟨fun _ => (exists_sectorAt_iff image).trans produced_iff_lt.symm, sector_eq image,
    entries_eq image, diff_eq image, hRun⟩

end PowerSink
