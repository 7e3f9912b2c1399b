import PowerSink.Device.Memory
import PowerSink.Proofs.Nvm.Ends

/-!
# Writing an image to a memory

A write leaves each sector whole, as it was or as the image has it, and so it can only take sectors
out of the difference: those below its limit that are not stuck. Provisioning makes at most one such
write, whatever faults are planned.
-/

namespace PowerSink

namespace SectorMask

def below (limit : Nat) : SectorMask := ofList (SectorIndex.all.filter fun i => i.toNat < limit)

@[simp] theorem mem_below {i : SectorIndex} {limit : Nat} : i ∈ below limit ↔ i.toNat < limit := by
  simp [below]

end SectorMask

namespace Memory

theorem cells_write_or (memory : Memory) (limit : Nat) (sectors : Sectors) (i : Fin sectorCount) :
    (memory.write limit sectors).cells.get i = memory.cells.get i ∨
      (memory.write limit sectors).cells.get i = sectors.get i := by
  rw [get_write]
  split
  · exact .inr rfl
  · exact .inl rfl

theorem cells_write_toFin (memory : Memory) (limit : Nat) (sectors : Sectors) (i : SectorIndex) :
    (memory.write limit sectors).cells.get i.toFin =
      if i.toNat < limit ∧ i ∉ memory.stuck then
        sectors.get i.toFin
      else
        memory.cells.get i.toFin := by
  rw [get_write, SectorIndex.ofFin_toFin]
  rfl

theorem diff_write (memory : Memory) (limit : Nat) (image : NvmImage) :
    image.diff (memory.write limit image.sectors).cells =
      image.diff memory.cells \ (SectorMask.below limit \ memory.stuck) := by
  apply SectorMask.eq_of_known (image.known_diff _) ((image.known_diff _).sdiff _)
  intro i
  rw [SectorMask.mem_sdiff, SectorMask.mem_sdiff, SectorMask.mem_below, NvmImage.mem_diff,
    NvmImage.mem_diff, cells_write_toFin]
  split
  · rename_i hWritten
    simp [hWritten, NvmImage.sectorAt]
  · rename_i hKept
    simp [hKept]

theorem diff_write_all (memory : Memory) (image : NvmImage) :
    image.diff (memory.write sectorCount image.sectors).cells =
      image.diff memory.cells ∩ memory.stuck := by
  rw [diff_write]
  apply SectorMask.eq_of_known ((image.known_diff _).sdiff _) ((image.known_diff _).inter _)
  intro i
  simp [i.toNat_lt]

theorem cells_write_all_eq_iff (memory : Memory) (image : NvmImage) :
    (memory.write sectorCount image.sectors).cells = image.sectors ↔
      image.diff memory.cells ∩ memory.stuck = ∅ := by
  rw [← diff_write_all, NvmImage.diff_eq_empty_iff]

namespace Faults

def rest (faults : Faults) : NvmCall → Faults
  | .read => { faults with reads := faults.reads.rest }
  | .write _ => { faults with writes := faults.writes.rest }

/-- How many sectors the first write handles before it ends. -/
def reach (faults : Faults) : Nat :=
  match faults.writes.first with
  | none => sectorCount
  | some fault => fault.handled

end Faults

variable {memory : Memory} {image : NvmImage} {faults : Faults}

theorem served_write_state (sectors : Sectors) :
    (serve (.write sectors) (memory, faults)).2 =
      (memory.write faults.reach sectors, faults.rest (.write sectors)) := by
  change ((memory.serveWrite sectors faults.writes.first).2, faults.rest (.write sectors)) = _
  rw [Faults.reach]
  cases faults.writes.first <;> rfl

/-- A write that fails early or reads that lie do not matter here: the memory is either as it was
or it has received one write of the image. -/
theorem provision_state (memory : Memory) (image : NvmImage) (faults : Faults) :
    let run := memory.provision image faults
    (∀ sectors, NvmCall.write sectors ∉ run.calls) ∧ run.state.1 = memory ∨
    NvmCall.write image.sectors ∈ run.calls ∧
      run.state.1 = memory.write faults.reach image.sectors := by
  intro run
  have hEnds := image.provision_ends serve (memory, faults)
  have hServes := Session.run_serves serve image.provision (memory, faults)
  rw [Run.calls_eq_map]
  change image.Ends run.result run.exchanges run.messages at hEnds
  change Session.Serves serve (memory, faults) run.exchanges run.state at hServes
  generalize run.result = result, run.exchanges = exchanges, run.messages = messages,
    run.state = reached at hEnds hServes ⊢
  have hWritten : (serve (.write image.sectors) (memory, faults)).2.1 =
      memory.write faults.reach image.sectors := by rw [served_write_state]
  cases hEnds with
  | readFailed code =>
    obtain ⟨_, rfl⟩ := hServes
    exact .inl ⟨by simp, rfl⟩
  | unchanged =>
    obtain ⟨_, rfl⟩ := hServes
    exact .inl ⟨by simp, rfl⟩
  | writeFailed found code differs =>
    obtain ⟨_, _, rfl⟩ := hServes
    exact .inr ⟨by simp, hWritten⟩
  | readBackFailed found code differs =>
    obtain ⟨_, _, _, rfl⟩ := hServes
    exact .inr ⟨by simp, hWritten⟩
  | verifyFailed found back differs remains =>
    obtain ⟨_, _, _, rfl⟩ := hServes
    exact .inr ⟨by simp, hWritten⟩
  | updated found differs =>
    obtain ⟨_, _, _, rfl⟩ := hServes
    exact .inr ⟨by simp, hWritten⟩

end Memory

end PowerSink
