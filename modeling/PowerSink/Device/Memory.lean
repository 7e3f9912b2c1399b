import PowerSink.Nvm.Provision
import PowerSink.Device.FaultPlan

/-!
# Simulated memory

The memory of a simulated controller has five sectors, some of which may be stuck and ignore
every write. A read that is at fault fails or returns other sectors than those in memory, and a
write that is at fault fails after it has handled the first few sectors.
-/

namespace PowerSink

structure Memory where
  cells : Sectors
  stuck : SectorMask

namespace Memory

inductive ReadFault where
  | fail (code : BusCode)
  | pretend (sectors : Sectors)

structure WriteFault where
  code : BusCode
  handled : Nat

structure Faults where
  reads : FaultPlan ReadFault
  writes : FaultPlan WriteFault

instance : EmptyCollection Faults := ⟨⟨∅, ∅⟩⟩

/-- Sectors below `limit` take their new contents unless they are stuck. -/
def write (memory : Memory) (limit : Nat) (sectors : Sectors) : Memory :=
  { memory with
    cells := Vector.ofFn fun i =>
      if i.val < limit ∧ SectorIndex.ofFin i ∉ memory.stuck then
        sectors.get i
      else
        memory.cells.get i }

theorem get_write (memory : Memory) (limit : Nat) (sectors : Sectors) (i : Fin sectorCount) :
    (memory.write limit sectors).cells.get i =
      if i.val < limit ∧ SectorIndex.ofFin i ∉ memory.stuck then
        sectors.get i
      else
        memory.cells.get i :=
  Vector.getElem_ofFn i.isLt

@[simp] theorem stuck_write (memory : Memory) (limit : Nat) (sectors : Sectors) :
    (memory.write limit sectors).stuck = memory.stuck := rfl

def serveRead (memory : Memory) : Option ReadFault → Except BusCode Sectors
  | none => .ok memory.cells
  | some (.fail code) => .error code
  | some (.pretend sectors) => .ok sectors

def serveWrite (memory : Memory) (sectors : Sectors) :
    Option WriteFault → Except BusCode Unit × Memory
  | none => (.ok (), memory.write sectorCount sectors)
  | some fault => (.error fault.code, memory.write fault.handled sectors)

def serve : Session.Handler NvmCall.Answer BusCode (Memory × Faults)
  | .read, (memory, faults) =>
    (memory.serveRead faults.reads.first, (memory, { faults with reads := faults.reads.rest }))
  | .write sectors, (memory, faults) =>
    let (answer, written) := memory.serveWrite sectors faults.writes.first
    (answer, (written, { faults with writes := faults.writes.rest }))

abbrev ProvisionRun :=
  Run NvmCall.Answer BusCode (Except (ProvisionError BusCode) Outcome) (Memory × Faults)

def provision (memory : Memory) (image : NvmImage) (faults : Faults) : ProvisionRun :=
  image.provision.run serve (memory, faults)

def setByte (memory : Memory) (i : SectorIndex) (byte : Fin sectorSize) (value : UInt8) : Memory :=
  let changed := (memory.cells.get i.toFin).set byte.val value byte.isLt
  { memory with cells := memory.cells.set i.toNat changed i.toNat_lt }

/-- A number that names no sector is refused. -/
def poke (memory : Memory) (sector : Nat) (byte : Fin sectorSize) (value : UInt8) :
    Except ImageError Memory :=
  match SectorIndex.check sector with
  | .ok i => .ok (memory.setByte i byte value)
  | .error e => .error e

end Memory

end PowerSink
