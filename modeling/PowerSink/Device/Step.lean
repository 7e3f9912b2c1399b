import PowerSink.Device.Memory
import PowerSink.Device.Registers
import PowerSink.Trace

/-!
# The simulated controller

A controller has a memory and registers. Each step acts on one of them: it provisions an image,
overrides a power data object, or changes the memory from outside. Faults are planned for one step
at a time. A report of a step holds its reply and the calls and messages that it made.
-/

namespace PowerSink

structure Device where
  memory : Memory
  registers : Registers

namespace Device

/-- Nothing is stuck and the registers are clear. -/
def ofSectors (cells : Sectors) : Device := ⟨⟨cells, ∅⟩, .initial⟩

inductive MemoryStep where
  | provision (source : ImageSource) (faults : Memory.Faults)
  | poke (sector : Nat) (byte : Fin sectorSize) (value : UInt8)
  | load (cells : Sectors)
  | stick (stuck : SectorMask)

structure RegisterStep where
  channel : PdoChannel
  pdo : FixedPdo
  faults : Registers.Faults

inductive Step where
  | memory (step : MemoryStep)
  | registers (step : RegisterStep)

inductive Call where
  | memory (request : NvmCall)
  | registers (request : PdoCall)
  deriving DecidableEq

inductive Reply where
  | done
  | refused (error : ImageError)
  | provisioned (result : Except (ProvisionError BusCode) Outcome)
  | overridden (result : Except BusCode Unit)

structure Report where
  reply : Reply
  calls : List Call
  messages : List Message

/-- The report of a step that talks to no controller. -/
def Report.silent (reply : Reply) : Report := ⟨reply, [], []⟩

def stepMemory (memory : Memory) : MemoryStep → Report × Memory
  | .provision source faults =>
    match source.image with
    | .ok image =>
      let run := memory.provision image faults
      (⟨.provisioned run.result, run.calls.map .memory, run.messages⟩, run.state.1)
    | .error e => (.silent (.refused e), memory)
  | .poke sector byte value =>
    match memory.poke sector byte value with
    | .ok changed => (.silent .done, changed)
    | .error e => (.silent (.refused e), memory)
  | .load cells => (.silent .done, { memory with cells := cells })
  | .stick stuck => (.silent .done, { memory with stuck := stuck })

def stepRegisters (registers : Registers) (step : RegisterStep) : Report × Registers :=
  let run := registers.apply step.channel step.pdo step.faults
  (⟨.overridden run.result, run.calls.map .registers, run.messages⟩, run.state.1)

def step (device : Device) : Step → Report × Device
  | .memory s =>
    let (report, memory) := stepMemory device.memory s
    (report, { device with memory := memory })
  | .registers s =>
    let (report, registers) := stepRegisters device.registers s
    (report, { device with registers := registers })

end Device

end PowerSink
