import PowerSink.Device.Memory
import PowerSink.Device.Registers
import PowerSink.Text.Hex

/-!
# The demonstration

A controller with the contents of an earlier firmware is provisioned twice, the factory image is
listed, and the second power data object is raised to 20 V at 1 A. The demonstration shows the
calls as they reach the controller between the messages of the procedures.
-/

namespace PowerSink.Demo

def info (text : String) : LogLine := ⟨.info, text⟩

def error (text : String) : LogLine := ⟨.error, text⟩

def row (a b c d e f g h : UInt8) : Sector := #v[a, b, c, d, e, f, g, h]

/-- What an earlier firmware left in memory. -/
def previous : Sectors := #v[
  row 0x00 0x00 0xB0 0xAB 0x00 0x45 0x00 0x00,
  row 0x00 0x40 0x9C 0x1C 0xFF 0x01 0x3C 0xDF,
  row 0x02 0x40 0x0F 0x00 0x32 0x00 0xFC 0xF1,
  row 0x00 0x19 0x50 0xAF 0xF5 0x35 0x5F 0x00,
  row 0x00 0x4B 0x90 0x21 0x43 0x00 0x40 0xFB]

def nvmLine : Entry NvmCall.Answer BusCode → LogLine
  | .called .read _ => info "Reading NVM"
  | .called (.write _) _ => info "Erasing and programming NVM"
  | .logged message => message.line

def resultLine : Except (ProvisionError BusCode) Outcome → LogLine
  | .ok .unchanged => info "Device already provisioned"
  | .ok (.updated sectors) => info ("Device provisioned, rewrote " ++ sectors.text)
  | .error e => error ("Provisioning failed: " ++ e.text fun code => toString code.toNat)

/-- One pass over the memory: its lines and the memory it leaves. -/
def pass (memory : Memory) : List LogLine × Memory :=
  let run := memory.provision .factory ∅
  (run.transcript.map nvmLine ++ [resultLine run.result], run.state.1)

def passes : Nat → Memory → List LogLine
  | 0, _ => []
  | n + 1, memory =>
    let (lines, reached) := pass memory
    lines ++ passes n reached

def sectorLine (entry : SectorIndex × Sector) : LogLine :=
  info ("Sector " ++ toString entry.1.toNat ++ ": " ++
    bracketed (entry.2.toList.map (Hex.ofByte .upper)))

/-- Lines of an override; `count` is the number of objects advertised so far. -/
def overrideLines (count : UInt8) : List (Entry PdoCall.Answer BusCode) → List LogLine
  | [] => []
  | .called (.setPdo channel pdo) _ :: rest =>
    info ("Writing 0x" ++ Hex.ofNat .lower 8 pdo.word.toNat ++ " to register 0x" ++
      Hex.ofByte .lower channel.address) :: overrideLines count rest
  | .called (.setCount advertised) _ :: rest => overrideLines advertised rest
  | .called .renegotiate _ :: rest =>
    info ("Soft reset, " ++ toString count.toNat ++ " PDO(s) advertised") ::
      overrideLines count rest
  | .logged message :: rest => message.line :: overrideLines count rest

def override : List LogLine :=
  let run := Registers.initial.apply .pdo2 (.ofMillis 20000 1000) ∅
  overrideLines 0 run.transcript ++
    match run.result with
    | .ok _ => []
    | .error code => [error ("PDO override failed: " ++ toString code.toNat)]

def lines (contents : Sectors) : List LogLine :=
  passes 2 ⟨contents, ∅⟩ ++ NvmImage.factory.entries.map sectorLine ++ override

end PowerSink.Demo
