import PowerSink.Proofs.Device.Registers
import PowerSink.Proofs.Pdo.Units

/-!
# Overrides under planned faults

The calls of an override are due in a fixed order, and the first one that is planned to fail is the last
one that is made. What is planned for the calls behind it does not matter: result, registers and log
depend on where the override stops and on nothing else.
-/

namespace PowerSink

namespace Registers

/-- How an override ends: its result, the calls that it makes, its messages and the registers that it
leaves, by the first call that is planned to fail. -/
inductive Stops (registers : Registers) (channel : PdoChannel) (pdo : FixedPdo) (faults : Faults) :
    Except BusCode Unit → List PdoCall → List Message → Registers → Prop where
  | slotFailed (code : BusCode) (slot : faults.first (.setPdo channel pdo) = some code) :
    Stops registers channel pdo faults (.error code) [.setPdo channel pdo] [.overrideFailed channel]
      registers
  | countFailed (code : BusCode) (slot : faults.first (.setPdo channel pdo) = none)
      (count : faults.first (.setCount channel.number) = some code) :
    Stops registers channel pdo faults (.error code)
      [.setPdo channel pdo, .setCount channel.number] []
      (registers.perform (.setPdo channel pdo))
  | renegotiateFailed (code : BusCode) (slot : faults.first (.setPdo channel pdo) = none)
      (count : faults.first (.setCount channel.number) = none)
      (renegotiate : faults.first .renegotiate = some code) :
    Stops registers channel pdo faults (.error code)
      [.setPdo channel pdo, .setCount channel.number, .renegotiate] []
      ((registers.perform (.setPdo channel pdo)).perform (.setCount channel.number))
  | applied (slot : faults.first (.setPdo channel pdo) = none)
      (count : faults.first (.setCount channel.number) = none)
      (renegotiate : faults.first .renegotiate = none) :
    Stops registers channel pdo faults (.ok ())
      [.setPdo channel pdo, .setCount channel.number, .renegotiate]
      [.overridden channel pdo.millivolts pdo.milliamps]
      (((registers.perform (.setPdo channel pdo)).perform (.setCount channel.number)).perform
        .renegotiate)

theorem apply_stops (registers : Registers) (channel : PdoChannel) (pdo : FixedPdo) (faults : Faults) :
    let run := registers.apply channel pdo faults
    Stops registers channel pdo faults run.result run.calls run.messages run.state.1 := by
  intro run
  have hEnds := pdo.apply_ends channel serve (registers, faults)
  have hServes := Session.run_serves serve (pdo.apply channel) (registers, faults)
  rw [Run.calls_eq_map]
  change FixedPdo.Ends channel pdo run.result run.exchanges run.messages at hEnds
  change Session.Serves serve (registers, faults) run.exchanges run.state at hServes
  generalize run.result = result, run.exchanges = exchanges, run.messages = messages,
    run.state = reached at hEnds hServes ⊢
  cases hEnds with
  | slotFailed code =>
    obtain ⟨hSlot, rfl⟩ := serves_error hServes
    exact .slotFailed code hSlot
  | countFailed code =>
    obtain ⟨hSlot, hServes⟩ := serves_ok hServes
    obtain ⟨hCount, rfl⟩ := serves_error hServes
    exact .countFailed code hSlot hCount
  | renegotiateFailed code =>
    obtain ⟨hSlot, hServes⟩ := serves_ok hServes
    obtain ⟨hCount, hServes⟩ := serves_ok hServes
    obtain ⟨hRenegotiate, rfl⟩ := serves_error hServes
    exact .renegotiateFailed code hSlot hCount hRenegotiate
  | applied =>
    obtain ⟨hSlot, hServes⟩ := serves_ok hServes
    obtain ⟨hCount, hServes⟩ := serves_ok hServes
    obtain ⟨hRenegotiate, rfl⟩ := serves_ok hServes
    exact .applied hSlot hCount hRenegotiate

/-- The calls of an override in the order in which they are due. The channel of the first one stands for
the number of the slot and for the address of its register. -/
def due (channel : PdoChannel) (pdo : FixedPdo) : List PdoCall :=
  [.setPdo channel pdo, .setCount channel.number, .renegotiate]

def Faults.fails (faults : Faults) (request : PdoCall) : Bool := (faults.first request).isSome

namespace Stops

variable {registers reached : Registers} {channel : PdoChannel} {pdo : FixedPdo} {faults : Faults}
  {result : Except BusCode Unit} {calls : List PdoCall} {messages : List Message}

theorem calls_eq (h : Stops registers channel pdo faults result calls messages reached) :
    calls = (due channel pdo).take ((due channel pdo).findIdx faults.fails + 1) := by
  cases h with
  | slotFailed code slot => simp [due, List.findIdx_cons, Faults.fails, slot]
  | countFailed code slot count => simp [due, List.findIdx_cons, Faults.fails, slot, count]
  | renegotiateFailed code slot count renegotiate =>
    simp [due, List.findIdx_cons, Faults.fails, slot, count, renegotiate]
  | applied slot count renegotiate =>
    simp [due, List.findIdx_cons, Faults.fails, slot, count, renegotiate]

theorem result_eq (h : Stops registers channel pdo faults result calls messages reached) :
    result = ((due channel pdo).findSome? faults.first).elim (.ok ()) .error := by
  cases h with
  | slotFailed code slot => simp [due, slot]
  | countFailed code slot count => simp [due, slot, count]
  | renegotiateFailed code slot count renegotiate => simp [due, slot, count, renegotiate]
  | applied slot count renegotiate => simp [due, slot, count, renegotiate]

theorem slot_eq (h : Stops registers channel pdo faults result calls messages reached)
    (other : PdoChannel) :
    reached.slots.get other.slot =
      if channel = other ∧ faults.fails (.setPdo channel pdo) = false then pdo.word
      else registers.slots.get other.slot := by
  -- Only the first call touches a slot, so all ways on which it succeeds agree.
  have hWritten (hSlot : faults.first (.setPdo channel pdo) = none) :
      (registers.perform (.setPdo channel pdo)).slots.get other.slot =
        if channel = other ∧ faults.fails (.setPdo channel pdo) = false then pdo.word
        else registers.slots.get other.slot := by
    simpa [Faults.fails, hSlot] using registers.get_perform_setPdo channel other pdo
  cases h with
  | slotFailed code slot => simp [Faults.fails, slot]
  | countFailed code slot count => exact hWritten slot
  | renegotiateFailed code slot count renegotiate => exact hWritten slot
  | applied slot count renegotiate => exact hWritten slot

theorem count_eq (h : Stops registers channel pdo faults result calls messages reached) :
    reached.count =
      if faults.fails (.setPdo channel pdo) = false ∧ faults.fails (.setCount channel.number) = false then
        channel.number
      else registers.count := by
  cases h with
  | slotFailed code slot => simp [Faults.fails, slot]
  | countFailed code slot count => simp [Faults.fails, count, perform]
  | renegotiateFailed code slot count renegotiate => simp [Faults.fails, slot, count, perform]
  | applied slot count renegotiate => simp [Faults.fails, slot, count, perform]

theorem resets_eq (h : Stops registers channel pdo faults result calls messages reached) :
    reached.resets = registers.resets + if (due channel pdo).any faults.fails then 0 else 1 := by
  cases h with
  | slotFailed code slot => simp [due, Faults.fails, slot]
  | countFailed code slot count => simp [due, Faults.fails, count, perform]
  | renegotiateFailed code slot count renegotiate => simp [due, Faults.fails, renegotiate, perform]
  | applied slot count renegotiate => simp [due, Faults.fails, slot, count, renegotiate, perform]

theorem eq_of_fails (h : Stops registers channel pdo faults result calls messages reached)
    (hFails : faults.fails (.setPdo channel pdo) = true) : reached = registers := by
  cases h with
  | slotFailed code slot => rfl
  | countFailed code slot count => simp [Faults.fails, slot] at hFails
  | renegotiateFailed code slot count renegotiate => simp [Faults.fails, slot] at hFails
  | applied slot count renegotiate => simp [Faults.fails, slot] at hFails

/-- The first call that is planned to fail decides what is logged. -/
theorem messages_first (h : Stops registers channel pdo faults result calls messages reached) :
    (messages = [.overrideFailed channel] ∧
      (due channel pdo).find? faults.fails = some (.setPdo channel pdo)) ∨
    (messages = [] ∧ ((due channel pdo).find? faults.fails = some (.setCount channel.number) ∨
      (due channel pdo).find? faults.fails = some .renegotiate)) ∨
    (messages = [.overridden channel pdo.millivolts pdo.milliamps] ∧
      (due channel pdo).find? faults.fails = none) := by
  cases h with
  | slotFailed code slot => simp [due, Faults.fails, slot]
  | countFailed code slot count => simp [due, Faults.fails, slot, count]
  | renegotiateFailed code slot count renegotiate => simp [due, Faults.fails, slot, count, renegotiate]
  | applied slot count renegotiate => simp [due, Faults.fails, slot, count, renegotiate]

theorem error_iff (h : Stops registers channel pdo faults result calls messages reached) :
    messages.map Message.line = [(Message.overrideFailed channel).line] ↔
      (due channel pdo).find? faults.fails = some (.setPdo channel pdo) := by
  rcases h.messages_first with ⟨rfl, hFirst⟩ | ⟨rfl, hFirst | hFirst⟩ | ⟨rfl, hFirst⟩ <;>
    simp [hFirst, Message.line, Message.level]

theorem silent_iff (h : Stops registers channel pdo faults result calls messages reached) :
    messages.map Message.line = [] ↔
      (due channel pdo).find? faults.fails = some (.setCount channel.number) ∨
      (due channel pdo).find? faults.fails = some .renegotiate := by
  rcases h.messages_first with ⟨rfl, hFirst⟩ | ⟨rfl, hFirst | hFirst⟩ | ⟨rfl, hFirst⟩ <;>
    simp [hFirst]

theorem info_iff (h : Stops registers channel pdo faults result calls messages reached) :
    messages.map Message.line = [(Message.overridden channel pdo.millivolts pdo.milliamps).line] ↔
      (due channel pdo).find? faults.fails = none := by
  rcases h.messages_first with ⟨rfl, hFirst⟩ | ⟨rfl, hFirst | hFirst⟩ | ⟨rfl, hFirst⟩ <;>
    simp [hFirst, Message.line, Message.level]

end Stops

end Registers

theorem FixedPdo.line_overridden (channel : PdoChannel) (pdo : FixedPdo) :
    (Message.overridden channel pdo.millivolts pdo.milliamps).line =
      ⟨.info, "PDO" ++ toString channel.number.toNat ++ " set to " ++
        toString (50 * (pdo.word.toNat / 2 ^ 10 % 2 ^ 10)) ++ " mV, " ++
        toString (10 * (pdo.word.toNat % 2 ^ 10)) ++ " mA"⟩ := by
  rw [← toNat_voltage, ← toNat_current, ← toNat_millivolts, ← toNat_milliamps]
  rfl

namespace Device

/-- What an override does to a controller for which faults are planned. The calls are those that are due,
cut right behind the first one that fails. -/
structure OverrideStops (device : Device) (s : RegisterStep) (report : Report) (reached : Device) :
    Prop where
  calls : report.calls =
    ((Registers.due s.channel s.pdo).take
      ((Registers.due s.channel s.pdo).findIdx s.faults.fails + 1)).map .registers
  reply : report.reply =
    .overridden (((Registers.due s.channel s.pdo).findSome? s.faults.first).elim (.ok ()) .error)
  memory : reached.memory = device.memory
  slots : ∀ channel : PdoChannel, reached.registers.slots.get channel.slot =
    if s.channel = channel ∧ s.faults.fails (.setPdo s.channel s.pdo) = false then s.pdo.word
    else device.registers.slots.get channel.slot
  count : reached.registers.count =
    if s.faults.fails (.setPdo s.channel s.pdo) = false ∧
      s.faults.fails (.setCount s.channel.number) = false then s.channel.number
    else device.registers.count
  resets : reached.registers.resets =
    device.registers.resets + if (Registers.due s.channel s.pdo).any s.faults.fails then 0 else 1
  untouched : s.faults.fails (.setPdo s.channel s.pdo) = true → reached = device
  error_iff : report.messages.map Message.line =
      [⟨.error, "Failed to set PDO" ++ toString s.channel.number.toNat⟩] ↔
    (Registers.due s.channel s.pdo).find? s.faults.fails = some (.setPdo s.channel s.pdo)
  silent_iff : report.messages.map Message.line = [] ↔
    (Registers.due s.channel s.pdo).find? s.faults.fails = some (.setCount s.channel.number) ∨
    (Registers.due s.channel s.pdo).find? s.faults.fails = some .renegotiate
  info_iff : report.messages.map Message.line =
      [⟨.info, "PDO" ++ toString s.channel.number.toNat ++ " set to " ++
        toString (50 * (s.pdo.word.toNat / 2 ^ 10 % 2 ^ 10)) ++ " mV, " ++
        toString (10 * (s.pdo.word.toNat % 2 ^ 10)) ++ " mA"⟩] ↔
    (Registers.due s.channel s.pdo).find? s.faults.fails = none

end Device

/-- The first planned failure ends an override, and the faults that are planned for the calls behind it
show neither in the registers nor in the log. -/
theorem override_stops_at_first_failure (device : Device) (s : Device.RegisterStep) :
    device.OverrideStops s (device.step (.registers s)).1 (device.step (.registers s)).2 := by
  have hStops := device.registers.apply_stops s.channel s.pdo s.faults
  have hInfo := hStops.info_iff
  rw [FixedPdo.line_overridden] at hInfo
  exact {
    calls := congrArg (List.map Device.Call.registers) hStops.calls_eq
    reply := congrArg Device.Reply.overridden hStops.result_eq
    memory := rfl
    slots := hStops.slot_eq
    count := hStops.count_eq
    resets := hStops.resets_eq
    untouched := fun hFails => congrArg (Device.mk device.memory) (hStops.eq_of_fails hFails)
    error_iff := hStops.error_iff
    silent_iff := hStops.silent_iff
    info_iff := hInfo }

end PowerSink
