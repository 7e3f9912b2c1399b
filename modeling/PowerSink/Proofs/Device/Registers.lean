import PowerSink.Proofs.Device.Step
import PowerSink.Proofs.Pdo.Ends
import PowerSink.Proofs.Session.Controller
import PowerSink.Proofs.Trace

/-!
# What the registers remember

The registers after a session are those before it with each successful call performed, and no failing
call has changed them. Over a run, a slot is the object of the latest override whose first call
succeeded on that slot, the count belongs to the latest one whose first two calls did, and the resets
count those that succeeded. These need not agree with each other, except when a renegotiation is called
for: by then both the slot and the count are those of the override at work.
-/

namespace PowerSink

namespace Registers

theorem serve_eq (request : PdoCall) (registers : Registers) (faults : Faults) :
    serve request (registers, faults) =
      match faults.first request with
      | some code => (.error code, (registers, faults.rest request))
      | none => (.ok (), (registers.perform request, faults.rest request)) := rfl

section Serves

variable {registers : Registers} {faults : Faults} {request : PdoCall} {code : BusCode}
  {rest : List (Exchange PdoCall.Answer BusCode)} {reached : Registers × Faults}

theorem serves_ok
    (hServes : Session.Serves serve (registers, faults) (⟨request, .ok ()⟩ :: rest) reached) :
    faults.first request = none ∧
      Session.Serves serve (registers.perform request, faults.rest request) rest reached := by
  obtain ⟨hAnswer, hRest⟩ := hServes
  rw [serve_eq] at hAnswer hRest
  cases hFault : faults.first request with
  | none =>
    rw [hFault] at hRest
    exact ⟨rfl, hRest⟩
  | some code =>
    rw [hFault] at hAnswer
    cases hAnswer

theorem serves_error
    (hServes : Session.Serves serve (registers, faults) (⟨request, .error code⟩ :: rest) reached) :
    faults.first request = some code ∧
      Session.Serves serve (registers, faults.rest request) rest reached := by
  obtain ⟨hAnswer, hRest⟩ := hServes
  rw [serve_eq] at hAnswer hRest
  cases hFault : faults.first request with
  | none =>
    rw [hFault] at hAnswer
    cases hAnswer
  | some failed =>
    rw [hFault] at hAnswer hRest
    cases hAnswer
    exact ⟨rfl, hRest⟩

end Serves

theorem serves_perform {exchanges : List (Exchange PdoCall.Answer BusCode)}
    {start reached : Registers × Faults} (hServes : Session.Serves serve start exchanges reached) :
    reached.1 = (exchanges.filterMap Exchange.success?).foldl perform start.1 := by
  induction exchanges generalizing start with
  | nil => rw [hServes]; rfl
  | cons exchange rest ih =>
    obtain ⟨request, answer⟩ := exchange
    cases answer with
    | ok value =>
      obtain ⟨_, hRest⟩ := serves_ok hServes
      have hLater := ih hRest
      exact hLater
    | error code =>
      obtain ⟨_, hRest⟩ := serves_error hServes
      have hLater := ih hRest
      exact hLater

theorem apply_state (registers : Registers) (channel : PdoChannel) (pdo : FixedPdo)
    (faults : Faults) :
    let run := registers.apply channel pdo faults
    run.state.1 = run.succeeded.foldl perform registers :=
  serves_perform (Session.run_serves serve (pdo.apply channel) (registers, faults))

theorem get_perform_setPdo (registers : Registers) (channel other : PdoChannel) (pdo : FixedPdo) :
    (registers.perform (.setPdo channel pdo)).slots.get other.slot =
      if channel = other then pdo.word else registers.slots.get other.slot := by
  have hSet : (registers.perform (.setPdo channel pdo)).slots.get other.slot =
      if channel.slot.val = other.slot.val then pdo.word else registers.slots.get other.slot :=
    Vector.getElem_set channel.slot.isLt other.slot.isLt
  have hSlot : channel.slot.val = other.slot.val ↔ channel = other := by
    cases channel <;> cases other <;> decide
  rw [hSet]
  simp only [hSlot]

end Registers

namespace Device

/-- An override that was made and those of its calls that succeeded. -/
structure Override where
  step : RegisterStep
  succeeded : List PdoCall

namespace Override

def setsSlot (o : Override) : Prop := .setPdo o.step.channel o.step.pdo ∈ o.succeeded

def setsCount (o : Override) : Prop := o.setsSlot ∧ .setCount o.step.channel.number ∈ o.succeeded

instance (o : Override) : Decidable o.setsSlot := inferInstanceAs (Decidable (_ ∈ _))

instance (o : Override) : Decidable o.setsCount := inferInstanceAs (Decidable (_ ∧ _))

def slot? (channel : PdoChannel) (o : Override) : Option UInt32 :=
  if o.step.channel = channel ∧ o.setsSlot then some o.step.pdo.word else none

def count? (o : Override) : Option UInt8 :=
  if o.setsCount then some o.step.channel.number else none

theorem getD_slot? {o : Override} (h : o.setsSlot) (channel : PdoChannel) (old : UInt32) :
    (o.slot? channel).getD old = if o.step.channel = channel then o.step.pdo.word else old := by
  by_cases hChannel : o.step.channel = channel
  · rw [slot?, if_pos ⟨hChannel, h⟩, if_pos hChannel]
    rfl
  · rw [slot?, if_neg fun both => hChannel both.1, if_neg hChannel]
    rfl

end Override

def override (registers : Registers) (s : RegisterStep) : Override :=
  ⟨s, (registers.apply s.channel s.pdo s.faults).succeeded⟩

/-- The overrides of a run, in order. -/
def overrides : Device → List Step → List Override
  | _, [] => []
  | device, .memory s :: rest => overrides (device.step (.memory s)).2 rest
  | device, .registers s :: rest =>
    override device.registers s :: overrides (device.step (.registers s)).2 rest

def Reply.isApplied : Reply → Bool
  | overridden (.ok _) => true
  | overridden (.error _) => false
  | provisioned _ => false
  | refused _ => false
  | done => false

/-- What an override answers, which of its calls succeed, and what they make of the registers. -/
inductive Overrode (registers : Registers) (s : RegisterStep) :
    Reply → List PdoCall → Registers → Prop where
  | slotFailed (code : BusCode) : Overrode registers s (.overridden (.error code)) [] registers
  | countFailed (code : BusCode) :
    Overrode registers s (.overridden (.error code)) [.setPdo s.channel s.pdo]
      (registers.perform (.setPdo s.channel s.pdo))
  | renegotiateFailed (code : BusCode) :
    Overrode registers s (.overridden (.error code))
      [.setPdo s.channel s.pdo, .setCount s.channel.number]
      ((registers.perform (.setPdo s.channel s.pdo)).perform (.setCount s.channel.number))
  | applied :
    Overrode registers s (.overridden (.ok ()))
      [.setPdo s.channel s.pdo, .setCount s.channel.number, .renegotiate]
      (((registers.perform (.setPdo s.channel s.pdo)).perform
        (.setCount s.channel.number)).perform .renegotiate)

theorem stepRegisters_overrode (registers : Registers) (s : RegisterStep) :
    Overrode registers s (stepRegisters registers s).1.reply (override registers s).succeeded
      (stepRegisters registers s).2 := by
  have hEnds : FixedPdo.Ends s.channel s.pdo (registers.apply s.channel s.pdo s.faults).result
      (registers.apply s.channel s.pdo s.faults).exchanges
      (registers.apply s.channel s.pdo s.faults).messages :=
    s.pdo.apply_ends s.channel Registers.serve (registers, s.faults)
  have hReached := registers.apply_state s.channel s.pdo s.faults
  change Overrode registers s (.overridden (registers.apply s.channel s.pdo s.faults).result)
    (registers.apply s.channel s.pdo s.faults).succeeded
    (registers.apply s.channel s.pdo s.faults).state.1
  rw [hReached, Run.succeeded]
  generalize (registers.apply s.channel s.pdo s.faults).result = result,
    (registers.apply s.channel s.pdo s.faults).exchanges = exchanges,
    (registers.apply s.channel s.pdo s.faults).messages = messages at hEnds ⊢
  cases hEnds with
  | slotFailed code => exact .slotFailed code
  | countFailed code => exact .countFailed code
  | renegotiateFailed code => exact .renegotiateFailed code
  | applied => exact .applied

namespace Overrode

variable {registers reached : Registers} {s : RegisterStep} {reply : Reply} {succeeded : List PdoCall}

theorem slot (h : Overrode registers s reply succeeded reached) (channel : PdoChannel) :
    reached.slots.get channel.slot =
      ((Override.mk s succeeded).slot? channel).getD (registers.slots.get channel.slot) := by
  -- Only the first call touches a slot, so all ways on which it succeeds agree.
  have hWritten := registers.get_perform_setPdo s.channel channel s.pdo
  have hLatest (rest : List PdoCall) :
      ((Override.mk s (.setPdo s.channel s.pdo :: rest)).slot? channel).getD
        (registers.slots.get channel.slot) =
      if s.channel = channel then s.pdo.word else registers.slots.get channel.slot :=
    Override.getD_slot? List.mem_cons_self channel _
  cases h with
  | slotFailed code => simp [Override.slot?, Override.setsSlot]
  | countFailed code => exact hWritten.trans (hLatest _).symm
  | renegotiateFailed code => exact hWritten.trans (hLatest _).symm
  | applied => exact hWritten.trans (hLatest _).symm

theorem count (h : Overrode registers s reply succeeded reached) :
    reached.count = (Override.mk s succeeded).count?.getD registers.count := by
  cases h with
  | slotFailed code => simp [Override.count?, Override.setsCount, Override.setsSlot]
  | countFailed code => simp [Override.count?, Override.setsCount, Registers.perform]
  | renegotiateFailed code =>
    simp [Override.count?, Override.setsCount, Override.setsSlot, Registers.perform]
  | applied => simp [Override.count?, Override.setsCount, Override.setsSlot, Registers.perform]

theorem resets (h : Overrode registers s reply succeeded reached) :
    reached.resets = registers.resets + if reply.isApplied then 1 else 0 := by
  cases h <;> rfl

end Overrode

theorem registers_final {α : Type} (view : Registers → α) (value? : Override → Option α)
    (hStep : ∀ registers s,
      view (stepRegisters registers s).2 = (value? (override registers s)).getD (view registers))
    (device : Device) (steps : List Step) :
    view (final Device.step device steps).registers =
      (latest? value? (device.overrides steps)).getD (view device.registers) := by
  induction steps generalizing device with
  | nil => rfl
  | cons s rest ih =>
    cases s with
    -- A step on the memory leaves the registers alone and is no override.
    | memory s => exact ih (device.step (.memory s)).2
    | registers s =>
      have hHere := hStep device.registers s
      have hLater := ih (device.step (.registers s)).2
      rw [final_cons, hLater, overrides, latest?_cons]
      change (latest? value? _).getD (view (stepRegisters device.registers s).2) = _
      rw [hHere]
      cases latest? value? (overrides (device.step (.registers s)).2 rest) <;> rfl

theorem final_count (device : Device) (steps : List Step) :
    (final Device.step device steps).registers.count =
      (latest? Override.count? (device.overrides steps)).getD device.registers.count :=
  registers_final Registers.count Override.count?
    (fun registers s => (stepRegisters_overrode registers s).count) device steps

theorem final_slot (device : Device) (steps : List Step) (channel : PdoChannel) :
    (final Device.step device steps).registers.slots.get channel.slot =
      (latest? (Override.slot? channel) (device.overrides steps)).getD
        (device.registers.slots.get channel.slot) :=
  registers_final (fun registers => registers.slots.get channel.slot) (Override.slot? channel)
    (fun registers s => (stepRegisters_overrode registers s).slot channel) device steps

theorem calls_eq_visits (device : Device) (s : RegisterStep) :
    (device.step (.registers s)).1.calls =
      ((s.pdo.apply s.channel).visits Registers.serve (device.registers, s.faults)).map
        fun visit => .registers visit.1 := by
  have hCalls := Session.map_fst_visits Registers.serve (s.pdo.apply s.channel)
    (device.registers, s.faults)
  change ((s.pdo.apply s.channel).run Registers.serve (device.registers, s.faults)).calls.map
    Call.registers = _
  rw [← hCalls, List.map_map]
  rfl

theorem isApplied_stepMemory (memory : Memory) (s : MemoryStep) :
    (stepMemory memory s).1.reply.isApplied = false := by
  cases s with
  | provision source faults =>
    rw [stepMemory]
    cases source.image <;> rfl
  | poke sector byte value =>
    rw [stepMemory]
    cases memory.poke sector byte value <;> rfl
  | load cells => rfl
  | stick stuck => rfl

theorem step_resets (device : Device) (s : Step) :
    (device.step s).2.registers.resets =
      device.registers.resets + if (device.step s).1.reply.isApplied then 1 else 0 := by
  cases s with
  | memory s =>
    change device.registers.resets = device.registers.resets +
      if (stepMemory device.memory s).1.reply.isApplied then 1 else 0
    rw [isApplied_stepMemory]
    rfl
  | registers s => exact (stepRegisters_overrode device.registers s).resets

end Device

section Visits

variable {registers : Registers} {faults : Registers.Faults} {reached : Registers × Registers.Faults}
  {channel : PdoChannel} {pdo : FixedPdo}

theorem FixedPdo.visits_announce {ε σ : Type} (handler : Session.Handler PdoCall.Answer ε σ)
    (channel : PdoChannel) (pdo : FixedPdo) (state : σ) :
    (pdo.announce channel).visits handler state = [(.renegotiate, state)] := by
  rw [announce, Session.visits]
  cases (handler .renegotiate state).1 <;> rfl

/-- A call is followed by another one only if it succeeds, when its failure ends the session. -/
theorem Registers.visits_of_ne {α : Type} {request : PdoCall}
    {next : Except BusCode (PdoCall.Answer request) → Session PdoCall.Answer BusCode α}
    {visit : PdoCall × Registers × Faults} (hOther : visit.1 ≠ request)
    (hFailed : ∀ code state, (next (.error code)).visits serve state = [])
    (hVisit : visit ∈ (Session.call request next).visits serve (registers, faults)) :
    visit ∈ (next (.ok ())).visits serve (registers.perform request, faults.rest request) := by
  rw [Session.visits, serve_eq] at hVisit
  rcases List.mem_cons.mp hVisit with rfl | hLater
  · exact absurd rfl hOther
  · cases hFault : faults.first request with
    | some code =>
      rw [hFault, hFailed] at hLater
      cases hLater
    | none =>
      rw [hFault] at hLater
      exact hLater

theorem FixedPdo.visits_advertise
    (hVisit : (.renegotiate, reached) ∈
      (pdo.advertise channel).visits Registers.serve (registers, faults)) :
    reached.1 = registers.perform (.setCount channel.number) := by
  have hLater := Registers.visits_of_ne (by simp) (fun _ _ => rfl) hVisit
  rw [FixedPdo.visits_announce] at hLater
  obtain ⟨_, rfl⟩ := Prod.mk.inj (List.mem_singleton.mp hLater)
  rfl

/-- A renegotiation is called for, whether or not it will fail, when slot and count are in place. -/
theorem FixedPdo.visits_apply
    (hVisit : (.renegotiate, reached) ∈
      (pdo.apply channel).visits Registers.serve (registers, faults)) :
    reached.1.count = channel.number ∧ reached.1.slots.get channel.slot = pdo.word := by
  have hLater := Registers.visits_of_ne (by simp) (fun _ _ => rfl) hVisit
  have hReached := FixedPdo.visits_advertise hLater
  have hSlot := registers.get_perform_setPdo channel channel pdo
  rw [if_pos rfl] at hSlot
  rw [hReached]
  exact ⟨rfl, hSlot⟩

end Visits

theorem PdoChannel.getElem?_slot (slots : Vector UInt32 3) (channel : PdoChannel) :
    slots[channel.number.toNat - 1]? = some (slots.get channel.slot) := by
  rw [← channel.slot_add_one]
  exact Vector.getElem?_eq_getElem channel.slot.isLt

/-- From clear registers on, at every point of a run: the resets count the overrides that succeeded,
and count and slots are those of the latest overrides that came as far as setting them. A call to
renegotiate always meets the count and the object of its own override. -/
theorem registers_follow_overrides (memory : Memory) (steps : List Device.Step) :
    let device : Device := ⟨memory, .initial⟩
    let reached := final Device.step device steps
    let overrides := device.overrides steps
    reached.registers.resets =
      (trace Device.step device steps).countP (fun entry => entry.1.reply.isApplied) ∧
    reached.registers.count = (latest? Device.Override.count? overrides).getD 0 ∧
    (∀ channel : PdoChannel, reached.registers.slots[channel.number.toNat - 1]? =
      some ((latest? (Device.Override.slot? channel) overrides).getD 0)) ∧
    ∀ s : Device.RegisterStep,
      let visits := (s.pdo.apply s.channel).visits Registers.serve (reached.registers, s.faults)
      (reached.step (.registers s)).1.calls = visits.map (fun visit => .registers visit.1) ∧
      ∀ state, (.renegotiate, state) ∈ visits →
        state.1.count = s.channel.number ∧
        state.1.slots[state.1.count.toNat - 1]? = some s.pdo.word := by
  intro device reached overrides
  refine ⟨?_, Device.final_count device steps, ?_, ?_⟩
  · have hResets := counter_final (fun reached : Device => reached.registers.resets)
      (fun report : Device.Report => report.reply.isApplied) Device.step_resets device steps
    exact hResets.trans (Nat.zero_add _)
  · intro channel
    have hSlot := Device.final_slot device steps channel
    have hInitial : Registers.initial.slots.get channel.slot = 0 := by cases channel <;> rfl
    rw [PdoChannel.getElem?_slot]
    refine congrArg some (hSlot.trans ?_)
    rw [hInitial]
  · intro s visits
    refine ⟨Device.calls_eq_visits reached s, ?_⟩
    intro state hVisit
    obtain ⟨hCount, hSlot⟩ := FixedPdo.visits_apply hVisit
    rw [hCount, PdoChannel.getElem?_slot, hSlot]
    exact ⟨rfl, rfl⟩

/-- Three overrides fail, each at another call, and leave slots, count and resets apart. -/
theorem registers_follow_overrides_apart :
    let failing : List Device.Step := [
      .registers ⟨.pdo3, ⟨0x64064⟩, ⟨∅, ∅, ⟨[some 7]⟩⟩⟩,
      .registers ⟨.pdo2, ⟨0x2D12C⟩, ⟨∅, ⟨[some 8]⟩, ∅⟩⟩,
      .registers ⟨.pdo1, ⟨0x1912C⟩, ⟨⟨[some 9]⟩, ∅, ∅⟩⟩]
    let reached := final Device.step ⟨⟨NvmImage.factory.sectors, ∅⟩, .initial⟩ failing
    let next : Device.RegisterStep := ⟨.pdo1, ⟨0x1912C⟩, ∅⟩
    reached.registers.resets = 0 ∧ reached.registers.count = 3 ∧
      reached.registers.slots[2]? = some 0x64064 ∧ reached.registers.slots[1]? = some 0x2D12C ∧
      reached.registers.slots[0]? = some 0 ∧
      ∃ state, (.renegotiate, state) ∈
          (next.pdo.apply .pdo1).visits Registers.serve (reached.registers, next.faults) ∧
        state.1.count = 1 ∧ state.1.slots[state.1.count.toNat - 1]? = some 0x1912C := by
  intro failing reached next
  obtain ⟨hResets, hCount, hSlots, hNext⟩ :=
    registers_follow_overrides ⟨NvmImage.factory.sectors, ∅⟩ failing
  obtain ⟨_, hVisits⟩ := hNext next
  have hVisit : (PdoCall.renegotiate, ((reached.registers.perform (.setPdo .pdo1 next.pdo)).perform
      (.setCount 1), next.faults)) ∈
        (next.pdo.apply .pdo1).visits Registers.serve (reached.registers, next.faults) :=
    .tail _ (.tail _ (.head _))
  refine ⟨hResets, hCount, hSlots .pdo3, hSlots .pdo2, hSlots .pdo1, _, hVisit, hVisits _ hVisit⟩

end PowerSink
