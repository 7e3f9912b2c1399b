import PowerSink.Device.Step
import PowerSink.Proofs.Trace.Interleaving

/-!
# Memory and registers do not interfere

A step acts on one half of the controller, and the other half is nothing to it. Each half of a run is
the run of its own steps, and how the two are interleaved cannot be seen in any reply, call, message
or state.
-/

namespace PowerSink

namespace Device

def Step.onMemory : Step → Bool
  | memory _ => true
  | registers _ => false

def Step.onRegisters : Step → Bool
  | memory _ => false
  | registers _ => true

theorem memory_confined : Confined Device.step Step.onMemory Device.memory where
  unselected device s hStep := by
    cases s with
    | memory s => cases hStep
    | registers s => rfl
  reply_eq left right s hStep hMemory := by
    cases s with
    | memory s =>
      change (stepMemory left.memory s).1 = (stepMemory right.memory s).1
      rw [hMemory]
    | registers s => cases hStep
  view_eq left right s hStep hMemory := by
    cases s with
    | memory s =>
      change (stepMemory left.memory s).2 = (stepMemory right.memory s).2
      rw [hMemory]
    | registers s => cases hStep

theorem registers_confined : Confined Device.step Step.onRegisters Device.registers where
  unselected device s hStep := by
    cases s with
    | memory s => rfl
    | registers s => cases hStep
  reply_eq left right s hStep hRegisters := by
    cases s with
    | memory s => cases hStep
    | registers s =>
      change (stepRegisters left.registers s).1 = (stepRegisters right.registers s).1
      rw [hRegisters]
  view_eq left right s hStep hRegisters := by
    cases s with
    | memory s => cases hStep
    | registers s =>
      change (stepRegisters left.registers s).2 = (stepRegisters right.registers s).2
      rw [hRegisters]

end Device

/-- What the steps of one half report and leave is what they report and leave when they are made
without the steps of the other half, and so any two interleavings of the same steps agree. -/
theorem halves_do_not_interfere (device : Device) (steps : List Device.Step) :
    observed Device.step Device.Step.onMemory Device.memory device steps =
      (trace Device.step device (steps.filter Device.Step.onMemory)).map
        (fun entry => (entry.1, entry.2.memory)) ∧
    observed Device.step Device.Step.onRegisters Device.registers device steps =
      (trace Device.step device (steps.filter Device.Step.onRegisters)).map
        (fun entry => (entry.1, entry.2.registers)) ∧
    ∀ other : List Device.Step,
      other.filter Device.Step.onMemory = steps.filter Device.Step.onMemory →
      other.filter Device.Step.onRegisters = steps.filter Device.Step.onRegisters →
      final Device.step device other = final Device.step device steps ∧
      observed Device.step Device.Step.onMemory Device.memory device other =
        observed Device.step Device.Step.onMemory Device.memory device steps ∧
      observed Device.step Device.Step.onRegisters Device.registers device other =
        observed Device.step Device.Step.onRegisters Device.registers device steps := by
  refine ⟨Device.memory_confined.observed_eq rfl steps,
    Device.registers_confined.observed_eq rfl steps, ?_⟩
  intro other hMemory hRegisters
  have hMemoryEnd := Device.memory_confined.view_final_congr device hMemory
  have hRegistersEnd := Device.registers_confined.view_final_congr device hRegisters
  refine ⟨?_, Device.memory_confined.observed_congr device hMemory,
    Device.registers_confined.observed_congr device hRegisters⟩
  calc final Device.step device other
      = ⟨(final Device.step device other).memory, (final Device.step device other).registers⟩ := rfl
    _ = ⟨(final Device.step device steps).memory, (final Device.step device steps).registers⟩ := by
      rw [hMemoryEnd, hRegistersEnd]
    _ = final Device.step device steps := rfl

/-- An override that fails moves from between two attempts to the front, and a write stops early. -/
theorem halves_do_not_interfere_moved :
    let device := Device.ofSectors (.replicate sectorCount (.replicate sectorSize 0))
    let cut : Device.Step := .memory (.provision .factory ⟨∅, ⟨[some ⟨7, 2⟩]⟩⟩)
    let again : Device.Step := .memory (.provision .factory ∅)
    let failing : Device.Step := .registers ⟨.pdo3, ⟨0x64064⟩, ⟨∅, ⟨[some 8]⟩, ∅⟩⟩
    let between := [cut, failing, again]
    let front := [failing, cut, again]
    front.filter Device.Step.onMemory = between.filter Device.Step.onMemory ∧
      front.filter Device.Step.onRegisters = between.filter Device.Step.onRegisters ∧
      final Device.step device front = final Device.step device between ∧
      observed Device.step Device.Step.onMemory Device.memory device front =
        observed Device.step Device.Step.onMemory Device.memory device between := by
  intro device cut again failing between front
  obtain ⟨_, _, hOrder⟩ := halves_do_not_interfere device between
  obtain ⟨hFinal, hMemory, _⟩ := hOrder front rfl rfl
  exact ⟨rfl, rfl, hFinal, hMemory⟩

end PowerSink
