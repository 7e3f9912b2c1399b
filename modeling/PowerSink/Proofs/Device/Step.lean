import PowerSink.Device.Step

/-!
# Steps that provision

A step names its image by a source, and a source can be refused before any call is made.
-/

namespace PowerSink.Device

inductive Step.Provisions (image : NvmImage) : Step → Prop where
  | intro (source : ImageSource) (faults : Memory.Faults) (made : source.image = .ok image) :
    Provisions image (.memory (.provision source faults))

variable {source : ImageSource} {image : NvmImage} {error : ImageError}

theorem step_provision (made : source.image = .ok image) (device : Device)
    (faults : Memory.Faults) :
    let run := device.memory.provision image faults
    device.step (.memory (.provision source faults)) =
      (⟨.provisioned run.result, run.calls.map .memory, run.messages⟩,
        { device with memory := run.state.1 }) := by
  simp only [step, stepMemory, made]

theorem step_refused (refused : source.image = .error error) (device : Device)
    (faults : Memory.Faults) :
    device.step (.memory (.provision source faults)) = (.silent (.refused error), device) := by
  simp only [step, stepMemory, refused]

end PowerSink.Device
