import PowerSink.Proofs.Device.Step
import PowerSink.Proofs.Nvm.Ends
import PowerSink.Proofs.Trace

/-!
# The calls of provisioning

A memory wears out with every write. Provisioning reads, writes the whole image at most once, and
reads again, and it stops at the first failure. This holds for every controller, and so a run of
device steps writes at most once for each of its steps that provisions, and nothing but its image.
-/

namespace PowerSink

variable {ε σ α : Type}

/-- The order of the calls, and what each of them depends on. -/
structure NvmImage.CallOrder (image : NvmImage) (calls : List NvmCall)
    (exchanges : List (Exchange NvmCall.Answer ε)) : Prop where
  calls_ne_nil : calls ≠ []
  calls_initial : calls <+: [.read, .write image.sectors, .read]
  write_iff : (∃ sectors, .write sectors ∈ calls) ↔
    ∃ found, exchanges.head? = some ⟨.read, .ok found⟩ ∧
      ∃ i j, (found.get i).get j ≠ (image.sectors.get i).get j
  read_again_iff : calls.count .read = 2 ↔ ⟨.write image.sectors, .ok ()⟩ ∈ exchanges
  failure_last : ∀ exchange ∈ exchanges.dropLast, exchange.failure? = none
  write_image : ∀ sectors, .write sectors ∈ calls →
    sectors = image.sectors ∧ sectors.flatten = image.toBytes

namespace NvmImage.Ends

variable {image : NvmImage} {result : Except (ProvisionError ε) Outcome}
  {exchanges : List (Exchange NvmCall.Answer ε)} {messages : List Message}

theorem write_iff (h : image.Ends result exchanges messages) :
    (∃ sectors, NvmCall.write sectors ∈ exchanges.map Sigma.fst) ↔
      ∃ found, exchanges.head? = some ⟨.read, .ok found⟩ ∧ found ≠ image.sectors := by
  cases h with
  | readFailed code => simp
  | unchanged => simp
  | writeFailed found code differs => simp [differs]
  | readBackFailed found code differs => simp [differs]
  | verifyFailed found back differs remains => simp [differs]
  | updated found differs => simp [differs]

theorem read_again_iff (h : image.Ends result exchanges messages) :
    (exchanges.map Sigma.fst).count .read = 2 ↔ ⟨.write image.sectors, .ok ()⟩ ∈ exchanges := by
  cases h with
  | readFailed code => simp
  | unchanged => simp
  | writeFailed found code differs => simp
  | readBackFailed found code differs => simp
  | verifyFailed found back differs remains => simp
  | updated found differs => simp

theorem failure_last (h : image.Ends result exchanges messages) :
    ∀ exchange ∈ exchanges.dropLast, exchange.failure? = none := by
  cases h with
  | readFailed code => simp
  | unchanged => simp
  | writeFailed found code differs => simp [Exchange.failure?]
  | readBackFailed found code differs => simp [Exchange.failure?]
  | verifyFailed found back differs remains => simp [Exchange.failure?]
  | updated found differs => simp [Exchange.failure?]

theorem callOrder (h : image.Ends result exchanges messages) :
    image.CallOrder (exchanges.map Sigma.fst) exchanges where
  calls_ne_nil := by cases h <;> exact List.cons_ne_nil _ _
  calls_initial := h.calls_initial
  write_iff := by simp only [exists_byte_ne_iff, h.write_iff]
  read_again_iff := h.read_again_iff
  failure_last := h.failure_last
  write_image sectors hWrite := by
    have hSectors : sectors = image.sectors := by
      simpa using h.calls_initial.subset hWrite
    subst hSectors
    exact ⟨rfl, image.bytes_eq_toBytes⟩

end NvmImage.Ends

theorem NvmImage.provision_callOrder (image : NvmImage)
    (handler : Session.Handler NvmCall.Answer ε σ) (state : σ) :
    let run := image.provision.run handler state
    image.CallOrder run.calls run.exchanges := by
  intro run
  rw [Run.calls_eq_map]
  exact (image.provision_ends handler state).callOrder

namespace Device

def Call.isWrite : Call → Bool
  | memory (.write _) => true
  | memory .read => false
  | registers _ => false

def Step.isProvision : Step → Bool
  | memory (.provision _ _) => true
  | memory (.poke _ _ _) => false
  | memory (.load _) => false
  | memory (.stick _) => false
  | registers _ => false

/-- Only a step that provisions an image writes, it writes once, and it writes that image. -/
theorem step_calls (device : Device) (s : Step) :
    (∃ image, s.Provisions image ∧
      ((device.step s).1.calls.filter Call.isWrite).Sublist [.memory (.write image.sectors)]) ∨
    (device.step s).1.calls.filter Call.isWrite = [] := by
  cases s with
  | registers s =>
    refine .inr (List.filter_eq_nil_iff.mpr ?_)
    intro call hCall
    obtain ⟨request, _, rfl⟩ := List.mem_map.mp hCall
    exact Bool.false_ne_true
  | memory s =>
    cases s with
    | provision source faults =>
      cases hImage : source.image with
      | error error =>
        rw [step_refused hImage]
        exact .inr rfl
      | ok image =>
        rw [step_provision hImage]
        refine .inl ⟨image, ⟨source, faults, hImage⟩, ?_⟩
        have hOrder := (image.provision_callOrder Memory.serve (device.memory, faults)).calls_initial
        exact (hOrder.sublist.map Call.memory).filter Call.isWrite
    | poke sector byte value =>
      refine .inr ?_
      simp only [step, stepMemory]
      split <;> rfl
    | load cells => exact .inr rfl
    | stick stuck => exact .inr rfl

theorem countP_write_le (device : Device) (s : Step) :
    (device.step s).1.calls.countP Call.isWrite ≤ if s.isProvision then 1 else 0 := by
  rw [List.countP_eq_length_filter]
  rcases device.step_calls s with ⟨image, ⟨source, faults, _⟩, hSublist⟩ | hNone
  · exact hSublist.length_le
  · rw [hNone]
    exact Nat.zero_le _

theorem write_of_step {device : Device} {s : Step} {sectors : Sectors}
    (hWrite : .memory (.write sectors) ∈ (device.step s).1.calls) :
    ∃ image, s.Provisions image ∧ sectors = image.sectors := by
  have hFilter : Call.memory (.write sectors) ∈ (device.step s).1.calls.filter Call.isWrite :=
    List.mem_filter.mpr ⟨hWrite, rfl⟩
  rcases device.step_calls s with ⟨image, hProvisions, hSublist⟩ | hNone
  · refine ⟨image, hProvisions, ?_⟩
    have hEq := List.mem_singleton.mp (hSublist.subset hFilter)
    injection hEq with hEq
    injection hEq
  · rw [hNone] at hFilter
    cases hFilter

end Device

/-- No controller is written to more often than it is provisioned, and no write carries anything
but the image, however the answers of the controller contradict each other. -/
theorem writes_are_images :
    (∀ {ε σ : Type} (image : NvmImage) (handler : Session.Handler NvmCall.Answer ε σ) (state : σ),
      let run := image.provision.run handler state
      image.CallOrder run.calls run.exchanges) ∧
    ∀ (device : Device) (steps : List Device.Step),
      ((trace Device.step device steps).flatMap fun entry => entry.1.calls).countP
          Device.Call.isWrite ≤ steps.countP Device.Step.isProvision ∧
      ∀ entry ∈ steps.zip (trace Device.step device steps), ∀ sectors,
        .memory (.write sectors) ∈ entry.2.1.calls →
        ∃ image, entry.1.Provisions image ∧ sectors = image.sectors := by
  refine ⟨NvmImage.provision_callOrder, fun device steps => ⟨?_, ?_⟩⟩
  · exact countP_trace_le Device.countP_write_le device steps
  · intro entry hEntry sectors hWrite
    obtain ⟨_, _, _, hStep⟩ := mem_zip_trace hEntry
    rw [hStep] at hWrite
    exact Device.write_of_step hWrite

end PowerSink
