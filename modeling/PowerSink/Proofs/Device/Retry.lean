import PowerSink.Proofs.Device.Attempt
import PowerSink.Proofs.Device.Step
import PowerSink.Trace

/-!
# Provisioning one image again and again

A device is provisioned with one image over and over, and any of these attempts may be misled or cut
short, even halfway through its write. The sectors that have received the image are never lost
again: along every run the memory only approaches the image, and the next attempt that nothing
disturbs completes it everywhere but in stuck sectors.
-/

namespace PowerSink

namespace NvmImage

/-- Every sector is as it was before, or as the image has it. -/
def Approaches (image : NvmImage) (before after : Sectors) : Prop :=
  ∀ i, after.get i = before.get i ∨ after.get i = image.sectors.get i

namespace Approaches

variable {image : NvmImage} {before between after : Sectors}

theorem refl (image : NvmImage) (cells : Sectors) : image.Approaches cells cells :=
  fun _ => .inl rfl

theorem trans (hFirst : image.Approaches before between)
    (hSecond : image.Approaches between after) : image.Approaches before after := by
  intro i
  rcases hSecond i with hKept | hImage
  · rw [hKept]
    exact hFirst i
  · exact .inr hImage

theorem keeps (h : image.Approaches before after) {i : Fin sectorCount}
    (hDone : before.get i = image.sectors.get i) : after.get i = image.sectors.get i :=
  (h i).elim (·.trans hDone) id

theorem diff_subset (h : image.Approaches before after) :
    image.diff after ⊆ image.diff before := by
  rw [(image.known_diff after).subset_iff]
  intro i hAfter
  apply Classical.byContradiction
  intro hBefore
  refine absurd hAfter (not_mem_diff.mpr ?_)
  exact h.keeps (not_mem_diff.mp hBefore)

end Approaches

end NvmImage

theorem Memory.write_approaches (memory : Memory) (limit : Nat) (image : NvmImage) :
    image.Approaches memory.cells (memory.write limit image.sectors).cells :=
  memory.cells_write_or limit image.sectors

namespace Device

/-- The steps of such a run: attempts to provision the image, changes of what is stuck, and
overrides of power data objects. -/
inductive Step.Targets (image : NvmImage) : Step → Prop where
  | provision {s : Step} (provisions : s.Provisions image) : Targets image s
  | stick (stuck : SectorMask) : Targets image (.memory (.stick stuck))
  | override (s : RegisterStep) : Targets image (.registers s)

theorem step_approaches {image : NvmImage} {s : Step} (h : s.Targets image) (device : Device) :
    image.Approaches device.memory.cells (device.step s).2.memory.cells := by
  cases h with
  | provision provisions =>
    obtain ⟨source, faults, made⟩ := provisions
    rw [step_provision made]
    rcases device.memory.provision_state image faults with ⟨_, hState⟩ | ⟨_, hState⟩
    · rw [hState]
      exact .refl image _
    · rw [hState]
      exact device.memory.write_approaches _ image
  | stick stuck => exact .refl image _
  | override s => exact .refl image _

theorem final_approaches {image : NvmImage} (device : Device) {steps : List Step}
    (hSteps : ∀ s ∈ steps, s.Targets image) :
    image.Approaches device.memory.cells (final Device.step device steps).memory.cells := by
  let Holds (reached : Device) : Prop :=
    image.Approaches device.memory.cells reached.memory.cells
  have hStart : Holds device := .refl image _
  have hKeeps : ∀ reached, ∀ s ∈ steps, Holds reached → Holds (reached.step s).2 := by
    intro reached s hMem hSoFar
    exact hSoFar.trans (step_approaches (hSteps s hMem) reached)
  exact final_induction hStart hKeeps

/-- What the next step of such a run does to the memory, however far its write gets. -/
structure Advances (image : NvmImage) (device : Device) : Prop where
  unwritten : ∀ s : Step, s.Targets image →
    (∀ sectors, .memory (.write sectors) ∉ (device.step s).1.calls) →
    (device.step s).2.memory.cells = device.memory.cells
  write_stopped : ∀ source faults fault, source.image = .ok image →
    faults.writes.first = some fault →
    .memory (.write image.sectors) ∈ (device.step (.memory (.provision source faults))).1.calls →
    image.diff (device.step (.memory (.provision source faults))).2.memory.cells =
      image.diff device.memory.cells \ (.below fault.handled \ device.memory.stuck)
  undisturbed : ∀ source faults, source.image = .ok image → faults.Clean →
    (∀ i, SectorIndex.ofFin i ∉ device.memory.stuck →
      (device.step (.memory (.provision source faults))).2.memory.cells.get i =
        image.sectors.get i) ∧
    (device.step (.memory (.provision source faults))).1.reply =
      .provisioned (Memory.verdict (image.diff device.memory.cells) device.memory.stuck)

theorem mem_calls_provision {source : ImageSource} {image : NvmImage}
    (made : source.image = .ok image) (device : Device) (faults : Memory.Faults) (request : NvmCall) :
    .memory request ∈ (device.step (.memory (.provision source faults))).1.calls ↔
      request ∈ (device.memory.provision image faults).calls := by
  rw [step_provision made]
  constructor
  · intro hCall
    obtain ⟨other, hOther, hEq⟩ := List.mem_map.mp hCall
    injection hEq with hEq
    exact hEq ▸ hOther
  · exact List.mem_map_of_mem

theorem advances (image : NvmImage) (device : Device) : Advances image device where
  unwritten s hTargets hNone := by
    cases hTargets with
    | provision provisions =>
      obtain ⟨source, faults, made⟩ := provisions
      rcases device.memory.provision_state image faults with ⟨_, hState⟩ | ⟨hWrite, _⟩
      · rw [step_provision made, hState]
      · exact absurd ((mem_calls_provision made device faults _).mpr hWrite) (hNone image.sectors)
    | stick stuck => rfl
    | override s => rfl
  write_stopped source faults fault made hFault hWrite := by
    rw [mem_calls_provision made] at hWrite
    rw [step_provision made]
    rcases device.memory.provision_state image faults with ⟨hNone, _⟩ | ⟨_, hState⟩
    · exact absurd hWrite (hNone image.sectors)
    · rw [hState, Memory.diff_write, Memory.Faults.reach, hFault]
  undisturbed source faults made hClean := by
    obtain ⟨hResult, hState⟩ := device.memory.provision_clean image hClean
    rw [step_provision made, hResult, hState]
    refine ⟨?_, rfl⟩
    intro i hFree
    rw [Memory.get_write, if_pos ⟨i.isLt, hFree⟩]

end Device

/-- Attempts to provision one image, among changes of what is stuck and overrides of power data
objects: at every point the memory holds each sector as at the start or as in the image, what is done
stays done, and the first undisturbed attempt leaves only stuck sectors behind and says which. -/
theorem attempts_approach_image (image : NvmImage) (device : Device)
    (earlier later : List Device.Step) (hEarlier : ∀ s ∈ earlier, s.Targets image)
    (hLater : ∀ s ∈ later, s.Targets image) :
    let reached := final Device.step device earlier
    let last := final Device.step reached later
    (∀ i, reached.memory.cells.get i = device.memory.cells.get i ∨
      reached.memory.cells.get i = image.sectors.get i) ∧
    (∀ i, reached.memory.cells.get i = image.sectors.get i →
      last.memory.cells.get i = image.sectors.get i) ∧
    image.diff last.memory.cells ⊆ image.diff reached.memory.cells ∧
    reached.Advances image := by
  intro reached last
  have hReached := Device.final_approaches device hEarlier
  have hLast := Device.final_approaches reached hLater
  exact ⟨hReached, fun _ => hLast.keeps, hLast.diff_subset, Device.advances image reached⟩

/-- The write stops behind two sectors, and the third one is stuck when the next attempt is made. -/
theorem attempts_approach_image_cut_short :
    let device := Device.ofSectors (.replicate sectorCount (.replicate sectorSize 0))
    let cut : Memory.Faults := ⟨⟨[none]⟩, ⟨[some ⟨7, 2⟩]⟩⟩
    let earlier : List Device.Step := [.memory (.provision .factory cut), .memory (.stick ⟨4⟩)]
    let later : List Device.Step := [.memory (.provision .factory ∅)]
    let reached := final Device.step device earlier
    (∀ s ∈ earlier, s.Targets .factory) ∧ (∀ s ∈ later, s.Targets .factory) ∧
      NvmImage.factory.diff reached.memory.cells = ⟨28⟩ ∧
      (reached.step (.memory (.provision .factory ∅))).1.reply =
        .provisioned (.error (.verify ⟨4⟩)) := by
  intro device cut earlier later reached
  have hEarlier : ∀ s ∈ earlier, s.Targets .factory := by
    intro s hMem
    rcases List.mem_cons.mp hMem with rfl | hMem
    · exact .provision ⟨.factory, cut, rfl⟩
    · rw [List.mem_singleton.mp hMem]
      exact .stick ⟨4⟩
  have hLater : ∀ s ∈ later, s.Targets .factory := by
    intro s hMem
    rw [List.mem_singleton.mp hMem]
    exact .provision ⟨.factory, ∅, rfl⟩
  have hDiff : NvmImage.factory.diff reached.memory.cells = ⟨28⟩ := by
    simp only [reached, earlier, device, cut]
    rfl
  have hVerdict : Memory.verdict (NvmImage.factory.diff reached.memory.cells) reached.memory.stuck =
      .error (.verify ⟨4⟩) := by
    simp only [reached, earlier, device, cut]
    rfl
  obtain ⟨_, _, _, hNext⟩ :=
    attempts_approach_image .factory device earlier later hEarlier hLater
  have hReply := (hNext.undisturbed .factory ∅ rfl Memory.Faults.clean_empty).2
  exact ⟨hEarlier, hLater, hDiff, hReply.trans (congrArg Device.Reply.provisioned hVerdict)⟩

end PowerSink
