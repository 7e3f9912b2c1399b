import PowerSink.Proofs.Device.Attempt
import PowerSink.Proofs.Device.Step
import PowerSink.Proofs.Session.Controller

/-!
# Undisturbed attempts

A plan without a fault leaves no trace in a run. The result, the calls and the memory of such an
attempt depend on the image, the sectors that differ and the stuck ones alone, and so do all attempts
after it.
-/

namespace PowerSink

namespace Memory

section Serve

variable {memory : Memory} {faults : Faults}

theorem serve_read_clean (hClean : faults.Clean) :
    serve .read (memory, faults) = (.ok memory.cells, (memory, faults.rest .read)) := by
  change (memory.serveRead faults.reads.first, (memory, faults.rest .read)) = _
  rw [hClean.reads.first]
  rfl

theorem serve_write_clean (hClean : faults.Clean) (sectors : Sectors) :
    serve (.write sectors) (memory, faults) =
      (.ok (), (memory.write sectorCount sectors, faults.rest (.write sectors))) := by
  change ((memory.serveWrite sectors faults.writes.first).1,
    ((memory.serveWrite sectors faults.writes.first).2, faults.rest (.write sectors))) = _
  rw [hClean.writes.first]
  rfl

/-- One memory under two plans, neither of which holds a fault. -/
def SameClean (left right : Memory × Faults) : Prop :=
  left.1 = right.1 ∧ left.2.Clean ∧ right.2.Clean

theorem serve_matches : Session.Matches serve serve SameClean := by
  rintro request ⟨memory, left⟩ ⟨_, right⟩ ⟨rfl, hLeft, hRight⟩
  have hRest : (left.rest request).Clean ∧ (right.rest request).Clean :=
    ⟨hLeft.rest request, hRight.rest request⟩
  cases request with
  | read =>
    rw [serve_read_clean hLeft, serve_read_clean hRight]
    exact ⟨rfl, rfl, hRest⟩
  | write sectors =>
    rw [serve_write_clean hLeft, serve_write_clean hRight]
    exact ⟨rfl, rfl, hRest⟩

theorem provision_congr {left right : Faults} (memory : Memory) (image : NvmImage)
    (hLeft : left.Clean) (hRight : right.Clean) :
    (memory.provision image left).result = (memory.provision image right).result ∧
    (memory.provision image left).transcript = (memory.provision image right).transcript ∧
    (memory.provision image left).state.1 = (memory.provision image right).state.1 := by
  have hStart : SameClean (memory, left) (memory, right) := ⟨rfl, hLeft, hRight⟩
  obtain ⟨hResult, hTranscript, hMemory, _⟩ := serve_matches.run image.provision hStart
  exact ⟨hResult, hTranscript, hMemory⟩

end Serve

section Verdict

variable {differing stuck : SectorMask}

theorem verdict_ne_bus (differing stuck : SectorMask) (code : BusCode) :
    verdict differing stuck ≠ .error (.bus code) := by
  rw [verdict]
  split
  · simp
  · split <;> simp

theorem verdict_eq_unchanged_iff : verdict differing stuck = .ok .unchanged ↔ differing = ∅ := by
  rw [verdict]
  split
  · rename_i hSame
    exact iff_of_true rfl hSame
  · rename_i hDiffers
    refine iff_of_false ?_ hDiffers
    split <;> simp

theorem verdict_eq_updated_iff {changed : SectorMask} :
    verdict differing stuck = .ok (.updated changed) ↔
      differing ≠ ∅ ∧ differing ∩ stuck = ∅ ∧ changed = differing := by
  rw [verdict]
  split
  · rename_i hSame
    simp [hSame]
  · rename_i hDiffers
    split
    · rename_i hFree
      simp [hDiffers, hFree, eq_comm]
    · rename_i hStuck
      simp [hStuck]

theorem verdict_eq_verify_iff {remaining : SectorMask} :
    verdict differing stuck = .error (.verify remaining) ↔
      differing ∩ stuck ≠ ∅ ∧ remaining = differing ∩ stuck := by
  rw [verdict]
  split
  · rename_i hSame
    simp [hSame, SectorMask.empty_inter]
  · split
    · rename_i hFree
      simp [hFree]
    · rename_i hStuck
      simp [hStuck, eq_comm]

end Verdict

section Clean

variable {faults : Faults}

/-- The memory is written only if it differs, and then always read back. -/
theorem calls_clean (memory : Memory) (image : NvmImage) (hClean : faults.Clean) :
    (memory.provision image faults).calls =
      if image.diff memory.cells = ∅ then [.read] else [.read, .write image.sectors, .read] := by
  have hEnds : image.Ends (memory.provision image faults).result
      (memory.provision image faults).exchanges (memory.provision image faults).messages :=
    image.provision_ends serve (memory, faults)
  have hResult := (memory.provision_clean image hClean).1
  -- Of the six ways to end, the verdict leaves three: those without an error of the bus.
  rw [Run.calls_eq_map]
  generalize (memory.provision image faults).result = result,
    (memory.provision image faults).exchanges = exchanges,
    (memory.provision image faults).messages = messages at hEnds hResult ⊢
  cases hEnds with
  | readFailed code => exact absurd hResult.symm (verdict_ne_bus _ _ code)
  | unchanged =>
    rw [if_pos (verdict_eq_unchanged_iff.mp hResult.symm)]
    rfl
  | writeFailed found code differs => exact absurd hResult.symm (verdict_ne_bus _ _ code)
  | readBackFailed found code differs => exact absurd hResult.symm (verdict_ne_bus _ _ code)
  | verifyFailed found back differs remains =>
    have hStuck := (verdict_eq_verify_iff.mp hResult.symm).1
    have hDiffers : image.diff memory.cells ≠ ∅ := by
      intro hSame
      rw [hSame, SectorMask.empty_inter] at hStuck
      exact hStuck rfl
    rw [if_neg hDiffers]
    rfl
  | updated found differs =>
    rw [if_neg (verdict_eq_updated_iff.mp hResult.symm).1]
    rfl

theorem write_write (memory : Memory) (limit : Nat) (sectors : Sectors) :
    (memory.write limit sectors).write limit sectors = memory.write limit sectors := by
  refine congrArg (Memory.mk · memory.stuck) (Vector.ext fun n hn => ?_)
  change ((memory.write limit sectors).write limit sectors).cells.get ⟨n, hn⟩ =
    (memory.write limit sectors).cells.get ⟨n, hn⟩
  -- The second write reaches the same sectors as the first, since no write changes what is stuck.
  by_cases hWritten : n < limit ∧ SectorIndex.ofFin ⟨n, hn⟩ ∉ memory.stuck
  · rw [get_write, get_write, stuck_write, if_pos hWritten, if_pos hWritten]
  · rw [get_write, stuck_write, if_neg hWritten]

end Clean

end Memory

namespace Device

/-- A step that provisions the image and is planned without a fault. -/
inductive Step.Undisturbed (image : NvmImage) : Step → Prop where
  | intro (source : ImageSource) (faults : Memory.Faults) (made : source.image = .ok image)
    (clean : faults.Clean) : Undisturbed image (.memory (.provision source faults))

variable {image : NvmImage} {s t : Step}

/-- What such a step reports and leaves is fixed by the image, not by its source or its plan. -/
theorem step_congr (hLeft : s.Undisturbed image) (hRight : t.Undisturbed image) (device : Device) :
    device.step s = device.step t := by
  obtain ⟨source, left, made, hClean⟩ := hLeft
  obtain ⟨other, right, made', hClean'⟩ := hRight
  obtain ⟨hResult, hTranscript, hMemory⟩ := device.memory.provision_congr image hClean hClean'
  rw [step_provision made, step_provision made']
  simp only [Run.calls, Run.messages, hResult, hTranscript, hMemory]

theorem step_undisturbed (h : s.Undisturbed image) (device : Device) :
    (device.step s).1.reply =
      .provisioned (Memory.verdict (image.diff device.memory.cells) device.memory.stuck) ∧
    (device.step s).1.calls =
      (if image.diff device.memory.cells = ∅ then [.read] else
        [.read, .write image.sectors, .read]).map Call.memory ∧
    (device.step s).2 =
      { device with memory := device.memory.write sectorCount image.sectors } := by
  obtain ⟨source, faults, made, hClean⟩ := h
  obtain ⟨hResult, hMemory⟩ := device.memory.provision_clean image hClean
  rw [step_provision made]
  refine ⟨congrArg Reply.provisioned hResult, ?_, ?_⟩
  · exact congrArg (List.map Call.memory) (device.memory.calls_clean image hClean)
  · exact congrArg (Device.mk · device.registers) hMemory

end Device

end PowerSink
