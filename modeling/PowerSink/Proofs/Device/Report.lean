import PowerSink.Proofs.Device.Attempt

/-!
# Reports of a memory that does not lie

A read that returns other sectors than those in memory can make any report false. Without one, what
provisioning reports is true of the memory that it leaves.
-/

namespace PowerSink.Memory

namespace Attempt

variable {memory reached : Memory} {image : NvmImage} {hits : List Fault}
  {result : Except (ProvisionError BusCode) Outcome}

theorem length_hits_le (h : memory.Attempt image result hits reached) : hits.length ≤ 1 := by
  cases h with
  | readFailed code => exact Nat.le_refl _
  | unchanged same => exact Nat.zero_le _
  | writeFailed fault differs => exact Nat.le_refl _
  | readBackFailed code differs => exact Nat.le_refl _
  | verifyFailed differs remains => exact Nat.zero_le _
  | updated differs written => exact Nat.zero_le _

theorem ok_iff (h : memory.Attempt image result hits reached) :
    (∃ outcome, result = .ok outcome) ↔ hits = [] ∧ reached.cells = image.sectors := by
  cases h with
  | readFailed code => simp
  | unchanged same => simp [same]
  | writeFailed fault differs => simp
  | readBackFailed code differs => simp
  | verifyFailed differs remains => simp [remains]
  | updated differs written => simp [written]

theorem verify_iff (h : memory.Attempt image result hits reached) (remaining : SectorMask) :
    result = .error (.verify remaining) ↔
      hits = [] ∧ remaining ≠ ∅ ∧ remaining = image.diff reached.cells := by
  cases h with
  | readFailed code => simp
  | unchanged same =>
    have hEmpty := NvmImage.diff_eq_empty_iff.mpr same
    simp [hEmpty]
  | writeFailed fault differs => simp
  | readBackFailed code differs => simp
  | verifyFailed differs remains =>
    have hNonempty := mt NvmImage.diff_eq_empty_iff.mp remains
    constructor
    · intro hResult
      injection hResult with hResult
      injection hResult with hMask
      exact ⟨rfl, hMask ▸ hNonempty, hMask.symm⟩
    · rintro ⟨_, _, rfl⟩
      rfl
  | updated differs written =>
    have hEmpty := NvmImage.diff_eq_empty_iff.mpr written
    simp [hEmpty]

theorem bus_iff (h : memory.Attempt image result hits reached) (code : BusCode) :
    result = .error (.bus code) ↔ ∃ fault ∈ hits, fault.code? = some code := by
  cases h with
  | readFailed failed => simp [Fault.code?]
  | unchanged same => simp
  | writeFailed fault differs => simp [Fault.code?]
  | readBackFailed failed differs => simp [Fault.code?]
  | verifyFailed differs remains => simp
  | updated differs written => simp

theorem updated_mask (h : memory.Attempt image result hits reached) (changed : SectorMask)
    (hResult : result = .ok (.updated changed)) : changed = image.diff memory.cells := by
  cases h with
  | updated differs written =>
    injection hResult with hResult
    injection hResult with hMask
    exact hMask.symm
  | _ => cases hResult

theorem verify_mask (h : memory.Attempt image result hits reached) (remaining : SectorMask)
    (hResult : result = .error (.verify remaining)) :
    remaining = image.diff memory.cells ∩ memory.stuck := by
  cases h with
  | verifyFailed differs remains =>
    injection hResult with hResult
    injection hResult with hMask
    exact hMask.symm.trans (diff_write_all memory image)
  | _ => cases hResult

end Attempt

/-- The report is about the memory afterwards, although provisioning never sees it: stuck sectors,
a write that stops early and failures of any call included. -/
theorem provision_report_true (memory : Memory) (image : NvmImage) (faults : Faults)
    (hHonest : faults.Honest (memory.provision image faults).calls) :
    let run := memory.provision image faults
    let hits := faults.hits run.calls
    let reached := run.state.1
    hits.length ≤ 1 ∧
    ((∃ outcome, run.result = .ok outcome) ↔ hits = [] ∧ reached.cells = image.sectors) ∧
    (∀ remaining, run.result = .error (.verify remaining) ↔
      hits = [] ∧ remaining ≠ ∅ ∧ remaining = image.diff reached.cells) ∧
    (∀ code, run.result = .error (.bus code) ↔ ∃ fault ∈ hits, fault.code? = some code) ∧
    (∀ changed, run.result = .ok (.updated changed) → changed = image.diff memory.cells) ∧
    (∀ remaining, run.result = .error (.verify remaining) →
      remaining = image.diff memory.cells ∩ memory.stuck ∧
      remaining ⊆ image.diff memory.cells) := by
  have hAttempt := provision_attempt hHonest
  refine ⟨hAttempt.length_hits_le, hAttempt.ok_iff, hAttempt.verify_iff, hAttempt.bus_iff,
    hAttempt.updated_mask, ?_⟩
  intro remaining hResult
  have hMask := hAttempt.verify_mask remaining hResult
  refine ⟨hMask, ?_⟩
  rw [hMask]
  exact SectorMask.inter_subset_left _ _

/-- One sector is stuck, and the lie that is planned for a third read is never told. -/
theorem provision_report_true_stuck :
    let memory : Memory := ⟨.replicate sectorCount (.replicate sectorSize 0), ⟨4⟩⟩
    let faults : Faults := ⟨⟨[none, none, some (.pretend NvmImage.factory.sectors)]⟩, ∅⟩
    let run := memory.provision .factory faults
    faults.Honest run.calls ∧ run.result = .error (.verify ⟨4⟩) ∧
      NvmImage.factory.diff run.state.1.cells = ⟨4⟩ := by
  intro memory faults run
  have hHits : faults.hits run.calls = [] := by
    simp only [run, faults, memory]
    rfl
  have hHonest : faults.Honest run.calls := by
    intro sectors hMem
    rw [hHits] at hMem
    cases hMem
  have hResult : run.result = .error (.verify ⟨4⟩) := by
    simp only [run, faults, memory]
    rfl
  obtain ⟨_, _, hVerify, _⟩ := provision_report_true memory .factory faults hHonest
  obtain ⟨_, _, hMask⟩ := (hVerify ⟨4⟩).mp hResult
  exact ⟨hHonest, hResult, hMask.symm⟩

end PowerSink.Memory
