import PowerSink.Demo
import PowerSink.Proofs.Device.Undisturbed
import PowerSink.Proofs.Trace

/-!
# Attempts that settle

An undisturbed attempt does all that an attempt can do. The next one finds the memory as the first
has left it and leaves it so: it has nothing to write, or it fails again for the same stuck sectors.
Every attempt after that repeats the second one.
-/

namespace PowerSink

namespace Memory

/-- After a whole write only stuck sectors differ, and another write would change none of them. -/
theorem verdict_inter_stuck (differing stuck : SectorMask) :
    verdict (differing ∩ stuck) stuck =
      if differing ∩ stuck = ∅ then .ok .unchanged else .error (.verify (differing ∩ stuck)) := by
  rw [verdict, SectorMask.inter_inter_self]
  by_cases hFree : differing ∩ stuck = ∅
  · rw [if_pos hFree, if_pos hFree]
  · rw [if_neg hFree, if_neg hFree, if_neg hFree]

/-- A memory that holds the image is read once. -/
theorem provision_same (image : NvmImage) (stuck : SectorMask) :
    (Memory.mk image.sectors stuck).provision image ∅ =
      ⟨.ok .unchanged, [.called .read (.ok image.sectors), .logged .unchanged],
        (⟨image.sectors, stuck⟩, ∅)⟩ := by
  have hEmpty : (image.diff image.sectors).isEmpty = true := by
    rw [NvmImage.isEmpty_diff]
    exact decide_eq_true rfl
  rw [provision, NvmImage.provision, Session.run_call, serve_read_clean Faults.clean_empty]
  simp only [hEmpty, if_true]
  rfl

end Memory

namespace Device

/-- What two undisturbed attempts in a row report. -/
structure Settles (image : NvmImage) (first second : Report) : Prop where
  ended : (∃ outcome, first.reply = .provisioned (.ok outcome)) ∨
    ∃ remaining, first.reply = .provisioned (.error (.verify remaining))
  after_ok : ∀ outcome, first.reply = .provisioned (.ok outcome) →
    second.reply = .provisioned (.ok .unchanged) ∧ second.calls = [.memory .read]
  after_verify : ∀ remaining, first.reply = .provisioned (.error (.verify remaining)) →
    second.reply = .provisioned (.error (.verify remaining)) ∧
    second.calls = [.memory .read, .memory (.write image.sectors), .memory .read]

variable {image : NvmImage} {first second : Step}

theorem step_again (hFirst : first.Undisturbed image) (hSecond : second.Undisturbed image)
    (device : Device) : ((device.step first).2.step second).2 = (device.step first).2 := by
  obtain ⟨_, _, hReached⟩ := step_undisturbed hFirst device
  obtain ⟨_, _, hAgain⟩ := step_undisturbed hSecond (device.step first).2
  rw [hAgain, hReached, Memory.write_write]

theorem step_settles (hFirst : first.Undisturbed image) (hSecond : second.Undisturbed image)
    (device : Device) :
    Settles image (device.step first).1 ((device.step first).2.step second).1 := by
  obtain ⟨hReply, _, hReached⟩ := step_undisturbed hFirst device
  obtain ⟨hReply', hCalls', _⟩ := step_undisturbed hSecond (device.step first).2
  rw [hReached, Memory.diff_write_all, Memory.stuck_write] at hReply'
  rw [hReached, Memory.diff_write_all] at hCalls'
  rw [hReached]
  rw [Memory.verdict_inter_stuck] at hReply'
  -- Both replies are verdicts on the same two masks now, and the memory is no longer needed.
  generalize image.diff device.memory.cells = differing, device.memory.stuck = stuck
    at hReply hReply' hCalls'
  refine ⟨?_, ?_, ?_⟩
  · cases hVerdict : Memory.verdict differing stuck with
    | ok outcome => exact .inl ⟨outcome, by rw [hReply, hVerdict]⟩
    | error error =>
      cases error with
      | bus code => exact absurd hVerdict (Memory.verdict_ne_bus _ _ code)
      | verify remaining => exact .inr ⟨remaining, by rw [hReply, hVerdict]⟩
  · intro outcome hOk
    have hVerdict : Memory.verdict differing stuck = .ok outcome := by
      rw [hReply] at hOk
      injection hOk
    have hFree : differing ∩ stuck = ∅ := by
      cases outcome with
      | unchanged => rw [Memory.verdict_eq_unchanged_iff.mp hVerdict, SectorMask.empty_inter]
      | updated changed => exact (Memory.verdict_eq_updated_iff.mp hVerdict).2.1
    rw [if_pos hFree] at hReply' hCalls'
    exact ⟨hReply', hCalls'⟩
  · intro remaining hError
    have hVerdict : Memory.verdict differing stuck = .error (.verify remaining) := by
      rw [hReply] at hError
      injection hError
    obtain ⟨hStuck, rfl⟩ := Memory.verdict_eq_verify_iff.mp hVerdict
    rw [if_neg hStuck] at hReply' hCalls'
    exact ⟨hReply', hCalls'⟩

end Device

namespace Demo

theorem pass_factory :
    pass ⟨NvmImage.factory.sectors, ∅⟩ =
      ([info "Reading NVM", info "NVM OK", info "Device already provisioned"],
        ⟨NvmImage.factory.sectors, ∅⟩) := by
  rw [pass, Memory.provision_same]
  rfl

/-- Nothing is stuck in the demonstration. -/
theorem pass_memory (contents : Sectors) :
    (pass ⟨contents, ∅⟩).2 = ⟨NvmImage.factory.sectors, ∅⟩ := by
  have hWritten := (Memory.provision_clean ⟨contents, ∅⟩ .factory Memory.Faults.clean_empty).2
  have hCells := (Memory.cells_write_all_eq_iff ⟨contents, ∅⟩ .factory).mpr
    (SectorMask.inter_empty _)
  change (Memory.provision ⟨contents, ∅⟩ .factory ∅).state.1 = _
  rw [hWritten]
  exact congrArg (Memory.mk · ∅) hCells

end Demo

/-- Two undisturbed attempts in a row leave the same controller, and whatever number of them follows,
each of these reports what the second one did. The demonstration makes two passes, and the second
finds the memory provisioned. -/
theorem undisturbed_attempts_settle :
    (∀ (image : NvmImage) (device : Device) (first second : Device.Step) (later : List Device.Step),
      (∀ s ∈ first :: second :: later, s.Undisturbed image) →
      let reached := device.step first
      let again := reached.2.step second
      again.2 = reached.2 ∧ Device.Settles image reached.1 again.1 ∧
      trace Device.step device (first :: second :: later) =
        reached :: List.replicate (later.length + 1) again) ∧
    ∀ contents : Sectors, Demo.passes 2 ⟨contents, ∅⟩ =
      (Demo.pass ⟨contents, ∅⟩).1 ++
        [Demo.info "Reading NVM", Demo.info "NVM OK", Demo.info "Device already provisioned"] := by
  constructor
  · intro image device first second later hSteps reached again
    have hFirst : first.Undisturbed image := hSteps first (by simp)
    have hSecond : second.Undisturbed image := hSteps second (by simp)
    have hAgain : again.2 = reached.2 := Device.step_again hFirst hSecond device
    refine ⟨hAgain, Device.step_settles hFirst hSecond device, ?_⟩
    have hLater : ∀ s ∈ second :: later, reached.2.step s = again := by
      intro s hMem
      exact Device.step_congr (hSteps s (List.mem_cons_of_mem first hMem)) hSecond reached.2
    rw [trace]
    exact congrArg (reached :: ·) (trace_eq_replicate hAgain hLater)
  · intro contents
    change (Demo.pass ⟨contents, ∅⟩).1 ++ ((Demo.pass (Demo.pass ⟨contents, ∅⟩).2).1 ++ []) = _
    rw [Demo.pass_memory, Demo.pass_factory, List.append_nil]

/-- One sector of a blank memory is stuck, and the plans run out at different calls. -/
theorem undisturbed_attempts_settle_stuck :
    let device : Device := ⟨⟨.replicate sectorCount (.replicate sectorSize 0), ⟨4⟩⟩, .initial⟩
    let first : Device.Step := .memory (.provision .factory ∅)
    let second : Device.Step := .memory (.provision .factory ⟨⟨[none]⟩, ⟨[none, none]⟩⟩)
    (∀ s ∈ [first, second, first], s.Undisturbed .factory) ∧
    (device.step first).1.reply = .provisioned (.error (.verify ⟨4⟩)) ∧
    ((device.step first).2.step second).1.reply = .provisioned (.error (.verify ⟨4⟩)) := by
  intro device first second
  have hFirst : first.Undisturbed .factory := ⟨.factory, ∅, rfl, Memory.Faults.clean_empty⟩
  have hSecond : second.Undisturbed .factory := by
    refine ⟨.factory, _, rfl, ?_, ?_⟩
    · intro entry hEntry
      exact List.mem_singleton.mp hEntry
    · intro entry hEntry
      simpa using hEntry
  have hSteps : ∀ s ∈ [first, second, first], s.Undisturbed .factory := by
    simp [hFirst, hSecond]
  have hReply : (device.step first).1.reply = .provisioned (.error (.verify ⟨4⟩)) := by
    simp only [device, first]
    rfl
  obtain ⟨_, hSettles, _⟩ :=
    undisturbed_attempts_settle.1 .factory device first second [first] hSteps
  exact ⟨hSteps, hReply, (hSettles.after_verify ⟨4⟩ hReply).1⟩

end PowerSink
