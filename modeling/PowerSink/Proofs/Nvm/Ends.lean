import PowerSink.Nvm.Provision
import PowerSink.Proofs.Nvm.Difference
import PowerSink.Proofs.Session.Exchange

/-!
# How provisioning ends

Whatever a controller answers, provisioning ends in one of six ways, and each of them fixes the
result, the exchanges and the messages together. The result is then read off the exchanges alone:
the answers of a controller may be false or contradict each other, and still decide it.
-/

namespace PowerSink.NvmImage

variable {ε σ : Type}

inductive Ends (image : NvmImage) :
    Except (ProvisionError ε) Outcome → List (Exchange NvmCall.Answer ε) → List Message → Prop where
  | readFailed (code : ε) :
    Ends image (.error (.bus code)) [⟨.read, .error code⟩] [.readFailed]
  | unchanged :
    Ends image (.ok .unchanged) [⟨.read, .ok image.sectors⟩] [.unchanged]
  | writeFailed (found : Sectors) (code : ε) (differs : found ≠ image.sectors) :
    Ends image (.error (.bus code)) [⟨.read, .ok found⟩, ⟨.write image.sectors, .error code⟩]
      ((image.diff found).sectors.map .sectorDiffers ++ [.writeFailed])
  | readBackFailed (found : Sectors) (code : ε) (differs : found ≠ image.sectors) :
    Ends image (.error (.bus code))
      [⟨.read, .ok found⟩, ⟨.write image.sectors, .ok ()⟩, ⟨.read, .error code⟩]
      ((image.diff found).sectors.map .sectorDiffers ++ [.written, .readFailed])
  | verifyFailed (found back : Sectors) (differs : found ≠ image.sectors)
      (remains : back ≠ image.sectors) :
    Ends image (.error (.verify (image.diff back)))
      [⟨.read, .ok found⟩, ⟨.write image.sectors, .ok ()⟩, ⟨.read, .ok back⟩]
      ((image.diff found).sectors.map .sectorDiffers ++
        [.written, .verifyFailed (image.diff back).count])
  | updated (found : Sectors) (differs : found ≠ image.sectors) :
    Ends image (.ok (.updated (image.diff found)))
      [⟨.read, .ok found⟩, ⟨.write image.sectors, .ok ()⟩, ⟨.read, .ok image.sectors⟩]
      ((image.diff found).sectors.map .sectorDiffers ++
        [.written, .updated (image.diff found).count])

theorem reprogram_ends (image : NvmImage) {found : Sectors} (differs : found ≠ image.sectors)
    (handler : Session.Handler NvmCall.Answer ε σ) (state : σ) :
    let run := (image.reprogram (image.diff found)).run handler state
    image.Ends run.result (⟨.read, .ok found⟩ :: run.exchanges) run.messages := by
  simp only [reprogram, Session.result_logAll, Session.exchanges_logAll, Session.messages_logAll,
    Session.run_call]
  cases (handler (.write image.sectors) state).1 with
  | error code => exact .writeFailed found code differs
  | ok written =>
    simp only [verify, Session.run, Session.run_call]
    cases (handler .read (handler (.write image.sectors) state).2).1 with
    | error code => exact .readBackFailed found code differs
    | ok back =>
      by_cases hBack : back = image.sectors
      · subst hBack
        simp only [isEmpty_diff, decide_true, if_true]
        exact .updated found differs
      · simp only [isEmpty_diff, hBack, decide_false, Bool.false_eq_true, if_false]
        exact .verifyFailed found back differs hBack

theorem provision_ends (image : NvmImage) (handler : Session.Handler NvmCall.Answer ε σ)
    (state : σ) :
    let run := image.provision.run handler state
    image.Ends run.result run.exchanges run.messages := by
  simp only [provision, Session.run_call]
  cases (handler .read state).1 with
  | error code => exact .readFailed code
  | ok found =>
    by_cases hFound : found = image.sectors
    · subst hFound
      simp only [isEmpty_diff, decide_true, if_true]
      exact .unchanged
    · simp only [isEmpty_diff, hFound, decide_false, Bool.false_eq_true, if_false]
      exact image.reprogram_ends hFound handler _

namespace Ends

variable {image : NvmImage} {result : Except (ProvisionError ε) Outcome}
  {exchanges : List (Exchange NvmCall.Answer ε)} {messages : List Message}

theorem calls_initial (h : image.Ends result exchanges messages) :
    exchanges.map Sigma.fst <+: [.read, .write image.sectors, .read] := by
  cases h with
  | readFailed code => exact ⟨[.write image.sectors, .read], rfl⟩
  | unchanged => exact ⟨[.write image.sectors, .read], rfl⟩
  | writeFailed found code differs => exact ⟨[.read], rfl⟩
  | readBackFailed found code differs => exact List.prefix_refl _
  | verifyFailed found back differs remains => exact List.prefix_refl _
  | updated found differs => exact List.prefix_refl _

theorem length_failures_le (h : image.Ends result exchanges messages) :
    (exchanges.filterMap Exchange.failure?).length ≤ 1 := by
  cases h with
  | readFailed code => exact Nat.le_refl _
  | unchanged => exact Nat.zero_le _
  | writeFailed found code differs => exact Nat.le_refl _
  | readBackFailed found code differs => exact Nat.le_refl _
  | verifyFailed found back differs remains => exact Nat.zero_le _
  | updated found differs => exact Nat.zero_le _

theorem bus_iff (h : image.Ends result exchanges messages) (code : ε) :
    result = .error (.bus code) ↔ code ∈ exchanges.filterMap Exchange.failure? := by
  cases h with
  | readFailed failed => simp [Exchange.failure?, eq_comm]
  | unchanged => simp [Exchange.failure?]
  | writeFailed found failed differs => simp [Exchange.failure?, eq_comm]
  | readBackFailed found failed differs => simp [Exchange.failure?, eq_comm]
  | verifyFailed found back differs remains => simp [Exchange.failure?]
  | updated found differs => simp [Exchange.failure?]

theorem unchanged_iff (h : image.Ends result exchanges messages) :
    result = .ok .unchanged ↔ exchanges.head? = some ⟨.read, .ok image.sectors⟩ := by
  cases h with
  | readFailed code => simp
  | unchanged => simp
  | writeFailed found code differs => simp [differs]
  | readBackFailed found code differs => simp [differs]
  | verifyFailed found back differs remains => simp [differs]
  | updated found differs => simp [differs]

theorem updated_iff (h : image.Ends result exchanges messages) (changed : SectorMask) :
    result = .ok (.updated changed) ↔ ∃ found,
      exchanges =
        [⟨.read, .ok found⟩, ⟨.write image.sectors, .ok ()⟩, ⟨.read, .ok image.sectors⟩] ∧
      image.Locates found changed := by
  cases h with
  | readFailed code => simp
  | unchanged => simp
  | writeFailed found code differs => simp
  | readBackFailed found code differs => simp
  | verifyFailed found back differs remains => simp [remains]
  | updated found differs => simp [locates_iff, differs, eq_comm]

theorem verify_iff (h : image.Ends result exchanges messages) (remaining : SectorMask) :
    result = .error (.verify remaining) ↔ ∃ found back, found ≠ image.sectors ∧
      exchanges = [⟨.read, .ok found⟩, ⟨.write image.sectors, .ok ()⟩, ⟨.read, .ok back⟩] ∧
      image.Locates back remaining := by
  cases h with
  | readFailed code => simp
  | unchanged => simp
  | writeFailed found code differs => simp
  | readBackFailed found code differs => simp
  | verifyFailed found back differs remains =>
    constructor
    · intro hResult
      injection hResult with hResult
      injection hResult with hMask
      exact ⟨found, back, differs, rfl, locates_iff.mpr ⟨remains, hMask.symm⟩⟩
    · rintro ⟨_, other, _, hExchanges, hLocates⟩
      obtain ⟨_, rfl⟩ : _ ∧ back = other := by simpa using hExchanges
      rw [(locates_iff.mp hLocates).2]
  | updated found differs => simp [locates_iff]

end Ends

/-- The calls with their answers leave no choice of the result: a failing call ends in its own error, a
first read of the image in `unchanged`, and what follows a write is told by the second read. -/
structure Decides (image : NvmImage) (exchanges : List (Exchange NvmCall.Answer ε))
    (result : Except (ProvisionError ε) Outcome) : Prop where
  bus_iff : ∀ code, result = .error (.bus code) ↔ code ∈ exchanges.filterMap Exchange.failure?
  unchanged_iff : result = .ok .unchanged ↔ exchanges.head? = some ⟨.read, .ok image.sectors⟩
  updated_iff : ∀ changed, result = .ok (.updated changed) ↔ ∃ found,
    exchanges =
      [⟨.read, .ok found⟩, ⟨.write image.sectors, .ok ()⟩, ⟨.read, .ok image.sectors⟩] ∧
    image.Locates found changed
  verify_iff : ∀ remaining, result = .error (.verify remaining) ↔ ∃ found back,
    found ≠ image.sectors ∧
    exchanges = [⟨.read, .ok found⟩, ⟨.write image.sectors, .ok ()⟩, ⟨.read, .ok back⟩] ∧
    image.Locates back remaining

theorem Ends.decides {image : NvmImage} {result : Except (ProvisionError ε) Outcome}
    {exchanges : List (Exchange NvmCall.Answer ε)} {messages : List Message}
    (h : image.Ends result exchanges messages) : image.Decides exchanges result where
  bus_iff := h.bus_iff
  unchanged_iff := h.unchanged_iff
  updated_iff := h.updated_iff
  verify_iff := h.verify_iff

/-- The answers of the controller decide the result, and the mask of each result names the sectors
of the very read that it reports: the first one after an update, the second one after a failure to
verify. -/
theorem provision_result_exact (image : NvmImage) (handler : Session.Handler NvmCall.Answer ε σ)
    (state : σ) :
    let run := image.provision.run handler state
    Session.Serves handler state run.exchanges run.state ∧
    run.failures.length ≤ 1 ∧
    (∀ code, run.result = .error (.bus code) ↔ code ∈ run.failures) ∧
    (run.result = .ok .unchanged ↔ run.exchanges.head? = some ⟨.read, .ok image.sectors⟩) ∧
    (∀ changed, run.result = .ok (.updated changed) ↔ ∃ found,
      run.exchanges =
        [⟨.read, .ok found⟩, ⟨.write image.sectors, .ok ()⟩, ⟨.read, .ok image.sectors⟩] ∧
      image.Locates found changed) ∧
    (∀ remaining, run.result = .error (.verify remaining) ↔ ∃ found back, found ≠ image.sectors ∧
      run.exchanges =
        [⟨.read, .ok found⟩, ⟨.write image.sectors, .ok ()⟩, ⟨.read, .ok back⟩] ∧
      image.Locates back remaining) := by
  have hEnds := image.provision_ends handler state
  refine ⟨Session.run_serves handler _ state, ?_, ?_, hEnds.unchanged_iff, hEnds.updated_iff,
    hEnds.verify_iff⟩
  · rw [Run.failures_eq_filterMap]
    exact hEnds.length_failures_le
  · intro code
    rw [Run.failures_eq_filterMap]
    exact hEnds.bus_iff code

end PowerSink.NvmImage
