import PowerSink.Proofs.Device.Memory

/-!
# Attempts on a memory that does not lie

The faults that hit a run are those planned for the calls that it made, whatever else the plan
holds. As long as no read returns other sectors than those in memory, an attempt to provision ends
in one of six ways, and each of them fixes the result, the faults and the memory together.
-/

namespace PowerSink

/-- No entry of the plan is a fault. -/
def FaultPlan.Clean {φ : Type} (plan : FaultPlan φ) : Prop := ∀ entry ∈ plan.entries, entry = none

theorem FaultPlan.clean_empty {φ : Type} : (∅ : FaultPlan φ).Clean := by
  intro entry hEntry
  cases hEntry

theorem FaultPlan.Clean.first {φ : Type} {plan : FaultPlan φ} (h : plan.Clean) :
    plan.first = none := by
  obtain ⟨entries⟩ := plan
  cases entries with
  | nil => rfl
  | cons entry entries => exact h entry List.mem_cons_self

theorem FaultPlan.Clean.rest {φ : Type} {plan : FaultPlan φ} (h : plan.Clean) :
    plan.rest.Clean := fun entry hEntry => h entry (List.mem_of_mem_tail hEntry)

namespace Memory

inductive Fault where
  | read (fault : ReadFault)
  | write (fault : WriteFault)

def Fault.code? : Fault → Option BusCode
  | read (.fail code) => some code
  | read (.pretend _) => none
  | write fault => some fault.code

namespace Faults

def first (faults : Faults) : NvmCall → Option Fault
  | .read => faults.reads.first.map .read
  | .write _ => faults.writes.first.map .write

/-- The faults planned for these calls, in order. -/
def hits : Faults → List NvmCall → List Fault
  | _, [] => []
  | faults, request :: later => (faults.first request).toList ++ (faults.rest request).hits later

def Honest (faults : Faults) (calls : List NvmCall) : Prop :=
  ∀ sectors, Fault.read (.pretend sectors) ∉ faults.hits calls

variable {faults : Faults} {request : NvmCall} {later : List NvmCall}

theorem hits_of_none (h : faults.first request = none) :
    faults.hits (request :: later) = (faults.rest request).hits later := by
  rw [hits, h]
  rfl

theorem hits_of_some {fault : Fault} (h : faults.first request = some fault) :
    faults.hits (request :: later) = fault :: (faults.rest request).hits later := by
  rw [hits, h]
  rfl

theorem Honest.tail (h : faults.Honest (request :: later)) :
    (faults.rest request).Honest later := by
  intro sectors hHit
  exact h sectors (List.mem_append_right _ hHit)

/-- No call can be at fault. -/
structure Clean (faults : Faults) : Prop where
  reads : faults.reads.Clean
  writes : faults.writes.Clean

theorem clean_empty : (∅ : Faults).Clean := ⟨FaultPlan.clean_empty, FaultPlan.clean_empty⟩

theorem Clean.first {faults : Faults} (h : faults.Clean) (request : NvmCall) :
    faults.first request = none := by
  cases request with
  | read => rw [Faults.first, h.reads.first]; rfl
  | write sectors => rw [Faults.first, h.writes.first]; rfl

theorem Clean.rest {faults : Faults} (h : faults.Clean) (request : NvmCall) :
    (faults.rest request).Clean := by
  cases request with
  | read => exact ⟨h.reads.rest, h.writes⟩
  | write sectors => exact ⟨h.reads, h.writes.rest⟩

theorem Clean.hits_eq_nil {faults : Faults} (h : faults.Clean) (calls : List NvmCall) :
    faults.hits calls = [] := by
  induction calls generalizing faults with
  | nil => rfl
  | cons request later ih =>
    rw [hits_of_none (h.first request)]
    exact ih (h.rest request)

end Faults

/-- How an attempt to provision ends when no read lies: the result, the faults that hit the calls,
and the memory afterwards. -/
inductive Attempt (memory : Memory) (image : NvmImage) :
    Except (ProvisionError BusCode) Outcome → List Fault → Memory → Prop where
  | readFailed (code : BusCode) :
    Attempt memory image (.error (.bus code)) [.read (.fail code)] memory
  | unchanged (same : memory.cells = image.sectors) :
    Attempt memory image (.ok .unchanged) [] memory
  | writeFailed (fault : WriteFault) (differs : memory.cells ≠ image.sectors) :
    Attempt memory image (.error (.bus fault.code)) [.write fault]
      (memory.write fault.handled image.sectors)
  | readBackFailed (code : BusCode) (differs : memory.cells ≠ image.sectors) :
    Attempt memory image (.error (.bus code)) [.read (.fail code)]
      (memory.write sectorCount image.sectors)
  | verifyFailed (differs : memory.cells ≠ image.sectors)
      (remains : (memory.write sectorCount image.sectors).cells ≠ image.sectors) :
    Attempt memory image
      (.error (.verify (image.diff (memory.write sectorCount image.sectors).cells))) []
      (memory.write sectorCount image.sectors)
  | updated (differs : memory.cells ≠ image.sectors)
      (written : (memory.write sectorCount image.sectors).cells = image.sectors) :
    Attempt memory image (.ok (.updated (image.diff memory.cells))) []
      (memory.write sectorCount image.sectors)

section Serves

variable {memory : Memory} {faults : Faults} {reached : Memory × Faults}
  {rest : List (Exchange NvmCall.Answer BusCode)}

theorem serves_read_ok {found : Sectors}
    (hServes : Session.Serves serve (memory, faults) (⟨.read, .ok found⟩ :: rest) reached)
    (hHonest : faults.Honest (.read :: rest.map Sigma.fst)) :
    found = memory.cells ∧
    faults.hits (.read :: rest.map Sigma.fst) = (faults.rest .read).hits (rest.map Sigma.fst) ∧
    Session.Serves serve (memory, faults.rest .read) rest reached := by
  obtain ⟨hAnswer, hRest⟩ := hServes
  change memory.serveRead faults.reads.first = .ok found at hAnswer
  cases hFault : faults.reads.first with
  | none =>
    rw [hFault] at hAnswer
    injection hAnswer with hFound
    exact ⟨hFound.symm, Faults.hits_of_none (by rw [Faults.first, hFault]; rfl), hRest⟩
  | some fault =>
    cases fault with
    | fail code =>
      rw [hFault] at hAnswer
      cases hAnswer
    | pretend sectors =>
      refine absurd ?_ (hHonest sectors)
      rw [Faults.hits_of_some (by rw [Faults.first, hFault]; rfl)]
      exact List.mem_cons_self

theorem serves_read_error {code : BusCode}
    (hServes : Session.Serves serve (memory, faults) (⟨.read, .error code⟩ :: rest) reached) :
    faults.hits (.read :: rest.map Sigma.fst) =
      .read (.fail code) :: (faults.rest .read).hits (rest.map Sigma.fst) ∧
    Session.Serves serve (memory, faults.rest .read) rest reached := by
  obtain ⟨hAnswer, hRest⟩ := hServes
  change memory.serveRead faults.reads.first = .error code at hAnswer
  refine ⟨Faults.hits_of_some ?_, hRest⟩
  rw [Faults.first]
  cases hFault : faults.reads.first with
  | none => rw [hFault] at hAnswer; cases hAnswer
  | some fault =>
    rw [hFault] at hAnswer
    cases fault with
    | fail other => cases hAnswer; rfl
    | pretend sectors => cases hAnswer

theorem serves_write_ok {sectors : Sectors}
    (hServes : Session.Serves serve (memory, faults) (⟨.write sectors, .ok ()⟩ :: rest) reached) :
    faults.hits (.write sectors :: rest.map Sigma.fst) =
      (faults.rest (.write sectors)).hits (rest.map Sigma.fst) ∧
    Session.Serves serve (memory.write sectorCount sectors, faults.rest (.write sectors)) rest
      reached := by
  obtain ⟨hAnswer, hRest⟩ := hServes
  rw [served_write_state] at hRest
  change (memory.serveWrite sectors faults.writes.first).1 = .ok () at hAnswer
  cases hFault : faults.writes.first with
  | none =>
    rw [Faults.reach, hFault] at hRest
    exact ⟨Faults.hits_of_none (by rw [Faults.first, hFault]; rfl), hRest⟩
  | some fault =>
    rw [hFault] at hAnswer
    cases hAnswer

theorem serves_write_error {sectors : Sectors} {code : BusCode}
    (hServes : Session.Serves serve (memory, faults) (⟨.write sectors, .error code⟩ :: rest)
      reached) :
    ∃ fault : WriteFault, fault.code = code ∧
      faults.hits (.write sectors :: rest.map Sigma.fst) =
        .write fault :: (faults.rest (.write sectors)).hits (rest.map Sigma.fst) ∧
      Session.Serves serve (memory.write fault.handled sectors, faults.rest (.write sectors)) rest
        reached := by
  obtain ⟨hAnswer, hRest⟩ := hServes
  rw [served_write_state] at hRest
  change (memory.serveWrite sectors faults.writes.first).1 = .error code at hAnswer
  cases hFault : faults.writes.first with
  | none =>
    rw [hFault] at hAnswer
    cases hAnswer
  | some fault =>
    rw [hFault] at hAnswer
    cases hAnswer
    rw [Faults.reach, hFault] at hRest
    exact ⟨fault, rfl, Faults.hits_of_some (by rw [Faults.first, hFault]; rfl), hRest⟩

end Serves

section Attempt

variable {memory : Memory} {image : NvmImage} {faults : Faults}

/-- The answers in the exchanges are those of the memory itself, so each way to end tells what was
planned for its calls. -/
theorem attempt_of_ends {result : Except (ProvisionError BusCode) Outcome}
    {exchanges : List (Exchange NvmCall.Answer BusCode)} {messages : List Message}
    {reached : Memory × Faults} (hEnds : image.Ends result exchanges messages)
    (hServes : Session.Serves serve (memory, faults) exchanges reached)
    (hHonest : faults.Honest (exchanges.map Sigma.fst)) :
    memory.Attempt image result (faults.hits (exchanges.map Sigma.fst)) reached.1 := by
  cases hEnds with
  | readFailed code =>
    obtain ⟨hHits, rfl⟩ := serves_read_error hServes
    rw [List.map_cons, hHits]
    exact .readFailed code
  | unchanged =>
    obtain ⟨hFound, hHits, rfl⟩ := serves_read_ok hServes hHonest
    rw [List.map_cons, hHits]
    exact .unchanged hFound.symm
  | writeFailed found code differs =>
    obtain ⟨rfl, hHits, hServes⟩ := serves_read_ok hServes hHonest
    obtain ⟨fault, rfl, hHits', rfl⟩ := serves_write_error hServes
    rw [List.map_cons, hHits, List.map_cons, hHits']
    exact .writeFailed fault differs
  | readBackFailed found code differs =>
    obtain ⟨rfl, hHits, hServes⟩ := serves_read_ok hServes hHonest
    obtain ⟨hHits', hServes⟩ := serves_write_ok hServes
    obtain ⟨hHits'', rfl⟩ := serves_read_error hServes
    rw [List.map_cons, hHits, List.map_cons, hHits', List.map_cons, hHits'']
    exact .readBackFailed code differs
  | verifyFailed found back differs remains =>
    obtain ⟨rfl, hHits, hServes⟩ := serves_read_ok hServes hHonest
    obtain ⟨hHits', hServes⟩ := serves_write_ok hServes
    obtain ⟨rfl, hHits'', rfl⟩ := serves_read_ok hServes hHonest.tail.tail
    rw [List.map_cons, hHits, List.map_cons, hHits', List.map_cons, hHits'']
    exact .verifyFailed differs remains
  | updated found differs =>
    obtain ⟨rfl, hHits, hServes⟩ := serves_read_ok hServes hHonest
    obtain ⟨hHits', hServes⟩ := serves_write_ok hServes
    obtain ⟨hWritten, hHits'', rfl⟩ := serves_read_ok hServes hHonest.tail.tail
    rw [List.map_cons, hHits, List.map_cons, hHits', List.map_cons, hHits'']
    exact .updated differs hWritten.symm

theorem provision_attempt
    (hHonest : faults.Honest (memory.provision image faults).calls) :
    memory.Attempt image (memory.provision image faults).result
      (faults.hits (memory.provision image faults).calls)
      (memory.provision image faults).state.1 := by
  rw [Run.calls_eq_map] at hHonest ⊢
  exact attempt_of_ends (image.provision_ends serve (memory, faults))
    (Session.run_serves serve image.provision (memory, faults)) hHonest

/-- What an attempt answers when nothing is at fault, given the sectors that differ at the start. -/
def verdict (differing stuck : SectorMask) : Except (ProvisionError BusCode) Outcome :=
  if differing = ∅ then
    .ok .unchanged
  else if differing ∩ stuck = ∅ then
    .ok (.updated differing)
  else
    .error (.verify (differing ∩ stuck))

theorem write_same (limit : Nat) (same : memory.cells = image.sectors) :
    memory.write limit image.sectors = memory := by
  obtain ⟨cells, stuck⟩ := memory
  change cells = image.sectors at same
  subst same
  refine congrArg (Memory.mk · stuck) (Vector.ext fun i hi => ?_)
  exact (cells_write_or ⟨image.sectors, stuck⟩ limit image.sectors ⟨i, hi⟩).elim id id

theorem Attempt.of_no_hits {result : Except (ProvisionError BusCode) Outcome} {reached : Memory}
    (h : memory.Attempt image result [] reached) :
    result = verdict (image.diff memory.cells) memory.stuck ∧
      reached = memory.write sectorCount image.sectors := by
  cases h with
  | unchanged same =>
    rw [verdict, if_pos (NvmImage.diff_eq_empty_iff.mpr same)]
    exact ⟨rfl, (write_same sectorCount same).symm⟩
  | verifyFailed differs remains =>
    rw [verdict, if_neg (mt NvmImage.diff_eq_empty_iff.mp differs),
      if_neg (mt (cells_write_all_eq_iff memory image).mpr remains), diff_write_all]
    exact ⟨rfl, rfl⟩
  | updated differs written =>
    rw [verdict, if_neg (mt NvmImage.diff_eq_empty_iff.mp differs),
      if_pos ((cells_write_all_eq_iff memory image).mp written)]
    exact ⟨rfl, rfl⟩

theorem provision_clean (memory : Memory) (image : NvmImage) (hClean : faults.Clean) :
    let run := memory.provision image faults
    run.result = verdict (image.diff memory.cells) memory.stuck ∧
      run.state.1 = memory.write sectorCount image.sectors := by
  have hHits := hClean.hits_eq_nil (memory.provision image faults).calls
  have hHonest : faults.Honest (memory.provision image faults).calls := by
    intro sectors hHit
    rw [hHits] at hHit
    cases hHit
  have hAttempt := provision_attempt hHonest
  rw [hHits] at hAttempt
  exact hAttempt.of_no_hits

end Attempt

end Memory

end PowerSink
