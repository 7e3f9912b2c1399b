import PowerSink.Proofs.Device.Calls
import PowerSink.Proofs.Device.Undisturbed

/-!
# Drift of a memory from its image

Nothing is stuck and no call is at fault, but between two attempts the memory is changed from outside,
byte by byte or as a whole. Each byte is then what the latest step that set it has set it to, and an
attempt finds exactly the sectors in which some of these bytes are not those of its image. The order
of the earlier steps and what they have overwritten do not matter.
-/

namespace PowerSink

namespace Memory

theorem get_setByte (memory : Memory) (i : SectorIndex) (byte : Fin sectorSize) (value : UInt8)
    (k : Fin sectorCount) (j : Fin sectorSize) :
    ((memory.setByte i byte value).cells.get k).get j =
      if i.toNat = k.val ∧ byte = j then value else (memory.cells.get k).get j := by
  have hSector : (memory.setByte i byte value).cells.get k =
      if i.toNat = k.val then (memory.cells.get i.toFin).set byte.val value byte.isLt
      else memory.cells.get k := Vector.getElem_set i.toNat_lt k.isLt
  rw [hSector]
  by_cases hIndex : i.toNat = k.val
  · have hSame : i.toFin = k := Fin.ext hIndex
    have hByte : ((memory.cells.get k).set byte.val value byte.isLt).get j =
        if byte.val = j.val then value else (memory.cells.get k).get j :=
      Vector.getElem_set byte.isLt j.isLt
    rw [if_pos hIndex, hSame, hByte]
    simp only [hIndex, true_and, Fin.ext_iff]
  · rw [if_neg hIndex, if_neg fun h => hIndex h.1]

theorem verdict_free (differing : SectorMask) :
    verdict differing ∅ = if differing = ∅ then .ok .unchanged else .ok (.updated differing) := by
  rw [verdict, SectorMask.inter_empty, if_pos rfl]

end Memory

namespace Device

/-- What a step sets a byte of the memory to, if it sets that byte. An image that is refused sets
none, and neither does a number that names no sector. -/
def Step.sets? (i : Fin sectorCount) (j : Fin sectorSize) : Step → Option UInt8
  | .memory (.provision source _) =>
    match source.image with
    | .ok image => some ((image.sectors.get i).get j)
    | .error _ => none
  | .memory (.poke sector byte value) => if sector = i.val ∧ byte = j then some value else none
  | .memory (.load cells) => some ((cells.get i).get j)
  | .memory (.stick _) => none
  | .registers _ => none

/-- The byte that the steps have set latest, or the one at the start. -/
def latest (start : Sectors) (steps : List Step) (i : Fin sectorCount) (j : Fin sectorSize) : UInt8 :=
  (latest? (Step.sets? i j) steps).getD ((start.get i).get j)

inductive Step.Edits : Step → Prop where
  | provision (source : ImageSource) (faults : Memory.Faults) (clean : faults.Clean) :
    Edits (.memory (.provision source faults))
  | poke (sector : Nat) (byte : Fin sectorSize) (value : UInt8) :
    Edits (.memory (.poke sector byte value))
  | load (cells : Sectors) : Edits (.memory (.load cells))

def Reply.isUpdate : Reply → Bool
  | provisioned (.ok outcome) => outcome.isUpdated
  | provisioned (.error _) => false
  | overridden _ => false
  | refused _ => false
  | done => false

/-- What such a step does to a memory in which nothing is stuck. -/
inductive Edit (memory : Memory) : Step → Report → Memory → Prop where
  | rejected (source : ImageSource) (faults : Memory.Faults) (error : ImageError)
      (refused : source.image = .error error) :
    Edit memory (.memory (.provision source faults)) (.silent (.refused error)) memory
  | unchanged (source : ImageSource) (faults : Memory.Faults) (image : NvmImage) (report : Report)
      (made : source.image = .ok image) (same : memory.cells = image.sectors)
      (reply : report.reply = .provisioned (.ok .unchanged))
      (calls : report.calls = [.memory .read]) :
    Edit memory (.memory (.provision source faults)) report memory
  | updated (source : ImageSource) (faults : Memory.Faults) (image : NvmImage) (report : Report)
      (made : source.image = .ok image) (differs : memory.cells ≠ image.sectors)
      (reply : report.reply = .provisioned (.ok (.updated (image.diff memory.cells))))
      (calls : report.calls = [.memory .read, .memory (.write image.sectors), .memory .read]) :
    Edit memory (.memory (.provision source faults)) report ⟨image.sectors, memory.stuck⟩
  | poked (sector : Nat) (byte : Fin sectorSize) (value : UInt8) (inside : sector < sectorCount) :
    Edit memory (.memory (.poke sector byte value)) (.silent .done)
      (memory.setByte (.ofFin ⟨sector, inside⟩) byte value)
  | missed (sector : Nat) (byte : Fin sectorSize) (value : UInt8) (outside : sectorCount ≤ sector) :
    Edit memory (.memory (.poke sector byte value)) (.silent (.refused (.outOfRange sector))) memory
  | loaded (cells : Sectors) :
    Edit memory (.memory (.load cells)) (.silent .done) ⟨cells, memory.stuck⟩

theorem edit_of_clean {source : ImageSource} {image : NvmImage} {faults : Memory.Faults}
    {device : Device} (made : source.image = .ok image) (clean : faults.Clean)
    (hFree : device.memory.stuck = ∅) :
    Edit device.memory (.memory (.provision source faults))
      (device.step (.memory (.provision source faults))).1
      (device.step (.memory (.provision source faults))).2.memory := by
  have hUndisturbed : Step.Undisturbed image (.memory (.provision source faults)) :=
    ⟨source, faults, made, clean⟩
  obtain ⟨hReply, hCalls, hReached⟩ := step_undisturbed hUndisturbed device
  rw [hFree, Memory.verdict_free] at hReply
  rw [hReached]
  by_cases hSame : device.memory.cells = image.sectors
  · have hEmpty := NvmImage.diff_eq_empty_iff.mpr hSame
    rw [if_pos hEmpty] at hReply hCalls
    rw [Memory.write_same sectorCount hSame]
    exact .unchanged source faults image _ made hSame hReply hCalls
  · have hDiffers := mt NvmImage.diff_eq_empty_iff.mp hSame
    have hCells : (device.memory.write sectorCount image.sectors).cells = image.sectors := by
      rw [Memory.cells_write_all_eq_iff, hFree, SectorMask.inter_empty]
    have hWritten : device.memory.write sectorCount image.sectors =
        ⟨image.sectors, device.memory.stuck⟩ := congrArg (Memory.mk · device.memory.stuck) hCells
    rw [if_neg hDiffers] at hReply hCalls
    rw [hWritten]
    exact .updated source faults image _ made hSame hReply hCalls

theorem step_edit {device : Device} {s : Step} (h : s.Edits) (hFree : device.memory.stuck = ∅) :
    Edit device.memory s (device.step s).1 (device.step s).2.memory := by
  cases h with
  | provision source faults clean =>
    cases hImage : source.image with
    | error error =>
      rw [step_refused hImage]
      exact .rejected source faults error hImage
    | ok image => exact edit_of_clean hImage clean hFree
  | poke sector byte value =>
    rcases Nat.lt_or_ge sector sectorCount with hSector | hSector
    · have hStep : device.step (.memory (.poke sector byte value)) = (.silent .done,
          { device with memory := device.memory.setByte (.ofFin ⟨sector, hSector⟩) byte value }) := by
        simp only [step, stepMemory, Memory.poke, SectorIndex.check_of_lt hSector]
      rw [hStep]
      exact .poked sector byte value hSector
    · have hStep : device.step (.memory (.poke sector byte value)) =
          (.silent (.refused (.outOfRange sector)), device) := by
        simp only [step, stepMemory, Memory.poke, SectorIndex.check_of_le hSector]
      rw [hStep]
      exact .missed sector byte value hSector
  | load cells => exact .loaded cells

namespace Edit

variable {memory reached : Memory} {s : Step} {report : Report}

theorem stuck_eq (h : Edit memory s report reached) : reached.stuck = memory.stuck := by
  cases h <;> rfl

theorem byte (h : Edit memory s report reached) (i : Fin sectorCount) (j : Fin sectorSize) :
    (reached.cells.get i).get j = (s.sets? i j).getD ((memory.cells.get i).get j) := by
  cases h with
  | rejected source faults error refused =>
    rw [Step.sets?, refused]
    rfl
  | unchanged source faults image report made same reply calls =>
    rw [Step.sets?, made, same]
    rfl
  | updated source faults image report made differs reply calls =>
    rw [Step.sets?, made]
    rfl
  | poked sector byte value inside =>
    rw [Memory.get_setByte, SectorIndex.toNat_ofFin, Step.sets?]
    split <;> rfl
  | missed sector byte value outside =>
    -- The number of a sector that does not exist is not the number of this one.
    have hOther : ¬(sector = i.val ∧ byte = j) := by
      rintro ⟨rfl, _⟩
      exact Nat.not_lt.mpr outside i.isLt
    rw [Step.sets?, if_neg hOther]
    rfl
  | loaded cells => rfl

theorem countP_write (h : Edit memory s report reached) :
    report.calls.countP Call.isWrite = if report.reply.isUpdate then 1 else 0 := by
  cases h with
  | rejected source faults error refused => rfl
  | unchanged source faults image report made same reply calls =>
    rw [reply, calls]
    rfl
  | updated source faults image report made differs reply calls =>
    rw [reply, calls]
    rfl
  | poked sector byte value inside => rfl
  | missed sector byte value outside => rfl
  | loaded cells => rfl

end Edit

/-- What a step reports and leaves, in terms of the bytes that were set latest before it and after. -/
structure Tracks (shown shownAfter : Fin sectorCount → Fin sectorSize → UInt8) (s : Step)
    (report : Report) (reached : Memory) : Prop where
  bytes : ∀ i j, (reached.cells.get i).get j = shownAfter i j
  poke : ∀ sector byte value, s = .memory (.poke sector byte value) →
    report.reply = if sector < sectorCount then .done else .refused (.outOfRange sector)
  unchanged_iff : ∀ image, s.Provisions image →
    (report.reply = .provisioned (.ok .unchanged) ↔ ∀ i j, shown i j = (image.sectors.get i).get j)
  updated : ∀ image, s.Provisions image → (∃ i j, shown i j ≠ (image.sectors.get i).get j) →
    ∃ changed : SectorMask, report.reply = .provisioned (.ok (.updated changed)) ∧
      changed.Known ∧ ∀ i, i ∈ changed ↔ ∃ j, shown i.toFin j ≠ (image.sectorAt i).get j

theorem Edit.tracks {memory reached : Memory} {s : Step} {report : Report}
    {shown shownAfter : Fin sectorCount → Fin sectorSize → UInt8}
    (h : Edit memory s report reached) (hShown : ∀ i j, (memory.cells.get i).get j = shown i j)
    (hAfter : ∀ i j, (reached.cells.get i).get j = shownAfter i j) :
    Tracks shown shownAfter s report reached := by
  obtain rfl : (fun i j => (memory.cells.get i).get j) = shown := by
    funext i j
    exact hShown i j
  refine ⟨hAfter, ?_, ?_, ?_⟩
  · rintro sector byte value rfl
    cases h with
    | poked _ _ _ inside => exact (if_pos inside).symm
    | missed _ _ _ outside => exact (if_neg (Nat.not_lt.mpr outside)).symm
  · rintro image ⟨source, faults, made⟩
    rw [NvmImage.forall_byte_eq_iff]
    cases h with
    | rejected _ _ error refused => cases made.symm.trans refused
    | unchanged _ _ other report made' same reply calls =>
      cases made.symm.trans made'
      exact iff_of_true reply same
    | updated _ _ other report made' differs reply calls =>
      cases made.symm.trans made'
      refine iff_of_false ?_ differs
      rw [reply]
      simp
  · rintro image ⟨source, faults, made⟩ hDiffers
    -- A byte differs, so the memory does, and only one of the edits by an image is possible.
    rw [NvmImage.exists_byte_ne_iff] at hDiffers
    cases h with
    | rejected _ _ error refused => cases made.symm.trans refused
    | unchanged _ _ other report made' same reply calls =>
      cases made.symm.trans made'
      exact absurd same hDiffers
    | updated _ _ other report made' differs reply calls =>
      cases made.symm.trans made'
      have hMask := NvmImage.locates_iff.mpr ⟨hDiffers, rfl⟩
      exact ⟨_, reply, hMask.known, hMask.mem_iff⟩

def Free (device : Device) : Prop := device.memory.stuck = ∅

theorem step_free (device : Device) (s : Step) (hFree : device.Free) (h : s.Edits) :
    (device.step s).2.Free :=
  (step_edit h hFree).stuck_eq.trans hFree

section Runs

variable {device : Device} {steps : List Step}

theorem final_free (hFree : device.Free) (hSteps : ∀ s ∈ steps, s.Edits) :
    (final Device.step device steps).Free :=
  final_induction hFree fun reached s hMem hSoFar => step_free reached s hSoFar (hSteps s hMem)

theorem final_byte (hFree : device.Free) (hSteps : ∀ s ∈ steps, s.Edits) (i : Fin sectorCount)
    (j : Fin sectorSize) :
    ((final Device.step device steps).memory.cells.get i).get j =
      latest device.memory.cells steps i j :=
  view_final (fun reached : Device => (reached.memory.cells.get i).get j) (Step.sets? i j) step_free
    (fun _ _ hSoFar hEdits => (step_edit hEdits hSoFar).byte i j) hFree hSteps

theorem countP_write_eq (hFree : device.Free) (hSteps : ∀ s ∈ steps, s.Edits) :
    ((trace Device.step device steps).flatMap fun entry => entry.1.calls).countP Call.isWrite =
      (trace Device.step device steps).countP fun entry => entry.1.reply.isUpdate :=
  countP_trace_eq (fun report : Report => report.reply.isUpdate) step_free
    (fun _ _ hSoFar hEdits => (step_edit hEdits hSoFar).countP_write) hFree hSteps

end Runs

end Device

/-- However often the memory is provisioned and changed from outside, an attempt reports exactly the
sectors in which a byte is not that of its image, and it writes only if there is one. -/
theorem provisioning_finds_drift (device : Device) (steps : List Device.Step)
    (hFree : device.memory.stuck = ∅) (hSteps : ∀ s ∈ steps, s.Edits) :
    (∀ earlier s later, steps = earlier ++ s :: later →
      let before := final Device.step device earlier
      let reached := before.step s
      Device.Tracks (Device.latest device.memory.cells earlier)
        (Device.latest device.memory.cells (earlier ++ [s])) s reached.1 reached.2.memory) ∧
    ((trace Device.step device steps).flatMap fun entry => entry.1.calls).countP
        Device.Call.isWrite =
      (trace Device.step device steps).countP fun entry => entry.1.reply.isUpdate := by
  refine ⟨?_, Device.countP_write_eq hFree hSteps⟩
  rintro earlier s later rfl before reached
  have hEarlier : ∀ t ∈ earlier, t.Edits := fun t hMem => hSteps t (by simp [hMem])
  have hThrough : ∀ t ∈ earlier ++ [s], t.Edits := by
    intro t hMem
    apply hSteps
    rw [List.append_cons]
    exact List.mem_append_left later hMem
  have hBefore : before.memory.stuck = ∅ := Device.final_free hFree hEarlier
  have hEdit : Device.Edit before.memory s reached.1 reached.2.memory :=
    Device.step_edit (hThrough s (by simp)) hBefore
  have hReached : reached.2 = final Device.step device (earlier ++ [s]) := by
    rw [final_append]
    rfl
  refine hEdit.tracks (Device.final_byte hFree hEarlier) ?_
  rw [hReached]
  exact Device.final_byte hFree hThrough

/-- A byte is changed and changed back, another one stays changed, and a sixth sector is asked for. -/
theorem provisioning_finds_drift_poked_back :
    let device := Device.ofSectors NvmImage.factory.sectors
    let pokes : List Device.Step := [.memory (.poke 3 2 0x50), .memory (.poke 4 1 0x4B),
      .memory (.poke 5 0 0x01), .memory (.poke 3 2 0x54)]
    let attempt : Device.Step := .memory (.provision .factory ∅)
    let steps := pokes ++ [attempt]
    device.memory.stuck = ∅ ∧ (∀ s ∈ steps, s.Edits) ∧
      ((final Device.step device pokes).step attempt).1.reply =
        .provisioned (.ok (.updated ⟨16⟩)) ∧
      (∀ i : SectorIndex, i ∈ SectorMask.mk 16 ↔ ∃ j,
        Device.latest device.memory.cells pokes i.toFin j ≠ (NvmImage.factory.sectorAt i).get j) ∧
      ((trace Device.step device steps).flatMap fun entry => entry.1.calls).countP
        Device.Call.isWrite = 1 := by
  intro device pokes attempt steps
  have hSteps : ∀ s ∈ steps, s.Edits := by
    have hAttempt : attempt.Edits := .provision .factory ∅ Memory.Faults.clean_empty
    simp only [steps, pokes, List.cons_append, List.nil_append, List.forall_mem_cons]
    exact ⟨.poke .., .poke .., .poke .., .poke .., hAttempt, by simp⟩
  have hReply : ((final Device.step device pokes).step attempt).1.reply =
      .provisioned (.ok (.updated ⟨16⟩)) := by
    simp only [device, pokes, attempt]
    rfl
  obtain ⟨hTracks, hWrites⟩ := provisioning_finds_drift device steps rfl hSteps
  have hLast := hTracks pokes attempt [] rfl
  have hMade : attempt.Provisions .factory := ⟨.factory, ∅, rfl⟩
  have hDiffers : ∃ i j, Device.latest device.memory.cells pokes i j ≠
      (NvmImage.factory.sectors.get i).get j := ⟨4, 1, by decide⟩
  obtain ⟨changed, hUpdated, _, hMem⟩ := hLast.updated .factory hMade hDiffers
  obtain rfl : SectorMask.mk 16 = changed := by
    have hSame := Device.Reply.provisioned.inj (hReply.symm.trans hUpdated)
    exact Outcome.updated.inj (Except.ok.inj hSame)
  refine ⟨rfl, hSteps, hReply, hMem, hWrites.trans ?_⟩
  simp only [device, steps, pokes, attempt]
  rfl

end PowerSink
