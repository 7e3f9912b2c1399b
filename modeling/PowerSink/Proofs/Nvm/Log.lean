import PowerSink.Proofs.Nvm.Ends
import PowerSink.Proofs.Nvm.Mask.BitSet

/-!
# The log of provisioning

A log names the sectors that the first read has found to differ, says whether the write has succeeded,
and closes with a line that gives away the result. The two failures to read have one text, and it takes
the line about the write to tell them apart: together they name the call that failed. What the log is
compared with are the calls that were made, the answers that the controller itself has given to them,
and the result that these answers decide.
-/

namespace PowerSink

theorem SectorMask.length_sectors_le (m : SectorMask) : m.sectors.length ≤ sectorCount :=
  List.length_filter_le _ SectorIndex.all

theorem SectorMask.Known.length_sectors_pos {m : SectorMask} (hKnown : m.Known) (hNonempty : m ≠ ∅) :
    0 < m.sectors.length := by
  rw [List.length_pos_iff]
  intro hNil
  apply hNonempty
  apply SectorMask.eq_of_known hKnown SectorMask.known_empty
  intro i
  rw [← SectorMask.mem_sectors, hNil]
  simp

namespace NvmImage

variable {ε σ : Type}

/-- Which call failed, told from the log alone: 0 is the first read, 1 the write, 2 the second read. -/
def failedCall? (log : List LogLine) : Option Nat :=
  if ⟨.error, "NVM read failed"⟩ ∈ log then
    if log.any fun line => line.level = .trace then some 2 else some 0
  else if ⟨.error, "NVM write failed"⟩ ∈ log then
    some 1
  else
    none

/-- The log is true of the run: `differing` are the sectors in which the first read was not the image,
and `last` is the line that closes the log. -/
structure LogTells (image : NvmImage) (result : Except (ProvisionError ε) Outcome)
    (exchanges : List (Exchange NvmCall.Answer ε)) (log : List LogLine)
    (differing : List SectorIndex) (last : LogLine) : Prop where
  calls_initial : exchanges.map Sigma.fst <+: [.read, .write image.sectors, .read]
  decided : image.Decides exchanges result
  parts : log =
    differing.map (fun i => ⟨.debug, "NVM sector " ++ toString i.toNat ++ " differs"⟩) ++
      (if .write image.sectors ∈ exchanges.filterMap Exchange.success? then
        [⟨.trace, "NVM written, verifying"⟩] else []) ++ [last]
  ascending : differing.Pairwise (· < ·)
  mem_differing : ∀ i, i ∈ differing ↔ ∃ found, exchanges.head? = some ⟨.read, .ok found⟩ ∧
    ∃ j, (found.get i.toFin).get j ≠ (image.sectorAt i).get j
  info_iff : last.level = .info ↔ result = .ok .unchanged
  warn_iff : last.level = .warn ↔ ∃ changed, result = .ok (.updated changed)
  error_iff : last.level = .error ↔ ∃ error, result = .error error
  unchanged : result = .ok .unchanged → differing = [] ∧ last.text = "NVM OK"
  updated : ∀ changed, result = .ok (.updated changed) →
    changed.sectors = differing ∧ changed.count = differing.length ∧
    last.text = "NVM updated, " ++ toString differing.length ++ " sector(s) rewritten"
  verify : ∀ remaining, result = .error (.verify remaining) →
    remaining.count = remaining.sectors.length ∧
    1 ≤ remaining.sectors.length ∧ remaining.sectors.length ≤ 5 ∧
    last.text = "NVM verify failed, " ++ toString remaining.sectors.length ++ " sector(s) differ"
  failed : failedCall? log = exchanges.findIdx? fun exchange => exchange.failure?.isSome

/-- The message with which a run with this result closes its log. -/
inductive Closes : Except (ProvisionError ε) Outcome → Message → Prop where
  | unchanged : Closes (.ok .unchanged) .unchanged
  | updated (changed : SectorMask) : Closes (.ok (.updated changed)) (.updated changed.count)
  | verifyFailed (remaining : SectorMask) :
    Closes (.error (.verify remaining)) (.verifyFailed remaining.count)
  | readFailed (code : ε) : Closes (.error (.bus code)) .readFailed
  | writeFailed (code : ε) : Closes (.error (.bus code)) .writeFailed

namespace Closes

variable {result : Except (ProvisionError ε) Outcome} {last : Message}

theorem info_iff (h : Closes result last) : last.level = .info ↔ result = .ok .unchanged := by
  cases h <;> simp [Message.level]

theorem warn_iff (h : Closes result last) :
    last.level = .warn ↔ ∃ changed, result = .ok (.updated changed) := by
  cases h <;> simp [Message.level]

theorem error_iff (h : Closes result last) : last.level = .error ↔ ∃ error, result = .error error := by
  cases h <;> simp [Message.level]

theorem text_unchanged (h : Closes result last) (hResult : result = .ok .unchanged) :
    last.text = "NVM OK" := by
  subst hResult
  cases h
  rfl

theorem text_updated (h : Closes result last) (changed : SectorMask)
    (hResult : result = .ok (.updated changed)) :
    last.text = "NVM updated, " ++ toString changed.count ++ " sector(s) rewritten" := by
  subst hResult
  cases h
  rfl

theorem text_verify (h : Closes result last) (remaining : SectorMask)
    (hResult : result = .error (.verify remaining)) :
    last.text = "NVM verify failed, " ++ toString remaining.count ++ " sector(s) differ" := by
  subst hResult
  cases h
  rfl

end Closes

/-- The sectors that the first read shows to differ; a read that fails shows none. -/
def differing (image : NvmImage) : List (Exchange NvmCall.Answer ε) → List SectorIndex
  | ⟨.read, .ok found⟩ :: _ => (image.diff found).sectors
  | _ => []

theorem mem_differing {image : NvmImage} {exchanges : List (Exchange NvmCall.Answer ε)}
    {i : SectorIndex} :
    i ∈ image.differing exchanges ↔ ∃ found, exchanges.head? = some ⟨.read, .ok found⟩ ∧
      ∃ j, (found.get i.toFin).get j ≠ (image.sectorAt i).get j := by
  match exchanges with
  | [] => simp [differing]
  | ⟨.read, .ok found⟩ :: rest =>
    rw [differing, SectorMask.mem_sectors, mem_diff_iff_byte]
    simp
  | ⟨.read, .error code⟩ :: rest => simp [differing]
  | ⟨.write sectors, answer⟩ :: rest => simp [differing]

/-- A read of the image itself shows none. -/
theorem differing_image (image : NvmImage) (rest : List (Exchange NvmCall.Answer ε)) :
    image.differing (⟨.read, .ok image.sectors⟩ :: rest) = [] := by
  rw [differing, diff_eq_empty_iff.mpr rfl]
  rfl

theorem pairwise_differing {image : NvmImage} {exchanges : List (Exchange NvmCall.Answer ε)} :
    (image.differing exchanges).Pairwise (· < ·) := by
  unfold differing
  split
  · exact SectorMask.pairwise_sectors _
  · exact .nil

section FailedCall

/-- Lines about sectors do not matter to which call failed. -/
theorem failedCall?_append (sectors : List SectorIndex) (rest : List Message) :
    failedCall? ((sectors.map Message.sectorDiffers ++ rest).map Message.line) =
      failedCall? (rest.map Message.line) := by
  have hError (text : String) :
      ⟨.error, text⟩ ∉ (sectors.map Message.sectorDiffers).map Message.line := by
    simp [Message.line, Message.level]
  have hTrace : ((sectors.map Message.sectorDiffers).map Message.line).any
      (fun line => decide (line.level = .trace)) = false := by
    simp [Message.line, Message.level]
  simp only [failedCall?, List.map_append, List.mem_append, List.any_append, hError, hTrace, false_or,
    Bool.false_or]

theorem verifyFailed_text_ne (n : Nat) {text : String} (hText : text.toList[4]? ≠ some 'v') :
    text ≠ "NVM verify failed, " ++ toString n ++ " sector(s) differ" := by
  intro hSame
  apply hText
  rw [hSame]
  simp

theorem failedCall?_verifyFailed (n : Nat) :
    failedCall? ([.written, .verifyFailed n].map Message.line) = none := by
  have hRead : "NVM read failed" ≠ (Message.verifyFailed n).text := verifyFailed_text_ne n (by simp)
  have hWrite : "NVM write failed" ≠ (Message.verifyFailed n).text := verifyFailed_text_ne n (by simp)
  simp [failedCall?, Message.line, Message.level, hRead, hWrite]

theorem failedCall?_updated (n : Nat) :
    failedCall? ([.written, .updated n].map Message.line) = none := by
  simp [failedCall?, Message.line, Message.level]

end FailedCall

namespace Ends

variable {image : NvmImage} {result : Except (ProvisionError ε) Outcome}
  {exchanges : List (Exchange NvmCall.Answer ε)} {messages : List Message}

theorem messages_parts (h : image.Ends result exchanges messages) :
    ∃ last, Closes result last ∧ messages =
      (image.differing exchanges).map .sectorDiffers ++
        (if .write image.sectors ∈ exchanges.filterMap Exchange.success? then [.written] else []) ++
          [last] := by
  cases h with
  | readFailed code => exact ⟨.readFailed, .readFailed code, rfl⟩
  | unchanged =>
    refine ⟨.unchanged, .unchanged, ?_⟩
    rw [differing_image]
    simp [Exchange.success?]
  | writeFailed found code differs =>
    exact ⟨.writeFailed, .writeFailed code, by simp [differing, Exchange.success?]⟩
  | readBackFailed found code differs =>
    exact ⟨.readFailed, .readFailed code, by simp [differing, Exchange.success?]⟩
  | verifyFailed found back differs remains =>
    exact ⟨_, .verifyFailed _, by simp [differing, Exchange.success?]⟩
  | updated found differs =>
    exact ⟨_, .updated _, by simp [differing, Exchange.success?]⟩

theorem differing_unchanged (h : image.Ends result exchanges messages)
    (hResult : result = .ok .unchanged) : image.differing exchanges = [] := by
  obtain ⟨rest, rfl⟩ := List.head?_eq_some_iff.mp (h.unchanged_iff.mp hResult)
  exact image.differing_image rest

theorem updated_count (h : image.Ends result exchanges messages) {changed : SectorMask}
    (hResult : result = .ok (.updated changed)) :
    changed.count = changed.sectors.length ∧ changed.sectors = image.differing exchanges := by
  obtain ⟨found, hExchanges, hLocates⟩ := (h.updated_iff changed).mp hResult
  obtain ⟨_, rfl⟩ := locates_iff.mp hLocates
  rw [hExchanges]
  exact ⟨hLocates.known.count_eq, rfl⟩

theorem verify_count (h : image.Ends result exchanges messages) {remaining : SectorMask}
    (hResult : result = .error (.verify remaining)) :
    remaining.count = remaining.sectors.length ∧ 1 ≤ remaining.sectors.length := by
  obtain ⟨_, _, _, _, hLocates⟩ := (h.verify_iff remaining).mp hResult
  exact ⟨hLocates.known.count_eq, hLocates.known.length_sectors_pos hLocates.nonempty⟩

theorem failedCall?_eq (h : image.Ends result exchanges messages) :
    failedCall? (messages.map Message.line) =
      exchanges.findIdx? fun exchange => exchange.failure?.isSome := by
  cases h with
  | readFailed code => rfl
  | unchanged => rfl
  | writeFailed found code differs =>
    rw [failedCall?_append]
    rfl
  | readBackFailed found code differs =>
    rw [failedCall?_append]
    rfl
  | verifyFailed found back differs remains =>
    rw [failedCall?_append, failedCall?_verifyFailed]
    rfl
  | updated found differs =>
    rw [failedCall?_append, failedCall?_updated]
    rfl

end Ends

end NvmImage

/-- Whatever a controller answers, the run starts with a read and its exchanges are the answers of this
controller. The log is true of them: it names the sectors that the first read
has found to differ, it says whether the write has succeeded, and its closing line fits the result and
counts the sectors of the mask. Alone it tells which call failed. -/
theorem log_tells_what_happened {ε σ : Type} (image : NvmImage)
    (handler : Session.Handler NvmCall.Answer ε σ) (state : σ) :
    let run := image.provision.run handler state
    run.exchanges.head? = some ⟨.read, (handler .read state).1⟩ ∧
    Session.Serves handler state run.exchanges run.state ∧
    ∃ differing last,
      image.LogTells run.result run.exchanges (run.messages.map Message.line) differing last := by
  intro run
  have hEnds : image.Ends run.result run.exchanges run.messages := image.provision_ends handler state
  obtain ⟨last, hCloses, hMessages⟩ := hEnds.messages_parts
  refine ⟨Session.head?_exchanges_call handler .read _ state, Session.run_serves handler _ state,
    image.differing run.exchanges, last.line, ?_⟩
  exact {
    calls_initial := hEnds.calls_initial
    decided := hEnds.decides
    parts := by
      rw [hMessages, List.map_append, List.map_append, List.map_map,
        apply_ite (List.map Message.line)]
      rfl
    ascending := NvmImage.pairwise_differing
    mem_differing := fun _ => NvmImage.mem_differing
    info_iff := hCloses.info_iff
    warn_iff := hCloses.warn_iff
    error_iff := hCloses.error_iff
    unchanged := fun hResult =>
      ⟨hEnds.differing_unchanged hResult, hCloses.text_unchanged hResult⟩
    updated := by
      intro changed hResult
      obtain ⟨hCount, hSectors⟩ := hEnds.updated_count hResult
      rw [← hSectors, ← hCount]
      exact ⟨rfl, rfl, hCloses.text_updated changed hResult⟩
    verify := by
      intro remaining hResult
      obtain ⟨hCount, hPos⟩ := hEnds.verify_count hResult
      have hText := hCloses.text_verify remaining hResult
      rw [hCount] at hText
      exact ⟨hCount, hPos, remaining.length_sectors_le, hText⟩
    failed := hEnds.failedCall?_eq }

end PowerSink
