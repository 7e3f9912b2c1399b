import PowerSink.Trace

/-!
# Whole traces

Every position of a trace is one step from the state that the inputs before it have left. A view of
the state that steps respect is respected by whole runs. Counts are taken over all that the steps emit,
so a bound for one step becomes a bound for the run. What the latest input has set is found by a search
from the end of the run.
-/

namespace PowerSink

variable {σ ι ρ γ α : Type} {step : σ → ι → ρ × σ}

/-- Each input of a run meets the state that the inputs before it have left. -/
theorem mem_zip_trace {state : σ} {inputs : List ι} {entry : ι × ρ × σ}
    (hEntry : entry ∈ inputs.zip (trace step state inputs)) :
    ∃ earlier later, inputs = earlier ++ entry.1 :: later ∧
      entry.2 = step (final step state earlier) entry.1 := by
  induction inputs generalizing state with
  | nil => cases hEntry
  | cons input rest ih =>
    rw [trace, List.zip_cons_cons] at hEntry
    rcases List.mem_cons.mp hEntry with rfl | hEntry
    · exact ⟨[], rest, rfl, rfl⟩
    · obtain ⟨earlier, later, hInputs, hStep⟩ := ih hEntry
      exact ⟨input :: earlier, later, congrArg (input :: ·) hInputs, hStep⟩

section Views

variable {τ χ : Type} {viewed : τ → ι → χ × τ} {answer : ρ → χ} {view : σ → τ}

theorem final_view
    (hStep : ∀ state input,
      viewed (view state) input = (answer (step state input).1, view (step state input).2))
    (state : σ) (inputs : List ι) :
    final viewed (view state) inputs = view (final step state inputs) := by
  induction inputs generalizing state with
  | nil => rfl
  | cons input rest ih => rw [final_cons, final_cons, hStep, ih]

/-- If a view turns each step into one on what is viewed, it turns each run into a run. -/
theorem trace_view
    (hStep : ∀ state input,
      viewed (view state) input = (answer (step state input).1, view (step state input).2))
    (state : σ) (inputs : List ι) :
    trace viewed (view state) inputs =
      (trace step state inputs).map fun entry => (answer entry.1, view entry.2) := by
  induction inputs generalizing state with
  | nil => rfl
  | cons input rest ih => rw [trace, trace, List.map_cons, hStep, ih]

end Views

/-- Once every input of a run leaves the state as it is, and with one reply, the run stands still. -/
theorem trace_eq_replicate {state : σ} {inputs : List ι} {entry : ρ × σ}
    (hState : entry.2 = state) (hStep : ∀ input ∈ inputs, step state input = entry) :
    trace step state inputs = List.replicate inputs.length entry := by
  induction inputs with
  | nil => rfl
  | cons input rest ih =>
    have hHere : step state input = entry := hStep input List.mem_cons_self
    have hLater := ih fun later hMem => hStep later (List.mem_cons_of_mem input hMem)
    rw [trace, hHere, hState, hLater, List.length_cons, List.replicate_succ]

theorem countP_trace_le {emitted : ρ → List γ} {counted : γ → Bool} {allowed : ι → Bool}
    (hStep : ∀ state input,
      (emitted (step state input).1).countP counted ≤ if allowed input then 1 else 0)
    (state : σ) (inputs : List ι) :
    ((trace step state inputs).flatMap fun entry => emitted entry.1).countP counted ≤
      inputs.countP allowed := by
  induction inputs generalizing state with
  | nil => exact Nat.le_refl 0
  | cons input rest ih =>
    rw [trace, List.flatMap_cons, List.countP_append, List.countP_cons]
    have hHere := hStep state input
    have hLater := ih (step state input).2
    omega

/-- A counter that a step raises by one or leaves counts these steps. -/
theorem counter_final (counter : σ → Nat) (noted : ρ → Bool)
    (hStep : ∀ state input,
      counter (step state input).2 = counter state + if noted (step state input).1 then 1 else 0)
    (state : σ) (inputs : List ι) :
    counter (final step state inputs) =
      counter state + (trace step state inputs).countP fun entry => noted entry.1 := by
  induction inputs generalizing state with
  | nil => rfl
  | cons input rest ih =>
    have hHere := hStep state input
    have hLater := ih (step state input).2
    rw [final_cons, trace, List.countP_cons]
    omega

/-- The value of the latest input that has one. -/
def latest? (value? : ι → Option α) (inputs : List ι) : Option α := inputs.reverse.findSome? value?

theorem latest?_append (value? : ι → Option α) (first second : List ι) :
    latest? value? (first ++ second) = (latest? value? second).or (latest? value? first) := by
  rw [latest?, List.reverse_append, List.findSome?_append]
  rfl

theorem latest?_cons (value? : ι → Option α) (input : ι) (rest : List ι) :
    latest? value? (input :: rest) = (latest? value? rest).or (value? input) := by
  have hSingle : latest? value? [input] = value? input := by simp [latest?]
  rw [← List.singleton_append, latest?_append, hSingle]

theorem latest?_eq_some {value? : ι → Option α} {inputs : List ι} {v : α}
    (hMem : ∃ input ∈ inputs, value? input = some v)
    (hOnly : ∀ input ∈ inputs, ∀ w, value? input = some w → w = v) :
    latest? value? inputs = some v := by
  cases hLatest : latest? value? inputs with
  | none =>
    obtain ⟨input, hInput, hValue⟩ := hMem
    have hNone := List.findSome?_eq_none_iff.mp hLatest input (List.mem_reverse.mpr hInput)
    cases hNone.symm.trans hValue
  | some w =>
    obtain ⟨input, hInput, hValue⟩ := List.exists_of_findSome?_eq_some hLatest
    rw [hOnly input (List.mem_reverse.mp hInput) w hValue]

theorem latest?_map {β : Type} (f : α → β) (value? : ι → Option α) (inputs : List ι) :
    latest? (fun input => (value? input).map f) inputs = (latest? value? inputs).map f := by
  rw [latest?, latest?, List.map_findSome?]
  rfl

section Kept

variable {Holds : σ → Prop} {Allowed : ι → Prop} {state : σ} {inputs : List ι}

/-- If each step sets what is viewed or leaves it, the view of the end is that of the latest step
that has set it. -/
theorem view_final (view : σ → α) (value? : ι → Option α)
    (keeps : ∀ s i, Holds s → Allowed i → Holds (step s i).2)
    (hStep : ∀ s i, Holds s → Allowed i → view (step s i).2 = (value? i).getD (view s))
    (start : Holds state) (hInputs : ∀ i ∈ inputs, Allowed i) :
    view (final step state inputs) = (latest? value? inputs).getD (view state) := by
  induction inputs generalizing state with
  | nil => rfl
  | cons input rest ih =>
    obtain ⟨hInput, hRest⟩ := List.forall_mem_cons.mp hInputs
    have hHere := hStep state input start hInput
    have hLater := ih (keeps state input start hInput) hRest
    rw [final_cons, hLater, hHere, latest?_cons]
    cases latest? value? rest <;> rfl

theorem countP_trace_eq {emitted : ρ → List γ} {counted : γ → Bool} (noted : ρ → Bool)
    (keeps : ∀ s i, Holds s → Allowed i → Holds (step s i).2)
    (hStep : ∀ s i, Holds s → Allowed i →
      (emitted (step s i).1).countP counted = if noted (step s i).1 then 1 else 0)
    (start : Holds state) (hInputs : ∀ i ∈ inputs, Allowed i) :
    ((trace step state inputs).flatMap fun entry => emitted entry.1).countP counted =
      (trace step state inputs).countP fun entry => noted entry.1 := by
  induction inputs generalizing state with
  | nil => rfl
  | cons input rest ih =>
    obtain ⟨hInput, hRest⟩ := List.forall_mem_cons.mp hInputs
    have hHere := hStep state input start hInput
    have hLater := ih (keeps state input start hInput) hRest
    rw [trace, List.flatMap_cons, List.countP_append, List.countP_cons]
    omega

end Kept

end PowerSink
