/-!
# Runs of a step function

A step takes a state and an input to a reply and the next state. A trace keeps every reply
together with the state that it left, and the final state is the last of these.
-/

namespace PowerSink

variable {σ ι ρ : Type}

def trace (step : σ → ι → ρ × σ) : σ → List ι → List (ρ × σ)
  | _, [] => []
  | state, input :: rest =>
    let reached := step state input
    reached :: trace step reached.2 rest

def final (step : σ → ι → ρ × σ) (state : σ) (inputs : List ι) : σ :=
  inputs.foldl (fun s i => (step s i).2) state

@[simp] theorem final_cons (step : σ → ι → ρ × σ) (state : σ) (input : ι) (rest : List ι) :
    final step state (input :: rest) = final step (step state input).2 rest := rfl

theorem final_append (step : σ → ι → ρ × σ) (state : σ) (first second : List ι) :
    final step state (first ++ second) = final step (final step state first) second := by
  simp [final]

/-- What holds at the start and survives each step holds at the end. -/
theorem final_induction {step : σ → ι → ρ × σ} {Holds : σ → Prop} {state : σ} {inputs : List ι}
    (start : Holds state) (keeps : ∀ s, ∀ i ∈ inputs, Holds s → Holds (step s i).2) :
    Holds (final step state inputs) := by
  induction inputs generalizing state with
  | nil => exact start
  | cons input rest ih =>
    exact ih (keeps state input (by simp) start)
      (fun s i hi => keeps s i (List.mem_cons_of_mem input hi))

end PowerSink
