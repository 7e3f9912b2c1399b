import PowerSink.Trace

/-!
# Interleaved runs

Part of a state is confined to some of the inputs if no other input changes it, and if it alone decides
what these inputs reply and what they make of it. The other inputs can then be left out of a run
without a difference to the replies, to this part of the state, or to any state in between.
-/

namespace PowerSink

variable {σ ι ρ ν : Type}

/-- The selected inputs and the viewed part of the state have to do with nothing but each other. -/
structure Confined (step : σ → ι → ρ × σ) (selected : ι → Bool) (view : σ → ν) : Prop where
  unselected : ∀ state input, selected input = false → view (step state input).2 = view state
  reply_eq : ∀ s t input, selected input = true → view s = view t →
    (step s input).1 = (step t input).1
  view_eq : ∀ s t input, selected input = true → view s = view t →
    view (step s input).2 = view (step t input).2

/-- The replies to the selected inputs of a run, each with what is viewed after it. -/
def observed (step : σ → ι → ρ × σ) (selected : ι → Bool) (view : σ → ν) (state : σ)
    (inputs : List ι) : List (ρ × ν) :=
  ((inputs.zip (trace step state inputs)).filter fun entry => selected entry.1).map
    fun entry => (entry.2.1, view entry.2.2)

section Observed

variable {step : σ → ι → ρ × σ} {selected : ι → Bool} {view : σ → ν}

theorem observed_cons_of_selected {input : ι} (hInput : selected input = true) (state : σ)
    (rest : List ι) :
    observed step selected view state (input :: rest) =
      ((step state input).1, view (step state input).2) ::
        observed step selected view (step state input).2 rest := by
  simp only [observed, trace, List.zip_cons_cons, List.filter_cons, hInput, if_true, List.map_cons]

theorem observed_cons_of_not_selected {input : ι} (hInput : selected input = false) (state : σ)
    (rest : List ι) :
    observed step selected view state (input :: rest) =
      observed step selected view (step state input).2 rest := by
  simp only [observed, trace, List.zip_cons_cons, List.filter_cons, hInput, Bool.false_eq_true,
    if_false]

namespace Confined

theorem observed_eq (h : Confined step selected view) {s t : σ} (hView : view s = view t)
    (inputs : List ι) :
    observed step selected view s inputs =
      (trace step t (inputs.filter selected)).map fun entry => (entry.1, view entry.2) := by
  -- Two runs side by side, over all inputs from s and over the selected ones from t, that agree on
  -- the view. An input that is not selected is a step of the first run only.
  induction inputs generalizing s t with
  | nil => rfl
  | cons input rest ih =>
    cases hInput : selected input with
    | false =>
      have hStill : view (step s input).2 = view t := (h.unselected s input hInput).trans hView
      rw [observed_cons_of_not_selected hInput, List.filter_cons_of_neg (by simp [hInput])]
      exact ih hStill
    | true =>
      have hReply := h.reply_eq s t input hInput hView
      have hReached := h.view_eq s t input hInput hView
      rw [observed_cons_of_selected hInput, List.filter_cons_of_pos hInput, trace, List.map_cons,
        ih hReached, hReply, hReached]

theorem view_final_filter (h : Confined step selected view) {s t : σ} (hView : view s = view t)
    (inputs : List ι) :
    view (final step s inputs) = view (final step t (inputs.filter selected)) := by
  induction inputs generalizing s t with
  | nil => exact hView
  | cons input rest ih =>
    cases hInput : selected input with
    | false =>
      have hStill : view (step s input).2 = view t := (h.unselected s input hInput).trans hView
      rw [List.filter_cons_of_neg (by simp [hInput])]
      exact ih hStill
    | true =>
      rw [List.filter_cons_of_pos hInput]
      exact ih (h.view_eq s t input hInput hView)

theorem observed_congr (h : Confined step selected view) (state : σ) {first second : List ι}
    (hSame : first.filter selected = second.filter selected) :
    observed step selected view state first = observed step selected view state second := by
  rw [h.observed_eq rfl first, h.observed_eq rfl second, hSame]

theorem view_final_congr (h : Confined step selected view) (state : σ) {first second : List ι}
    (hSame : first.filter selected = second.filter selected) :
    view (final step state first) = view (final step state second) := by
  rw [h.view_final_filter rfl first, h.view_final_filter rfl second, hSame]

end Confined

end Observed

end PowerSink
