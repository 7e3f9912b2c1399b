import PowerSink.Proofs.Session.Exchange

/-!
# The controller's side of a run

A session sees nothing of a controller but its answers. Controllers whose related states answer alike
therefore give the same run. The visits of a run pair each of its calls with the state in which the
controller is when it receives the call.
-/

namespace PowerSink

variable {Call : Type} {Answer : Call → Type} {ε α σ τ : Type}

namespace Session

/-- Related states give equal answers, and what they become is related again. -/
def Matches (left : Handler Answer ε σ) (right : Handler Answer ε τ) (Related : σ → τ → Prop) : Prop :=
  ∀ request s t, Related s t →
    (left request s).1 = (right request t).1 ∧ Related (left request s).2 (right request t).2

theorem Matches.run {left : Handler Answer ε σ} {right : Handler Answer ε τ}
    {Related : σ → τ → Prop} (hMatches : Matches left right Related) (session : Session Answer ε α)
    {s : σ} {t : τ} (hRelated : Related s t) :
    (session.run left s).result = (session.run right t).result ∧
    (session.run left s).transcript = (session.run right t).transcript ∧
    Related (session.run left s).state (session.run right t).state := by
  induction session generalizing s t with
  | done result => exact ⟨rfl, rfl, hRelated⟩
  | log message rest ih =>
    obtain ⟨hResult, hTranscript, hState⟩ := ih hRelated
    have hLogged := congrArg (List.cons (Entry.logged message)) hTranscript
    exact ⟨hResult, hLogged, hState⟩
  | call request next ih =>
    obtain ⟨hAnswer, hReached⟩ := hMatches request s t hRelated
    obtain ⟨hResult, hTranscript, hState⟩ := ih (right request t).1 hReached
    rw [run_call, run_call, hAnswer]
    have hCalled := congrArg (List.cons (Entry.called request (right request t).1)) hTranscript
    exact ⟨hResult, hCalled, hState⟩

/-- Each call of a run with the state of the controller that receives it. -/
def visits (handler : Handler Answer ε σ) : Session Answer ε α → σ → List (Call × σ)
  | .done _, _ => []
  | .log _ rest, state => visits handler rest state
  | .call request next, state =>
    (request, state) :: visits handler (next (handler request state).1) (handler request state).2

theorem map_fst_visits (handler : Handler Answer ε σ) (session : Session Answer ε α) (state : σ) :
    (session.visits handler state).map Prod.fst = (session.run handler state).calls := by
  induction session generalizing state with
  | done result => rfl
  | log message rest ih => exact ih state
  | call request next ih => exact congrArg (request :: ·) (ih _ _)

end Session

end PowerSink
