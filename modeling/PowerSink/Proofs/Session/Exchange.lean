import PowerSink.Session

/-!
# Calls with their answers

An exchange is a call of a run with the answer it received. The exchanges of a run fix its calls
and its failures, and `Serves` says that they are the answers of the controller itself, each given
in the state that the calls before it have left. No statement here looks at a message.
-/

namespace PowerSink

variable {Call : Type} {Answer : Call → Type} {ε α σ : Type}

abbrev Exchange (Answer : Call → Type) (ε : Type) : Type :=
  Σ request : Call, Except ε (Answer request)

namespace Exchange

def failure? : Exchange Answer ε → Option ε
  | ⟨_, .error code⟩ => some code
  | ⟨_, .ok _⟩ => none

def success? : Exchange Answer ε → Option Call
  | ⟨request, .ok _⟩ => some request
  | ⟨_, .error _⟩ => none

end Exchange

def Entry.exchange? : Entry Answer ε → Option (Exchange Answer ε)
  | called request answer => some ⟨request, answer⟩
  | logged _ => none

namespace Run

def exchanges (run : Run Answer ε α σ) : List (Exchange Answer ε) :=
  run.transcript.filterMap Entry.exchange?

/-- The calls that did not fail, in order. -/
def succeeded (run : Run Answer ε α σ) : List Call := run.exchanges.filterMap Exchange.success?

theorem calls_eq_map (run : Run Answer ε α σ) : run.calls = run.exchanges.map Sigma.fst := by
  rw [calls, exchanges, List.map_filterMap]
  congr 1
  funext entry
  cases entry <;> rfl

theorem failures_eq_filterMap (run : Run Answer ε α σ) :
    run.failures = run.exchanges.filterMap Exchange.failure? := by
  rw [failures, exchanges, List.filterMap_filterMap]
  congr 1
  funext entry
  cases entry with
  | called request answer => cases answer <;> rfl
  | logged message => rfl

end Run

namespace Session

theorem run_call (handler : Handler Answer ε σ) (request : Call)
    (next : Except ε (Answer request) → Session Answer ε α) (state : σ) :
    (call request next).run handler state =
      ((next (handler request state).1).run handler (handler request state).2).after
        (.called request (handler request state).1) := rfl

/-- A session that starts with a call makes it, and what the controller answers there comes first. -/
theorem head?_exchanges_call (handler : Handler Answer ε σ) (request : Call)
    (next : Except ε (Answer request) → Session Answer ε α) (state : σ) :
    ((call request next).run handler state).exchanges.head? =
      some ⟨request, (handler request state).1⟩ := rfl

/-- From the first state to the last, the controller gives exactly these answers in turn. -/
def Serves (handler : Handler Answer ε σ) : σ → List (Exchange Answer ε) → σ → Prop
  | state, [], reached => reached = state
  | state, ⟨request, answer⟩ :: rest, reached =>
    (handler request state).1 = answer ∧ Serves handler (handler request state).2 rest reached

theorem run_serves (handler : Handler Answer ε σ) (session : Session Answer ε α) (state : σ) :
    Serves handler state (session.run handler state).exchanges (session.run handler state).state := by
  induction session generalizing state with
  | done result => rfl
  | log message rest ih => exact ih state
  | call request next ih => exact ⟨rfl, ih _ _⟩

section LogAll

variable (handler : Handler Answer ε σ) (messages : List Message) (rest : Session Answer ε α) (state : σ)

@[simp] theorem result_logAll :
    ((logAll messages rest).run handler state).result = (rest.run handler state).result := by
  rw [run_logAll]
  induction messages with
  | nil => rfl
  | cons message messages ih => exact ih

@[simp] theorem exchanges_logAll :
    ((logAll messages rest).run handler state).exchanges = (rest.run handler state).exchanges := by
  rw [run_logAll]
  induction messages with
  | nil => rfl
  | cons message messages ih => exact ih

@[simp] theorem messages_logAll :
    ((logAll messages rest).run handler state).messages =
      messages ++ (rest.run handler state).messages := by
  rw [run_logAll]
  induction messages with
  | nil => rfl
  | cons message messages ih => exact congrArg (message :: ·) ih

end LogAll

end Session

end PowerSink
