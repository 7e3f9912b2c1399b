import PowerSink.Log

/-!
# Sessions with a controller

A session is a procedure that talks to a controller and logs what it does. It is a tree: at each
call it names how to go on for every answer the controller could give, failures included. Nothing
is assumed of the controller, so a statement about a session holds for all of them.

Running a session against a controller gives its result, the transcript of all calls and messages
in order, and the state in which the controller is left.
-/

namespace PowerSink

/-- Calls are of type `Call`, `Answer call` is what a call returns when it succeeds, and `ε` is
what a failing call returns. -/
inductive Session {Call : Type} (Answer : Call → Type) (ε α : Type) where
  | done (result : α)
  | log (message : Message) (rest : Session Answer ε α)
  | call (request : Call) (next : Except ε (Answer request) → Session Answer ε α)

/-- One entry of a transcript. -/
inductive Entry {Call : Type} (Answer : Call → Type) (ε : Type) where
  | called (request : Call) (answer : Except ε (Answer request))
  | logged (message : Message)

namespace Entry

variable {Call : Type} {Answer : Call → Type} {ε : Type}

def call? : Entry Answer ε → Option Call
  | called request _ => some request
  | logged _ => none

def message? : Entry Answer ε → Option Message
  | called _ _ => none
  | logged message => some message

def failure? : Entry Answer ε → Option ε
  | called _ (.error code) => some code
  | called _ (.ok _) => none
  | logged _ => none

end Entry

namespace Session

variable {Call : Type} {Answer : Call → Type} {ε α σ : Type}

def logAll (messages : List Message) (rest : Session Answer ε α) : Session Answer ε α :=
  messages.foldr log rest

/-- How a controller with states in `σ` answers a call. -/
abbrev Handler (Answer : Call → Type) (ε σ : Type) :=
  (request : Call) → σ → Except ε (Answer request) × σ

end Session

structure Run {Call : Type} (Answer : Call → Type) (ε α σ : Type) where
  result : α
  transcript : List (Entry Answer ε)
  state : σ

namespace Run

variable {Call : Type} {Answer : Call → Type} {ε α σ : Type}

def after (entry : Entry Answer ε) (run : Run Answer ε α σ) : Run Answer ε α σ :=
  { run with transcript := entry :: run.transcript }

def calls (run : Run Answer ε α σ) : List Call := run.transcript.filterMap Entry.call?

def messages (run : Run Answer ε α σ) : List Message := run.transcript.filterMap Entry.message?

/-- What the failing calls returned, in order. -/
def failures (run : Run Answer ε α σ) : List ε := run.transcript.filterMap Entry.failure?

end Run

def Session.run {Call : Type} {Answer : Call → Type} {ε α σ : Type}
    (handler : Session.Handler Answer ε σ) : Session Answer ε α → σ → Run Answer ε α σ
  | .done result, state => ⟨result, [], state⟩
  | .log message rest, state => (run handler rest state).after (.logged message)
  | .call request next, state =>
    let (answer, reached) := handler request state
    (run handler (next answer) reached).after (.called request answer)

/-- Messages logged in a row come first in the transcript and change nothing else. -/
theorem Session.run_logAll {Call : Type} {Answer : Call → Type} {ε α σ : Type}
    (handler : Session.Handler Answer ε σ) (messages : List Message)
    (rest : Session Answer ε α) (state : σ) :
    (logAll messages rest).run handler state =
      messages.foldr (fun message run => run.after (.logged message)) (rest.run handler state) := by
  induction messages with
  | nil => rfl
  | cons message messages ih =>
    change ((logAll messages rest).run handler state).after (.logged message) = _
    rw [ih, List.foldr_cons]

end PowerSink
