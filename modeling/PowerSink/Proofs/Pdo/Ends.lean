import PowerSink.Pdo.Override
import PowerSink.Proofs.Session.Exchange

/-!
# How an override ends

Each of the three calls of an override can fail, and then it is the last one. With the override that
succeeds there are four ways to end, for every controller, and only the first failure leaves a message.
-/

namespace PowerSink.FixedPdo

variable {ε σ : Type}

inductive Ends (channel : PdoChannel) (pdo : FixedPdo) :
    Except ε Unit → List (Exchange PdoCall.Answer ε) → List Message → Prop where
  | slotFailed (code : ε) :
    Ends channel pdo (.error code) [⟨.setPdo channel pdo, .error code⟩] [.overrideFailed channel]
  | countFailed (code : ε) :
    Ends channel pdo (.error code)
      [⟨.setPdo channel pdo, .ok ()⟩, ⟨.setCount channel.number, .error code⟩] []
  | renegotiateFailed (code : ε) :
    Ends channel pdo (.error code)
      [⟨.setPdo channel pdo, .ok ()⟩, ⟨.setCount channel.number, .ok ()⟩,
        ⟨.renegotiate, .error code⟩] []
  | applied :
    Ends channel pdo (.ok ())
      [⟨.setPdo channel pdo, .ok ()⟩, ⟨.setCount channel.number, .ok ()⟩, ⟨.renegotiate, .ok ()⟩]
      [.overridden channel pdo.millivolts pdo.milliamps]

theorem apply_ends (channel : PdoChannel) (pdo : FixedPdo)
    (handler : Session.Handler PdoCall.Answer ε σ) (state : σ) :
    let run := (pdo.apply channel).run handler state
    Ends channel pdo run.result run.exchanges run.messages := by
  simp only [apply, Session.run_call]
  cases (handler (.setPdo channel pdo) state).1 with
  | error code => exact .slotFailed code
  | ok written =>
    simp only [advertise, Session.run_call]
    generalize (handler (.setPdo channel pdo) state).2 = state
    cases (handler (.setCount channel.number) state).1 with
    | error code => exact .countFailed code
    | ok advertised =>
      simp only [announce, Session.run_call]
      generalize (handler (.setCount channel.number) state).2 = state
      cases (handler .renegotiate state).1 with
      | error code => exact .renegotiateFailed code
      | ok reset => exact .applied

end PowerSink.FixedPdo
