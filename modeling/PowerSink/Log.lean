import PowerSink.Nvm.Index
import PowerSink.Pdo.Channel

/-!
# Log messages

Every message that a procedure can log is a value, and its level and its text are read off it.
-/

namespace PowerSink

inductive LogLevel where
  | error
  | warn
  | info
  | debug
  | trace
  deriving DecidableEq

def LogLevel.label : LogLevel → String
  | error => "ERROR"
  | warn => "WARN"
  | info => "INFO"
  | debug => "DEBUG"
  | trace => "TRACE"

/-- A message as it is shown. -/
structure LogLine where
  level : LogLevel
  text : String
  deriving DecidableEq

inductive Message where
  | unchanged
  | sectorDiffers (sector : SectorIndex)
  | written
  | readFailed
  | writeFailed
  | verifyFailed (count : Nat)
  | updated (count : Nat)
  | overrideFailed (channel : PdoChannel)
  | overridden (channel : PdoChannel) (millivolts milliamps : UInt32)
  deriving DecidableEq

namespace Message

def level : Message → LogLevel
  | unchanged => .info
  | sectorDiffers _ => .debug
  | written => .trace
  | readFailed => .error
  | writeFailed => .error
  | verifyFailed _ => .error
  | updated _ => .warn
  | overrideFailed _ => .error
  | overridden .. => .info

def text : Message → String
  | unchanged => "NVM OK"
  | sectorDiffers sector => "NVM sector " ++ toString sector.toNat ++ " differs"
  | written => "NVM written, verifying"
  | readFailed => "NVM read failed"
  | writeFailed => "NVM write failed"
  | verifyFailed count => "NVM verify failed, " ++ toString count ++ " sector(s) differ"
  | updated count => "NVM updated, " ++ toString count ++ " sector(s) rewritten"
  | overrideFailed channel => "Failed to set PDO" ++ toString channel.number.toNat
  | overridden channel millivolts milliamps =>
    "PDO" ++ toString channel.number.toNat ++ " set to " ++ toString millivolts.toNat ++ " mV, " ++
      toString milliamps.toNat ++ " mA"

def line (message : Message) : LogLine := ⟨message.level, message.text⟩

end Message

end PowerSink
