import PowerSink.Nvm.Image
import PowerSink.Session

/-!
# Provisioning

Provisioning makes sure that a controller contains an image. The memory is read first and written
only if a sector differs, because it wears out. A write always carries the whole image and is
followed by one more read, which decides whether it succeeded. A failing call ends the session at
once and nothing is tried again.
-/

namespace PowerSink

inductive NvmCall where
  | read
  | write (sectors : Sectors)
  deriving DecidableEq

/-- Reading returns all sectors and writing returns nothing. -/
abbrev NvmCall.Answer : NvmCall → Type
  | read => Sectors
  | write _ => Unit

inductive Outcome where
  | unchanged
  | updated (sectors : SectorMask)
  deriving DecidableEq

namespace Outcome

def isUpdated : Outcome → Bool
  | unchanged => false
  | updated _ => true

def text : Outcome → String
  | unchanged => "Unchanged"
  | updated sectors => "Updated(" ++ sectors.text ++ ")"

end Outcome

inductive ProvisionError (ε : Type) where
  | bus (code : ε)
  | verify (sectors : SectorMask)
  deriving DecidableEq

namespace ProvisionError

variable {ε : Type}

def kind : ProvisionError ε → String
  | bus _ => "Bus"
  | verify _ => "Verify"

def text (code : ε → String) : ProvisionError ε → String
  | bus c => "Bus(" ++ code c ++ ")"
  | verify sectors => "Verify(" ++ sectors.text ++ ")"

end ProvisionError

namespace NvmImage

abbrev Provisioning (ε : Type) := Session NvmCall.Answer ε (Except (ProvisionError ε) Outcome)

variable {ε : Type}

/-- Reads the memory back after a write that was due because the sectors `changed` differed. -/
def verify (image : NvmImage) (changed : SectorMask) : Provisioning ε :=
  .call .read fun
    | .error code => .log .readFailed (.done (.error (.bus code)))
    | .ok found =>
      let remaining := image.diff found
      if remaining.isEmpty then
        .log (.updated changed.count) (.done (.ok (.updated changed)))
      else
        .log (.verifyFailed remaining.count) (.done (.error (.verify remaining)))

def reprogram (image : NvmImage) (changed : SectorMask) : Provisioning ε :=
  .logAll (changed.sectors.map .sectorDiffers) <|
    .call (.write image.sectors) fun
      | .error code => .log .writeFailed (.done (.error (.bus code)))
      | .ok _ => .log .written (image.verify changed)

def provision (image : NvmImage) : Provisioning ε :=
  .call .read fun
    | .error code => .log .readFailed (.done (.error (.bus code)))
    | .ok found =>
      let changed := image.diff found
      if changed.isEmpty then
        .log .unchanged (.done (.ok .unchanged))
      else
        image.reprogram changed

end NvmImage

end PowerSink
