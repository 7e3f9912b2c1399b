import PowerSink.Nvm.Span
import PowerSink.Nvm.Mask.Step
import PowerSink.Pdo.Field.Bits
import PowerSink.Device.Step
import PowerSink.Demo
import PowerSink.Main
import PowerSink.Proofs.Nvm.Difference
import PowerSink.Proofs.Nvm.Ends
import PowerSink.Proofs.Device.Memory
import PowerSink.Proofs.Device.Report
import PowerSink.Proofs.Device.Calls
import PowerSink.Proofs.Device.Retry
import PowerSink.Proofs.Device.Undisturbed
import PowerSink.Proofs.Device.Settled
import PowerSink.Proofs.Device.Drift
import PowerSink.Proofs.Device.Registers
import PowerSink.Proofs.Device.Halves
import PowerSink.Proofs.Pdo.Field
import PowerSink.Proofs.Pdo.Updates
import PowerSink.Proofs.Nvm.Flat
import PowerSink.Proofs.Nvm.Index
import PowerSink.Proofs.Nvm.Lookup
import PowerSink.Proofs.Nvm.Span
import PowerSink.Proofs.Nvm.Mask.BitSet
import PowerSink.Proofs.Nvm.Mask.Run
import PowerSink.Proofs.Nvm.Overlay
import PowerSink.Proofs.Nvm.Log
import PowerSink.Proofs.Pdo.Units
import PowerSink.Proofs.Pdo.Power
import PowerSink.Proofs.Pdo.Content
import PowerSink.Proofs.Device.Override
import PowerSink.Proofs.Nvm.Sorting
import PowerSink.Proofs.Nvm.Unchecked.Trap
import PowerSink.Proofs.Nvm.Unchecked.Copying
import PowerSink.Proofs.Nvm.Unchecked.Address
import PowerSink.Proofs.Nvm.Unchecked.Access
