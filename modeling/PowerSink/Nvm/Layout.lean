/-!
# Memory layout

The controller keeps its power-up configuration in five sectors of eight bytes. The bytes are
opaque here: no rule of this library depends on what a register means.
-/

namespace PowerSink

abbrev sectorSize : Nat := 8

abbrev sectorCount : Nat := 5

abbrev imageSize : Nat := sectorCount * sectorSize

abbrev Sector := Vector UInt8 sectorSize

/-- All sectors in address order. -/
abbrev Sectors := Vector Sector sectorCount

end PowerSink
