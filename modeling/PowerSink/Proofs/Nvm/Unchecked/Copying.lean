import PowerSink.Proofs.Nvm.Flat
import PowerSink.Proofs.Nvm.Unchecked.Trap

/-!
# Copying bytes without a check

The flat form of an image can be written by a loop that counts a position up and looks its byte up in the
sectors, and an image can be read by copying pieces of a buffer. The loop keeps a note of each byte that
it writes. It ends after one pass for each position, its accesses are in range in every pass, and it
leaves the flat form. The pieces of a buffer that has the size of an image are sectors.
-/

namespace PowerSink.Unchecked

/-- What the loop works on, with the positions that it has written so far. -/
structure Copying where
  position : Nat
  bytes : Vector UInt8 imageSize
  written : List Nat

namespace Copying

def start : Copying := ⟨0, Vector.replicate imageSize 0, []⟩

def write (c : Copying) (n : Nat) (byte : UInt8) : Except Trap Copying := do
  return { c with bytes := ← set c.bytes n byte, written := c.written ++ [n] }

def pass (image : NvmImage) (c : Copying) : Except Trap Copying := do
  let row ← get image.sectors (c.position / sectorSize)
  let byte ← get row (c.position % sectorSize)
  let next ← c.write c.position byte
  return { next with position := ← increment c.position }

theorem position_of_pass {image : NvmImage} {c next : Copying} (hPass : c.pass image = .ok next) :
    next.position = c.position + 1 := by
  obtain ⟨_, _, hPass⟩ := exists_of_bind hPass
  obtain ⟨_, _, hPass⟩ := exists_of_bind hPass
  obtain ⟨_, _, hPass⟩ := exists_of_bind hPass
  obtain ⟨position, hPosition, hPass⟩ := exists_of_bind hPass
  obtain rfl := Except.ok.inj hPass
  exact eq_of_increment hPosition

/-- The number of passes with the state at the end. -/
def run (image : NvmImage) (c : Copying) : Except Trap (Nat × Copying) :=
  if _hInside : c.position < imageSize then
    match hPass : c.pass image with
    | .ok next => (next.run image).map fun ended => (ended.1 + 1, ended.2)
    | .error trap => .error trap
  else .ok (0, c)
termination_by imageSize - c.position
decreasing_by
  rw [position_of_pass hPass]
  omega

/-- The state in which the loop has written the bytes before a position, each of them once. -/
def reached (image : NvmImage) (n : Nat) : Copying :=
  ⟨n, filled (fun k => image.byteAt k) 0 n, List.range n⟩

variable (image : NvmImage)

theorem reached_zero : reached image 0 = start := by
  rw [reached, filled_zero]
  rfl

theorem reached_imageSize :
    reached image imageSize = ⟨imageSize, image.toBytes, List.range imageSize⟩ := by
  rw [reached, filled_size]
  rfl

theorem write_reached {n : Nat} (hn : n < imageSize) :
    (reached image n).write n (image.byteAt ⟨n, hn⟩) =
      .ok { reached image (n + 1) with position := n } := by
  have hSet := set_filled (fun k => image.byteAt k) 0 hn
  rw [write, reached, hSet, ok_bind, ← List.range_succ]
  rfl

/-- Every access of a pass is in range, and the pass writes the byte at its own position. -/
theorem pass_reached {n : Nat} (hn : n < imageSize) :
    (reached image n).pass image = .ok (reached image (n + 1)) := by
  have hRow : n / sectorSize < sectorCount := (Nat.div_lt_iff_lt_mul (by decide)).mpr hn
  have hColumn : n % sectorSize < sectorSize := Nat.mod_lt n (by decide)
  have hByte : get image.sectors[n / sectorSize] (n % sectorSize) = .ok (image.byteAt ⟨n, hn⟩) :=
    get_of_lt _ hColumn
  have hCount : n + 1 < UInt64.size := Nat.lt_of_le_of_lt hn (by decide)
  have hPosition : (reached image n).position = n := rfl
  rw [pass, hPosition, get_of_lt _ hRow, ok_bind, hByte, ok_bind, write_reached image hn, ok_bind,
    increment_of_lt hCount]
  rfl

theorem run_of_pass {c next : Copying} (hInside : c.position < imageSize)
    (hPass : c.pass image = .ok next) :
    c.run image = (next.run image).map fun ended => (ended.1 + 1, ended.2) := by
  rw [run, dif_pos hInside]
  split
  · rename_i other hOther
    obtain rfl := Except.ok.inj (hOther.symm.trans hPass)
    rfl
  · rename_i trap hTrap
    cases hTrap.symm.trans hPass

theorem run_reached {n left : Nat} (hLeft : n + left = imageSize) :
    (reached image n).run image = .ok (left, reached image imageSize) := by
  -- On the positions that are left; every pass leaves one less and reaches the next state.
  induction left generalizing n with
  | zero =>
    obtain rfl : n = imageSize := hLeft
    have hEnd : ¬(reached image imageSize).position < imageSize := Nat.lt_irrefl imageSize
    rw [run, dif_neg hEnd]
  | succ left ih =>
    have hInside : n < imageSize := by omega
    rw [run_of_pass image hInside (pass_reached image hInside), ih (by omega)]
    rfl

end Copying

def piece (buffer : Array UInt8) (k : Nat) : Array UInt8 :=
  buffer.extract (sectorSize * k) (sectorSize * k + sectorSize)

/-- As many pieces of the size of a sector as there are; a shorter rest is left out. -/
def pieces (buffer : Array UInt8) : List (Array UInt8) :=
  (List.range (buffer.size / sectorSize)).map (piece buffer)

def place (rows : Sectors) (entry : Nat × Array UInt8) : Except Trap Sectors := do
  set rows entry.1 (← copy entry.2)

def blank : Sectors := Vector.replicate sectorCount (Vector.replicate sectorSize 0)

def ofBytes (buffer : Array UInt8) : Except Trap (Except ImageError NvmImage) := do
  if buffer.size ≠ imageSize then
    return .error (.invalidLength buffer.size)
  let rows ← ((List.range sectorCount).zip (pieces buffer)).foldlM place blank
  return .ok ⟨rows⟩

/-- The pieces of a flat form fill the sectors one after the other. -/
theorem place_filled (image : NvmImage) {n : Nat} (hn : n < sectorCount) :
    place (filled image.sectors.get (Vector.replicate sectorSize 0) n)
        (n, piece image.toBytes.toArray n) =
      .ok (filled image.sectors.get (Vector.replicate sectorSize 0) (n + 1)) := by
  have hPiece : piece image.toBytes.toArray n = (image.sectors.get ⟨n, hn⟩).toArray :=
    (image.toArray_sector ⟨n, hn⟩).symm
  rw [place, hPiece, copy_toArray, ok_bind]
  exact set_filled image.sectors.get _ hn

theorem foldlM_place (image : NvmImage) :
    ((List.range sectorCount).zip (pieces image.toBytes.toArray)).foldlM place blank =
      .ok image.sectors := by
  have hCount : image.toBytes.toArray.size / sectorSize = sectorCount := by
    rw [image.size_toBytes]
    rfl
  have hPairs : (List.range sectorCount).zip (pieces image.toBytes.toArray) =
      (List.range sectorCount).map fun n => (n, piece image.toBytes.toArray n) := by
    rw [pieces, hCount]
    rfl
  have hRows : Vector.ofFn image.sectors.get = image.sectors := by
    apply Vector.ext
    intro n hn
    exact Vector.getElem_ofFn hn
  have hFilled := foldlM_range_filled image.sectors.get (Vector.replicate sectorSize 0)
    (fun rows n => place rows (n, piece image.toBytes.toArray n))
    (fun n hn => place_filled image hn) (Nat.le_refl sectorCount)
  rw [filled_zero, filled_size, hRows] at hFilled
  rw [hPairs, List.foldlM_map]
  exact hFilled

theorem ofBytes_eq (buffer : Array UInt8) : ofBytes buffer = .ok (NvmImage.ofBytes buffer) := by
  by_cases hSize : buffer.size = imageSize
  · obtain ⟨image, hImage, rfl⟩ := NvmImage.exists_ofBytes hSize
    rw [ofBytes, if_neg (not_not_intro hSize), foldlM_place, hImage]
    rfl
  · rw [ofBytes, if_pos hSize, NvmImage.ofBytes_of_size_ne hSize]
    rfl

end PowerSink.Unchecked
