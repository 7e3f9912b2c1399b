import PowerSink.Nvm.Mask
import PowerSink.Text.Brackets

/-!
# Images of the whole memory

An image holds the five sectors that a controller should contain. It has a flat form of forty
bytes, in which byte `n` is byte `n % 8` of sector `n / 8`. The flat form is given twice: `bytes`
joins the sectors one behind the other and `toBytes` looks up each position.

`diff` compares an image with the sectors of a controller, whole sector by whole sector.
-/

namespace PowerSink

structure NvmImage where
  sectors : Sectors
  deriving DecidableEq

namespace NvmImage

/-- The image that new controllers receive, with two sink PDOs. -/
def factory : NvmImage where
  sectors := #v[
    #v[0x00, 0x00, 0xB0, 0xAB, 0x00, 0x45, 0x00, 0x00],
    #v[0x00, 0x40, 0x9C, 0x1C, 0xFF, 0x01, 0x3C, 0xDF],
    #v[0x02, 0x40, 0x0F, 0x00, 0x32, 0x00, 0xFC, 0xF1],
    #v[0x00, 0x19, 0x54, 0xAF, 0xFB, 0x35, 0x5F, 0x00],
    #v[0x00, 0x64, 0x90, 0x21, 0x43, 0x00, 0x50, 0xFB]]

instance : Inhabited NvmImage := ⟨factory⟩

/-- Cuts a buffer into sectors; any length but that of an image is refused. -/
def ofBytes (bytes : Array UInt8) : Except ImageError NvmImage :=
  if h : bytes.size = imageSize then
    .ok ⟨Vector.ofFn fun i => Vector.ofFn fun j =>
      have row := i.isLt
      have column := j.isLt
      have inside : sectorSize * i.val + j.val < bytes.size := by
        simp only [sectorSize, sectorCount, imageSize] at h row column ⊢
        omega
      bytes[sectorSize * i.val + j.val]⟩
  else
    .error (.invalidLength bytes.size)

def sectorAt (image : NvmImage) (i : SectorIndex) : Sector := image.sectors.get i.toFin

def sector (image : NvmImage) (n : Nat) : Except ImageError Sector :=
  match SectorIndex.check n with
  | .ok i => .ok (image.sectorAt i)
  | .error e => .error e

def bytes (image : NvmImage) : Vector UInt8 imageSize := image.sectors.flatten

/-- One byte of the flat form, looked up in its sector. -/
def byteAt (image : NvmImage) (n : Fin imageSize) : UInt8 :=
  have row : n.val / sectorSize < sectorCount :=
    (Nat.div_lt_iff_lt_mul (by decide)).mpr n.isLt
  have column : n.val % sectorSize < sectorSize := Nat.mod_lt _ (by decide)
  image.sectors[n.val / sectorSize][n.val % sectorSize]

def toBytes (image : NvmImage) : Vector UInt8 imageSize := Vector.ofFn image.byteAt

theorem getElem_bytes (image : NvmImage) (n : Fin imageSize) : image.bytes[n] = image.byteAt n :=
  Vector.getElem_flatten n.isLt

theorem getElem_toBytes (image : NvmImage) (n : Fin imageSize) :
    image.toBytes[n] = image.byteAt n := by
  simp [toBytes]

theorem bytes_eq_toBytes (image : NvmImage) : image.bytes = image.toBytes := by
  apply Vector.ext
  intro n hn
  exact (image.getElem_bytes ⟨n, hn⟩).trans (image.getElem_toBytes ⟨n, hn⟩).symm

/-- Each sector behind its index, in address order. -/
def entries (image : NvmImage) : List (SectorIndex × Sector) :=
  SectorIndex.all.map fun i => (i, image.sectorAt i)

/-- The sectors of a controller that differ from the image. -/
def diff (image : NvmImage) (found : Sectors) : SectorMask :=
  .ofList (SectorIndex.all.filter fun i => image.sectorAt i ≠ found.get i.toFin)

@[simp] theorem mem_diff {image : NvmImage} {found : Sectors} {i : SectorIndex} :
    i ∈ image.diff found ↔ image.sectorAt i ≠ found.get i.toFin := by
  simp [diff]

def sectorText (sector : Sector) : String :=
  bracketed (sector.toList.map fun byte => toString byte.toNat)

def text (image : NvmImage) : String :=
  "NvmImage \x7b sectors: " ++ bracketed (image.sectors.toList.map sectorText) ++ " \x7d"

end NvmImage

def factorySector (n : Nat) : Except ImageError Sector := NvmImage.factory.sector n

def factoryBytes : Vector UInt8 imageSize := NvmImage.factory.toBytes

/-- Where an image comes from: the factory, a flat buffer, or its sectors. -/
inductive ImageSource where
  | factory
  | flat (bytes : Array UInt8)
  | sectors (rows : Sectors)

/-- Only a flat buffer can be refused. -/
def ImageSource.image : ImageSource → Except ImageError NvmImage
  | factory => .ok default
  | flat bytes => NvmImage.ofBytes bytes
  | sectors rows => .ok ⟨rows⟩

end PowerSink
