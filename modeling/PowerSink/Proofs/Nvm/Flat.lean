import PowerSink.Nvm.Image

/-!
# The flat form of an image

Cutting a buffer into sectors and joining them again gives the buffer, and joining the sectors of an
image and cutting them again gives the image. So the images are the buffers of forty bytes, and each
sector is a slice of its buffer.
-/

namespace PowerSink

namespace NvmImage

theorem size_toBytes (image : NvmImage) : image.toBytes.toArray.size = imageSize :=
  image.toBytes.size_toArray

/-- For a position behind the end both sides are `none`. -/
theorem getElem?_toBytes (image : NvmImage) (n : Nat) :
    image.toBytes[n]? = image.sectors[n / sectorSize]?.bind fun sector => sector[n % sectorSize]? := by
  have hColumn : n % sectorSize < sectorSize := Nat.mod_lt n (by decide)
  by_cases hn : n < imageSize
  · have hRow : n / sectorSize < sectorCount := (Nat.div_lt_iff_lt_mul (by decide)).mpr hn
    rw [Vector.getElem?_eq_getElem hn, Vector.getElem?_eq_getElem hRow, Option.bind_some,
      Vector.getElem?_eq_getElem hColumn]
    exact congrArg some (image.getElem_toBytes ⟨n, hn⟩)
  · have hRow : ¬n / sectorSize < sectorCount := fun h => hn ((Nat.div_lt_iff_lt_mul (by decide)).mp h)
    rw [Vector.getElem?_eq_none (Nat.le_of_not_lt hn), Vector.getElem?_eq_none (Nat.le_of_not_lt hRow)]
    rfl

theorem getElem?_toBytes_of_lt (image : NvmImage) {i j : Nat} (hi : i < sectorCount)
    (hj : j < sectorSize) : image.toBytes[sectorSize * i + j]? = image.sectors[i][j] := by
  have hRow : (sectorSize * i + j) / sectorSize = i := by
    simp only [sectorSize] at hj ⊢
    omega
  have hColumn : (sectorSize * i + j) % sectorSize = j := by
    simp only [sectorSize] at hj ⊢
    omega
  rw [getElem?_toBytes, hRow, hColumn, Vector.getElem?_eq_getElem hi, Option.bind_some,
    Vector.getElem?_eq_getElem hj]

/-- The byte stands in the sector that its position names. -/
theorem getElem?_toBytes_of_div (image : NvmImage) {n : Nat} {i : SectorIndex}
    (hRow : n / sectorSize = i.toNat) :
    image.toBytes[n]? =
      some ((image.sectorAt i).get ⟨n % sectorSize, Nat.mod_lt n (by decide)⟩) := by
  rw [getElem?_toBytes, hRow, Vector.getElem?_eq_getElem i.toNat_lt, Option.bind_some,
    Vector.getElem?_eq_getElem (Nat.mod_lt n (by decide))]
  rfl

/-- Each sector is a slice of the flat form. -/
theorem toArray_sector (image : NvmImage) (i : Fin sectorCount) :
    (image.sectors.get i).toArray =
      image.toBytes.toArray.extract (sectorSize * i.val) (sectorSize * i.val + sectorSize) := by
  have hRow := i.isLt
  have hStop : sectorSize * i.val + sectorSize ≤ image.toBytes.toArray.size := by
    rw [size_toBytes]
    simp only [sectorSize, sectorCount, imageSize] at hRow ⊢
    omega
  apply Array.ext
  · rw [Array.size_extract_of_le hStop, Nat.add_sub_cancel_left, Vector.size_toArray]
  · intro j hj hSlice
    have hColumn : j < sectorSize := by rwa [Vector.size_toArray] at hj
    have hByte := image.getElem?_toBytes_of_lt hRow hColumn
    rw [Array.getElem_extract]
    rw [← Vector.getElem?_toArray] at hByte
    exact (Array.getElem_eq_iff.mpr hByte).symm

theorem ofBytes_of_size_ne {buffer : Array UInt8} (hSize : buffer.size ≠ imageSize) :
    ofBytes buffer = .error (.invalidLength buffer.size) :=
  dif_neg hSize

theorem exists_ofBytes {buffer : Array UInt8} (hSize : buffer.size = imageSize) :
    ∃ image, ofBytes buffer = .ok image ∧ image.toBytes.toArray = buffer := by
  refine ⟨_, dif_pos hSize, ?_⟩
  apply Array.ext
  · rw [size_toBytes, hSize]
  · intro n hn _
    -- Position n is byte n % 8 of the slice that starts at 8 * (n / 8).
    have hPosition : sectorSize * (n / sectorSize) + n % sectorSize = n := Nat.div_add_mod n sectorSize
    simp [toBytes, byteAt, hPosition]

theorem ofBytes_toBytes (image : NvmImage) : ofBytes image.toBytes.toArray = .ok image := by
  obtain ⟨other, hOther, hSame⟩ := exists_ofBytes image.size_toBytes
  have hSectors : other.sectors = image.sectors := by
    apply Vector.ext
    intro i hi
    apply Vector.toArray_inj.mp
    have hSlice := other.toArray_sector ⟨i, hi⟩
    rw [hSame] at hSlice
    exact hSlice.trans (image.toArray_sector ⟨i, hi⟩).symm
  rw [hOther]
  exact congrArg Except.ok (congrArg NvmImage.mk hSectors)

theorem toBytes_injective : Function.Injective toBytes := by
  intro a b hSame
  have hCut := a.ofBytes_toBytes
  rw [hSame, b.ofBytes_toBytes] at hCut
  exact (Except.ok.inj hCut).symm

/-- An image is made from its own flat form and from no other buffer. -/
theorem ofBytes_eq_ok_iff {buffer : Array UInt8} {image : NvmImage} :
    ofBytes buffer = .ok image ↔ image.toBytes.toArray = buffer := by
  constructor
  · intro hImage
    by_cases hSize : buffer.size = imageSize
    · obtain ⟨other, hOther, hSame⟩ := exists_ofBytes hSize
      obtain rfl := Except.ok.inj (hImage.symm.trans hOther)
      exact hSame
    · cases hImage.symm.trans (ofBytes_of_size_ne hSize)
  · rintro rfl
    exact image.ofBytes_toBytes

end NvmImage

/-- Cutting a buffer, joining sectors and looking bytes up agree on where each byte of each sector
stands, whatever the bytes are, and no length but forty is accepted. -/
theorem flat_form_round_trips :
    (∀ buffer : Array UInt8,
      ((∃ image, NvmImage.ofBytes buffer = .ok image) ↔ buffer.size = 40) ∧
      (buffer.size ≠ 40 → NvmImage.ofBytes buffer = .error (.invalidLength buffer.size)) ∧
      ∀ image, NvmImage.ofBytes buffer = .ok image →
        image.toBytes.toArray = buffer ∧ image.bytes.toArray = buffer ∧
        ∀ i : Fin sectorCount,
          (image.sectors.get i).toArray = buffer.extract (8 * i.val) (8 * i.val + 8)) ∧
    (∀ image : NvmImage,
      image.bytes = image.toBytes ∧
      NvmImage.ofBytes image.toBytes.toArray = .ok image ∧
      (ImageSource.sectors image.sectors).image = .ok image ∧
      ∀ n : Nat, image.toBytes[n]? = image.sectors[n / 8]?.bind fun sector => sector[n % 8]?) ∧
    ∀ first second : Array UInt8, first.size = 40 → second.size = 40 →
      (NvmImage.ofBytes first = NvmImage.ofBytes second ↔ first = second) := by
  refine ⟨?_, ?_, ?_⟩
  · intro buffer
    refine ⟨?_, NvmImage.ofBytes_of_size_ne, ?_⟩
    · constructor
      · rintro ⟨image, hImage⟩
        rw [← NvmImage.ofBytes_eq_ok_iff.mp hImage]
        exact image.size_toBytes
      · intro hSize
        obtain ⟨image, hImage, _⟩ := NvmImage.exists_ofBytes hSize
        exact ⟨image, hImage⟩
    · intro image hImage
      obtain rfl := NvmImage.ofBytes_eq_ok_iff.mp hImage
      exact ⟨rfl, congrArg Vector.toArray image.bytes_eq_toBytes, image.toArray_sector⟩
  · intro image
    exact ⟨image.bytes_eq_toBytes, image.ofBytes_toBytes, rfl, image.getElem?_toBytes⟩
  · intro first second hFirst _
    constructor
    · intro hSame
      obtain ⟨image, hImage, hBuffer⟩ := NvmImage.exists_ofBytes hFirst
      rw [hSame] at hImage
      exact hBuffer.symm.trans (NvmImage.ofBytes_eq_ok_iff.mp hImage)
    · rintro rfl
      rfl

/-- The buffer of the factory image, a blank one, and one with a byte too many. -/
theorem flat_form_round_trips_factory :
    let buffer := factoryBytes.toArray
    let blank : Array UInt8 := Array.replicate 40 0
    let long := buffer.push 0
    buffer.size = 40 ∧ blank.size = 40 ∧ long.size ≠ 40 ∧
      NvmImage.ofBytes buffer = .ok .factory ∧
      (NvmImage.factory.sectors.get 3).toArray = buffer.extract 24 32 ∧
      NvmImage.ofBytes long = .error (.invalidLength 41) ∧
      NvmImage.ofBytes buffer ≠ NvmImage.ofBytes blank := by
  intro buffer blank long
  obtain ⟨hCut, hJoined, hEqual⟩ := flat_form_round_trips
  have hBuffer : NvmImage.ofBytes buffer = .ok .factory := (hJoined .factory).2.1
  have hDiffers : buffer ≠ blank := by decide
  refine ⟨rfl, rfl, ?_, hBuffer, ?_, ?_, ?_⟩
  · decide
  · exact ((hCut buffer).2.2 .factory hBuffer).2.2 3
  · exact (hCut long).2.1 (by decide)
  · exact fun hSame => hDiffers ((hEqual buffer blank rfl rfl).mp hSame)

end PowerSink
