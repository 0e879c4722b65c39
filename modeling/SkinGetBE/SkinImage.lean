import SkinGetBE.Packages

/-!
# The image of a skin

The file that is written for a skin is read back as the skin. The compressed rows bound
the rows themselves, so that everything fits in memory when they do.
-/
namespace SkinGetBE
open Octets Text

/-- The checksum is CRC-32, and what the compressor returns inflates to what it was given. -/
structure CaptureTools.Standard (tools : CaptureTools) : Prop where
  checksum : tools.crc32 = Octets.crc32
  zlib : ∀ raw compressed, tools.flate.zlibEncode raw = .ok compressed →
    Zlib.IsStream compressed raw

theorem sampleTools_standard : sampleTools.Standard where
  checksum := rfl
  zlib _ _ := sampleFlate_zlib

theorem writePngChunk_eq {tools : CaptureTools} (hcrc : tools.crc32 = crc32)
    (out chunkType data : Bytes) :
    writePngChunk tools out chunkType data = out ++ Png.chunkOctets chunkType data := by
  unfold writePngChunk Png.chunkOctets
  rw [hcrc]
  simp only [List.append_assoc]

/-- The three chunks are those of an image with one part. -/
theorem encodePngRgba_chunks {tools : CaptureTools} (hcrc : tools.crc32 = crc32)
    {rgba compressed : Bytes} {width height : ℕ} (h : width * height * 4 = rgba.length)
    (hroom : rgba.length + height ≤ isizeMax)
    (hz : tools.flate.zlibEncode (Png.filterRows (width * 4) height rgba) = .ok compressed) :
    encodePngRgba tools rgba width height = some (.ok (Png.signature ++
      (Png.chunkOctets Png.headerKind (Png.headerOctets width height) ++
        (Png.chunkOctets Png.dataKind compressed ++ Png.chunkOctets Png.endKind [])))) := by
  have hheader : asBytes "IHDR".toList = Png.headerKind := by decide
  have hdata : asBytes "IDAT".toList = Png.dataKind := by decide
  have hend : asBytes "IEND".toList = Png.endKind := by decide
  rw [encodePngRgba_eq tools h hroom, hz]
  dsimp only
  rw [writePngChunk_eq hcrc, writePngChunk_eq hcrc, writePngChunk_eq hcrc, hheader, hdata, hend]
  simp only [List.append_assoc]
  rfl

/-- A consistent skin whose compressed rows have a length of 32 bits is written as an image that is
read back as the skin. -/
theorem encodePngRgba_read {tools : CaptureTools} (htools : tools.Standard) {width height : UInt32}
    (hw : 1 ≤ width.toNat) (hh : 1 ≤ height.toNat) {rgba compressed : Bytes}
    (h : rgba.length = width.toNat * height.toNat * 4)
    (hz : tools.flate.zlibEncode (Png.filterRows (width.toNat * 4) height.toNat rgba) =
      .ok compressed) (hsmall : compressed.length < 2 ^ 32) :
    ∃ png, encodePngRgba tools rgba width.toNat height.toNat = some (.ok png) ∧
      Png.read png = some ⟨width.toNat, height.toNat, rgba⟩ := by
  have hrows : rgba.length = height.toNat * (width.toNat * 4) := by
    rw [h]
    ring
  have hstream := htools.zlib _ _ hz
  have hsize := Zlib.inflate_length hstream
  rw [Png.filterRows_length _ _ hrows] at hsize
  have hroom : rgba.length + height.toNat ≤ isizeMax := by
    unfold isizeMax
    omega
  exact ⟨_, encodePngRgba_chunks htools.checksum h.symm hroom hz,
    Png.read_image hw hh width.toNat_lt height.toNat_lt hrows hsmall hstream⟩

theorem encodePngRgba_read_pixel : ∃ png,
    encodePngRgba sampleTools [9, 8, 7, 255] 1 1 = some (.ok png) ∧
      Png.read png = some ⟨1, 1, [9, 8, 7, 255]⟩ :=
  have hone : 1 ≤ (1 : UInt32).toNat := by decide
  encodePngRgba_read sampleTools_standard hone hone rfl rfl (by decide)

end SkinGetBE
