import SkinGetBE.LegacyLogin
import SkinGetBE.LoginCapture

/-!
# The sizes of a skin

The octets of a skin are compared with a product of words, which may wrap around, and
the sizes that are inferred from a number of octets come from divisions that drop what
is left. The checks are exact where neither loses anything.
-/
namespace SkinGetBE
open Octets

def exactSize (width height : ℕ) : ℕ := width * height * 4

/-- What the checks of a skin promise. An image needs a compressor and room for its rows. -/
structure SizesExact (tools : CaptureTools) (width height : ℕ) (data : Bytes) : Prop where
  accepts : (∃ skin, ExtractedSkin.new width height data = .ok skin) ↔
    data.length = exactSize width height
  encodes : encodePngRgba tools data width height ≠
      some (.error (skinDataSizeMismatch (usize (exactSize width height)) data.length)) ↔
    data.length = exactSize width height
  imageOnly : ∀ png, encodePngRgba tools data width height = some (.ok png) →
    data.length = exactSize width height
  image : tools.Infallible → data.length + height ≤ isizeMax →
    data.length = exactSize width height →
    ∃ png, encodePngRgba tools data width height = some (.ok png)
  extracts : ∀ skin, extractSkin data = .ok skin →
    skin.data.length = exactSize skin.width skin.height

/-- The octets are as many as the product that leaves its word says. -/
def HidesSize (width height : ℕ) (data : Bytes) : Prop :=
  2 ^ 64 ≤ exactSize width height ∧ data.length = usize (exactSize width height)

/-- Too few octets for a skin, or whole rows of 64 pixels that a 32-bit word can count. -/
def WholeRows (data : Bytes) : Prop :=
  data.length < minSkinBytes ∨ 256 ∣ data.length ∧ data.length < 2 ^ 34

theorem length_eq_exact_iff {width height : ℕ} {data : Bytes} (hlen : data.length < 2 ^ 63) :
    data.length = exactSize width height ↔
      data.length = usize (exactSize width height) ∧ ¬ HidesSize width height data := by
  unfold HidesSize usize
  constructor
  · intro h
    have hmod : exactSize width height % 2 ^ 64 = exactSize width height :=
      Nat.mod_eq_of_lt (by omega)
    exact ⟨by omega, by omega⟩
  · rintro ⟨h, hnot⟩
    have hsmall : exactSize width height < 2 ^ 64 := by
      by_contra hbig
      exact hnot ⟨by omega, h⟩
    rw [h, Nat.mod_eq_of_lt hsmall]

theorem new_isOk_iff (width height : ℕ) (data : Bytes) :
    (∃ skin, ExtractedSkin.new width height data = .ok skin) ↔
      data.length = usize (exactSize width height) := by
  unfold ExtractedSkin.new exactSize
  split_ifs with h
  · exact iff_of_false nofun h
  · exact iff_of_true ⟨_, rfl⟩ (not_not.mp h)

/-- An error of the compressor is no error of the size. -/
theorem encodePngRgba_mismatch_iff (tools : CaptureTools) (width height : ℕ) (data : Bytes) :
    encodePngRgba tools data width height =
        some (.error (skinDataSizeMismatch (usize (exactSize width height)) data.length)) ↔
      data.length ≠ usize (exactSize width height) := by
  unfold encodePngRgba exactSize
  split_ifs with h hcap
  · exact iff_of_true rfl h
  · exact iff_of_false nofun h
  · refine iff_of_false (fun hmismatch => ?_) h
    rw [Option.bind_eq_bind, Option.bind_eq_some_iff] at hmismatch
    obtain ⟨raw, -, hmismatch⟩ := hmismatch
    cases hz : tools.flate.zlibEncode raw with
    | error e =>
      rw [hz] at hmismatch
      simp [skinDataSizeMismatch] at hmismatch
    | ok compressed =>
      rw [hz] at hmismatch
      simp at hmismatch

/-- Rows that are all found are in the data. -/
theorem pngRowsLoop_length_le {rgba : Bytes} {rowBytes : ℕ} (hlen : rgba.length < 2 ^ 64)
    (rows row : ℕ) {raw : Bytes} (hrow : row * rowBytes ≤ rgba.length)
    (h : pngRowsLoop rgba rowBytes rows row = some raw) :
    (row + rows) * rowBytes ≤ rgba.length := by
  induction rows generalizing row raw with
  | zero => exact hrow
  | succ rows ih =>
    have hstart : usize (row * rowBytes) = row * rowBytes := Nat.mod_eq_of_lt (by omega)
    have hsucc : (row + 1) * rowBytes = row * rowBytes + rowBytes := Nat.succ_mul _ _
    unfold pngRowsLoop at h
    rw [hstart] at h
    dsimp only at h
    split_ifs at h with hle
    rw [Option.bind_eq_bind, Option.bind_eq_some_iff] at h
    obtain ⟨raw', hrest, -⟩ := h
    have hall := ih (row + 1) (by omega) hrest
    rwa [Nat.add_right_comm, Nat.add_assoc] at hall

/-- Too few octets for the rows stop the encoder, whatever the product says. -/
theorem encodePngRgba_ok_exact {tools : CaptureTools} {width height : ℕ} {data png : Bytes}
    (hlen : data.length < 2 ^ 63) (h : encodePngRgba tools data width height = some (.ok png)) :
    data.length = exactSize width height := by
  unfold encodePngRgba at h
  split_ifs at h with hsize hcap
  · cases h
  rw [Option.bind_eq_bind, Option.bind_eq_some_iff] at h
  obtain ⟨raw, hrows, -⟩ := h
  have hle := pngRowsLoop_length_le (by omega) height 0 (by omega) hrows
  have hprod : (0 + height) * (width * 4) = exactSize width height := by
    unfold exactSize
    ring
  rw [hprod] at hle
  have hmod : usize (exactSize width height) = exactSize width height :=
    Nat.mod_eq_of_lt (by omega)
  rw [← hmod]
  exact not_not.mp hsize

theorem extractSkin_exact_iff (data : Bytes) :
    (∀ skin, extractSkin data = .ok skin → skin.data.length = exactSize skin.width skin.height) ↔
      WholeRows data := by
  unfold extractSkin WholeRows
  by_cases hsmall : data.length < minSkinBytes
  · rw [if_pos hsmall]
    exact iff_of_true nofun (.inl hsmall)
  · have hmin : minSkinBytes = 8192 := rfl
    have hpositive : 0 < data.length / 4 := by omega
    have hfit := inferDimensions_fit_iff hpositive
    rw [if_neg hsmall]
    constructor
    · intro h
      have hexact := h _ rfl
      unfold exactSize at hexact
      dsimp only at hexact
      have hpixels := hfit.mp (by omega)
      exact .inr (by omega)
    · rintro (h | ⟨hrows, hword⟩) skin hskin
      · exact absurd h hsmall
      · cases hskin
        have hpixels := hfit.mpr (by omega)
        unfold exactSize
        dsimp only
        omega

/-- The checks are exact when the product does not hide the size, and the rows are whole. -/
theorem sizesExact_iff (tools : CaptureTools) (width height : UInt32) {data : Bytes}
    (hlen : data.length < 2 ^ 63) :
    SizesExact tools width.toNat height.toNat data ↔
      ¬ HidesSize width.toNat height.toNat data ∧ WholeRows data := by
  have hexact : data.length = exactSize width.toNat height.toNat ↔
      data.length = usize (exactSize width.toNat height.toNat) ∧
        ¬ HidesSize width.toNat height.toNat data := length_eq_exact_iff hlen
  have hnew := new_isOk_iff width.toNat height.toNat data
  have hencode := encodePngRgba_mismatch_iff tools width.toNat height.toNat data
  constructor
  · intro h
    refine ⟨fun hhides => ?_, (extractSkin_exact_iff data).mp h.extracts⟩
    exact (hexact.mp (h.accepts.mp (hnew.mpr hhides.2))).2 hhides
  · rintro ⟨hsaved, hrows⟩
    have hsame : data.length = usize (exactSize width.toNat height.toNat) ↔
        data.length = exactSize width.toNat height.toNat :=
      ⟨fun h => hexact.mpr ⟨h, hsaved⟩, fun h => (hexact.mp h).1⟩
    exact {
      accepts := hnew.trans hsame
      encodes := (not_congr hencode).trans (not_not.trans hsame)
      imageOnly := fun png hpng => encodePngRgba_ok_exact hlen hpng
      image := fun htools hroom hsize => encodePngRgba_isOk_of_room htools hsize.symm hroom
      extracts := (extractSkin_exact_iff data).mpr hrows }

/-- A pixel is a skin. -/
theorem sizesExact_pixel : SizesExact ⟨⟨.ok, yields, .ok, yields⟩, crc32, fun _ => .ok []⟩ 1 1
    [9, 8, 7, 255] :=
  (sizesExact_iff _ 1 1 (by decide)).mpr
    ⟨fun hhides => absurd hhides.1 (by decide), .inl (by decide)⟩

/-- No octets are taken for `2 ^ 31` rows of as many pixels, and an octet too many is kept behind
the smallest skin. -/
theorem sizesExact_hidden :
    ExtractedSkin.new (2 ^ 31) (2 ^ 31) [] = .ok ⟨2 ^ 31, 2 ^ 31, []⟩ ∧
      ([] : Bytes).length ≠ exactSize (2 ^ 31) (2 ^ 31) ∧
      extractSkin (List.replicate 8193 0) = .ok ⟨64, 32, List.replicate 8193 0⟩ ∧
      (List.replicate 8193 (0 : UInt8)).length ≠ exactSize 64 32 := by
  have hlen : (List.replicate 8193 (0 : UInt8)).length = 8193 := List.length_replicate
  refine ⟨rfl, by decide, ?_, by rw [hlen]; decide⟩
  unfold extractSkin
  rw [hlen, if_neg (by decide)]
  rfl

end SkinGetBE
