import SkinGetBE.Batch
import SkinGetBE.Login
import SkinGetBE.Png

/-!
# Saving a captured skin

The compressor, the checksum and the JSON writer of the sidecar are parameters.
A result `none` of a function below is a call that does not return: a panic, or
the search for a free name when every number is taken. Sizes are 64-bit words.
-/
namespace SkinGetBE
open Octets Text

/-- The word that holds `n` on a 64-bit target, where arithmetic wraps around. -/
def usize (n : ℕ) : ℕ := n % 2 ^ 64

structure ExtractedSkin where
  width : ℕ
  height : ℕ
  data : Bytes
  deriving DecidableEq, Repr

def skinDataSizeMismatch (expected got : ℕ) : Error :=
  .invalidData s!"Skin data size mismatch: expected {expected}, got {got}"

def ExtractedSkin.new (width height : ℕ) (data : Bytes) : Except Error ExtractedSkin :=
  if data.length ≠ usize (width * height * 4) then
    .error (skinDataSizeMismatch (usize (width * height * 4)) data.length)
  else .ok ⟨width, height, data⟩

/-- The record behind the keys of the sidecar file. -/
structure Sidecar where
  playerName : Str
  skinId : Str
  skinWidth : ℕ
  skinHeight : ℕ
  metadata : LoginMetadata
  deriving DecidableEq

/-- The packages used to write a capture. -/
structure CaptureTools where
  flate : Flate2
  crc32 : Bytes → ℕ
  toVecPretty : Sidecar → Except String Bytes

/-- Compression into memory and the serialization of a record never fail. -/
structure CaptureTools.Infallible (tools : CaptureTools) : Prop where
  zlib : ∀ raw, ∃ compressed, tools.flate.zlibEncode raw = .ok compressed
  sidecar : ∀ record, ∃ text, tools.toVecPretty record = .ok text

/-- Each row behind the filter octet zero; a row out of range is a panic. -/
def pngRowsLoop (rgba : Bytes) (rowBytes : ℕ) : ℕ → ℕ → Option Bytes
  | 0, _ => some []
  | rows + 1, row => do
    let start := usize (row * rowBytes)
    if start + rowBytes ≤ rgba.length then
      let raw ← pngRowsLoop rgba rowBytes rows (row + 1)
      some (0 :: ((rgba.drop start).take rowBytes ++ raw))
    else none

def writePngChunk (tools : CaptureTools) (out chunkType data : Bytes) : Bytes :=
  out ++ beBytes 4 data.length ++ chunkType ++ data ++ beBytes 4 (tools.crc32 (chunkType ++ data))

def pngSignature : Bytes := [137, 80, 78, 71, 13, 10, 26, 10]

def isizeMax : ℕ := 2 ^ 63 - 1

def encodePngRgba (tools : CaptureTools) (rgba : Bytes) (width height : ℕ) :
    Option (Except Error Bytes) :=
  if rgba.length ≠ usize (width * height * 4) then
    some (.error (skinDataSizeMismatch (usize (width * height * 4)) rgba.length))
  else if usize ((width * 4 + 1) * height) > isizeMax then none
  else do
    let raw ← pngRowsLoop rgba (width * 4) height 0
    match tools.flate.zlibEncode raw with
    | .error e => some (.error (.ioError e))
    | .ok compressed =>
      let ihdr := beBytes 4 width ++ beBytes 4 height ++ [8, 6, 0, 0, 0]
      let png := writePngChunk tools pngSignature (asBytes "IHDR".toList) ihdr
      let png := writePngChunk tools png (asBytes "IDAT".toList) compressed
      some (.ok (writePngChunk tools png (asBytes "IEND".toList) []))

inductive FsRequest
  | createDirAll (path : Str)
  | write (path : Str)
  deriving DecidableEq

/-- The paths that existed at the start, the files written since then, oldest
first, and the requests that fail with their error text. -/
structure FileSystem where
  present : Str → Bool
  written : List (Str × Bytes)
  denied : FsRequest → Option String

namespace FileSystem

/-- `Path::join` for a relative directory entry or an absolute path. -/
def join (dir name : Str) : Str :=
  if name.head? = some '/' then name
  else if dir = [] ∨ dir.getLast? = some '/' then dir ++ name
  else dir ++ '/' :: name

def pathExists (fs : FileSystem) (path : Str) : Bool :=
  fs.present path || (fs.written.map Prod.fst).contains path

def createDirAll (fs : FileSystem) (path : Str) : Except Error Unit :=
  match fs.denied (.createDirAll path) with
  | some e => .error (.ioError e)
  | none => .ok ()

def write (fs : FileSystem) (path : Str) (contents : Bytes) : Except Error FileSystem :=
  match fs.denied (.write path) with
  | some e => .error (.ioError e)
  | none => .ok { fs with written := fs.written ++ [(path, contents)] }

/-- A file system whose writes succeed. -/
def WritesSucceed (fs : FileSystem) : Prop := ∀ request, fs.denied request = none

/-- A file system without any file. -/
def empty : FileSystem := ⟨fun _ => false, [], fun _ => none⟩

end FileSystem

def skinsDirOf (baseDir : Str) : Str := FileSystem.join baseDir "skins".toList

def pngPath (skinsDir stem : Str) : Str := FileSystem.join skinsDir (stem ++ ".png".toList)

def jsonPath (skinsDir stem : Str) : Str := FileSystem.join skinsDir (stem ++ ".json".toList)

/-- The extensions of the two files. -/
def IsExtension (ext : Str) : Prop := ext = ".png".toList ∨ ext = ".json".toList

theorem extension_eq {stem stem' ext ext' : Str} (hext : IsExtension ext) (hext' : IsExtension ext')
    (h : stem ++ ext = stem' ++ ext') : ext = ext' := by
  have hlast := congrArg List.getLast? h
  have hpng : ".png".toList.getLast? = some 'g' := rfl
  have hjson : ".json".toList.getLast? = some 'n' := rfl
  rw [List.getLast?_append, List.getLast?_append] at hlast
  rcases hext with rfl | rfl
  · rcases hext' with rfl | rfl
    · rfl
    · rw [hpng, hjson] at hlast
      cases hlast
  · rcases hext' with rfl | rfl
    · rw [hpng, hjson] at hlast
      cases hlast
    · rfl

/-- Neither file of the stem exists. -/
def stemIsFree (fs : FileSystem) (skinsDir stem : Str) : Bool :=
  !fs.pathExists (pngPath skinsDir stem) && !fs.pathExists (jsonPath skinsDir stem)

def numberedStem (baseName : Str) (count : ℕ) : Str := baseName ++ '_' :: Nat.toDigits 10 count

/-- `fuel` further numbers can be tried. At the last one the counter stays where
it is and the loop goes on for ever. -/
def numberedStemLoop (fs : FileSystem) (skinsDir baseName : Str) : ℕ → ℕ → Option Str
  | 0, count =>
    if stemIsFree fs skinsDir (numberedStem baseName count) then some (numberedStem baseName count)
    else none
  | fuel + 1, count =>
    if stemIsFree fs skinsDir (numberedStem baseName count) then some (numberedStem baseName count)
    else numberedStemLoop fs skinsDir baseName fuel (count + 1)

def u32Max : ℕ := 2 ^ 32 - 1

def nextAvailableStem (fs : FileSystem) (skinsDir baseName : Str) : Option Str :=
  if stemIsFree fs skinsDir baseName then some baseName
  else numberedStemLoop fs skinsDir baseName (u32Max - 1) 1

structure LoginCapture where
  playerName : Str
  skinId : Str
  metadata : LoginMetadata
  skin : ExtractedSkin
  deriving DecidableEq

def captureBaseName (playerName skinId : Str) : Str :=
  sanitizeComponent playerName ++ '_' :: sanitizeComponent skinId

/-- The writes of a capture once the stem is chosen. A failed sidecar is only logged. -/
def writeCapture (tools : CaptureTools) (fs : FileSystem) (skinsDir stem : Str)
    (capture : LoginCapture) : Option (Except Error (Option Str) × FileSystem) := do
  match ← encodePngRgba tools capture.skin.data capture.skin.width capture.skin.height with
  | .error e => some (.error e, fs)
  | .ok pngBytes =>
    match fs.write (pngPath skinsDir stem) pngBytes with
    | .error e => some (.error e, fs)
    | .ok fs =>
      match tools.toVecPretty ⟨capture.playerName, capture.skinId, capture.skin.width,
          capture.skin.height, capture.metadata⟩ with
      | .error e => some (.error (.jsonError e), fs)
      | .ok text =>
        match fs.write (jsonPath skinsDir stem) text with
        | .error _ => some (.ok (some (pngPath skinsDir stem)), fs)
        | .ok fs => some (.ok (some (pngPath skinsDir stem)), fs)

def saveLoginCapture (tools : CaptureTools) (fs : FileSystem) (baseDir : Str)
    (capture : LoginCapture) (savemode : ℕ) :
    Option (Except Error (Option Str) × FileSystem) :=
  if savemode = 0 then some (.ok none, fs)
  else
    let skinsDir := skinsDirOf baseDir
    match fs.createDirAll skinsDir with
    | .error e => some (.error e, fs)
    | .ok () => do
      let baseName := captureBaseName capture.playerName capture.skinId
      let stem ← if savemode = 1 then some baseName else nextAvailableStem fs skinsDir baseName
      writeCapture tools fs skinsDir stem capture

/-- The ways in which the writes of a capture end, with the result and the files they leave. -/
inductive WriteOutcome (tools : CaptureTools) (fs : FileSystem) (skinsDir stem : Str)
    (capture : LoginCapture) : Except Error (Option Str) → FileSystem → Prop
  | unencoded (e : Error)
      (hencode : encodePngRgba tools capture.skin.data capture.skin.width capture.skin.height =
        some (.error e)) : WriteOutcome tools fs skinsDir stem capture (.error e) fs
  | imageRefused (png : Bytes) (e : Error)
      (hencode : encodePngRgba tools capture.skin.data capture.skin.width capture.skin.height =
        some (.ok png))
      (himage : fs.write (pngPath skinsDir stem) png = .error e) :
      WriteOutcome tools fs skinsDir stem capture (.error e) fs
  | untextual (png : Bytes) (fs₁ : FileSystem) (e : String)
      (hencode : encodePngRgba tools capture.skin.data capture.skin.width capture.skin.height =
        some (.ok png))
      (himage : fs.write (pngPath skinsDir stem) png = .ok fs₁)
      (htext : tools.toVecPretty ⟨capture.playerName, capture.skinId, capture.skin.width,
        capture.skin.height, capture.metadata⟩ = .error e) :
      WriteOutcome tools fs skinsDir stem capture (.error (.jsonError e)) fs₁
  | sidecarRefused (png text : Bytes) (fs₁ : FileSystem) (e : Error)
      (hencode : encodePngRgba tools capture.skin.data capture.skin.width capture.skin.height =
        some (.ok png))
      (himage : fs.write (pngPath skinsDir stem) png = .ok fs₁)
      (htext : tools.toVecPretty ⟨capture.playerName, capture.skinId, capture.skin.width,
        capture.skin.height, capture.metadata⟩ = .ok text)
      (hsidecar : fs₁.write (jsonPath skinsDir stem) text = .error e) :
      WriteOutcome tools fs skinsDir stem capture (.ok (some (pngPath skinsDir stem))) fs₁
  | written (png text : Bytes) (fs₁ fs₂ : FileSystem)
      (hencode : encodePngRgba tools capture.skin.data capture.skin.width capture.skin.height =
        some (.ok png))
      (himage : fs.write (pngPath skinsDir stem) png = .ok fs₁)
      (htext : tools.toVecPretty ⟨capture.playerName, capture.skinId, capture.skin.width,
        capture.skin.height, capture.metadata⟩ = .ok text)
      (hsidecar : fs₁.write (jsonPath skinsDir stem) text = .ok fs₂) :
      WriteOutcome tools fs skinsDir stem capture (.ok (some (pngPath skinsDir stem))) fs₂

theorem writeCapture_outcome {tools : CaptureTools} {fs fs' : FileSystem} {skinsDir stem : Str}
    {capture : LoginCapture} {result : Except Error (Option Str)}
    (h : writeCapture tools fs skinsDir stem capture = some (result, fs')) :
    WriteOutcome tools fs skinsDir stem capture result fs' := by
  unfold writeCapture at h
  rw [Option.bind_eq_bind, Option.bind_eq_some_iff] at h
  obtain ⟨encoded, hencode, h⟩ := h
  cases encoded with
  | error e =>
    cases h
    exact .unencoded e hencode
  | ok png =>
    dsimp only at h
    cases himage : fs.write (pngPath skinsDir stem) png with
    | error e =>
      rw [himage] at h
      cases h
      exact .imageRefused png e hencode himage
    | ok fs₁ =>
      rw [himage] at h
      dsimp only at h
      cases htext : tools.toVecPretty ⟨capture.playerName, capture.skinId, capture.skin.width,
          capture.skin.height, capture.metadata⟩ with
      | error e =>
        rw [htext] at h
        cases h
        exact .untextual png _ e hencode himage htext
      | ok text =>
        rw [htext] at h
        dsimp only at h
        cases hsidecar : fs₁.write (jsonPath skinsDir stem) text with
        | error e =>
          rw [hsidecar] at h
          cases h
          exact .sidecarRefused png text _ e hencode himage htext hsidecar
        | ok fs₂ =>
          rw [hsidecar] at h
          cases h
          exact .written png text fs₁ _ hencode himage htext hsidecar

/-- Rows that fit are all found, from the `row`-th on. -/
theorem pngRowsLoop_eq {rgba : Bytes} {rowBytes : ℕ} (hlen : rgba.length < 2 ^ 64) (rows row : ℕ)
    (h : (row + rows) * rowBytes ≤ rgba.length) : pngRowsLoop rgba rowBytes rows row =
      some (Png.filterRows rowBytes rows (rgba.drop (row * rowBytes))) := by
  induction rows generalizing row with
  | zero => rfl
  | succ rows ih =>
    have hstep : (row + 1) * rowBytes ≤ (row + (rows + 1)) * rowBytes :=
      Nat.mul_le_mul_right _ (by omega)
    have hsucc : (row + 1) * rowBytes = row * rowBytes + rowBytes := Nat.succ_mul _ _
    have hstart : usize (row * rowBytes) = row * rowBytes := Nat.mod_eq_of_lt (by omega)
    have hnext : row + 1 + rows = row + (rows + 1) := by omega
    unfold pngRowsLoop Png.filterRows
    rw [hstart, if_pos (by omega), ih (row + 1) (by rwa [hnext]), hsucc, List.drop_drop]
    rfl

/-- A consistent skin is encoded as its rows, when they have room in memory. -/
theorem encodePngRgba_eq (tools : CaptureTools) {rgba : Bytes} {width height : ℕ}
    (h : width * height * 4 = rgba.length) (hroom : rgba.length + height ≤ isizeMax) :
    encodePngRgba tools rgba width height =
      match tools.flate.zlibEncode (Png.filterRows (width * 4) height rgba) with
      | .error e => some (.error (.ioError e))
      | .ok compressed =>
        let ihdr := beBytes 4 width ++ beBytes 4 height ++ [8, 6, 0, 0, 0]
        let png := writePngChunk tools pngSignature (asBytes "IHDR".toList) ihdr
        let png := writePngChunk tools png (asBytes "IDAT".toList) compressed
        some (.ok (writePngChunk tools png (asBytes "IEND".toList) [])) := by
  have hmax : isizeMax < 2 ^ 64 := by decide
  have hexp : usize (width * height * 4) = rgba.length := by
    rw [h]
    exact Nat.mod_eq_of_lt (by omega)
  have hcap : (width * 4 + 1) * height = rgba.length + height := by
    rw [← h]
    ring
  have hrows : (0 + height) * (width * 4) ≤ rgba.length := by
    rw [← h]
    exact le_of_eq (by ring)
  have hsmall : ¬ usize ((width * 4 + 1) * height) > isizeMax := by
    rw [hcap, usize, Nat.mod_eq_of_lt (by omega)]
    omega
  have hraw := pngRowsLoop_eq (by omega) height 0 hrows
  rw [Nat.zero_mul, List.drop_zero] at hraw
  unfold encodePngRgba
  rw [hexp, if_neg (by simp), if_neg hsmall, hraw]
  rfl

theorem encodePngRgba_isOk_of_room {tools : CaptureTools} (hzlib : tools.Infallible) {rgba : Bytes}
    {width height : ℕ} (h : width * height * 4 = rgba.length)
    (hroom : rgba.length + height ≤ isizeMax) :
    ∃ png, encodePngRgba tools rgba width height = some (.ok png) := by
  obtain ⟨compressed, hz⟩ := hzlib.zlib (Png.filterRows (width * 4) height rgba)
  rw [encodePngRgba_eq tools h hroom, hz]
  exact ⟨_, rfl⟩

/-- A consistent skin of a size that fits in memory is encoded. -/
theorem encodePngRgba_isOk {tools : CaptureTools} (hzlib : tools.Infallible) {rgba : Bytes}
    {width height : ℕ} (hw : 0 < width) (h : width * height * 4 = rgba.length)
    (hlen : rgba.length < 2 ^ 62) :
    ∃ png, encodePngRgba tools rgba width height = some (.ok png) := by
  have hheight : height ≤ width * height := Nat.le_mul_of_pos_left _ hw
  have hroom : rgba.length + height ≤ isizeMax := by
    unfold isizeMax
    omega
  exact encodePngRgba_isOk_of_room hzlib h hroom

theorem numberedStemLoop_isSome_iff (fs : FileSystem) (skinsDir baseName : Str) (fuel count : ℕ) :
    (numberedStemLoop fs skinsDir baseName fuel count).isSome ↔
      ∃ k, count ≤ k ∧ k ≤ count + fuel ∧ stemIsFree fs skinsDir (numberedStem baseName k) := by
  induction fuel generalizing count with
  | zero =>
    unfold numberedStemLoop
    constructor
    · intro h
      exact ⟨count, le_rfl, le_rfl, by_contra fun hf => by simp [hf] at h⟩
    · rintro ⟨k, h1, h2, hk⟩
      obtain rfl : k = count := by omega
      simp [hk]
  | succ fuel ih =>
    unfold numberedStemLoop
    by_cases hf : stemIsFree fs skinsDir (numberedStem baseName count)
    · rw [if_pos hf]
      exact iff_of_true rfl ⟨count, le_rfl, by omega, hf⟩
    · rw [if_neg hf, ih]
      constructor
      · rintro ⟨k, h1, h2, hk⟩
        exact ⟨k, by omega, by omega, hk⟩
      · rintro ⟨k, h1, h2, hk⟩
        have hne : k ≠ count := fun h => hf (h ▸ hk)
        exact ⟨k, by omega, by omega, hk⟩

/-- Some name of the numbered sequence is not taken. -/
def HasFreeStem (fs : FileSystem) (skinsDir baseName : Str) : Prop :=
  stemIsFree fs skinsDir baseName = true ∨
    ∃ k, 1 ≤ k ∧ k ≤ u32Max ∧ stemIsFree fs skinsDir (numberedStem baseName k) = true

theorem nextAvailableStem_isSome_iff (fs : FileSystem) (skinsDir baseName : Str) :
    (nextAvailableStem fs skinsDir baseName).isSome ↔ HasFreeStem fs skinsDir baseName := by
  unfold nextAvailableStem HasFreeStem
  by_cases h : stemIsFree fs skinsDir baseName
  · simp [h]
  · have hmax : 1 + (u32Max - 1) = u32Max := by decide
    rw [if_neg h, numberedStemLoop_isSome_iff, hmax]
    simp [h]

end SkinGetBE
