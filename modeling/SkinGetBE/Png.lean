import SkinGetBE.Inflate

/-!
# Images in PNG files

A reader for the plainest kind of file: eight bits a channel, red, green, blue and
opacity, no interlacing, and rows that are not filtered. The chunks are checked, and
the image is found in what their data inflates to.
-/
namespace Png
open Octets

structure Image where
  width : ℕ
  height : ℕ
  pixels : Bytes
  deriving DecidableEq, Repr

structure Chunk where
  kind : Bytes
  data : Bytes
  deriving DecidableEq, Repr

def signature : Bytes := [137, 80, 78, 71, 13, 10, 26, 10]

def headerKind : Bytes := [73, 72, 68, 82]

def dataKind : Bytes := [73, 68, 65, 84]

def endKind : Bytes := [73, 69, 78, 68]

def takeFront (n : ℕ) (octets : Bytes) : Option (Bytes × Bytes) :=
  if n ≤ octets.length then some (octets.take n, octets.drop n) else none

/-- A chunk has its length in front and a checksum of the rest behind. -/
def takeChunk (octets : Bytes) : Option (Chunk × Bytes) := do
  let (size, octets) ← takeFront 4 octets
  let (kind, octets) ← takeFront 4 octets
  let (data, octets) ← takeFront (beValue size) octets
  let (check, octets) ← takeFront 4 octets
  if beValue check = crc32 (kind ++ data) then some (⟨kind, data⟩, octets) else none

/-- The chunks in front of an empty last one, behind which there is nothing. At most `fuel` chunks
are read. -/
def takeChunks : ℕ → Bytes → Option (List Chunk)
  | 0, _ => none
  | fuel + 1, octets => do
    let (chunk, octets) ← takeChunk octets
    if chunk.kind = endKind then
      if chunk.data = [] ∧ octets = [] then some [] else none
    else do
      let chunks ← takeChunks fuel octets
      some (chunk :: chunks)

/-- The sizes of an image that is of the plainest kind. -/
def readHeader (data : Bytes) : Option (ℕ × ℕ) := do
  let (width, data) ← takeFront 4 data
  let (height, data) ← takeFront 4 data
  if 0 < beValue width ∧ 0 < beValue height ∧ data = [8, 6, 0, 0, 0] then
    some (beValue width, beValue height)
  else none

/-- The pixels of rows that are each behind a zero. -/
def unfilterRows (rowBytes : ℕ) : ℕ → Bytes → Option Bytes
  | 0, raw => if raw = [] then some [] else none
  | rows + 1, raw => do
    let (filter, raw) ← takeFront 1 raw
    let (row, raw) ← takeFront rowBytes raw
    let pixels ← unfilterRows rowBytes rows raw
    if filter = [0] then some (row ++ pixels) else none

def readPixels (width height : ℕ) (compressed : Bytes) : Option Bytes :=
  match Zlib.inflate compressed with
  | .ok (raw, []) => unfilterRows (width * 4) height raw
  | _ => none

def read (octets : Bytes) : Option Image := do
  let (front, octets) ← takeFront 8 octets
  let chunks ← takeChunks octets.length octets
  match chunks with
  | [] => none
  | header :: parts =>
    if front = signature ∧ header.kind = headerKind ∧ ∀ part ∈ parts, part.kind = dataKind then do
      let (width, height) ← readHeader header.data
      let pixels ← readPixels width height (parts.flatMap Chunk.data)
      some ⟨width, height, pixels⟩
    else none

/-- The octets of a chunk. -/
def chunkOctets (kind data : Bytes) : Bytes :=
  beBytes 4 data.length ++ kind ++ data ++ beBytes 4 (crc32 (kind ++ data))

def headerOctets (width height : ℕ) : Bytes :=
  beBytes 4 width ++ beBytes 4 height ++ [8, 6, 0, 0, 0]

/-- Rows of pixels, each behind a zero. -/
def filterRows (rowBytes : ℕ) : ℕ → Bytes → Bytes
  | 0, _ => []
  | rows + 1, pixels =>
    0 :: (pixels.take rowBytes ++ filterRows rowBytes rows (pixels.drop rowBytes))

theorem takeFront_append {n : ℕ} {w : Bytes} (hw : w.length = n) (tl : Bytes) :
    takeFront n (w ++ tl) = some (w, tl) := by
  subst hw
  unfold takeFront
  rw [if_pos (by rw [List.length_append]; omega), List.take_left, List.drop_left]

theorem takeChunk_append {kind data : Bytes} (hkind : kind.length = 4)
    (hdata : data.length < 2 ^ 32) (tl : Bytes) :
    takeChunk (chunkOctets kind data ++ tl) = some (⟨kind, data⟩, tl) := by
  have hsize : beValue (beBytes 4 data.length) = data.length :=
    beValue_beBytes_of_lt (n := 4) hdata
  have hcheck : beValue (beBytes 4 (crc32 (kind ++ data))) = crc32 (kind ++ data) :=
    beValue_beBytes_of_lt (n := 4) (crc32_lt _)
  unfold takeChunk chunkOctets
  simp only [List.append_assoc, Option.bind_eq_bind]
  rw [takeFront_append (beBytes_length 4 _), Option.bind_some, takeFront_append hkind,
    Option.bind_some, takeFront_append hsize.symm, Option.bind_some,
    takeFront_append (beBytes_length 4 _), Option.bind_some]
  exact if_pos hcheck

theorem chunkOctets_length_pos (kind data : Bytes) : 0 < (chunkOctets kind data).length := by
  unfold chunkOctets
  simp only [List.length_append, beBytes_length]
  omega

theorem takeChunks_end (fuel : ℕ) : takeChunks (fuel + 1) (chunkOctets endKind []) = some [] := by
  have hchunk : takeChunk (chunkOctets endKind [] ++ []) = some (⟨endKind, []⟩, []) :=
    takeChunk_append rfl (by decide) []
  rw [List.append_nil] at hchunk
  unfold takeChunks
  rw [hchunk]
  rfl

theorem takeChunks_cons (fuel : ℕ) {kind data octets : Bytes} {chunks : List Chunk}
    (hkind : kind.length = 4) (hne : kind ≠ endKind) (hdata : data.length < 2 ^ 32)
    (h : takeChunks fuel octets = some chunks) :
    takeChunks (fuel + 1) (chunkOctets kind data ++ octets) = some (⟨kind, data⟩ :: chunks) := by
  unfold takeChunks
  rw [takeChunk_append hkind hdata, Option.bind_eq_bind, Option.bind_some]
  dsimp only
  rw [if_neg hne, h]
  rfl

theorem readHeader_headerOctets {width height : ℕ} (hw : 0 < width) (hh : 0 < height)
    (hw32 : width < 2 ^ 32) (hh32 : height < 2 ^ 32) :
    readHeader (headerOctets width height) = some (width, height) := by
  have hwidth : beValue (beBytes 4 width) = width := beValue_beBytes_of_lt (n := 4) hw32
  have hheight : beValue (beBytes 4 height) = height := beValue_beBytes_of_lt (n := 4) hh32
  unfold readHeader headerOctets
  simp only [List.append_assoc, Option.bind_eq_bind]
  rw [takeFront_append (beBytes_length 4 _), Option.bind_some]
  dsimp only
  rw [takeFront_append (beBytes_length 4 _), Option.bind_some, hwidth, hheight]
  exact if_pos ⟨hw, hh, rfl⟩

theorem unfilterRows_filterRows (rowBytes rows : ℕ) {pixels : Bytes}
    (h : pixels.length = rows * rowBytes) :
    unfilterRows rowBytes rows (filterRows rowBytes rows pixels) = some pixels := by
  induction rows generalizing pixels with
  | zero =>
    rw [Nat.zero_mul] at h
    rw [List.length_eq_zero_iff.mp h]
    rfl
  | succ rows ih =>
    have hsucc : (rows + 1) * rowBytes = rows * rowBytes + rowBytes := Nat.succ_mul _ _
    have hrow : (pixels.take rowBytes).length = rowBytes := by
      rw [List.length_take]
      omega
    have hrest : (pixels.drop rowBytes).length = rows * rowBytes := by
      rw [List.length_drop]
      omega
    have hfilter := takeFront_append (n := 1) (w := [0]) rfl
      (pixels.take rowBytes ++ filterRows rowBytes rows (pixels.drop rowBytes))
    unfold unfilterRows filterRows
    simp only [Option.bind_eq_bind]
    rw [← List.singleton_append, hfilter, Option.bind_some]
    dsimp only
    rw [takeFront_append hrow, Option.bind_some]
    dsimp only
    rw [ih hrest, Option.bind_some, if_pos rfl, List.take_append_drop]

theorem filterRows_length (rowBytes rows : ℕ) {pixels : Bytes}
    (h : pixels.length = rows * rowBytes) :
    (filterRows rowBytes rows pixels).length = pixels.length + rows := by
  induction rows generalizing pixels with
  | zero =>
    rw [h, Nat.zero_mul]
    rfl
  | succ rows ih =>
    have hsucc : (rows + 1) * rowBytes = rows * rowBytes + rowBytes := Nat.succ_mul _ _
    have hrest : (pixels.drop rowBytes).length = rows * rowBytes := by
      rw [List.length_drop]
      omega
    rw [filterRows, List.length_cons, List.length_append, ih hrest, List.length_take,
      List.length_drop]
    omega

/-- A header, the compressed rows and the end are read as the image. -/
theorem read_image {width height : ℕ} {pixels compressed : Bytes} (hw : 0 < width)
    (hh : 0 < height) (hw32 : width < 2 ^ 32) (hh32 : height < 2 ^ 32)
    (hpixels : pixels.length = height * (width * 4)) (hsmall : compressed.length < 2 ^ 32)
    (hstream : Zlib.IsStream compressed (filterRows (width * 4) height pixels)) :
    read (signature ++ (chunkOctets headerKind (headerOctets width height) ++
      (chunkOctets dataKind compressed ++ chunkOctets endKind []))) =
        some ⟨width, height, pixels⟩ := by
  have hheader : (headerOctets width height).length < 2 ^ 32 := by
    simp [headerOctets]
  have hfuel : ∃ fuel, (chunkOctets headerKind (headerOctets width height) ++
      (chunkOctets dataKind compressed ++ chunkOctets endKind [])).length = fuel + 3 := by
    have h₁ := chunkOctets_length_pos headerKind (headerOctets width height)
    have h₂ := chunkOctets_length_pos dataKind compressed
    have h₃ := chunkOctets_length_pos endKind []
    rw [List.length_append, List.length_append]
    exact ⟨_, (Nat.sub_add_cancel (by omega)).symm⟩
  obtain ⟨fuel, hfuel⟩ := hfuel
  have hheaderKind : headerKind ≠ endKind := by decide
  have hdataKind : dataKind ≠ endKind := by decide
  have hchunks := takeChunks_cons (fuel + 2) rfl hheaderKind hheader
    (takeChunks_cons (fuel + 1) rfl hdataKind hsmall (takeChunks_end fuel))
  have hread : readPixels width height compressed = some pixels := by
    unfold readPixels
    rw [hstream]
    exact unfilterRows_filterRows (width * 4) height hpixels
  unfold read
  simp only [Option.bind_eq_bind]
  rw [takeFront_append (n := 8) rfl, Option.bind_some]
  dsimp only
  rw [hfuel, hchunks, Option.bind_some]
  dsimp only
  rw [if_pos ⟨rfl, rfl, by simp⟩, readHeader_headerOctets hw hh hw32 hh32, Option.bind_some]
  simp [hread]

end Png
