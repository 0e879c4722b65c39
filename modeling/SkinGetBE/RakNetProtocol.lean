import SkinGetBE.Buffer

/-!
# Frame sets

The receiving side of the frame format. A length counts bits or octets, and the
reading that gets further is kept. A read outside of the datagram would be a
panic of the program, and is told apart here from a frame that is refused.
-/
namespace SkinGetBE.RakNet
open Octets Text

/-- A single frame extracted from a frame set. -/
structure RakNetFrame where
  reliability : ℕ
  isSplit : Bool
  payload : Bytes
  reliableSeq : Option ℕ
  orderIndex : Option ℕ
  orderChannel : Option ℕ
  splitCount : Option ℕ
  splitId : Option ℕ
  splitIndex : Option ℕ
  deriving DecidableEq, Repr

structure FrameSet where
  id : UInt8
  seq : ℕ
  frames : List RakNetFrame
  deriving DecidableEq, Repr

inductive FrameLengthMode
  | bits
  | bytes
  deriving DecidableEq, Repr

/-- Why a frame is not read: the answer `None`, or an index out of range. -/
inductive FrameStop
  | refused
  | outOfBounds
  deriving DecidableEq, Repr

def octetAt (data : Bytes) (i : ℕ) : Except FrameStop UInt8 :=
  match data[i]? with
  | some b => .ok b
  | none => .error .outOfBounds

def sliceAt (data : Bytes) (start stop : ℕ) : Except FrameStop Bytes :=
  if start ≤ stop ∧ stop ≤ data.length then .ok ((data.drop start).take (stop - start))
  else .error .outOfBounds

def readU24Le (data : Bytes) (off : ℕ) : Except FrameStop (ℕ × ℕ) :=
  if off + 3 > data.length then .error .refused
  else do
    let b0 ← octetAt data off
    let b1 ← octetAt data (off + 1)
    let b2 ← octetAt data (off + 2)
    .ok (b0.toNat ||| (b1.toNat <<< 8) ||| (b2.toNat <<< 16), off + 3)

def readU16Be (data : Bytes) (off : ℕ) : Except FrameStop (ℕ × ℕ) :=
  if off + 2 > data.length then .error .refused
  else do
    let b0 ← octetAt data off
    let b1 ← octetAt data (off + 1)
    .ok (beValue [b0, b1], off + 2)

def readU32Be (data : Bytes) (off : ℕ) : Except FrameStop (ℕ × ℕ) :=
  if off + 4 > data.length then .error .refused
  else do
    let b0 ← octetAt data off
    let b1 ← octetAt data (off + 1)
    let b2 ← octetAt data (off + 2)
    let b3 ← octetAt data (off + 3)
    .ok (beValue [b0, b1, b2, b3], off + 4)

/-- What an offset has in front of it, the reads find. -/
theorem octetAt_of_drop {data tl : Bytes} {x : UInt8} {i : ℕ} (h : data.drop i = x :: tl) :
    octetAt data i = .ok x := by
  have hx : data[i]? = some x := by
    rw [← List.head?_drop, h, List.head?_cons]
  unfold octetAt
  rw [hx]

theorem drop_add_one {data tl : Bytes} {x : UInt8} {i : ℕ} (h : data.drop i = x :: tl) :
    data.drop (i + 1) = tl := by
  rw [← List.drop_drop, h, List.drop_succ_cons, List.drop_zero]

theorem drop_add_length {data w tl : Bytes} {i : ℕ} (h : data.drop i = w ++ tl) :
    data.drop (i + w.length) = tl := by
  rw [← List.drop_drop, h, List.drop_left]

theorem length_of_drop {data w : Bytes} {i : ℕ} (h : data.drop i = w) (hi : i ≤ data.length) :
    data.length = i + w.length := by
  have hl := congrArg List.length h
  rw [List.length_drop] at hl
  omega

theorem sliceAt_of_drop {data w tl : Bytes} {start : ℕ} (h : data.drop start = w ++ tl)
    (hstart : start ≤ data.length) : sliceAt data start (start + w.length) = .ok w := by
  have hlen := length_of_drop h hstart
  rw [List.length_append] at hlen
  unfold sliceAt
  rw [if_pos ⟨by omega, by omega⟩, h, Nat.add_sub_cancel_left, List.take_left]

theorem readU24Le_of_drop {data tl : Bytes} {v off : ℕ} (hv : v < 2 ^ 24)
    (h : data.drop off = leBytes 3 v ++ tl) (hoff : off ≤ data.length) :
    readU24Le data off = .ok (v, off + 3) := by
  have hlen := length_of_drop h hoff
  simp only [List.length_append, leBytes_length] at hlen
  have h0 : data.drop off = UInt8.ofNat (v % 256) :: UInt8.ofNat (v / 256 % 256) ::
      UInt8.ofNat (v / 256 / 256 % 256) :: tl := h
  have h1 := drop_add_one h0
  have h2 := drop_add_one h1
  have e1 : v % 256 ||| (v / 256 % 256) <<< 8 = v % 256 + v / 256 % 256 * 2 ^ 8 :=
    or_shiftLeft (i := 8) (Nat.mod_lt v (by omega)) _
  have e2 := or_shiftLeft (a := v % 256 + v / 256 % 256 * 2 ^ 8) (i := 16) (by omega)
    (v / 256 / 256 % 256)
  unfold readU24Le
  rw [if_neg (by omega), octetAt_of_drop h0, octetAt_of_drop h1, octetAt_of_drop h2]
  simp only [bind, Except.bind, toNat_ofNat_mod, e1, e2]
  have hval : v % 256 + v / 256 % 256 * 2 ^ 8 + v / 256 / 256 % 256 * 2 ^ 16 = v := by omega
  rw [hval]

theorem readU16Be_of_drop {data tl : Bytes} {v off : ℕ} (hv : v < 2 ^ 16)
    (h : data.drop off = beBytes 2 v ++ tl) (hoff : off ≤ data.length) :
    readU16Be data off = .ok (v, off + 2) := by
  have hlen := length_of_drop h hoff
  simp only [List.length_append, beBytes_length] at hlen
  have h0 : data.drop off = UInt8.ofNat (v / 256 % 256) :: UInt8.ofNat (v % 256) :: tl := h
  have hval : beValue [UInt8.ofNat (v / 256 % 256), UInt8.ofNat (v % 256)] = v :=
    beValue_beBytes_of_lt (n := 2) hv
  unfold readU16Be
  rw [if_neg (by omega), octetAt_of_drop h0, octetAt_of_drop (drop_add_one h0)]
  simp only [bind, Except.bind, hval]

theorem readU32Be_of_drop {data tl : Bytes} {v off : ℕ} (hv : v < 2 ^ 32)
    (h : data.drop off = beBytes 4 v ++ tl) (hoff : off ≤ data.length) :
    readU32Be data off = .ok (v, off + 4) := by
  have hlen := length_of_drop h hoff
  simp only [List.length_append, beBytes_length] at hlen
  have h0 : data.drop off = UInt8.ofNat (v / 256 / 256 / 256 % 256) ::
      UInt8.ofNat (v / 256 / 256 % 256) :: UInt8.ofNat (v / 256 % 256) ::
      UInt8.ofNat (v % 256) :: tl := h
  have h1 := drop_add_one h0
  have h2 := drop_add_one h1
  have h3 := drop_add_one h2
  have hval : beValue [UInt8.ofNat (v / 256 / 256 / 256 % 256),
      UInt8.ofNat (v / 256 / 256 % 256), UInt8.ofNat (v / 256 % 256), UInt8.ofNat (v % 256)] = v :=
    beValue_beBytes_of_lt (n := 4) hv
  unfold readU32Be
  rw [if_neg (by omega), octetAt_of_drop h0, octetAt_of_drop h1, octetAt_of_drop h2,
    octetAt_of_drop h3]
  simp only [bind, Except.bind, hval]

/-- Reliabilities that carry a reliable index. -/
def hasReliable (reliability : ℕ) : Bool := [2, 3, 4, 6, 7].contains reliability

/-- Reliabilities that carry an ordering index and a channel. -/
def hasOrdering (reliability : ℕ) : Bool := [1, 3, 4, 7].contains reliability

/-- The octets of a header between the length and the payload or the split header. -/
def headerOverhead (reliability : ℕ) : ℕ :=
  (if hasReliable reliability then 3 else 0) + (if hasOrdering reliability then 4 else 0)

def readReliableSeq (data : Bytes) (reliability off : ℕ) : Except FrameStop (Option ℕ × ℕ) :=
  if hasReliable reliability then do
    let (seq, off) ← readU24Le data off
    .ok (some seq, off)
  else .ok (none, off)

/-- The channel is a small number; a larger one means that the frames are misaligned. -/
def readOrdering (data : Bytes) (reliability off : ℕ) :
    Except FrameStop (Option ℕ × Option ℕ × ℕ) :=
  if hasOrdering reliability then do
    let (index, off) ← readU24Le data off
    if off ≥ data.length then .error .refused
    else do
      let channel ← octetAt data off
      if channel.toNat > 31 then .error .refused
      else .ok (some index, some channel.toNat, off + 1)
  else .ok (none, none, off)

def readSplitHeader (data : Bytes) (isSplit : Bool) (off : ℕ) :
    Except FrameStop (Option ℕ × Option ℕ × Option ℕ × ℕ) :=
  if isSplit then do
    let (count, off) ← readU32Be data off
    let (id, off) ← readU16Be data off
    let (index, off) ← readU32Be data off
    if count > 1024 then .error .refused else .ok (some count, some id, some index, off)
  else .ok (none, none, none, off)

def frameByteLen (mode : FrameLengthMode) (lenBe : ℕ) : ℕ :=
  match mode with
  | .bits => (lenBe + 7) / 8
  | .bytes => lenBe

/-- The frame at `start` and the offset behind it. The last but one slice is the raw dump. -/
def parseFrame (data : Bytes) (start : ℕ) (mode : FrameLengthMode) :
    Except FrameStop (RakNetFrame × ℕ) :=
  if start + 3 > data.length then .error .refused
  else do
    let flags ← octetAt data start
    let reliability := ((flags >>> 5) &&& 0x07).toNat
    let isSplit := (flags &&& 0x10) != 0
    let (lenBe, off) ← readU16Be data (start + 1)
    let byteLen := frameByteLen mode lenBe
    if byteLen > data.length - (off + headerOverhead reliability) then .error .refused
    else do
      let (reliableSeq, off) ← readReliableSeq data reliability off
      let (orderIndex, orderChannel, off) ← readOrdering data reliability off
      let (splitCount, splitId, splitIndex, off) ← readSplitHeader data isSplit off
      if off + byteLen > data.length then .error .refused
      else do
        let frameEnd := min data.length (off + byteLen)
        let _ ← sliceAt data start (start + min 256 (frameEnd - start))
        let payload ← sliceAt data off (off + byteLen)
        .ok (⟨reliability, isSplit, payload, reliableSeq, orderIndex, orderChannel, splitCount,
          splitId, splitIndex⟩, off + byteLen)

/-- A batch of the game whose frame is longer than its length field can say. -/
def isOversizedBatch (payload : Bytes) : Bool :=
  match payload with
  | 0xFE :: 0x00 :: _ => true
  | 0xFE :: 0xFF :: _ => true
  | _ => false

/-- What a refused frame leads to: the octets that are left either belong to the
single batch frame before them, or the reading has failed. -/
def refusedFrame (data : Bytes) (mode : FrameLengthMode) (offset : ℕ)
    (frames : List RakNetFrame) : Except FrameStop (List RakNetFrame × ℕ × Bool) :=
  let failed := do
    let _ ← sliceAt data offset (offset + min 32 (data.length - offset))
    .ok (frames, offset, true)
  match mode, frames with
  | .bytes, [frame] =>
    if isOversizedBatch frame.payload then do
      let trailing ← sliceAt data offset data.length
      .ok ([{ frame with payload := frame.payload ++ trailing }], data.length, false)
    else failed
  | _, _ => failed

/-- One round per frame. A frame takes at least three octets, so the length of
the datagram is a sufficient budget. -/
def parseFramesLoop (data : Bytes) (mode : FrameLengthMode) :
    ℕ → ℕ → List RakNetFrame → Except FrameStop (List RakNetFrame × ℕ × Bool)
  | 0, offset, frames => .ok (frames, offset, false)
  | fuel + 1, offset, frames =>
    if offset < data.length then
      match parseFrame data offset mode with
      | .ok (frame, newOffset) =>
        if frame.isSplit && newOffset < data.length then .ok (frames ++ [frame], newOffset, false)
        else parseFramesLoop data mode fuel newOffset (frames ++ [frame])
      | .error .refused => refusedFrame data mode offset frames
      | .error .outOfBounds => .error .outOfBounds
    else .ok (frames, offset, false)

def parseFrameSetWithMode (data : Bytes) (mode : FrameLengthMode) :
    Except FrameStop (List RakNetFrame × ℕ × Bool) :=
  parseFramesLoop data mode data.length 4 []

/-- The frames of the reading that is selected. -/
def selectFrames (data : Bytes) : Except FrameStop (List RakNetFrame) := do
  let (bitsFrames, bitsOffset, bitsFailed) ← parseFrameSetWithMode data .bits
  if bitsFailed || bitsOffset < data.length then do
    let (byteFrames, byteOffset, byteFailed) ← parseFrameSetWithMode data .bytes
    let byteIsBetter := !byteFrames.isEmpty &&
      (byteOffset > bitsOffset || (bitsFailed && !byteFailed))
    .ok (if byteIsBetter then byteFrames else bitsFrames)
  else .ok bitsFrames

def hexDigit (n : ℕ) : Char := (Nat.toDigits 16 n).headD '0'

def notAFrameSet (id : UInt8) : Error :=
  .protocolError (String.ofList ("Not a frame set: 0x".toList ++
    [hexDigit (id.toNat / 16), hexDigit (id.toNat % 16)]))

/-- The outer result is a panic when it is `none`. -/
def parseFrameSet (data : Bytes) : Option (Except Error FrameSet) :=
  match data with
  | id :: s0 :: s1 :: s2 :: _ =>
    if 0x80 ≤ id ∧ id ≤ 0x8d then
      match selectFrames data with
      | .ok frames => some (.ok ⟨id, leValue [s0, s1, s2, 0], frames⟩)
      | .error _ => none
    else some (.error (notAFrameSet id))
  | _ => some (.error (.invalidData "Frame set too short"))

end SkinGetBE.RakNet
