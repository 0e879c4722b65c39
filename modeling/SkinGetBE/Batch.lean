import SkinGetBE.Buffer

/-!
# Batches of length-prefixed packets

The compression package is a parameter: an encoder, and decoders that are pulled
one octet at a time and may end, fail, or go on for ever. The bound on what is
pulled is the program's own.
-/
namespace SkinGetBE
open Octets

/-- The answer of a decoder that is asked for one more octet. -/
inductive Pull
  | octet (value : UInt8)
  | finished
  | failed (message : String)
  deriving DecidableEq, Repr

/-- A decoder that has been given its input: the answer to each successive pull. -/
abbrev Decoder := ℕ → Pull

/-- The decoder that yields `data` and then ends. -/
def yields (data : Bytes) : Decoder := fun i =>
  match data[i]? with
  | some value => .octet value
  | none => .finished

structure Flate2 where
  deflateEncode : Bytes → Except String Bytes
  deflateDecoder : Bytes → Decoder
  zlibEncode : Bytes → Except String Bytes
  zlibDecoder : Bytes → Decoder

/-- The documented behaviour of the encoder into memory and of the raw decoder. -/
def Flate2.DeflateInverts (flate : Flate2) : Prop :=
  ∀ data, ∃ encoded, flate.deflateEncode data = .ok encoded ∧
    flate.deflateDecoder encoded = yields data

def maxDecompressedSize : ℕ := 10 * 1024 * 1024

/-- `Read::take` followed by `read_to_end`: at most `limit` pulls, from the `i`-th on. -/
def takeToEnd (decoder : Decoder) : ℕ → ℕ → Except String Bytes
  | 0, _ => .ok []
  | limit + 1, i =>
    match decoder i with
    | .finished => .ok []
    | .failed message => .error message
    | .octet value =>
      match takeToEnd decoder limit (i + 1) with
      | .ok out => .ok (value :: out)
      | .error message => .error message

def readBounded (decoder : Decoder) : Except Error Bytes :=
  match takeToEnd decoder (maxDecompressedSize + 1) 0 with
  | .error e => .error (.other s!"batch decompression failed: {e}")
  | .ok out =>
    if out.length > maxDecompressedSize then
      .error (.other s!"decompressed too large: {out.length} bytes")
    else .ok out

def decompressRawDeflate (flate : Flate2) (data : Bytes) : Except Error Bytes :=
  readBounded (flate.deflateDecoder data)

def decompressZlib (flate : Flate2) (data : Bytes) : Except Error Bytes :=
  readBounded (flate.zlibDecoder data)

/-- `or_else`: the second computation runs only when the first one failed. -/
def orElseOk {α : Type} (first second : Except Error α) : Except Error α :=
  match first with
  | .ok a => .ok a
  | .error _ => second

def decompressCompressedPayload (flate : Flate2) (data : Bytes) : Except Error Bytes :=
  match data with
  | 0 :: payload => orElseOk (decompressRawDeflate flate payload) (decompressZlib flate payload)
  | 0xff :: payload =>
    if payload.length ≤ maxDecompressedSize then .ok payload
    else .error (.invalidData "batch too large")
  | _ => orElseOk (decompressRawDeflate flate data) (decompressZlib flate data)

def decompressBatch (flate : Flate2) (data : Bytes) (compressionEnabled : Bool) :
    Except Error Bytes :=
  if data.isEmpty then .error (.invalidData "Empty batch data")
  else if compressionEnabled = false then .ok data
  else decompressCompressedPayload flate data

def compressBatch (flate : Flate2) (data : Bytes) : Except Error Bytes :=
  match flate.deflateEncode data with
  | .error e => .error (.other s!"deflate encode error: {e}")
  | .ok compressed => .ok (0 :: compressed)

/-- Pulling a finite decoder to its end yields its octets up to the limit. -/
theorem takeToEnd_yields (data : Bytes) (limit i : ℕ) :
    takeToEnd (yields data) limit i = .ok ((data.drop i).take limit) := by
  induction limit generalizing i with
  | zero => simp [takeToEnd]
  | succ limit ih =>
    unfold takeToEnd
    by_cases h : i < data.length
    · have hi : yields data i = .octet data[i] := by simp [yields, h]
      rw [hi, List.drop_eq_getElem_cons h, List.take_succ_cons]
      simp only [ih]
    · have hi : yields data i = .finished := by simp [yields, h]
      rw [hi, List.drop_eq_nil_of_le (by omega)]
      simp

theorem readBounded_yields {data : Bytes} (h : data.length ≤ maxDecompressedSize) :
    readBounded (yields data) = .ok data := by
  unfold readBounded
  rw [takeToEnd_yields, List.drop_zero, List.take_of_length_le (by omega)]
  exact if_neg (by omega)

theorem decompressCompressedPayload_raw (flate : Flate2) (payload : Bytes) :
    decompressCompressedPayload flate (0 :: payload) =
      orElseOk (decompressRawDeflate flate payload) (decompressZlib flate payload) := rfl

theorem decompressCompressedPayload_stored (flate : Flate2) (payload : Bytes) :
    decompressCompressedPayload flate (0xff :: payload) =
      if payload.length ≤ maxDecompressedSize then .ok payload
      else .error (.invalidData "batch too large") := rfl

/-- A payload without a known first octet is tried whole. -/
theorem decompressCompressedPayload_legacy (flate : Flate2) {data : Bytes}
    (hraw : data.head? ≠ some 0) (hstored : data.head? ≠ some 0xff) :
    decompressCompressedPayload flate data =
      orElseOk (decompressRawDeflate flate data) (decompressZlib flate data) := by
  unfold decompressCompressedPayload
  split
  · simp at hraw
  · simp at hstored
  · rfl

theorem decompressBatch_cons (flate : Flate2) (first : UInt8) (data : Bytes) :
    decompressBatch flate (first :: data) true =
      decompressCompressedPayload flate (first :: data) := rfl

/-- Without compression the batch is passed on as it is. -/
theorem decompressBatch_plain (flate : Flate2) {data : Bytes} (h : data ≠ []) :
    decompressBatch flate data false = .ok data := by
  simp [decompressBatch, h]

/-- What the writer compresses, the reader restores. -/
theorem decompressBatch_compressBatch {flate : Flate2} (hz : flate.DeflateInverts) {data : Bytes}
    (h : data.length ≤ maxDecompressedSize) : ∃ encoded,
    compressBatch flate data = .ok (0 :: encoded) ∧
      decompressBatch flate (0 :: encoded) true = .ok data := by
  obtain ⟨encoded, henc, hdec⟩ := hz data
  refine ⟨encoded, ?_, ?_⟩
  · unfold compressBatch
    rw [henc]
  · have hraw : decompressRawDeflate flate encoded = .ok data := by
      unfold decompressRawDeflate
      rw [hdec, readBounded_yields h]
    simp [decompressBatch, decompressCompressedPayload, hraw, orElseOk]

/-- One round per packet. Each round consumes at least the octet of a length, so
more than the unread octets is a sufficient budget. -/
def parseBatchLoop : ℕ → Buffer → List Bytes
  | 0, _ => []
  | fuel + 1, buf =>
    if buf.hasRemaining then
      match buf.readVarInt with
      | (.error _, _) => []
      | (.ok length, buf) =>
        if buf.remaining < length then []
        else
          match buf.readBytes length with
          | (.error _, _) => []
          | (.ok p, buf) => p :: parseBatchLoop fuel buf
    else []

def parseBatch (data : Bytes) : Except Error (List Bytes) :=
  .ok (parseBatchLoop (data.length + 1) (.ofBytes data))

/-- A packet behind its length. -/
def packetFrame (packet : Bytes) : Bytes := leb128 packet.length ++ packet

theorem packetFrame_length_pos (packet : Bytes) : 0 < (packetFrame packet).length := by
  have h := List.length_pos_iff.mpr (leb128_ne_nil packet.length)
  simp only [packetFrame, List.length_append]
  omega

theorem packetFrame_ne_nil (packet : Bytes) : packetFrame packet ≠ [] :=
  List.length_pos_iff.mp (packetFrame_length_pos packet)

/-- A length of at most five octets that the buffer reads, and a packet of that length. -/
def IsFrame (frame packet : Bytes) : Prop :=
  ∃ varInt buf, frame = varInt ++ packet ∧ varInt.length ≤ 5 ∧
    (Buffer.ofBytes varInt).readVarInt = (.ok packet.length, buf) ∧ buf.rest = []

def StartsWithFrame (data : Bytes) : Prop :=
  ∃ frame packet tl, data = frame ++ tl ∧ IsFrame frame packet

/-- The groups of the length, and the length itself. -/
theorem isFrame_iff {frame packet : Bytes} : IsFrame frame packet ↔ ∃ init last,
    frame = init ++ last :: packet ∧ (∀ x ∈ init, 128 ≤ x.toNat) ∧ last.toNat < 128 ∧
      init.length < 5 ∧ packet.length = groupValue (init ++ [last]) % 2 ^ 32 := by
  constructor
  · rintro ⟨varInt, buf, rfl, -, hread, hend⟩
    obtain ⟨init, last, tl, hrest, hinit, hlast, hlen, hvalue, rfl⟩ :=
      Buffer.readVarInt_ok_iff.mp hread
    rw [Buffer.rest_ofBytes] at hrest
    obtain rfl : tl = [] := by
      rw [Buffer.rest_advance, Buffer.rest_ofBytes, hrest, List.drop_eq_nil_iff,
        List.length_append, List.length_cons] at hend
      exact List.length_eq_zero_iff.mp (by omega)
    exact ⟨init, last, by rw [hrest]; simp, hinit, hlast, hlen, hvalue⟩
  · rintro ⟨init, last, rfl, hinit, hlast, hlen, hvalue⟩
    have hread := Buffer.readVarInt_mod init last [] hinit hlast hlen
      (Buffer.rest_ofBytes (init ++ [last]))
    refine ⟨init ++ [last], _, by simp, ?_, hvalue ▸ hread, ?_⟩
    · rw [List.length_append, List.length_singleton]
      omega
    · rw [Buffer.rest_advance, Buffer.rest_ofBytes, List.drop_eq_nil_iff, List.length_append,
        List.length_singleton]

theorem IsFrame.length_pos {frame packet : Bytes} (h : IsFrame frame packet) :
    0 < frame.length := by
  obtain ⟨init, last, rfl, -⟩ := isFrame_iff.mp h
  rw [List.length_append, List.length_cons]
  omega

theorem not_startsWithFrame_nil : ¬ StartsWithFrame [] := by
  rintro ⟨frame, packet, tl, hnil, hframe⟩
  have hpos := hframe.length_pos
  have hlen := congrArg List.length hnil
  rw [List.length_nil, List.length_append] at hlen
  omega

theorem parseBatchLoop_isFrame (fuel : ℕ) {buf : Buffer} {frame packet tl : Bytes}
    (hframe : IsFrame frame packet) (h : buf.rest = frame ++ tl) :
    ∃ next : Buffer, next.rest = tl ∧
      parseBatchLoop (fuel + 1) buf = packet :: parseBatchLoop fuel next := by
  obtain ⟨init, last, rfl, hinit, hlast, hlen, hvalue⟩ := isFrame_iff.mp hframe
  have hgroups : buf.rest = init ++ last :: (packet ++ tl) := by rw [h]; simp
  have hread := Buffer.readVarInt_mod init last _ hinit hlast hlen hgroups
  rw [← hvalue] at hread
  have hrest : (buf.advance (init.length + 1)).rest = packet ++ tl := by
    rw [Buffer.rest_advance, hgroups, ← List.drop_drop, List.drop_left, List.drop_succ_cons,
      List.drop_zero]
  have hbytes := Buffer.readBytes_append hrest
  have hsome : buf.rest.isEmpty = false := by
    rw [hgroups]
    simp
  refine ⟨(buf.advance (init.length + 1)).advance packet.length, ?_, ?_⟩
  · rw [Buffer.rest_advance, hrest, List.drop_left]
  · have henough : ¬ (buf.advance (init.length + 1)).remaining < packet.length := by
      rw [Buffer.remaining_eq, hrest, List.length_append]
      omega
    simp only [parseBatchLoop, Buffer.hasRemaining_eq, hsome, Bool.not_false, if_true, hread,
      if_neg henough, hbytes]

/-- The loop ends where no complete packet begins. -/
theorem parseBatchLoop_stop (fuel : ℕ) {buf : Buffer} (h : ¬ StartsWithFrame buf.rest) :
    parseBatchLoop fuel buf = [] := by
  cases fuel with
  | zero => rfl
  | succ fuel =>
    unfold parseBatchLoop
    cases hread : buf.readVarInt with
    | mk result next =>
      cases result with
      | error e => simp
      | ok length =>
        obtain ⟨init, last, tl, hrest, hinit, hlast, hlen, rfl, rfl⟩ :=
          Buffer.readVarInt_ok_iff.mp hread
        have hnext : (buf.advance (init.length + 1)).rest = tl := by
          rw [Buffer.rest_advance, hrest, ← List.drop_drop, List.drop_left, List.drop_succ_cons,
            List.drop_zero]
        have hshort : tl.length < groupValue (init ++ [last]) % 2 ^ 32 := by
          by_contra hlong
          refine h ⟨_, tl.take (groupValue (init ++ [last]) % 2 ^ 32),
            tl.drop (groupValue (init ++ [last]) % 2 ^ 32), ?_, isFrame_iff.mpr
              ⟨init, last, rfl, hinit, hlast, hlen, ?_⟩⟩
          · rw [hrest, List.append_assoc, List.cons_append, List.take_append_drop]
          · rw [List.length_take]
            omega
        dsimp only
        rw [Buffer.remaining_eq, hnext, if_pos hshort]
        exact ite_self _

/-- Only the octets that are left count, when the budget covers them. -/
theorem parseBatchLoop_congr {fuel fuel' : ℕ} {buf buf' : Buffer} (h : buf.rest = buf'.rest)
    (hf : buf.rest.length < fuel) (hf' : buf.rest.length < fuel') :
    parseBatchLoop fuel buf = parseBatchLoop fuel' buf' := by
  induction fuel generalizing fuel' buf buf' with
  | zero => omega
  | succ fuel ih =>
    obtain ⟨fuel', rfl⟩ : ∃ k, fuel' = k + 1 := ⟨fuel' - 1, by omega⟩
    by_cases hstart : StartsWithFrame buf.rest
    · obtain ⟨frame, packet, tl, hrest, hframe⟩ := hstart
      obtain ⟨next, hnext, heq⟩ := parseBatchLoop_isFrame fuel hframe hrest
      obtain ⟨next', hnext', heq'⟩ := parseBatchLoop_isFrame fuel' hframe (h ▸ hrest)
      have hpos := hframe.length_pos
      rw [hrest, List.length_append] at hf hf'
      have hf : next.rest.length < fuel := by rw [hnext]; omega
      have hf' : next.rest.length < fuel' := by rw [hnext]; omega
      rw [heq, heq', ih (hnext.trans hnext'.symm) hf hf']
    · rw [parseBatchLoop_stop _ hstart, parseBatchLoop_stop _ (h ▸ hstart)]

/-- The packets of a list of octets. -/
def packetsOf (data : Bytes) : List Bytes := parseBatchLoop (data.length + 1) (.ofBytes data)

theorem packetsOf_frame {frame packet : Bytes} (h : IsFrame frame packet) (tl : Bytes) :
    packetsOf (frame ++ tl) = packet :: packetsOf tl := by
  obtain ⟨next, hnext, heq⟩ :=
    parseBatchLoop_isFrame (frame ++ tl).length h (Buffer.rest_ofBytes (frame ++ tl))
  have hpos := h.length_pos
  have hfuel : next.rest.length < (frame ++ tl).length := by
    rw [hnext, List.length_append]
    omega
  have hfuel' : next.rest.length < tl.length + 1 := by
    rw [hnext]
    omega
  unfold packetsOf
  rw [heq, parseBatchLoop_congr (hnext.trans (Buffer.rest_ofBytes tl).symm) hfuel hfuel']

theorem packetsOf_stop {data : Bytes} (h : ¬ StartsWithFrame data) : packetsOf data = [] :=
  parseBatchLoop_stop _ h

theorem packetsOf_frames {frames packets : List Bytes} (h : List.Forall₂ IsFrame frames packets)
    (tl : Bytes) : packetsOf (frames.flatten ++ tl) = packets ++ packetsOf tl := by
  induction h with
  | nil => rfl
  | cons hframe _ ih =>
    rw [List.flatten_cons, List.append_assoc, packetsOf_frame hframe, ih]
    rfl

/-- Complete packets as far as they go. -/
theorem exists_frames (data : Bytes) : ∃ frames packets rest, data = frames.flatten ++ rest ∧
    List.Forall₂ IsFrame frames packets ∧ ¬ StartsWithFrame rest := by
  induction hn : data.length using Nat.strong_induction_on generalizing data with
  | h n ih =>
    by_cases hstart : StartsWithFrame data
    · obtain ⟨frame, packet, tl, rfl, hframe⟩ := hstart
      have hpos := hframe.length_pos
      rw [List.length_append] at hn
      obtain ⟨frames, packets, rest, rfl, hall, hrest⟩ := ih tl.length (by omega) tl rfl
      exact ⟨frame :: frames, packet :: packets, rest, by simp, .cons hframe hall, hrest⟩
    · exact ⟨[], [], data, rfl, .nil, hstart⟩

theorem isFrame_packetFrame {packet : Bytes} (hp : packet.length < 2 ^ 32) :
    IsFrame (packetFrame packet) packet := by
  obtain ⟨init, last, he, hinit, hlast, hlen, hval⟩ := Buffer.leb128_word hp
  refine isFrame_iff.mpr ⟨init, last, ?_, hinit, hlast, hlen, ?_⟩
  · rw [packetFrame, he, List.append_assoc]
    rfl
  · rw [hval, Nat.mod_eq_of_lt hp]

theorem parseBatch_packetFrame {packet : Bytes} (hp : packet.length < 2 ^ 32) (tl : Bytes) :
    parseBatch (packetFrame packet ++ tl) = .ok (packet :: packetsOf tl) :=
  congrArg Except.ok (packetsOf_frame (isFrame_packetFrame hp) tl)

/-- The parser inverts the concatenation of packet frames. -/
theorem parseBatch_frames {packets : List Bytes} (hp : ∀ p ∈ packets, p.length < 2 ^ 32) :
    parseBatch (packets.flatMap packetFrame) = .ok packets := by
  have hall : List.Forall₂ IsFrame (packets.map packetFrame) packets := by
    rw [List.forall₂_map_left_iff, List.forall₂_same]
    exact fun p hmem => isFrame_packetFrame (hp p hmem)
  have h := packetsOf_frames hall []
  rw [List.append_nil, packetsOf_stop not_startsWithFrame_nil, List.append_nil,
    ← List.flatMap_def] at h
  exact congrArg Except.ok h

/-- The packets are the maximal run of complete ones; more octets only add packets, and after
a batch that was read to its end they are read as on their own. -/
theorem parseBatch_maximal (data : Bytes) : ∃ packets frames rest,
    parseBatch data = .ok packets ∧ data = frames.flatten ++ rest ∧
      List.Forall₂ IsFrame frames packets ∧ (rest = [] ∨ ¬ StartsWithFrame rest) ∧
      (∀ extra, ∃ more, parseBatch (data ++ extra) = .ok (packets ++ more)) ∧
      (rest = [] → ∀ extra more, parseBatch extra = .ok more →
        parseBatch (data ++ extra) = .ok (packets ++ more)) := by
  obtain ⟨frames, packets, rest, rfl, hall, hrest⟩ := exists_frames data
  have hparse (extra : Bytes) : parseBatch (frames.flatten ++ rest ++ extra) =
      .ok (packets ++ packetsOf (rest ++ extra)) := by
    rw [List.append_assoc]
    exact congrArg Except.ok (packetsOf_frames hall (rest ++ extra))
  refine ⟨packets, frames, rest, ?_, rfl, hall, .inr hrest, fun extra => ⟨_, hparse extra⟩, ?_⟩
  · have h := hparse []
    rwa [List.append_nil, List.append_nil, packetsOf_stop hrest, List.append_nil] at h
  · rintro rfl extra more hmore
    obtain rfl : packetsOf extra = more := Except.ok.inj hmore
    exact hparse extra

end SkinGetBE
