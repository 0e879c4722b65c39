import SkinGetBE.DecompressBounds
import SkinGetBE.RakNetBedrock
import SkinGetBE.SessionBatch

/-!
# Reading back what is sent

A peer opens a body as the server opens the ones it gets. While compression is on, the
first octet says how a body is packed, and the bodies that are sent when the compressor
fails say it wrongly: one calls its octets compressed, the other has only the octets
of its length there.
-/
namespace SkinGetBE.RakNet
open Octets

/-- The packets of a received body; `none` drops it. -/
def readBack (flate : Flate2) (compressionEnabled : Bool) (body : Bytes) : Option (List Bytes) :=
  if body.length ≤ 1 then none
  else
    match decompressBatch flate (body.drop 1) compressionEnabled with
    | .error _ => none
    | .ok decompressed => (parseBatch decompressed).toOption

/-- A response is one packet, a bundle any number of them. -/
inductive Outgoing
  | response (packet : Bytes)
  | bundle (packets : List Bytes)

namespace Outgoing

def packets : Outgoing → List Bytes
  | response packet => [packet]
  | bundle packets => packets

def body (flate : Flate2) (compressionEnabled : Bool) : Outgoing → Bytes
  | response packet => bedrockResponseBody flate packet compressionEnabled
  | bundle packets => bedrockBundleBody flate packets compressionEnabled

/-- The packets behind their lengths, as each of the two writes them. -/
def framed : Outgoing → Bytes
  | response packet => wrapWithLength packet
  | bundle packets => (writePackets packets).data

/-- What follows the marker when the compressor fails. -/
def uncompressed : Outgoing → Bytes
  | response packet => wrapWithLength packet
  | bundle packets => 0 :: (writePackets packets).data

end Outgoing

/-- The documented behaviour of the raw decoder on what the encoder returned. -/
def Restores (flate : Flate2) : Prop := ∀ data encoded,
  flate.deflateEncode data = .ok encoded → flate.deflateDecoder encoded = yields data

theorem compressBatch_ok {flate : Flate2} {data out : Bytes}
    (h : compressBatch flate data = .ok out) :
    ∃ encoded, flate.deflateEncode data = .ok encoded ∧ out = 0 :: encoded := by
  unfold compressBatch at h
  cases henc : flate.deflateEncode data with
  | error e => simp [henc] at h
  | ok encoded => exact ⟨encoded, rfl, by simpa [henc] using h.symm⟩

/-- Octets that the decoders take for compressed packets. -/
def TakenForPackets (flate : Flate2) (payload : Bytes) (packets : List Bytes) : Prop :=
  payload.head? ≠ some 0xff ∧
    ∃ d, orElseOk (decompressRawDeflate flate (decoderInput payload))
      (decompressZlib flate (decoderInput payload)) = .ok d ∧ packetsOf d = packets

theorem readBack_ok {flate : Flate2} {c : Bool} {marker : UInt8} {payload d : Bytes}
    (hne : payload ≠ []) (h : decompressBatch flate payload c = .ok d) :
    readBack flate c (marker :: payload) = some (packetsOf d) := by
  have hpos := List.length_pos_iff.mpr hne
  unfold readBack
  rw [if_neg (by rw [List.length_cons]; omega), List.drop_succ_cons, List.drop_zero, h]
  rfl

theorem readBack_error {flate : Flate2} {c : Bool} {marker : UInt8} {payload : Bytes} {e : Error}
    (h : decompressBatch flate payload c = .error e) :
    readBack flate c (marker :: payload) = none := by
  unfold readBack
  rw [List.drop_succ_cons, List.drop_zero, h]
  exact ite_self none

theorem readBack_decoded_iff (flate : Flate2) {marker : UInt8} {payload : Bytes}
    {packets : List Bytes} (hne : payload ≠ []) (hstored : payload.head? ≠ some 0xff) :
    readBack flate true (marker :: payload) = some packets ↔
      TakenForPackets flate payload packets := by
  have hdecoded := decompressBatch_decoded flate hne hstored
  unfold TakenForPackets
  rw [← hdecoded]
  cases h : decompressBatch flate payload true with
  | error e =>
    rw [readBack_error h]
    exact iff_of_false nofun fun htaken => by simpa using htaken.2
  | ok d =>
    rw [readBack_ok hne h]
    simp [hstored]

/-- Without its first octet, the length of a packet is not its length. -/
theorem packetsOf_shifted {packet : Bytes} (hp : packet.length < 2 ^ 32)
    (hlong : 128 ≤ packet.length) :
    packetsOf (leb128 (packet.length / 128) ++ packet) ≠ [packet] := by
  have hlen : (packet.take (packet.length / 128)).length = packet.length / 128 := by
    rw [List.length_take]
    omega
  have hsplit : leb128 (packet.length / 128) ++ packet =
      packetFrame (packet.take (packet.length / 128)) ++ packet.drop (packet.length / 128) := by
    rw [packetFrame, hlen, List.append_assoc, List.take_append_drop]
  rw [hsplit, packetsOf_frame (isFrame_packetFrame (by omega))]
  intro h
  have hfirst := congrArg List.length (List.cons.inj h).1
  omega

/-- A response that begins like a stored body is cut at a wrong place. -/
theorem readBack_stored_response (flate : Flate2) {marker : UInt8} {packet : Bytes}
    (hp : packet.length < 2 ^ 32) (hstored : (packetFrame packet).head? = some 0xff) :
    readBack flate true (marker :: packetFrame packet) ≠ some [packet] := by
  have hlong : 128 ≤ packet.length := by
    by_contra hshort
    rw [packetFrame, leb128_of_lt (by omega), List.cons_append, List.head?_cons,
      Option.some.injEq, ← UInt8.toNat_inj, toNat_ofNat_lt (by omega)] at hstored
    change packet.length = 255 at hstored
    omega
  have hframe : packetFrame packet = 0xff :: (leb128 (packet.length / 128) ++ packet) := by
    rw [packetFrame, leb128_of_le hlong, List.cons_append, List.head?_cons, Option.some.injEq]
      at hstored
    rw [packetFrame, leb128_of_le hlong, List.cons_append, hstored]
  have hopen := decompressCompressedPayload_stored flate (leb128 (packet.length / 128) ++ packet)
  rw [← decompressBatch_cons] at hopen
  rw [hframe]
  split_ifs at hopen with hle
  · rw [readBack_ok (List.cons_ne_nil _ _) hopen]
    exact fun h => packetsOf_shifted hp hlong (Option.some.inj h)
  · rw [readBack_error hopen]
    exact (Option.some_ne_none _).symm

section Sent
variable {flate : Flate2} {m : Outgoing}

theorem Outgoing.body_plain (flate : Flate2) (m : Outgoing) :
    m.body flate false = 0xfe :: m.framed := by
  cases m <;> rfl

theorem Outgoing.body_compressed {out : Bytes} (h : compressBatch flate m.framed = .ok out) :
    m.body flate true = 0xfe :: out := by
  cases m with
  | response packet =>
    rw [framed] at h
    simp [body, bedrockResponseBody, h]
  | bundle packets =>
    rw [framed] at h
    simp [body, bedrockBundleBody, h]

theorem Outgoing.body_uncompressed {e : Error} (h : compressBatch flate m.framed = .error e) :
    m.body flate true = 0xfe :: m.uncompressed := by
  cases m with
  | response packet =>
    rw [framed] at h
    simp [body, bedrockResponseBody, h, uncompressed]
  | bundle packets =>
    rw [framed] at h
    simp [body, bedrockBundleBody, h, uncompressed]

theorem Outgoing.framed_eq (hp : ∀ p ∈ m.packets, p.length < 2 ^ 32) :
    m.framed = m.packets.flatMap packetFrame := by
  cases m with
  | response packet => simp [framed, packets, wrapWithLength, packetFrame]
  | bundle packets => exact data_writePackets hp

theorem flatMap_packetFrame_ne_nil {packets : List Bytes} (hne : packets ≠ []) :
    packets.flatMap packetFrame ≠ [] := by
  obtain ⟨p, ps, rfl⟩ := List.exists_cons_of_ne_nil hne
  rw [List.flatMap_cons]
  exact List.append_ne_nil_of_left_ne_nil (packetFrame_ne_nil p) _

theorem readBack_uncompressed_iff (flate : Flate2) (hp : ∀ p ∈ m.packets, p.length < 2 ^ 32) :
    readBack flate true (0xfe :: m.uncompressed) = some m.packets ↔
      TakenForPackets flate m.uncompressed m.packets := by
  cases m with
  | response packet =>
    by_cases hstored : (packetFrame packet).head? = some 0xff
    · exact iff_of_false (readBack_stored_response flate (hp packet (by simp [Outgoing.packets]))
        hstored) fun htaken => htaken.1 hstored
    · exact readBack_decoded_iff flate (packetFrame_ne_nil packet) hstored
  | bundle packets =>
    have hraw : (Outgoing.bundle packets).uncompressed.head? = some 0 := rfl
    exact readBack_decoded_iff flate (List.cons_ne_nil _ _) (by simp [hraw])

/-- A body is read back when it is compressed where it has to be. What is sent for a failed
compressor is read back only if the decoders happen to take it for the same packets. -/
theorem readBack_body_iff (hrestores : Restores flate) (compressionEnabled : Bool)
    (hne : m.packets ≠ [])
    (hsize : (m.packets.flatMap packetFrame).length ≤ maxDecompressedSize) :
    readBack flate compressionEnabled (m.body flate compressionEnabled) = some m.packets ↔
      (compressionEnabled = true → (∃ out, compressBatch flate m.framed = .ok out) ∨
        TakenForPackets flate m.uncompressed m.packets) := by
  have hp := length_lt_of_size hsize
  have hframed := Outgoing.framed_eq hp
  have hpackets : packetsOf m.framed = m.packets := by
    rw [hframed]
    exact Except.ok.inj (parseBatch_frames hp)
  have hsome : m.framed ≠ [] := by
    rw [hframed]
    exact flatMap_packetFrame_ne_nil hne
  cases compressionEnabled with
  | false =>
    rw [Outgoing.body_plain, readBack_ok hsome (decompressBatch_plain flate hsome), hpackets]
    exact iff_of_true rfl nofun
  | true =>
    cases h : compressBatch flate m.framed with
    | ok out =>
      obtain ⟨encoded, henc, rfl⟩ := compressBatch_ok h
      have hraw : decompressRawDeflate flate encoded = .ok m.framed := by
        unfold decompressRawDeflate
        rw [hrestores _ _ henc, readBounded_yields (by rwa [hframed])]
      have hopen : decompressBatch flate (0 :: encoded) true = .ok m.framed := by
        rw [decompressBatch_cons, decompressCompressedPayload_raw, hraw]
        rfl
      rw [Outgoing.body_compressed h, readBack_ok (List.cons_ne_nil _ _) hopen, hpackets]
      exact iff_of_true rfl fun _ => .inl ⟨_, rfl⟩
    | error e =>
      rw [Outgoing.body_uncompressed h, readBack_uncompressed_iff flate hp]
      simp

end Sent

theorem sampleFlate_restores : Restores sampleFlate := by
  intro data encoded h
  obtain ⟨encoded', hencoded, hdecoded⟩ := sampleFlate_inverts data
  rw [hencoded, Except.ok.injEq] at h
  rw [← h, hdecoded]

theorem framed_one : (Outgoing.response [1]).framed = [1, 1] := by
  rw [Outgoing.framed, wrapWithLength, List.length_singleton, leb128_of_lt (by decide)]
  rfl

/-- A response of one octet is sent compressed. -/
theorem readBack_body_response : readBack sampleFlate true
    ((Outgoing.response [1]).body sampleFlate true) = some [[1]] := by
  refine (readBack_body_iff (m := .response [1]) sampleFlate_restores true
    (List.cons_ne_nil _ _) ?_).mpr fun _ => .inl ⟨[0, 0x63, 0x64, 0x04, 0x00], ?_⟩
  · rw [← Outgoing.framed_eq (by decide), framed_one]
    decide
  · rw [framed_one]
    rfl

/-- An encoder that fails, and decoders that take none of its data. -/
def brokenFlate : Flate2 where
  deflateEncode _ := .error "full"
  deflateDecoder _ _ := .failed "corrupt stream"
  zlibEncode _ := .error "full"
  zlibDecoder _ _ := .failed "corrupt stream"

/-- Both senders pack a packet so that no reader finds it. -/
theorem readBack_body_failed : Restores brokenFlate ∧
    readBack brokenFlate true ((Outgoing.bundle [[1]]).body brokenFlate true) = none ∧
    readBack brokenFlate true ((Outgoing.response [1]).body brokenFlate true) = none := by
  refine ⟨nofun, rfl, ?_⟩
  rw [Outgoing.body_uncompressed (e := .other "deflate encode error: full") rfl]
  change readBack brokenFlate true (0xfe :: (Outgoing.response [1]).framed) = none
  rw [framed_one]
  rfl

end SkinGetBE.RakNet
