import SkinGetBE.Packages

/-!
# Messages of the session

A batch is written without any marker. A received message may carry the legacy
marker, which is dropped before the batch is opened: a batch whose own first
octet has that value loses it.
-/
namespace SkinGetBE
open Octets

/-- The loop that writes each packet behind its length. -/
def writePackets (packets : List Bytes) : Buffer :=
  packets.foldl (fun combined p => (combined.writeVarInt (p.length % 2 ^ 32)).writeBytes p)
    Buffer.new

/-- The message for a list of packets; `none` is the panic of a failed compression. -/
def buildBatch (flate : Flate2) (packets : List Bytes) (compressionEnabled : Bool) :
    Option Bytes :=
  let combined := (writePackets packets).data
  if compressionEnabled then (compressBatch flate combined).toOption else some combined

def buildSingleBatch (flate : Flate2) (packet : Bytes) (compressionEnabled : Bool) :
    Option Bytes :=
  buildBatch flate [packet] compressionEnabled

def dropLegacyMarker (bytes : Bytes) : Bytes :=
  if bytes.head? = some 0xfe then bytes.drop 1 else bytes

/-- A received message up to its packets; `none` drops the message. -/
def openMessage (flate : Flate2) (compressionEnabled : Bool) (bytes : Bytes) :
    Option (List Bytes) :=
  if bytes.isEmpty then none
  else
    match decompressBatch flate (dropLegacyMarker bytes) compressionEnabled with
    | .error _ => none
    | .ok decompressed =>
      match parseBatch decompressed with
      | .ok packets => some packets
      | .error _ => some []

theorem length_le_of_frames {packets : List Bytes} {p : Bytes} (h : p ∈ packets) :
    p.length ≤ (packets.flatMap packetFrame).length := by
  obtain ⟨s, t, rfl⟩ := List.append_of_mem h
  simp only [List.flatMap_append, List.flatMap_cons, List.length_append, packetFrame]
  omega

theorem data_writePackets {packets : List Bytes} (hp : ∀ p ∈ packets, p.length < 2 ^ 32) :
    (writePackets packets).data = packets.flatMap packetFrame := by
  suffices h : ∀ b : Buffer, (packets.foldl (fun combined p =>
      (combined.writeVarInt (p.length % 2 ^ 32)).writeBytes p) b).data =
        b.data ++ packets.flatMap packetFrame by
    exact h Buffer.new
  induction packets with
  | nil => simp
  | cons p ps ih =>
    intro b
    have hmod : p.length % 2 ^ 32 = p.length := Nat.mod_eq_of_lt (hp p (by simp))
    rw [List.foldl_cons, ih (fun q hq => hp q (by simp [hq])), List.flatMap_cons, hmod,
      Buffer.data_writeBytes, Buffer.data_writeVarInt (hp p (by simp)), packetFrame]
    simp only [List.append_assoc]

/-- The first octet of a batch is the marker exactly for these lengths of the first packet. -/
theorem head_packetFrame_eq_marker (packet tl : Bytes) :
    (packetFrame packet ++ tl).head? = some 0xfe ↔
      128 ≤ packet.length ∧ packet.length % 128 = 126 := by
  have value (n : ℕ) (hn : n < 256) : UInt8.ofNat n = 0xfe ↔ n = 254 := by
    rw [← UInt8.toNat_inj, toNat_ofNat_lt hn]
    rfl
  by_cases h : packet.length < 128
  · rw [packetFrame, leb128_of_lt h]
    simp only [List.cons_append, List.head?_cons, Option.some.injEq]
    rw [value _ (by omega)]
    omega
  · rw [packetFrame, leb128_of_le (by omega)]
    simp only [List.cons_append, List.head?_cons, Option.some.injEq]
    rw [value _ (by omega)]
    omega

theorem openMessage_eq {flate : Flate2} {c : Bool} {bytes d : Bytes} {packets : List Bytes}
    (hne : bytes ≠ []) (hd : decompressBatch flate (dropLegacyMarker bytes) c = .ok d)
    (hparse : parseBatch d = .ok packets) : openMessage flate c bytes = some packets := by
  unfold openMessage
  simp [hne, hd, hparse]

theorem dropLegacyMarker_of_head {bytes : Bytes} (h : bytes.head? ≠ some 0xfe) :
    dropLegacyMarker bytes = bytes := if_neg h

theorem dropLegacyMarker_marked (m : Bytes) : dropLegacyMarker (0xfe :: m) = m := by
  simp [dropLegacyMarker]

/-- A message that lost the first octet of its first length is cut in the wrong places. -/
theorem parseBatch_cut {packet tl : Bytes} (h : 128 ≤ packet.length) (hl : packet.length < 2 ^ 32) :
    ∃ rest, parseBatch ((packetFrame packet ++ tl).drop 1) =
      .ok (packet.take (packet.length / 128) :: rest) := by
  have hq : (packet.take (packet.length / 128)).length = packet.length / 128 := by
    rw [List.length_take]
    omega
  have hcut : (packetFrame packet ++ tl).drop 1 =
      packetFrame (packet.take (packet.length / 128)) ++
        (packet.drop (packet.length / 128) ++ tl) := by
    simp only [packetFrame, hq, leb128_of_le h, List.cons_append, List.drop_succ_cons,
      List.drop_zero, List.append_assoc, List.append_cancel_left_eq]
    rw [← List.append_assoc, List.take_append_drop]
  rw [hcut]
  exact ⟨_, parseBatch_packetFrame (by omega) _⟩

/-- The first packet is not one whose length begins with the marker octet. -/
def FirstLengthUnmarked (packets : List Bytes) : Prop :=
  ∀ p ∈ packets.head?, p.length < 128 ∨ p.length % 128 ≠ 126

/-- Without compression a batch comes back exactly when its first octet is not the marker. -/
theorem openMessage_plain_iff (flate : Flate2) {packets : List Bytes} (hne : packets ≠ [])
    (hp : ∀ p ∈ packets, p.length < 2 ^ 32) :
    openMessage flate false (packets.flatMap packetFrame) = some packets ↔
      FirstLengthUnmarked packets := by
  obtain ⟨p, ps, rfl⟩ := List.exists_cons_of_ne_nil hne
  have hlen := hp p (by simp)
  have hframes := parseBatch_frames hp
  rw [List.flatMap_cons] at hframes ⊢
  have hm : packetFrame p ++ ps.flatMap packetFrame ≠ [] := by simp [packetFrame_ne_nil]
  have hhead := head_packetFrame_eq_marker p (ps.flatMap packetFrame)
  simp only [FirstLengthUnmarked, List.head?_cons, Option.mem_some_iff, forall_eq']
  constructor
  · intro hopen
    by_contra hcut
    have h128 : 128 ≤ p.length := by omega
    obtain ⟨rest, hrest⟩ := parseBatch_cut h128 hlen
    have hdrop : dropLegacyMarker (packetFrame p ++ ps.flatMap packetFrame) =
        (packetFrame p ++ ps.flatMap packetFrame).drop 1 := if_pos (hhead.mpr (by omega))
    have hleft : (packetFrame p ++ ps.flatMap packetFrame).drop 1 ≠ [] := by
      intro h0
      have := congrArg List.length h0
      simp only [packetFrame, List.length_drop, List.length_append, List.length_nil] at this
      omega
    have hwrong := openMessage_eq hm (by rw [hdrop, decompressBatch_plain flate hleft]) hrest
    rw [hwrong, Option.some.injEq, List.cons.injEq] at hopen
    have := congrArg List.length hopen.1
    rw [List.length_take] at this
    omega
  · intro h
    have hn : (packetFrame p ++ ps.flatMap packetFrame).head? ≠ some 0xfe := by
      rw [ne_eq, hhead]
      omega
    exact openMessage_eq hm (by rw [dropLegacyMarker_of_head hn, decompressBatch_plain flate hm])
      hframes

theorem length_lt_of_size {packets : List Bytes}
    (hsize : (packets.flatMap packetFrame).length ≤ maxDecompressedSize) :
    ∀ p ∈ packets, p.length < 2 ^ 32 := by
  intro p hmem
  have := length_le_of_frames hmem
  unfold maxDecompressedSize at hsize
  omega

/-- Without the marker step, the reader inverts the writer in both states. -/
theorem buildBatch_decodes {flate : Flate2} (hz : flate.DeflateInverts) {packets : List Bytes}
    (hne : packets ≠ []) (hsize : (packets.flatMap packetFrame).length ≤ maxDecompressedSize)
    (c : Bool) : ∃ m, buildBatch flate packets c = some m ∧
      decompressBatch flate m c = .ok (packets.flatMap packetFrame) ∧
      m = if c then 0 :: m.tail else packets.flatMap packetFrame := by
  have hdata := data_writePackets (length_lt_of_size hsize)
  cases c with
  | true =>
    obtain ⟨encoded, hc, hd⟩ := decompressBatch_compressBatch hz hsize
    refine ⟨0 :: encoded, ?_, hd, by simp⟩
    simp [buildBatch, hdata, hc, Except.toOption]
  | false =>
    refine ⟨packets.flatMap packetFrame, by simp [buildBatch, hdata], ?_, by simp⟩
    apply decompressBatch_plain
    obtain ⟨p, ps, rfl⟩ := List.exists_cons_of_ne_nil hne
    simp [packetFrame_ne_nil]

/-- The receive path undoes the batch writer, behind the legacy marker always and
without it unless an uncompressed message begins with the marker octet itself. -/
theorem openMessage_buildBatch (flate : Flate2) (hz : flate.DeflateInverts)
    (packets : List Bytes) (hne : packets ≠ [])
    (hsize : (packets.flatMap packetFrame).length ≤ maxDecompressedSize) (c : Bool) :
    ∃ m, buildBatch flate packets c = some m ∧
      ((openMessage flate c m = some packets ∧ openMessage flate c (0xfe :: m) = some packets) ↔
        (c = true ∨ FirstLengthUnmarked packets)) := by
  have hp := length_lt_of_size hsize
  have hframes := parseBatch_frames hp
  obtain ⟨m, hm, hd, hshape⟩ := buildBatch_decodes hz hne hsize c
  have hmarked : openMessage flate c (0xfe :: m) = some packets :=
    openMessage_eq (List.cons_ne_nil _ _) (by rw [dropLegacyMarker_marked, hd]) hframes
  refine ⟨m, hm, ?_⟩
  cases c with
  | true =>
    have hzero : m = 0 :: m.tail := by simpa using hshape
    have hhead : m.head? ≠ some 0xfe := by
      rw [hzero]
      simp
    have hne' : m ≠ [] := by
      rw [hzero]
      exact List.cons_ne_nil _ _
    refine iff_of_true ⟨?_, hmarked⟩ (.inl rfl)
    exact openMessage_eq hne' (by rw [dropLegacyMarker_of_head hhead, hd]) hframes
  | false =>
    obtain rfl : m = packets.flatMap packetFrame := by simpa using hshape
    rw [openMessage_plain_iff flate hne hp]
    simp [hmarked]

theorem openMessage_buildBatch_single : ∃ m, buildBatch sampleFlate [[1]] true = some m ∧
    ((openMessage sampleFlate true m = some [[1]] ∧
      openMessage sampleFlate true (0xfe :: m) = some [[1]]) ↔
        (true = true ∨ FirstLengthUnmarked [[1]])) :=
  openMessage_buildBatch sampleFlate sampleFlate_inverts [[1]] (by decide)
    (by simp [packetFrame, leb128_of_lt, maxDecompressedSize]) true

/-- One packet of 254 octets is written as `0xfe 0x01 ..` and read back as nothing of the kind. -/
theorem openMessage_buildBatch_collision :
    buildBatch sampleFlate [List.replicate 254 0] false =
        some (0xfe :: 0x01 :: List.replicate 254 0) ∧
      openMessage sampleFlate false (0xfe :: 0x01 :: List.replicate 254 0) ≠
        some [List.replicate 254 0] := by
  constructor
  · decide +kernel
  · decide +kernel

end SkinGetBE
