import SkinGetBE.DecompressBounds
import SkinGetBE.Inflate

/-!
# The forms of a compressed batch

After compression is agreed on, a batch comes behind an octet that says how it is
packed, or from older peers without that octet. Which of these it is, is guessed. The
guess is right for every marked batch, and for the others unless they begin like a
marked batch, or are streams of both formats.
-/
namespace SkinGetBE
open Octets

/-- The decoder that yields `out` and then fails. -/
def failsAfter (out : Bytes) (message : String) : Decoder := fun i =>
  match out[i]? with
  | some value => .octet value
  | none => .failed message

theorem takeToEnd_failsAfter (out : Bytes) (message : String) (limit i : ℕ)
    (hi : i ≤ out.length) : takeToEnd (failsAfter out message) limit i =
      if i + limit ≤ out.length then .ok ((out.drop i).take limit) else .error message := by
  induction limit generalizing i with
  | zero => simp [takeToEnd, hi]
  | succ limit ih =>
    unfold takeToEnd
    by_cases h : i < out.length
    · have hpull : failsAfter out message i = .octet out[i] := by simp [failsAfter, h]
      rw [hpull, List.drop_eq_getElem_cons h, List.take_succ_cons]
      dsimp only
      rw [ih (i + 1) h, Nat.add_right_comm, ← Nat.add_assoc]
      by_cases hle : i + limit + 1 ≤ out.length
      · rw [if_pos hle, if_pos hle]
      · rw [if_neg hle, if_neg hle]
    · have hpull : failsAfter out message i = .failed message := by simp [failsAfter, h]
      rw [hpull, if_neg (by omega)]

/-- A decoder that fails has no result, whatever it yields before. -/
theorem readBounded_failsAfter (out : Bytes) (message : String) :
    ∃ e, readBounded (failsAfter out message) = .error e := by
  unfold readBounded
  rw [takeToEnd_failsAfter out message _ 0 (Nat.zero_le _), Nat.zero_add]
  by_cases h : maxDecompressedSize + 1 ≤ out.length
  · rw [if_pos h, List.drop_zero]
    have hlarge : (out.take (maxDecompressedSize + 1)).length > maxDecompressedSize := by
      rw [List.length_take]
      omega
    exact ⟨_, if_pos hlarge⟩
  · rw [if_neg h]
    exact ⟨_, rfl⟩

/-- The decoders yield what a stream stands for, and the raw one fails where there is none. -/
structure Flate2.ReadsFormats (flate : Flate2) : Prop where
  deflate : ∀ octets data, Deflate.IsStream octets data → flate.deflateDecoder octets = yields data
  corrupt : ∀ octets, Deflate.IsCorrupt octets →
    ∃ out message, flate.deflateDecoder octets = failsAfter out message
  zlib : ∀ octets data, Zlib.IsStream octets data → flate.zlibDecoder octets = yields data

section Forms
variable {flate : Flate2} {d : Bytes}

theorem decompressRawDeflate_stream (hflate : flate.ReadsFormats)
    (hd : d.length ≤ maxDecompressedSize) {e : Bytes} (he : Deflate.IsStream e d) :
    decompressRawDeflate flate e = .ok d := by
  unfold decompressRawDeflate
  rw [hflate.deflate e d he, readBounded_yields hd]

theorem decompressZlib_stream (hflate : flate.ReadsFormats)
    (hd : d.length ≤ maxDecompressedSize) {z : Bytes} (hz : Zlib.IsStream z d) :
    decompressZlib flate z = .ok d := by
  unfold decompressZlib
  rw [hflate.zlib z d hz, readBounded_yields hd]

theorem stream_head {e : Bytes} (he : Deflate.IsStream e d) : e.head? ≠ some 0xff := by
  intro h
  obtain ⟨tl, rfl⟩ := List.head?_eq_some_iff.mp h
  have hnone := Deflate.inflateIn_reserved (2 ^ 15) tl
  unfold Deflate.IsStream Deflate.inflate at he
  rw [hnone] at he
  cases he

theorem stream_ne_nil {e : Bytes} (he : Deflate.IsStream e d) : e ≠ [] := by
  rintro rfl
  cases he

theorem zlib_head {z : Bytes} (hz : Zlib.IsStream z d) :
    z ≠ [] ∧ z.head? ≠ some 0 ∧ z.head? ≠ some 0xff := by
  obtain ⟨x, a, b, c, d, tl, rfl, hx⟩ := hz.front
  refine ⟨List.cons_ne_nil _ _, ?_, ?_⟩
  · rintro h
    cases h
    contradiction
  · rintro h
    cases h
    contradiction

/-- The header of a zlib stream, read as DEFLATE, begins a stored block, so the next octets must be
its length and the complement. -/
theorem corrupt_of_zlib {z : Bytes} (hz : Zlib.IsStream z d)
    (hlen : leValue ((z.drop 1).take 2) + leValue ((z.drop 3).take 2) ≠ 2 ^ 16 - 1) :
    Deflate.IsCorrupt z := by
  obtain ⟨x, a, b, c, d, tl, rfl, hx⟩ := hz.front
  exact Deflate.inflateIn_stored_corrupt (2 ^ 15) tl (by omega) hlen

/-- A marked batch is restored, a raw stream without a mark if it does not begin with the octet of
the mark, and a zlib stream if it is no DEFLATE stream too. -/
theorem decompressBatch_forms (hflate : flate.ReadsFormats) (hd : d.length ≤ maxDecompressedSize) :
    decompressBatch flate (0xff :: d) true = .ok d ∧
    (∀ e, Deflate.IsStream e d → decompressBatch flate (0 :: e) true = .ok d ∧
      (e.head? ≠ some 0 → decompressBatch flate e true = .ok d)) ∧
    (∀ z, Zlib.IsStream z d →
      (Deflate.IsCorrupt z → decompressBatch flate z true = .ok d) ∧
      (leValue ((z.drop 1).take 2) + leValue ((z.drop 3).take 2) ≠ 2 ^ 16 - 1 →
        Deflate.IsCorrupt z)) := by
  refine ⟨?_, fun e he => ⟨?_, fun hzero => ?_⟩,
    fun z hz => ⟨fun hcorrupt => ?_, corrupt_of_zlib hz⟩⟩
  · rw [decompressBatch_cons, decompressCompressedPayload_stored, if_pos hd]
  · rw [decompressBatch_cons, decompressCompressedPayload_raw,
      decompressRawDeflate_stream hflate hd he]
    rfl
  · rw [decompressBatch_decoded flate (stream_ne_nil he) (stream_head he),
      decoderInput_of_head hzero, decompressRawDeflate_stream hflate hd he]
    rfl
  · obtain ⟨hne, hzero, hstored⟩ := zlib_head hz
    obtain ⟨out, message, hfails⟩ := hflate.corrupt z hcorrupt
    obtain ⟨e, hraw⟩ := readBounded_failsAfter out message
    rw [decompressBatch_decoded flate hne hstored, decoderInput_of_head hzero,
      decompressRawDeflate, hfails, hraw, decompressZlib_stream hflate hd hz]
    rfl

end Forms

/-- Yields what stands in front, and fails where a stream is needed. -/
def decoderOf (result : Except Deflate.Stop (Bytes × Bytes)) : Decoder :=
  match result with
  | .ok (out, _) => yields out
  | .error _ => failsAfter [] "corrupt deflate stream"

def formatFlate : Flate2 where
  deflateEncode _ := .error "no encoder"
  deflateDecoder octets := decoderOf (Deflate.inflate octets)
  zlibEncode _ := .error "no encoder"
  zlibDecoder octets := decoderOf (Zlib.inflate octets)

theorem formatFlate_readsFormats : formatFlate.ReadsFormats where
  deflate octets data h := by
    unfold formatFlate Deflate.IsStream at *
    dsimp only
    rw [h]
    rfl
  corrupt octets h := by
    unfold formatFlate Deflate.IsCorrupt at *
    dsimp only
    rw [h]
    exact ⟨[], "corrupt deflate stream", rfl⟩
  zlib octets data h := by
    unfold formatFlate Zlib.IsStream at *
    dsimp only
    rw [h]
    rfl

/-- A whole stream in front is enough for the raw decoder. -/
theorem decompressRawDeflate_formatFlate {octets out rest : Bytes}
    (h : Deflate.inflate octets = .ok (out, rest)) (hout : out.length ≤ maxDecompressedSize) :
    decompressRawDeflate formatFlate octets = .ok out := by
  unfold decompressRawDeflate formatFlate
  dsimp only
  rw [h]
  exact readBounded_yields hout

/-- A stored block that another one ends. -/
def storedStream : Bytes := [0, 3, 0, 0xfc, 0xff, 1, 2, 3, 1, 0, 0, 0xff, 0xff]

def hiddenBlock : Bytes :=
  List.replicate 600 0 ++ [1, 0, 0, 0xff, 0xff] ++ List.replicate 160 0

/-- An empty block and a stored one; read from its first octet on, a longer stored block and the one
that is hidden in it. -/
def doubleStream : Bytes :=
  [0x08, 0x5b, 0x02, 0xa4, 0xfd, 0x02, 0x02, 0xfd] ++ hiddenBlock ++
    beBytes 4 (Zlib.adler32 hiddenBlock)

theorem decompressBatch_forms_stored : decompressBatch formatFlate (0 :: storedStream) true =
    .ok [1, 2, 3] :=
  ((decompressBatch_forms formatFlate_readsFormats (d := [1, 2, 3]) (by decide)).2.1 storedStream
    (by unfold Deflate.IsStream; decide +kernel)).1

theorem storedStream_misread : decompressBatch formatFlate storedStream true = .ok [] := by
  have hbehind : Deflate.inflate storedStream.tail = .ok ([], storedStream.drop 3) := by
    decide +kernel
  have hraw := decompressRawDeflate_formatFlate hbehind (Nat.zero_le _)
  have hsplit : storedStream = 0 :: storedStream.tail := rfl
  rw [hsplit, decompressBatch_cons, decompressCompressedPayload_raw, hraw]
  rfl

theorem doubleStream_misread : decompressBatch formatFlate doubleStream true ≠ .ok hiddenBlock := by
  have hraw : (Deflate.inflate doubleStream).map (fun p => p.1.length) = .ok 603 := by
    decide +kernel
  cases hinflate : Deflate.inflate doubleStream with
  | error e =>
    rw [hinflate] at hraw
    cases hraw
  | ok p =>
    have hlen : p.1.length = 603 := by
      rw [hinflate] at hraw
      exact Except.ok.inj hraw
    have hmax : p.1.length ≤ maxDecompressedSize := by
      rw [hlen]
      decide
    rw [decompressBatch_decoded formatFlate (by decide) (by decide),
      decoderInput_of_head (by decide),
      decompressRawDeflate_formatFlate hinflate hmax]
    intro h
    have hsame : p.1 = hiddenBlock := Except.ok.inj h
    have hother : hiddenBlock.length = 765 := by decide +kernel
    rw [hsame] at hlen
    omega

/-- Streams of both formats that the guess takes for something else. -/
theorem decompressBatch_guessed : formatFlate.ReadsFormats ∧
    Deflate.IsStream storedStream [1, 2, 3] ∧
    decompressBatch formatFlate storedStream true ≠ .ok [1, 2, 3] ∧
    Zlib.IsStream doubleStream hiddenBlock ∧
    decompressBatch formatFlate doubleStream true ≠ .ok hiddenBlock := by
  refine ⟨formatFlate_readsFormats, ?_, ?_, ?_, doubleStream_misread⟩
  · unfold Deflate.IsStream
    decide +kernel
  · rw [storedStream_misread]
    decide
  · unfold Zlib.IsStream
    decide +kernel

end SkinGetBE
