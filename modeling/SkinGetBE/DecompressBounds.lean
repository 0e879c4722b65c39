import SkinGetBE.Batch

/-!
# Decompression is all or nothing

The reading of a decoder is repeated here with a count of the octets it takes. It
asks for one octet more than it accepts, so an output that is accepted has been
read to its end.
-/
namespace SkinGetBE
open Octets

/-- The result of `takeToEnd` and the number of octets taken from the decoder. -/
def takeToEndCounted (decoder : Decoder) : ℕ → ℕ → Except String Bytes × ℕ
  | 0, _ => (.ok [], 0)
  | limit + 1, i =>
    match decoder i with
    | .finished => (.ok [], 0)
    | .failed message => (.error message, 0)
    | .octet value =>
      let rest := takeToEndCounted decoder limit (i + 1)
      match rest.1 with
      | .ok out => (.ok (value :: out), rest.2 + 1)
      | .error message => (.error message, rest.2 + 1)

def readBoundedCounted (decoder : Decoder) : Except Error Bytes × ℕ :=
  let taken := takeToEndCounted decoder (maxDecompressedSize + 1) 0
  match taken.1 with
  | .error e => (.error (.other s!"batch decompression failed: {e}"), taken.2)
  | .ok out =>
    if out.length > maxDecompressedSize then
      (.error (.other s!"decompressed too large: {out.length} bytes"), taken.2)
    else (.ok out, taken.2)

/-- The counts of the decoders that were made, the raw one before the other. -/
def decompressEitherCounted (flate : Flate2) (input : Bytes) : Except Error Bytes × List ℕ :=
  let raw := readBoundedCounted (flate.deflateDecoder input)
  match raw.1 with
  | .ok out => (.ok out, [raw.2])
  | .error _ =>
    let zlib := readBoundedCounted (flate.zlibDecoder input)
    (zlib.1, [raw.2, zlib.2])

def decompressBatchCounted (flate : Flate2) (data : Bytes) : Except Error Bytes × List ℕ :=
  match data with
  | [] => (.error (.invalidData "Empty batch data"), [])
  | first :: payload =>
    if first = 0 then decompressEitherCounted flate payload
    else if first = 0xff then
      if payload.length ≤ maxDecompressedSize then (.ok payload, [])
      else (.error (.invalidData "batch too large"), [])
    else decompressEitherCounted flate (first :: payload)

theorem takeToEndCounted_fst (decoder : Decoder) (limit i : ℕ) :
    (takeToEndCounted decoder limit i).1 = takeToEnd decoder limit i := by
  induction limit generalizing i with
  | zero => rfl
  | succ limit ih =>
    unfold takeToEndCounted takeToEnd
    cases decoder i with
    | finished => rfl
    | failed message => rfl
    | octet value =>
      dsimp only
      rw [← ih]
      cases (takeToEndCounted decoder limit (i + 1)).1 <;> rfl

theorem readBoundedCounted_fst (decoder : Decoder) :
    (readBoundedCounted decoder).1 = readBounded decoder := by
  unfold readBoundedCounted readBounded
  rw [← takeToEndCounted_fst]
  dsimp only
  cases (takeToEndCounted decoder (maxDecompressedSize + 1) 0).1 with
  | error e => rfl
  | ok out =>
    dsimp only
    split <;> rfl

theorem decompressEitherCounted_fst (flate : Flate2) (input : Bytes) :
    (decompressEitherCounted flate input).1 =
      orElseOk (decompressRawDeflate flate input) (decompressZlib flate input) := by
  unfold decompressEitherCounted orElseOk decompressRawDeflate decompressZlib
  rw [← readBoundedCounted_fst, ← readBoundedCounted_fst]
  dsimp only
  cases (readBoundedCounted (flate.deflateDecoder input)).1 <;> rfl

/-- The counts leave the result alone. -/
theorem decompressBatchCounted_fst (flate : Flate2) (data : Bytes) :
    (decompressBatchCounted flate data).1 = decompressBatch flate data true := by
  cases data with
  | nil => rfl
  | cons first payload =>
    unfold decompressBatchCounted
    rw [decompressBatch_cons]
    dsimp only
    by_cases hzero : first = 0
    · rw [if_pos hzero, hzero]
      exact decompressEitherCounted_fst flate payload
    by_cases hstored : first = 0xff
    · rw [if_neg hzero, if_pos hstored, hstored, decompressCompressedPayload_stored]
      split_ifs <;> rfl
    · rw [if_neg hzero, if_neg hstored, decompressCompressedPayload_legacy flate
        (by simpa using hzero) (by simpa using hstored)]
      exact decompressEitherCounted_fst flate _

theorem takeToEndCounted_snd_le (decoder : Decoder) (limit i : ℕ) :
    (takeToEndCounted decoder limit i).2 ≤ limit := by
  induction limit generalizing i with
  | zero => exact le_rfl
  | succ limit ih =>
    have hrest := ih (i + 1)
    unfold takeToEndCounted
    cases decoder i with
    | finished => exact Nat.zero_le _
    | failed message => exact Nat.zero_le _
    | octet value =>
      dsimp only
      cases (takeToEndCounted decoder limit (i + 1)).1 with
      | ok out => exact Nat.succ_le_succ hrest
      | error message => exact Nat.succ_le_succ hrest

theorem readBoundedCounted_snd_le (decoder : Decoder) :
    (readBoundedCounted decoder).2 ≤ maxDecompressedSize + 1 := by
  have hle := takeToEndCounted_snd_le decoder (maxDecompressedSize + 1) 0
  unfold readBoundedCounted
  dsimp only
  cases (takeToEndCounted decoder (maxDecompressedSize + 1) 0).1 with
  | error e => exact hle
  | ok out =>
    dsimp only
    split <;> exact hle

theorem decompressEitherCounted_le (flate : Flate2) (input : Bytes) :
    ∀ n ∈ (decompressEitherCounted flate input).2, n ≤ maxDecompressedSize + 1 := by
  have hraw := readBoundedCounted_snd_le (flate.deflateDecoder input)
  have hzlib := readBoundedCounted_snd_le (flate.zlibDecoder input)
  unfold decompressEitherCounted
  dsimp only
  cases (readBoundedCounted (flate.deflateDecoder input)).1 with
  | ok out => simpa using hraw
  | error e => simpa using ⟨hraw, hzlib⟩

theorem decompressBatchCounted_le (flate : Flate2) (data : Bytes) :
    ∀ n ∈ (decompressBatchCounted flate data).2, n ≤ maxDecompressedSize + 1 := by
  cases data with
  | nil => exact nofun
  | cons first payload =>
    unfold decompressBatchCounted
    dsimp only
    split_ifs
    · exact decompressEitherCounted_le flate payload
    · exact nofun
    · exact nofun
    · exact decompressEitherCounted_le flate _

/-- What is taken begins at the `i`-th octet, and is followed by the end of the decoder when it
is shorter than the limit. -/
theorem takeToEnd_ok {decoder : Decoder} {limit i : ℕ} {out : Bytes}
    (h : takeToEnd decoder limit i = .ok out) :
    (∀ j value, out[j]? = some value → decoder (i + j) = .octet value) ∧
      (out.length < limit → decoder (i + out.length) = .finished) := by
  induction limit generalizing i out with
  | zero =>
    cases h
    exact ⟨by simp, by simp⟩
  | succ limit ih =>
    unfold takeToEnd at h
    cases hd : decoder i with
    | finished =>
      rw [hd] at h
      cases h
      exact ⟨by simp, fun _ => hd⟩
    | failed message =>
      rw [hd] at h
      cases h
    | octet value =>
      rw [hd] at h
      dsimp only at h
      cases hrest : takeToEnd decoder limit (i + 1) with
      | error message =>
        rw [hrest] at h
        cases h
      | ok rest =>
        rw [hrest] at h
        cases h
        obtain ⟨hoctets, hend⟩ := ih hrest
        constructor
        · intro j v hj
          cases j with
          | zero =>
            obtain rfl : value = v := by simpa using hj
            exact hd
          | succ j =>
            have hstep := hoctets j v (by simpa using hj)
            rwa [Nat.add_assoc, Nat.add_comm 1] at hstep
        · intro hlt
          rw [List.length_cons] at hlt ⊢
          have hstep := hend (by omega)
          rwa [Nat.add_assoc, Nat.add_comm 1] at hstep

/-- The decoder hands over exactly these octets and then ends. -/
structure EntireOutput (decoder : Decoder) (out : Bytes) : Prop where
  octets : ∀ i value, out[i]? = some value → decoder i = .octet value
  ends : decoder out.length = .finished

theorem readBounded_ok {decoder : Decoder} {out : Bytes} (h : readBounded decoder = .ok out) :
    out.length ≤ maxDecompressedSize ∧ EntireOutput decoder out := by
  unfold readBounded at h
  cases htaken : takeToEnd decoder (maxDecompressedSize + 1) 0 with
  | error e =>
    rw [htaken] at h
    cases h
  | ok taken =>
    rw [htaken] at h
    dsimp only at h
    by_cases hlarge : taken.length > maxDecompressedSize
    · rw [if_pos hlarge] at h
      cases h
    · rw [if_neg hlarge] at h
      cases h
      obtain ⟨hoctets, hend⟩ := takeToEnd_ok htaken
      simp only [Nat.zero_add] at hoctets hend
      exact ⟨by omega, hoctets, hend (by omega)⟩

theorem decompressEither_ok {flate : Flate2} {input out : Bytes}
    (h : orElseOk (decompressRawDeflate flate input) (decompressZlib flate input) = .ok out) :
    out.length ≤ maxDecompressedSize ∧ (EntireOutput (flate.deflateDecoder input) out ∨
      EntireOutput (flate.zlibDecoder input) out) := by
  unfold decompressRawDeflate decompressZlib orElseOk at h
  cases hraw : readBounded (flate.deflateDecoder input) with
  | ok first =>
    rw [hraw] at h
    cases h
    obtain ⟨hle, hall⟩ := readBounded_ok hraw
    exact ⟨hle, .inl hall⟩
  | error e =>
    rw [hraw] at h
    obtain ⟨hle, hall⟩ := readBounded_ok h
    exact ⟨hle, .inr hall⟩

/-- What the decoders are given: the payload behind a zero, or everything. -/
def decoderInput (data : Bytes) : Bytes := if data.head? = some 0 then data.tail else data

theorem decoderInput_of_head {data : Bytes} (h : data.head? ≠ some 0) : decoderInput data = data :=
  if_neg h

/-- What is not marked as stored goes through the decoders. -/
theorem decompressBatch_decoded (flate : Flate2) {data : Bytes} (hne : data ≠ [])
    (hstored : data.head? ≠ some 0xff) :
    decompressBatch flate data true = orElseOk (decompressRawDeflate flate (decoderInput data))
      (decompressZlib flate (decoderInput data)) := by
  obtain ⟨first, payload, rfl⟩ := List.exists_cons_of_ne_nil hne
  rw [decompressBatch_cons]
  by_cases hzero : first = 0
  · subst hzero
    rfl
  · have hhead : (first :: payload).head? ≠ some 0 := by simpa using hzero
    rw [decompressCompressedPayload_legacy flate hhead hstored, decoderInput_of_head hhead]

/-- Each decoder gives up at most one octet more than is accepted, and what is accepted is what
was stored, or all that a decoder had. -/
theorem decompressBatch_allOrNothing (flate : Flate2) (data : Bytes) :
    (decompressBatchCounted flate data).1 = decompressBatch flate data true ∧
    (∀ n ∈ (decompressBatchCounted flate data).2, n ≤ maxDecompressedSize + 1) ∧
    ∀ out, decompressBatch flate data true = .ok out → out.length ≤ maxDecompressedSize ∧
      (data = 0xff :: out ∨ data.head? ≠ some 0xff ∧
        (EntireOutput (flate.deflateDecoder (decoderInput data)) out ∨
          EntireOutput (flate.zlibDecoder (decoderInput data)) out)) := by
  refine ⟨decompressBatchCounted_fst flate data, decompressBatchCounted_le flate data, ?_⟩
  intro out hout
  by_cases hne : data = []
  · subst hne
    cases hout
  by_cases hstored : data.head? = some 0xff
  · obtain ⟨payload, rfl⟩ := List.head?_eq_some_iff.mp hstored
    rw [decompressBatch_cons, decompressCompressedPayload_stored] at hout
    by_cases hle : payload.length ≤ maxDecompressedSize
    · rw [if_pos hle] at hout
      cases hout
      exact ⟨hle, .inl rfl⟩
    · rw [if_neg hle] at hout
      cases hout
  · rw [decompressBatch_decoded flate hne hstored] at hout
    exact (decompressEither_ok hout).imp_right fun hall => .inr ⟨hstored, hall⟩

end SkinGetBE
