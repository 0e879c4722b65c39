import SkinGetBE.Buffer
import SkinGetBE.MachineWord

/-!
# Reads of the buffer with their faults

The buffer is a pair of fields here, and nothing keeps the position inside the data.
Sums are sums of 64-bit words, an index may lie outside, a shift may be too far. A
buffer whose octets fit in memory meets none of these, and reads what it should.
-/
namespace SkinGetBE
open Octets Machine

structure RawBuffer where
  data : Bytes
  position : ℕ

namespace RawBuffer

def ofBytes (data : Bytes) : RawBuffer := ⟨data, 0⟩

def remaining (b : RawBuffer) : Run ℕ :=
  if b.position < b.data.length then sub b.data.length b.position else .ok 0

def readU8 (b : RawBuffer) : Run (Except Error UInt8 × RawBuffer) :=
  if b.position < b.data.length then do
    let val ← index b.data b.position
    let position ← add 64 b.position 1
    .ok (.ok val, { b with position })
  else .ok (.error Buffer.overflow, b)

/-- The octet at an offset from the position, moved to its place in a 32-bit word. -/
def octetAt (b : RawBuffer) (offset count : ℕ) : Run ℕ := do
  let i ← add 64 b.position offset
  let octet ← index b.data i
  shl 32 octet.toNat count

/-- A word of four octets; the arguments say how far each is moved. -/
def readWord (c0 c1 c2 c3 : ℕ) (b : RawBuffer) : Run (Except Error ℕ × RawBuffer) := do
  let stop ← add 64 b.position 4
  if stop ≤ b.data.length then do
    let x0 ← b.octetAt 0 c0
    let x1 ← b.octetAt 1 c1
    let x2 ← b.octetAt 2 c2
    let x3 ← b.octetAt 3 c3
    let position ← add 64 b.position 4
    .ok (.ok (x0 ||| x1 ||| x2 ||| x3), { b with position })
  else .ok (.error Buffer.overflow, b)

def readU32 : RawBuffer → Run (Except Error ℕ × RawBuffer) := readWord 24 16 8 0

def readU32Le : RawBuffer → Run (Except Error ℕ × RawBuffer) := readWord 0 8 16 24

/-- The octet at an offset from the position. -/
def octet (b : RawBuffer) (offset : ℕ) : Run ℕ := do
  let i ← add 64 b.position offset
  let byte ← index b.data i
  .ok byte.toNat

/-- The bounds check and the advance around the other reads of a fixed width. -/
def readFixed (width : ℕ) (assemble : RawBuffer → Run ℕ) (b : RawBuffer) :
    Run (Except Error ℕ × RawBuffer) := do
  let stop ← add 64 b.position width
  if stop ≤ b.data.length then do
    let val ← assemble b
    let position ← add 64 b.position width
    .ok (.ok val, { b with position })
  else .ok (.error Buffer.overflow, b)

def readU16 : RawBuffer → Run (Except Error ℕ × RawBuffer) :=
  readFixed 2 fun b => do
    let high ← shl 16 (← b.octet 0) 8
    .ok (high ||| (← b.octet 1))

def readU16Le : RawBuffer → Run (Except Error ℕ × RawBuffer) :=
  readFixed 2 fun b => do
    let low ← b.octet 0
    .ok (low ||| (← shl 16 (← b.octet 1) 8))

def readU24Le : RawBuffer → Run (Except Error ℕ × RawBuffer) :=
  readFixed 3 fun b => do
    let low ← b.octet 0
    let middle ← shl 32 (← b.octet 1) 8
    .ok (low ||| middle ||| (← shl 32 (← b.octet 2) 16))

/-- `n` iterations are left, `i` are done. -/
def readU64Loop : ℕ → ℕ → ℕ → RawBuffer → Run ℕ
  | 0, _, val, _ => .ok val
  | n + 1, i, val, b => do
    let moved ← shl 64 val 8
    let val := moved ||| (← b.octet i)
    readU64Loop n (i + 1) val b

def readU64 : RawBuffer → Run (Except Error ℕ × RawBuffer) := readFixed 8 (readU64Loop 8 0 0)

def readU64LeLoop : ℕ → ℕ → ℕ → RawBuffer → Run ℕ
  | 0, _, val, _ => .ok val
  | n + 1, i, val, b => do
    let byte ← b.octet i
    let count ← mul 64 i 8
    let val := val ||| (← shl 64 byte count)
    readU64LeLoop n (i + 1) val b

def readU64Le : RawBuffer → Run (Except Error ℕ × RawBuffer) := readFixed 8 (readU64LeLoop 8 0 0)

/-- The count of the loop is an `i32`. -/
def readVarIntLoop : ℕ → ℕ → ℕ → RawBuffer → Run (Except Error ℕ × RawBuffer)
  | 0, _, _, b => .ok (.error (.invalidData "VarInt too large"), b)
  | n + 1, i, result, b => do
    match ← b.readU8 with
    | (.error e, b) => .ok (.error e, b)
    | (.ok byte, b) =>
      let count ← mul 31 7 i
      let group ← shl 32 (byte &&& 0x7F).toNat count
      let result := result ||| group
      if byte &&& 0x80 = 0 then .ok (.ok result, b) else readVarIntLoop n (i + 1) result b

def readVarInt (b : RawBuffer) : Run (Except Error ℕ × RawBuffer) := readVarIntLoop 5 0 0 b

def readBytes (count : ℕ) (b : RawBuffer) : Run (Except Error Bytes × RawBuffer) := do
  let stop ← add 64 b.position count
  if stop ≤ b.data.length then do
    let slice ← range b.data b.position stop
    let position ← add 64 b.position count
    .ok (.ok slice, { b with position })
  else .ok (.error Buffer.overflow, b)

end RawBuffer

namespace Buffer

/-- The fields of a buffer. -/
def raw (b : Buffer) : RawBuffer := ⟨b.data, b.position⟩

/-- A buffer in memory: one allocation has fewer than `2 ^ 63` octets. -/
def Fits (b : Buffer) : Prop := b.data.length < 2 ^ 63

/-- A checked read returns what the plain one does and leaves the same buffer, which still fits. -/
def Agrees {α : Type} (checked : RawBuffer → Run (Except Error α × RawBuffer))
    (plain : Buffer → Except Error α × Buffer) : Prop :=
  ∀ b : Buffer, b.Fits →
    checked b.raw = .ok ((plain b).1, (plain b).2.raw) ∧ (plain b).2.Fits

theorem raw_remaining (b : Buffer) : b.raw.remaining = .ok b.remaining := by
  unfold RawBuffer.remaining Buffer.remaining raw
  split_ifs with h
  · exact sub_eq h.le
  · rfl

theorem readU8_agrees : Agrees RawBuffer.readU8 readU8 := by
  intro b hb
  unfold RawBuffer.readU8 readU8
  by_cases h : b.position < b.data.length
  · have hlt : b.data.length < 2 ^ 63 := hb
    have hadd : add 64 b.position 1 = .ok (b.position + 1) := add_eq (by omega)
    rw [dif_pos h, if_pos (show b.raw.position < b.raw.data.length from h)]
    simp only [raw, index_eq h, hadd, ok_bind]
    exact ⟨trivial, hb⟩
  · rw [dif_neg h, if_neg (show ¬ b.raw.position < b.raw.data.length from h)]
    exact ⟨rfl, hb⟩

theorem octetAt_eq {b : Buffer} (hb : b.Fits) {offset count : ℕ}
    (h : b.position + offset < b.data.length) (hc : count ≤ 24) :
    b.raw.octetAt offset count =
      .ok ((b.data.get ⟨b.position + offset, h⟩).toNat <<< count) := by
  have hlt : b.data.length < 2 ^ 63 := hb
  have hadd : add 64 b.position offset = .ok (b.position + offset) := add_eq (by omega)
  have hoctet : (b.data.get ⟨b.position + offset, h⟩).toNat < 2 ^ 8 := UInt8.toNat_lt _
  unfold RawBuffer.octetAt raw
  rw [hadd, ok_bind, index_eq h, ok_bind]
  exact shl_of_lt hoctet (by omega) (by omega)

theorem readWord_agrees {c0 c1 c2 c3 : ℕ} (h0 : c0 ≤ 24) (h1 : c1 ≤ 24) (h2 : c2 ≤ 24)
    (h3 : c3 ≤ 24) : Agrees (RawBuffer.readWord c0 c1 c2 c3)
      (readWord 4 fun d => (d 0 <<< c0) ||| (d 1 <<< c1) ||| (d 2 <<< c2) ||| (d 3 <<< c3)) := by
  intro b hb
  have hlt : b.data.length < 2 ^ 63 := hb
  have hpos := b.position_le
  have hadd : add 64 b.raw.position 4 = .ok (b.position + 4) := add_eq (by
    change b.position + 4 < 2 ^ 64
    omega)
  unfold RawBuffer.readWord readWord
  rw [hadd, ok_bind]
  by_cases h : b.position + 4 ≤ b.data.length
  · rw [dif_pos h, if_pos (show b.position + 4 ≤ b.raw.data.length from h),
      octetAt_eq hb (show b.position + 0 < b.data.length by omega) h0,
      octetAt_eq hb (show b.position + 1 < b.data.length by omega) h1,
      octetAt_eq hb (show b.position + 2 < b.data.length by omega) h2,
      octetAt_eq hb (show b.position + 3 < b.data.length by omega) h3]
    exact ⟨rfl, hb⟩
  · rw [dif_neg h, if_neg (show ¬ b.position + 4 ≤ b.raw.data.length from h)]
    exact ⟨rfl, hb⟩

theorem readU32_agrees : Agrees RawBuffer.readU32 readU32 :=
  readWord_agrees (by decide) (by decide) (by decide) (by decide)

theorem readU32Le_agrees : Agrees RawBuffer.readU32Le readU32Le :=
  readWord_agrees (by decide) (by decide) (by decide) (by decide)

theorem octet_eq {b : Buffer} (hb : b.Fits) {offset : ℕ}
    (h : b.position + offset < b.data.length) :
    b.raw.octet offset = .ok (b.data.get ⟨b.position + offset, h⟩).toNat := by
  have hlt : b.data.length < 2 ^ 63 := hb
  have hadd : add 64 b.position offset = .ok (b.position + offset) := add_eq (by omega)
  unfold RawBuffer.octet raw
  rw [hadd, ok_bind, index_eq h]
  rfl

/-- The octets at the first offsets. -/
def HasOctets (b : RawBuffer) {width : ℕ} (d : Fin width → ℕ) : Prop :=
  ∀ i : Fin width, d i < 2 ^ 8 ∧ b.octet i = .ok (d i)

/-- What is left of a read is to make a word of octets that are there. -/
theorem readFixed_agrees {width : ℕ} {assemble : RawBuffer → Run ℕ}
    {plain : (Fin width → ℕ) → ℕ} (hw : width ≤ 8)
    (h : ∀ (b : RawBuffer) (d : Fin width → ℕ), HasOctets b d → assemble b = .ok (plain d)) :
    Agrees (RawBuffer.readFixed width assemble) (readWord width plain) := by
  intro b hb
  have hlt : b.data.length < 2 ^ 63 := hb
  have hpos := b.position_le
  have hadd : add 64 b.raw.position width = .ok (b.position + width) := add_eq (by
    change b.position + width < 2 ^ 64
    omega)
  unfold RawBuffer.readFixed readWord
  rw [hadd, ok_bind]
  by_cases hle : b.position + width ≤ b.data.length
  · have hthere : HasOctets b.raw fun i : Fin width =>
        (b.data.get ⟨b.position + i, by omega⟩).toNat :=
      fun i => ⟨UInt8.toNat_lt _, octet_eq hb _⟩
    rw [dif_pos hle, if_pos (show b.position + width ≤ b.raw.data.length from hle), h _ _ hthere]
    exact ⟨rfl, hb⟩
  · rw [dif_neg hle, if_neg (show ¬ b.position + width ≤ b.raw.data.length from hle)]
    exact ⟨rfl, hb⟩

theorem readU16_agrees : Agrees RawBuffer.readU16 readU16 := by
  refine readFixed_agrees (by decide) fun b d hd => ?_
  have h0 : b.octet 0 = .ok (d 0) := (hd 0).2
  have h1 : b.octet 1 = .ok (d 1) := (hd 1).2
  rw [h0, ok_bind, shl_of_lt (hd 0).1 (by decide) (by decide), ok_bind, h1]
  rfl

theorem readU16Le_agrees : Agrees RawBuffer.readU16Le readU16Le := by
  refine readFixed_agrees (by decide) fun b d hd => ?_
  have h0 : b.octet 0 = .ok (d 0) := (hd 0).2
  have h1 : b.octet 1 = .ok (d 1) := (hd 1).2
  rw [h0, ok_bind, h1, ok_bind, shl_of_lt (hd 1).1 (by decide) (by decide)]
  rfl

theorem readU24Le_agrees : Agrees RawBuffer.readU24Le readU24Le := by
  refine readFixed_agrees (by decide) fun b d hd => ?_
  have h0 : b.octet 0 = .ok (d 0) := (hd 0).2
  have h1 : b.octet 1 = .ok (d 1) := (hd 1).2
  have h2 : b.octet 2 = .ok (d 2) := (hd 2).2
  rw [h0, ok_bind, h1, ok_bind, shl_of_lt (hd 1).1 (by decide) (by decide), ok_bind, h2, ok_bind,
    shl_of_lt (hd 2).1 (by decide) (by decide)]
  rfl

/-- An octet behind a word with room for it is joined without a loss. -/
theorem join_lt {val byte n : ℕ} (hval : val < 2 ^ n) (hbyte : byte < 2 ^ 8) :
    (val <<< 8) ||| byte < 2 ^ (n + 8) := by
  refine Nat.or_lt_two_pow ?_ (hbyte.trans_le (Nat.pow_le_pow_right (by decide) (by omega)))
  rw [Nat.shiftLeft_eq, Nat.pow_add]
  exact Nat.mul_lt_mul_of_pos_right hval (by decide)

theorem readU64Loop_eq {b : RawBuffer} {d : Fin 8 → ℕ} (hd : HasOctets b d) (n i val : ℕ)
    (hval : val < 2 ^ (8 * i)) (hi : i + n = 8) : RawBuffer.readU64Loop n i val b =
      .ok (((List.finRange 8).drop i).foldl (fun val i => (val <<< 8) ||| d i) val) := by
  induction n generalizing i val with
  | zero =>
    obtain rfl : i = 8 := hi
    rfl
  | succ n ih =>
    have hlt : i < (List.finRange 8).length := by
      rw [List.length_finRange]
      omega
    have hoctet : b.octet i = .ok (d ⟨i, by omega⟩) := (hd ⟨i, by omega⟩).2
    have hnext := join_lt hval (hd ⟨i, by omega⟩).1
    rw [RawBuffer.readU64Loop, shl_of_lt hval (by omega) (by decide), ok_bind, hoctet, ok_bind,
      ih _ _ hnext (by omega), List.drop_eq_getElem_cons hlt, List.foldl_cons,
      List.getElem_finRange]
    rfl

theorem readU64LeLoop_eq {b : RawBuffer} {d : Fin 8 → ℕ} (hd : HasOctets b d) (n i val : ℕ)
    (hi : i + n = 8) : RawBuffer.readU64LeLoop n i val b =
      .ok (((List.finRange 8).drop i).foldl (fun val i => val ||| (d i <<< (i.val * 8))) val) := by
  induction n generalizing i val with
  | zero =>
    obtain rfl : i = 8 := hi
    rfl
  | succ n ih =>
    have hlt : i < (List.finRange 8).length := by
      rw [List.length_finRange]
      omega
    have hoctet : b.octet i = .ok (d ⟨i, by omega⟩) := (hd ⟨i, by omega⟩).2
    have hmul : mul 64 i 8 = .ok (i * 8) := mul_eq (by omega)
    rw [RawBuffer.readU64LeLoop, hoctet, ok_bind, hmul, ok_bind,
      shl_of_lt (hd ⟨i, by omega⟩).1 (by omega) (by omega), ok_bind, ih _ _ (by omega),
      List.drop_eq_getElem_cons hlt, List.foldl_cons, List.getElem_finRange]
    rfl

theorem readU64_agrees : Agrees RawBuffer.readU64 readU64 :=
  readFixed_agrees le_rfl fun _ _ hd => readU64Loop_eq hd 8 0 0 (by decide) rfl

theorem readU64Le_agrees : Agrees RawBuffer.readU64Le readU64Le :=
  readFixed_agrees le_rfl fun _ _ hd => readU64LeLoop_eq hd 8 0 0 rfl

theorem readVarIntLoop_agrees (n i result : ℕ) (h : i + n ≤ 5) :
    Agrees (RawBuffer.readVarIntLoop n i result) (readVarIntLoop n i result) := by
  induction n generalizing i result with
  | zero => exact fun b hb => ⟨rfl, hb⟩
  | succ n ih =>
    intro b hb
    obtain ⟨hread, hfits⟩ := readU8_agrees b hb
    have hmul : mul 31 7 i = .ok (7 * i) := mul_eq (by omega)
    unfold RawBuffer.readVarIntLoop readVarIntLoop
    rw [hread, ok_bind]
    generalize b.readU8 = r at hfits ⊢
    obtain ⟨x, b'⟩ := r
    cases x with
    | error e => exact ⟨rfl, hfits⟩
    | ok byte =>
      dsimp only
      have hshl := shl_eq (a := (byte &&& 0x7F).toNat) (show 7 * i < 32 by omega)
      rw [hmul, ok_bind, hshl, ok_bind]
      by_cases hlast : byte &&& 0x80 = 0
      · rw [if_pos hlast, if_pos hlast]
        exact ⟨rfl, hfits⟩
      · rw [if_neg hlast, if_neg hlast]
        exact ih (i + 1) _ (by omega) b' hfits

theorem readVarInt_agrees : Agrees RawBuffer.readVarInt readVarInt :=
  readVarIntLoop_agrees 5 0 0 le_rfl

/-- A count that is no more than the data cannot leave the word. -/
theorem readBytes_agrees {count : ℕ} (hc : count < 2 ^ 63) :
    Agrees (RawBuffer.readBytes count) (readBytes count) := by
  intro b hb
  have hlt : b.data.length < 2 ^ 63 := hb
  have hpos := b.position_le
  have hadd : add 64 b.raw.position count = .ok (b.position + count) := add_eq (by
    change b.position + count < 2 ^ 64
    omega)
  unfold RawBuffer.readBytes readBytes
  rw [hadd, ok_bind]
  by_cases h : b.position + count ≤ b.data.length
  · rw [dif_pos h, if_pos (show b.position + count ≤ b.raw.data.length from h)]
    have hrange : range b.raw.data b.raw.position (b.position + count) =
        .ok ((b.data.drop b.position).take count) := range_eq h
    rw [hrange]
    exact ⟨rfl, hb⟩
  · rw [dif_neg h, if_neg (show ¬ b.position + count ≤ b.raw.data.length from h)]
    exact ⟨rfl, hb⟩

end Buffer
end SkinGetBE
