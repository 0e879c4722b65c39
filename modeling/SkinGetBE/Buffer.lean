import SkinGetBE.Text

/-!
# The binary buffer

Reads return the result together with the buffer they leave behind, because a
failed variable-length read has already moved the position. Writes cannot fail
and return the extended buffer. Every octet a read touches carries the proof
that its index is in bounds.
-/
namespace SkinGetBE
open Octets

inductive Error
  | ioError (text : String)
  | protocolError (text : String)
  | cryptoError (text : String)
  | jsonError (text : String)
  | invalidData (text : String)
  | other (text : String)
  deriving DecidableEq, Repr

/-- The read position never passes the end of the data. -/
structure Buffer where
  data : Bytes
  position : ℕ
  position_le : position ≤ data.length
  deriving DecidableEq, Repr

namespace Buffer

def new : Buffer := ⟨[], 0, le_rfl⟩

def ofBytes (data : Bytes) : Buffer := ⟨data, 0, Nat.zero_le _⟩

def hasRemaining (b : Buffer) : Bool := b.position < b.data.length

def remaining (b : Buffer) : ℕ :=
  if b.position < b.data.length then b.data.length - b.position else 0

def overflow : Error := .invalidData "Buffer overflow"

def readU8 (b : Buffer) : Except Error UInt8 × Buffer :=
  if h : b.position < b.data.length then
    (.ok (b.data.get ⟨b.position, h⟩), ⟨b.data, b.position + 1, h⟩)
  else (.error overflow, b)

/-- The bounds check and the advance shared by the reads of a fixed width;
`assemble` receives the octets at offsets `0 .. width - 1`. -/
def readWord (width : ℕ) (assemble : (Fin width → ℕ) → ℕ) (b : Buffer) :
    Except Error ℕ × Buffer :=
  if h : b.position + width ≤ b.data.length then
    (.ok (assemble fun i => (b.data.get ⟨b.position + i, by omega⟩).toNat),
      ⟨b.data, b.position + width, h⟩)
  else (.error overflow, b)

def readU16 : Buffer → Except Error ℕ × Buffer :=
  readWord 2 fun d => (d 0 <<< 8) ||| d 1

def readU16Le : Buffer → Except Error ℕ × Buffer :=
  readWord 2 fun d => d 0 ||| (d 1 <<< 8)

def readU32 : Buffer → Except Error ℕ × Buffer :=
  readWord 4 fun d => (d 0 <<< 24) ||| (d 1 <<< 16) ||| (d 2 <<< 8) ||| d 3

def readU32Le : Buffer → Except Error ℕ × Buffer :=
  readWord 4 fun d => d 0 ||| (d 1 <<< 8) ||| (d 2 <<< 16) ||| (d 3 <<< 24)

def readU24Le : Buffer → Except Error ℕ × Buffer :=
  readWord 3 fun d => d 0 ||| (d 1 <<< 8) ||| (d 2 <<< 16)

/-- The accumulator loop `val = (val << 8) | byte` over eight octets. -/
def readU64 : Buffer → Except Error ℕ × Buffer :=
  readWord 8 fun d => (List.finRange 8).foldl (fun val i => (val <<< 8) ||| d i) 0

/-- The accumulator loop `val |= byte << (i * 8)` over eight octets. -/
def readU64Le : Buffer → Except Error ℕ × Buffer :=
  readWord 8 fun d => (List.finRange 8).foldl (fun val i => val ||| (d i <<< (i.val * 8))) 0

/-- `n` iterations are left, `i` are done. The shift is a 32-bit one: bits moved
past the word are lost. -/
def readVarIntLoop : ℕ → ℕ → ℕ → Buffer → Except Error ℕ × Buffer
  | 0, _, _, b => (.error (.invalidData "VarInt too large"), b)
  | n + 1, i, result, b =>
    match b.readU8 with
    | (.error e, b) => (.error e, b)
    | (.ok byte, b) =>
      let result := result ||| (((byte &&& 0x7F).toNat <<< (7 * i)) % 2 ^ 32)
      if byte &&& 0x80 = 0 then (.ok result, b) else readVarIntLoop n (i + 1) result b

def readVarInt (b : Buffer) : Except Error ℕ × Buffer := readVarIntLoop 5 0 0 b

def readBytes (count : ℕ) (b : Buffer) : Except Error Bytes × Buffer :=
  if h : b.position + count ≤ b.data.length then
    (.ok ((b.data.drop b.position).take count), ⟨b.data, b.position + count, h⟩)
  else (.error overflow, b)

def readRemaining (b : Buffer) : Bytes × Buffer :=
  (b.data.drop b.position, ⟨b.data, b.data.length, le_rfl⟩)

def peekU8 (offset : ℕ) (b : Buffer) : Except Error UInt8 :=
  if h : b.position + offset < b.data.length then .ok (b.data.get ⟨b.position + offset, h⟩)
  else .error overflow

def push (octets : Bytes) (b : Buffer) : Buffer :=
  ⟨b.data ++ octets, b.position, by have := b.position_le; rw [List.length_append]; omega⟩

def writeU8 (value : UInt8) : Buffer → Buffer := push [value]

def writeU16 (value : ℕ) : Buffer → Buffer :=
  push [.ofNat ((value >>> 8) &&& 0xFF), .ofNat (value &&& 0xFF)]

def writeU16Le (value : ℕ) : Buffer → Buffer :=
  push [.ofNat (value &&& 0xFF), .ofNat ((value >>> 8) &&& 0xFF)]

def writeU32 (value : ℕ) : Buffer → Buffer :=
  push [.ofNat ((value >>> 24) &&& 0xFF), .ofNat ((value >>> 16) &&& 0xFF),
    .ofNat ((value >>> 8) &&& 0xFF), .ofNat (value &&& 0xFF)]

def writeU32Le (value : ℕ) : Buffer → Buffer :=
  push [.ofNat (value &&& 0xFF), .ofNat ((value >>> 8) &&& 0xFF),
    .ofNat ((value >>> 16) &&& 0xFF), .ofNat ((value >>> 24) &&& 0xFF)]

def writeU24Le (value : ℕ) : Buffer → Buffer :=
  push [.ofNat (value &&& 0xFF), .ofNat ((value >>> 8) &&& 0xFF),
    .ofNat ((value >>> 16) &&& 0xFF)]

/-- The loop over the octets from the highest to the lowest. -/
def writeU64 (value : ℕ) : Buffer → Buffer :=
  push ((List.range 8).reverse.map fun i => .ofNat ((value >>> (i * 8)) &&& 0xFF))

def writeU64Le (value : ℕ) : Buffer → Buffer :=
  push ((List.range 8).map fun i => .ofNat ((value >>> (i * 8)) &&& 0xFF))

/-- Groups of seven bits while the value exceeds `0x7F`. A `u32` has at most five
groups, which is the budget of the only caller. -/
def writeVarIntLoop : ℕ → ℕ → Bytes
  | 0, value => [.ofNat (value &&& 0x7F)]
  | fuel + 1, value =>
    if value > 0x7F then .ofNat ((value &&& 0x7F) ||| 0x80) :: writeVarIntLoop fuel (value >>> 7)
    else [.ofNat (value &&& 0x7F)]

def writeVarInt (value : ℕ) : Buffer → Buffer := push (writeVarIntLoop 5 value)

/-- The bit pattern of the number, written as an unsigned one. -/
def writeSignedVarInt (value : ℤ) : Buffer → Buffer := writeVarInt (value % 2 ^ 32).toNat

def writeBytes (data : Bytes) : Buffer → Buffer := push data

def writeVarString (value : Text.Str) (b : Buffer) : Buffer :=
  (b.writeVarInt ((Text.asBytes value).length % 2 ^ 32)).writeBytes (Text.asBytes value)

def writeBool (value : Bool) : Buffer → Buffer := writeU8 (if value then 1 else 0)

/-- The octets not read yet. -/
def rest (b : Buffer) : Bytes := b.data.drop b.position

def advance (n : ℕ) (b : Buffer) : Buffer :=
  ⟨b.data, min (b.position + n) b.data.length, min_le_right _ _⟩

theorem advance_eq {n : ℕ} {b : Buffer} (h : b.position + n ≤ b.data.length) :
    b.advance n = ⟨b.data, b.position + n, h⟩ := by
  simp [advance, Nat.min_eq_left h]

theorem rest_length (b : Buffer) : b.rest.length = b.data.length - b.position := by
  simp [rest]

@[simp] theorem rest_ofBytes (data : Bytes) : (ofBytes data).rest = data := rfl

@[simp] theorem rest_advance (n : ℕ) (b : Buffer) : (b.advance n).rest = b.rest.drop n := by
  simp only [rest, advance, List.drop_drop]
  rcases Nat.le_total (b.position + n) b.data.length with h | h
  · rw [Nat.min_eq_left h]
  · rw [Nat.min_eq_right h, List.drop_length, List.drop_eq_nil_of_le h]

@[simp] theorem advance_zero (b : Buffer) : b.advance 0 = b := by
  simp [advance, Nat.min_eq_left b.position_le]

@[simp] theorem advance_advance (m n : ℕ) (b : Buffer) :
    (b.advance m).advance n = b.advance (m + n) := by
  simp only [advance, mk.injEq, true_and]
  omega

theorem remaining_eq (b : Buffer) : b.remaining = b.rest.length := by
  simp only [remaining, rest, List.length_drop]
  split <;> omega

theorem hasRemaining_eq (b : Buffer) : b.hasRemaining = !b.rest.isEmpty := by
  rw [Bool.eq_iff_iff]
  simp [hasRemaining, rest]

@[simp] theorem rest_readRemaining (b : Buffer) : b.readRemaining.2.rest = [] := by
  simp [readRemaining, rest]

@[simp] theorem data_push (octets : Bytes) (b : Buffer) :
    (b.push octets).data = b.data ++ octets := rfl

@[simp] theorem data_new : new.data = [] := rfl

@[simp] theorem data_writeBytes (octets : Bytes) (b : Buffer) :
    (b.writeBytes octets).data = b.data ++ octets := rfl

@[simp] theorem data_writeU32Le (v : ℕ) (b : Buffer) :
    (b.writeU32Le v).data = b.data ++ leBytes 4 v := by
  simp [writeU32Le, leBytes, and_255, Nat.shiftRight_eq_div_pow, Nat.div_div_eq_div_mul]

@[simp] theorem data_writeU32 (v : ℕ) (b : Buffer) :
    (b.writeU32 v).data = b.data ++ beBytes 4 v := by
  simp [writeU32, beBytes, leBytes, and_255, Nat.shiftRight_eq_div_pow, Nat.div_div_eq_div_mul]

@[simp] theorem data_writeU16 (v : ℕ) (b : Buffer) :
    (b.writeU16 v).data = b.data ++ beBytes 2 v := by
  simp [writeU16, beBytes, leBytes, and_255, Nat.shiftRight_eq_div_pow]

@[simp] theorem data_writeU16Le (v : ℕ) (b : Buffer) :
    (b.writeU16Le v).data = b.data ++ leBytes 2 v := by
  simp [writeU16Le, leBytes, and_255, Nat.shiftRight_eq_div_pow]

@[simp] theorem data_writeU24Le (v : ℕ) (b : Buffer) :
    (b.writeU24Le v).data = b.data ++ leBytes 3 v := by
  simp [writeU24Le, leBytes, and_255, Nat.shiftRight_eq_div_pow, Nat.div_div_eq_div_mul]

@[simp] theorem data_writeU64Le (v : ℕ) (b : Buffer) :
    (b.writeU64Le v).data = b.data ++ leBytes 8 v := by
  rw [writeU64Le, data_push, map_range_octets]

@[simp] theorem data_writeU64 (v : ℕ) (b : Buffer) :
    (b.writeU64 v).data = b.data ++ beBytes 8 v := by
  rw [writeU64, data_push, List.map_reverse, map_range_octets]
  rfl

/-- A read within bounds sees the octets of `rest`. -/
theorem get_eq_of_rest {b : Buffer} {w tl : Bytes} (h : b.rest = w ++ tl) {i : ℕ}
    (hi : i < w.length) (hb : b.position + i < b.data.length) :
    b.data.get ⟨b.position + i, hb⟩ = w.get ⟨i, hi⟩ := by
  have h1 : b.rest[i]? = w[i]? := by rw [h, List.getElem?_append_left hi]
  simp only [rest, List.getElem?_drop, List.getElem?_eq_getElem hb,
    List.getElem?_eq_getElem hi, Option.some.injEq] at h1
  simpa using h1

theorem readU8_cons {b : Buffer} {x : UInt8} {tl : Bytes} (h : b.rest = x :: tl) :
    b.readU8 = (.ok x, b.advance 1) := by
  have hl : b.position + 1 ≤ b.data.length := by
    have := congrArg List.length h
    simp only [rest_length, List.length_cons] at this
    omega
  have hx := get_eq_of_rest (w := [x]) (i := 0) h (by simp) hl
  rw [readU8, dif_pos (show b.position < b.data.length from hl), advance_eq hl]
  exact congrArg (fun y => ((Except.ok y : Except Error UInt8), _)) hx

theorem readWord_append {width : ℕ} {assemble : (Fin width → ℕ) → ℕ} {b : Buffer} {w tl : Bytes}
    (h : b.rest = w ++ tl) (hw : w.length = width) :
    b.readWord width assemble =
      (.ok (assemble fun i => (w.get (i.cast hw.symm)).toNat), b.advance width) := by
  have hl : b.position + width ≤ b.data.length := by
    have := congrArg List.length h
    have := b.position_le
    simp only [rest_length, List.length_append, hw] at *
    omega
  rw [readWord, dif_pos hl, advance_eq hl]
  refine congrArg (fun y => ((Except.ok (assemble y) : Except Error ℕ), _)) ?_
  funext i
  rw [get_eq_of_rest h (by omega)]
  rfl

theorem readWord_short {width : ℕ} {assemble : (Fin width → ℕ) → ℕ} {b : Buffer}
    (h : b.rest.length < width) : b.readWord width assemble = (.error overflow, b) := by
  have : ¬ b.position + width ≤ b.data.length := by
    simp only [rest_length] at h
    omega
  rw [readWord, dif_neg this]

/-- Four octets joined by disjunction are their little-endian value. -/
theorem or_word_eq (x0 x1 x2 x3 : UInt8) :
    x0.toNat ||| (x1.toNat <<< 8) ||| (x2.toNat <<< 16) ||| (x3.toNat <<< 24) =
      leValue [x0, x1, x2, x3] := by
  have h0 := x0.toNat_lt
  have h1 := x1.toNat_lt
  have h2 := x2.toNat_lt
  have e1 : x0.toNat ||| (x1.toNat <<< 8) = x0.toNat + x1.toNat * 2 ^ 8 := or_shiftLeft h0 _
  have e2 := or_shiftLeft (a := x0.toNat + x1.toNat * 2 ^ 8) (i := 16) (by omega) x2.toNat
  have e3 := or_shiftLeft (a := x0.toNat + x1.toNat * 2 ^ 8 + x2.toNat * 2 ^ 16) (i := 24)
    (by omega) x3.toNat
  rw [e1, e2, e3]
  simp only [leValue]
  omega

theorem readU32Le_cons {b : Buffer} {x0 x1 x2 x3 : UInt8} {tl : Bytes}
    (h : b.rest = x0 :: x1 :: x2 :: x3 :: tl) :
    b.readU32Le = (.ok (leValue [x0, x1, x2, x3]), b.advance 4) := by
  rw [← or_word_eq]
  exact readWord_append (w := [x0, x1, x2, x3]) h rfl

theorem readU32_cons {b : Buffer} {x0 x1 x2 x3 : UInt8} {tl : Bytes}
    (h : b.rest = x0 :: x1 :: x2 :: x3 :: tl) :
    b.readU32 = (.ok (beValue [x0, x1, x2, x3]), b.advance 4) := by
  have he : (x0.toNat <<< 24) ||| (x1.toNat <<< 16) ||| (x2.toNat <<< 8) ||| x3.toNat =
      beValue [x0, x1, x2, x3] := by
    have comm (p q r s : ℕ) : p ||| q ||| r ||| s = s ||| r ||| q ||| p := by ac_rfl
    rw [comm, or_word_eq]
    rfl
  rw [← he]
  exact readWord_append (w := [x0, x1, x2, x3]) h rfl

theorem readU16_cons {b : Buffer} {x0 x1 : UInt8} {tl : Bytes} (h : b.rest = x0 :: x1 :: tl) :
    b.readU16 = (.ok (beValue [x0, x1]), b.advance 2) := by
  have he : (x0.toNat <<< 8) ||| x1.toNat = beValue [x0, x1] := by
    have hor := or_shiftLeft (i := 8) x1.toNat_lt x0.toNat
    rw [Nat.or_comm, hor]
    simp only [beValue, List.reverse_cons, List.reverse_nil, List.nil_append, List.cons_append,
      leValue]
    omega
  rw [← he]
  exact readWord_append (w := [x0, x1]) h rfl

theorem readU16Le_cons {b : Buffer} {x0 x1 : UInt8} {tl : Bytes} (h : b.rest = x0 :: x1 :: tl) :
    b.readU16Le = (.ok (leValue [x0, x1]), b.advance 2) := by
  have he : x0.toNat ||| (x1.toNat <<< 8) = leValue [x0, x1] := by
    rw [or_shiftLeft (i := 8) x0.toNat_lt]
    simp only [leValue]
    omega
  rw [← he]
  exact readWord_append (w := [x0, x1]) h rfl

theorem readU24Le_cons {b : Buffer} {x0 x1 x2 : UInt8} {tl : Bytes}
    (h : b.rest = x0 :: x1 :: x2 :: tl) :
    b.readU24Le = (.ok (leValue [x0, x1, x2]), b.advance 3) := by
  have he : x0.toNat ||| (x1.toNat <<< 8) ||| (x2.toNat <<< 16) = leValue [x0, x1, x2] := by
    have h0 := x0.toNat_lt
    have h1 := x1.toNat_lt
    have e1 : x0.toNat ||| (x1.toNat <<< 8) = x0.toNat + x1.toNat * 2 ^ 8 := or_shiftLeft h0 _
    have e2 := or_shiftLeft (a := x0.toNat + x1.toNat * 2 ^ 8) (i := 16) (by omega) x2.toNat
    rw [e1, e2]
    simp only [leValue]
    omega
  rw [← he]
  exact readWord_append (w := [x0, x1, x2]) h rfl

theorem exists_eight {w : Bytes} (h : w.length = 8) :
    ∃ x0 x1 x2 x3 x4 x5 x6 x7, w = [x0, x1, x2, x3, x4, x5, x6, x7] := by
  match w, h with
  | [x0, x1, x2, x3, x4, x5, x6, x7], _ => exact ⟨x0, x1, x2, x3, x4, x5, x6, x7, rfl⟩

theorem readU64_append {b : Buffer} {w tl : Bytes} (hw : w.length = 8) (h : b.rest = w ++ tl) :
    b.readU64 = (.ok (beValue w), b.advance 8) := by
  have hfold := foldl_be w 0
  rw [Nat.zero_mul, Nat.zero_add] at hfold
  rw [readU64, readWord_append h hw, ← hfold]
  obtain ⟨x0, x1, x2, x3, x4, x5, x6, x7, rfl⟩ := exists_eight hw
  rfl

theorem readU64Le_append {b : Buffer} {w tl : Bytes} (hw : w.length = 8) (h : b.rest = w ++ tl) :
    b.readU64Le = (.ok (leValue w), b.advance 8) := by
  have hfold := foldl_le w 0 0 (by simp)
  rw [Nat.zero_mul, pow_zero, Nat.mul_one, Nat.zero_add] at hfold
  rw [readU64Le, readWord_append h hw, ← hfold]
  obtain ⟨x0, x1, x2, x3, x4, x5, x6, x7, rfl⟩ := exists_eight hw
  rfl

theorem readU32Le_leBytes {b : Buffer} {v : ℕ} {tl : Bytes} (hv : v < 2 ^ 32)
    (h : b.rest = leBytes 4 v ++ tl) : b.readU32Le = (.ok v, b.advance 4) := by
  rw [← leValue_leBytes_of_lt (n := 4) hv]
  exact readU32Le_cons h

theorem readU32_beBytes {b : Buffer} {v : ℕ} {tl : Bytes} (hv : v < 2 ^ 32)
    (h : b.rest = beBytes 4 v ++ tl) : b.readU32 = (.ok v, b.advance 4) := by
  rw [← beValue_beBytes_of_lt (n := 4) hv]
  exact readU32_cons h

theorem readU16_beBytes {b : Buffer} {v : ℕ} {tl : Bytes} (hv : v < 2 ^ 16)
    (h : b.rest = beBytes 2 v ++ tl) : b.readU16 = (.ok v, b.advance 2) := by
  rw [← beValue_beBytes_of_lt (n := 2) hv]
  exact readU16_cons h

theorem readU16Le_leBytes {b : Buffer} {v : ℕ} {tl : Bytes} (hv : v < 2 ^ 16)
    (h : b.rest = leBytes 2 v ++ tl) : b.readU16Le = (.ok v, b.advance 2) := by
  rw [← leValue_leBytes_of_lt (n := 2) hv]
  exact readU16Le_cons h

theorem readU24Le_leBytes {b : Buffer} {v : ℕ} {tl : Bytes} (hv : v < 2 ^ 24)
    (h : b.rest = leBytes 3 v ++ tl) : b.readU24Le = (.ok v, b.advance 3) := by
  rw [← leValue_leBytes_of_lt (n := 3) hv]
  exact readU24Le_cons h

theorem readU64_beBytes {b : Buffer} {v : ℕ} {tl : Bytes} (hv : v < 2 ^ 64)
    (h : b.rest = beBytes 8 v ++ tl) : b.readU64 = (.ok v, b.advance 8) := by
  rw [← beValue_beBytes_of_lt (n := 8) hv]
  exact readU64_append (beBytes_length 8 v) h

theorem readU64Le_leBytes {b : Buffer} {v : ℕ} {tl : Bytes} (hv : v < 2 ^ 64)
    (h : b.rest = leBytes 8 v ++ tl) : b.readU64Le = (.ok v, b.advance 8) := by
  rw [← leValue_leBytes_of_lt (n := 8) hv]
  exact readU64Le_append (leBytes_length 8 v) h

theorem readU32Le_short {b : Buffer} (h : b.rest.length < 4) :
    b.readU32Le = (.error overflow, b) := readWord_short h

theorem readU32_short {b : Buffer} (h : b.rest.length < 4) :
    b.readU32 = (.error overflow, b) := readWord_short h

theorem readBytes_append {b : Buffer} {w tl : Bytes} (h : b.rest = w ++ tl) :
    b.readBytes w.length = (.ok w, b.advance w.length) := by
  have hl : b.position + w.length ≤ b.data.length := by
    have := congrArg List.length h
    have := b.position_le
    simp only [rest_length, List.length_append] at *
    omega
  rw [readBytes, dif_pos hl, advance_eq hl, ← rest, h, List.take_left]

/-- A group is joined in 32 bits: what does not fit is lost. -/
theorem or_group_eq {i result x : ℕ} (hi : i < 5) (hr : result < 2 ^ (7 * i)) :
    result ||| ((x <<< (7 * i)) % 2 ^ 32) = (result + x * 2 ^ (7 * i)) % 2 ^ 32 := by
  have hlow : (result + x * 2 ^ (7 * i)) % 2 ^ 32 =
      (result ||| (x <<< (7 * i))) % 2 ^ 32 := by rw [or_shiftLeft hr]
  have hword : result % 2 ^ 32 = result :=
    Nat.mod_eq_of_lt (hr.trans_le (Nat.pow_le_pow_right (by decide) (by omega)))
  rw [hlow, Nat.or_mod_two_pow, hword]

theorem readVarIntLoop_groups (init : Bytes) (last : UInt8) (tl : Bytes)
    (hinit : ∀ x ∈ init, 128 ≤ x.toNat) (hlast : last.toNat < 128) (n i result : ℕ)
    (hn : init.length < n) (hi : i + n = 5) (hr : result < 2 ^ (7 * i)) (b : Buffer)
    (hb : b.rest = init ++ last :: tl) :
    readVarIntLoop n i result b =
      (.ok ((result + groupValue (init ++ [last]) * 2 ^ (7 * i)) % 2 ^ 32),
        b.advance (init.length + 1)) := by
  induction init generalizing n i result b with
  | nil =>
    obtain ⟨n, rfl⟩ : ∃ k, n = k + 1 := ⟨n - 1, by simp at hn; omega⟩
    have hg : groupValue ([] ++ [last]) = last.toNat := by
      simp [groupValue, Nat.mod_eq_of_lt hlast]
    simp only [readVarIntLoop, readU8_cons hb, toNat_and_127, Nat.mod_eq_of_lt hlast, hg,
      or_group_eq (show i < 5 by omega) hr, if_pos ((and_128_eq_zero last).mpr hlast),
      List.length_nil, Nat.zero_add]
  | cons x init ih =>
    obtain ⟨n, rfl⟩ : ∃ k, n = k + 1 := ⟨n - 1, by simp at hn; omega⟩
    have hx : 128 ≤ x.toNat := hinit x (by simp)
    have hn' : init.length < n := by simpa using hn
    have hp : 2 ^ (7 * (i + 1)) = 128 * 2 ^ (7 * i) := by
      rw [show 7 * (i + 1) = 7 * i + 7 by omega, pow_add]; omega
    have hgroup : x.toNat % 128 * 2 ^ (7 * i) ≤ 127 * 2 ^ (7 * i) :=
      Nat.mul_le_mul_right _ (by omega)
    have hr' : result + x.toNat % 128 * 2 ^ (7 * i) < 2 ^ (7 * (i + 1)) := by
      rw [hp]
      omega
    -- another group follows, so this one still fits in the word
    have hfit : (result + x.toNat % 128 * 2 ^ (7 * i)) % 2 ^ 32 =
        result + x.toNat % 128 * 2 ^ (7 * i) :=
      Nat.mod_eq_of_lt (hr'.trans_le (Nat.pow_le_pow_right (by decide) (by omega)))
    have hsum : result + groupValue (x :: init ++ [last]) * 2 ^ (7 * i) =
        result + x.toNat % 128 * 2 ^ (7 * i) +
          groupValue (init ++ [last]) * 2 ^ (7 * (i + 1)) := by
      rw [List.cons_append, groupValue, hp]; ring
    have hrest : (b.advance 1).rest = init ++ last :: tl := by simp [hb]
    have hstep := ih (fun y hy => hinit y (by simp [hy])) n (i + 1) _ hn' (by omega) hr'
      (b.advance 1) hrest
    simp only [readVarIntLoop, readU8_cons hb, toNat_and_127,
      or_group_eq (show i < 5 by omega) hr, hfit]
    rw [if_neg (by rw [and_128_eq_zero]; omega), hstep, hsum, advance_advance, List.length_cons,
      Nat.add_comm 1]

/-- Up to five groups are read, modulo the word. -/
theorem readVarInt_mod (init : Bytes) (last : UInt8) (tl : Bytes)
    (hinit : ∀ x ∈ init, 128 ≤ x.toNat) (hlast : last.toNat < 128) (hn : init.length < 5)
    {b : Buffer} (hb : b.rest = init ++ last :: tl) :
    b.readVarInt =
      (.ok (groupValue (init ++ [last]) % 2 ^ 32), b.advance (init.length + 1)) := by
  have h := readVarIntLoop_groups init last tl hinit hlast 5 0 0 hn rfl (by simp) b hb
  simpa [readVarInt] using h

/-- Groups whose value fits in 32 bits are read exactly. -/
theorem readVarInt_groups (init : Bytes) (last : UInt8) (tl : Bytes)
    (hinit : ∀ x ∈ init, 128 ≤ x.toNat) (hlast : last.toNat < 128) (hn : init.length < 5)
    (hv : groupValue (init ++ [last]) < 2 ^ 32) {b : Buffer} (hb : b.rest = init ++ last :: tl) :
    b.readVarInt = (.ok (groupValue (init ++ [last])), b.advance (init.length + 1)) := by
  rw [readVarInt_mod init last tl hinit hlast hn hb, Nat.mod_eq_of_lt hv]

/-- A read that succeeds has met its final group in time. -/
theorem readVarIntLoop_ok {n i result v : ℕ} {b b' : Buffer}
    (h : readVarIntLoop n i result b = (.ok v, b')) :
    ∃ init last tl, b.rest = init ++ last :: tl ∧ (∀ x ∈ init, 128 ≤ x.toNat) ∧
      last.toNat < 128 ∧ init.length < n := by
  induction n generalizing i result b with
  | zero => simp [readVarIntLoop] at h
  | succ n ih =>
    cases hb : b.rest with
    | nil =>
      have hend : b.readU8 = (.error overflow, b) := by
        rw [readU8, dif_neg]
        have := congrArg List.length hb
        rw [rest_length, List.length_nil] at this
        omega
      simp [readVarIntLoop, hend] at h
    | cons x tl =>
      simp only [readVarIntLoop, readU8_cons hb] at h
      by_cases hx : x &&& 0x80 = 0
      · exact ⟨[], x, tl, rfl, by simp, (and_128_eq_zero x).mp hx, by simp⟩
      · rw [if_neg hx] at h
        have hge : 128 ≤ x.toNat := by
          rw [and_128_eq_zero] at hx
          omega
        obtain ⟨init, last, tl', hrest, hinit, hlast, hlen⟩ := ih h
        refine ⟨x :: init, last, tl', ?_, ?_, hlast, by simpa using hlen⟩
        · rw [rest_advance, hb, List.drop_succ_cons, List.drop_zero] at hrest
          rw [hrest]
          rfl
        · intro y hy
          rcases List.mem_cons.mp hy with rfl | hy
          · exact hge
          · exact hinit y hy

theorem readVarInt_ok_iff {b b' : Buffer} {v : ℕ} :
    b.readVarInt = (.ok v, b') ↔ ∃ init last tl, b.rest = init ++ last :: tl ∧
      (∀ x ∈ init, 128 ≤ x.toNat) ∧ last.toNat < 128 ∧ init.length < 5 ∧
      v = groupValue (init ++ [last]) % 2 ^ 32 ∧ b' = b.advance (init.length + 1) := by
  constructor
  · intro h
    obtain ⟨init, last, tl, hrest, hinit, hlast, hlen⟩ := readVarIntLoop_ok h
    have hread := readVarInt_mod init last tl hinit hlast hlen hrest
    rw [h, Prod.mk.injEq, Except.ok.injEq] at hread
    exact ⟨init, last, tl, hrest, hinit, hlast, hlen, hread⟩
  · rintro ⟨init, last, tl, hrest, hinit, hlast, hlen, rfl, rfl⟩
    exact readVarInt_mod init last tl hinit hlast hlen hrest

/-- A word takes five groups at most. -/
theorem leb128_word {v : ℕ} (hv : v < 2 ^ 32) : ∃ init last, leb128 v = init ++ [last] ∧
    (∀ x ∈ init, 128 ≤ x.toNat) ∧ last.toNat < 128 ∧ init.length < 5 ∧
      groupValue (init ++ [last]) = v := by
  obtain ⟨init, last, he, hinit, hlast, hval, hlen⟩ := leb128_groups v
  refine ⟨init, last, he, hinit, hlast, ?_, hval⟩
  by_contra h
  have := Nat.pow_le_pow_right (by decide : 1 ≤ 128) (show 5 ≤ init.length by omega)
  rcases hlen with h0 | h0
  · simp [h0] at h
  · omega

theorem readVarInt_leb128 {v : ℕ} (hv : v < 2 ^ 32) {tl : Bytes} {b : Buffer}
    (hb : b.rest = leb128 v ++ tl) :
    b.readVarInt = (.ok v, b.advance (leb128 v).length) := by
  obtain ⟨init, last, he, hinit, hlast, hlen, hval⟩ := leb128_word hv
  have hrest : b.rest = init ++ last :: tl := by rw [hb, he, List.append_assoc]; rfl
  have h := readVarInt_groups init last tl hinit hlast hlen (by rw [hval]; exact hv) hrest
  rw [h, hval, he, List.length_append, List.length_singleton]

/-- The writer's loop produces the canonical text. -/
theorem writeVarIntLoop_eq (fuel v : ℕ) (h : v < 128 ^ (fuel + 1)) :
    writeVarIntLoop fuel v = leb128 v := by
  have hand (n : ℕ) : n &&& 0x7F = n % 128 := Nat.and_two_pow_sub_one_eq_mod n 7
  have hor (n : ℕ) : (n % 128) ||| 0x80 = n % 128 + 128 :=
    or_shiftLeft (i := 7) (Nat.mod_lt n (by decide)) 1
  induction fuel generalizing v with
  | zero => rw [writeVarIntLoop, hand, leb128_of_lt (by omega), Nat.mod_eq_of_lt (by omega)]
  | succ fuel ih =>
    by_cases hv : v < 128
    · rw [writeVarIntLoop, if_neg (by omega), hand, leb128_of_lt hv, Nat.mod_eq_of_lt hv]
    · rw [writeVarIntLoop, if_pos (by omega), hand, hor, leb128_of_le (by omega),
        Nat.shiftRight_eq_div_pow, ih (v / 2 ^ 7) (by rw [pow_succ] at h; omega)]

@[simp] theorem data_writeVarInt {v : ℕ} (h : v < 2 ^ 32) (b : Buffer) :
    (b.writeVarInt v).data = b.data ++ leb128 v := by
  rw [writeVarInt, data_push, writeVarIntLoop_eq 5 v (by omega)]

end Buffer
end SkinGetBE
