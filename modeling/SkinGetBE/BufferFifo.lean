import SkinGetBE.Buffer
import SkinGetBE.Fifo

/-!
# The buffer as a queue

Every value that is written is an encoding at the end of the data, and the reader
of its kind takes exactly that encoding from the front of what is left. Reads and
writes can therefore be interleaved in any way.
-/
namespace SkinGetBE
open Octets Text

/-- What can be written, with its value. -/
inductive Datum
  | u8 (value : UInt8)
  | u16 (value : UInt16)
  | u16Le (value : UInt16)
  | u32 (value : UInt32)
  | u32Le (value : UInt32)
  | u64 (value : UInt64)
  | u64Le (value : UInt64)
  | u24Le (value : UInt32) (h : value.toNat < 2 ^ 24)
  | varInt (value : UInt32)
  | varString (value : Str) (h : byteLen value < 2 ^ 32)
  | bytes (data : Bytes)

/-- What can be read. -/
inductive Kind
  | u8
  | u16
  | u16Le
  | u32
  | u32Le
  | u64
  | u64Le
  | u24Le
  | varInt
  | varString
  | bytes (count : ℕ)
  deriving DecidableEq

inductive Reading
  | number (value : ℕ)
  | octets (data : Bytes)
  deriving DecidableEq

namespace Datum

def kind : Datum → Kind
  | u8 _ => .u8
  | u16 _ => .u16
  | u16Le _ => .u16Le
  | u32 _ => .u32
  | u32Le _ => .u32Le
  | u64 _ => .u64
  | u64Le _ => .u64Le
  | u24Le _ _ => .u24Le
  | varInt _ => .varInt
  | varString _ _ => .varString
  | bytes data => .bytes data.length

/-- The value itself; of a text, its octets. -/
def reading : Datum → Reading
  | u8 value => .number value.toNat
  | u16 value | u16Le value => .number value.toNat
  | u32 value | u32Le value | u24Le value _ | varInt value => .number value.toNat
  | u64 value | u64Le value => .number value.toNat
  | varString value _ => .octets (asBytes value)
  | bytes data => .octets data

def write : Datum → Buffer → Buffer
  | u8 value => Buffer.writeU8 value
  | u16 value => Buffer.writeU16 value.toNat
  | u16Le value => Buffer.writeU16Le value.toNat
  | u32 value => Buffer.writeU32 value.toNat
  | u32Le value => Buffer.writeU32Le value.toNat
  | u64 value => Buffer.writeU64 value.toNat
  | u64Le value => Buffer.writeU64Le value.toNat
  | u24Le value _ => Buffer.writeU24Le value.toNat
  | varInt value => Buffer.writeVarInt value.toNat
  | varString value _ => Buffer.writeVarString value
  | bytes data => Buffer.writeBytes data

def encode : Datum → Bytes
  | u8 value => [value]
  | u16 value => beBytes 2 value.toNat
  | u16Le value => leBytes 2 value.toNat
  | u32 value => beBytes 4 value.toNat
  | u32Le value => leBytes 4 value.toNat
  | u64 value => beBytes 8 value.toNat
  | u64Le value => leBytes 8 value.toNat
  | u24Le value _ => leBytes 3 value.toNat
  | varInt value => leb128 value.toNat
  | varString value _ => leb128 (byteLen value) ++ asBytes value
  | bytes data => data

end Datum

/-- The result of a read as a reading. -/
def answer {α : Type} (f : α → Reading) (out : Except Error α × Buffer) :
    Except Error Reading × Buffer := (out.1.map f, out.2)

/-- A text is read as its length and then that many octets. -/
def Kind.read : Kind → Buffer → Except Error Reading × Buffer
  | u8, b => answer (fun v => .number v.toNat) b.readU8
  | u16, b => answer .number b.readU16
  | u16Le, b => answer .number b.readU16Le
  | u32, b => answer .number b.readU32
  | u32Le, b => answer .number b.readU32Le
  | u64, b => answer .number b.readU64
  | u64Le, b => answer .number b.readU64Le
  | u24Le, b => answer .number b.readU24Le
  | varInt, b => answer .number b.readVarInt
  | varString, b =>
    match b.readVarInt with
    | (.error e, b) => (.error e, b)
    | (.ok length, b) => answer .octets (b.readBytes length)
  | bytes count, b => answer .octets (b.readBytes count)

theorem Buffer.rest_of_data {b b' : Buffer} {octets : Bytes} (hposition : b'.position = b.position)
    (hdata : b'.data = b.data ++ octets) : b'.rest = b.rest ++ octets := by
  unfold Buffer.rest
  rw [hposition, hdata, List.drop_append_of_le_length b.position_le]

theorem Datum.rest_write (d : Datum) (b : Buffer) : (d.write b).rest = b.rest ++ d.encode := by
  cases d with
  | u8 value => exact Buffer.rest_of_data rfl rfl
  | u16 value => exact Buffer.rest_of_data rfl (Buffer.data_writeU16 _ b)
  | u16Le value => exact Buffer.rest_of_data rfl (Buffer.data_writeU16Le _ b)
  | u32 value => exact Buffer.rest_of_data rfl (Buffer.data_writeU32 _ b)
  | u32Le value => exact Buffer.rest_of_data rfl (Buffer.data_writeU32Le _ b)
  | u64 value => exact Buffer.rest_of_data rfl (Buffer.data_writeU64 _ b)
  | u64Le value => exact Buffer.rest_of_data rfl (Buffer.data_writeU64Le _ b)
  | u24Le value h => exact Buffer.rest_of_data rfl (Buffer.data_writeU24Le _ b)
  | varInt value => exact Buffer.rest_of_data rfl (Buffer.data_writeVarInt value.toNat_lt b)
  | varString value h =>
    refine Buffer.rest_of_data rfl ?_
    rw [Datum.write, Buffer.writeVarString, asBytes_length, Nat.mod_eq_of_lt h,
      Buffer.data_writeBytes, Buffer.data_writeVarInt h, List.append_assoc]
    rfl
  | bytes data => exact Buffer.rest_of_data rfl rfl

theorem answer_number {out : Except Error ℕ × Buffer} {v : ℕ} {b : Buffer}
    (h : out = (.ok v, b)) : answer .number out = (.ok (.number v), b) := by
  rw [h]
  rfl

theorem read_varString {b : Buffer} {value : Str} {tl : Bytes} (hlt : byteLen value < 2 ^ 32)
    (h : b.rest = leb128 (byteLen value) ++ asBytes value ++ tl) :
    Kind.varString.read b =
      (.ok (.octets (asBytes value)),
        b.advance (leb128 (byteLen value) ++ asBytes value).length) := by
  rw [List.append_assoc] at h
  have hlength := Buffer.readVarInt_leb128 hlt h
  have hrest : (b.advance (leb128 (byteLen value)).length).rest = asBytes value ++ tl := by
    rw [Buffer.rest_advance, h, List.drop_left]
  have hbytes := Buffer.readBytes_append hrest
  rw [asBytes_length, Buffer.advance_advance] at hbytes
  rw [Kind.read, hlength]
  dsimp only
  rw [hbytes, List.length_append, asBytes_length]
  rfl

/-- The reader of a value's kind takes its encoding and nothing else. -/
theorem Datum.read_encode (d : Datum) {b : Buffer} {tl : Bytes} (h : b.rest = d.encode ++ tl) :
    d.kind.read b = (.ok d.reading, b.advance d.encode.length) := by
  cases d with
  | u8 value =>
    rw [Datum.kind, Kind.read, Buffer.readU8_cons h]
    rfl
  | u16 value => exact answer_number (Buffer.readU16_beBytes value.toNat_lt h)
  | u16Le value => exact answer_number (Buffer.readU16Le_leBytes value.toNat_lt h)
  | u32 value => exact answer_number (Buffer.readU32_beBytes value.toNat_lt h)
  | u32Le value => exact answer_number (Buffer.readU32Le_leBytes value.toNat_lt h)
  | u64 value => exact answer_number (Buffer.readU64_beBytes value.toNat_lt h)
  | u64Le value => exact answer_number (Buffer.readU64Le_leBytes value.toNat_lt h)
  | u24Le value hlt => exact answer_number (Buffer.readU24Le_leBytes hlt h)
  | varInt value => exact answer_number (Buffer.readVarInt_leb128 value.toNat_lt h)
  | varString value hlt => exact read_varString hlt h
  | bytes data =>
    have hbytes : b.readBytes data.length = (.ok data, b.advance data.length) :=
      Buffer.readBytes_append h
    rw [Datum.kind, Kind.read, hbytes]
    rfl

def bufferStore : Fifo.Store Datum Kind Buffer (Except Error Reading) := ⟨Datum.write, Kind.read⟩

/-- What is left to read is the encodings of the values that are not read yet. -/
def Pending (b : Buffer) (queue : List Datum) : Prop := b.rest = queue.flatMap Datum.encode

theorem bufferStore_queues :
    bufferStore.Queues Datum.kind (fun d => .ok d.reading) Pending where
  write {b queue} h d := by
    unfold Pending at h ⊢
    rw [bufferStore, d.rest_write, h, List.flatMap_append, List.flatMap_singleton]
  read {b d queue} h := by
    unfold Pending at h ⊢
    rw [List.flatMap_cons] at h
    dsimp only [bufferStore]
    rw [d.read_encode h]
    exact ⟨rfl, by rw [Buffer.rest_advance, h, List.drop_left]⟩

/-- Every read returns the value of its write, and after as many reads as writes nothing is left. -/
theorem bufferStore_fifo (ops : List (Fifo.Op Datum Kind)) (h : Fifo.InStep Datum.kind ops) :
    (bufferStore.run ops Buffer.new).1 =
        ((Fifo.writes ops).take (Fifo.reads ops).length).map (fun d => .ok d.reading) ∧
      ((Fifo.reads ops).length = (Fifo.writes ops).length →
        (bufferStore.run ops Buffer.new).2.remaining = 0) := by
  obtain ⟨hanswers, hleft⟩ := bufferStore_queues.run h (s := Buffer.new) rfl
  refine ⟨hanswers, fun heven => ?_⟩
  unfold Pending at hleft
  rw [Buffer.remaining_eq, hleft, heven, List.drop_length]
  rfl

/-- A text that is read before the next two values are written. -/
def mixedOps : List (Fifo.Op Datum Kind) :=
  [.write (.varString ['é'] (by decide)), .read .varString, .write (.u24Le 0x563412 (by decide)),
    .write (.u64 1), .read .u24Le, .read .u64]

theorem bufferStore_fifo_mixed :
    (bufferStore.run mixedOps Buffer.new).1 =
        [.ok (.octets [0xc3, 0xa9]), .ok (.number 0x563412), .ok (.number 1)] ∧
      (bufferStore.run mixedOps Buffer.new).2.remaining = 0 := by
  obtain ⟨hanswers, hleft⟩ := bufferStore_fifo mixedOps (by decide)
  exact ⟨hanswers.trans (by decide), hleft rfl⟩

end SkinGetBE
