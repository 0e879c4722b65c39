import SkinGetBE.BufferChecked
import SkinGetBE.BufferFifo
import SkinGetBE.VarIntValue

/-!
# What a failed read leaves behind

A buffer is made empty or from octets and then changed by its methods only. In every
state that can come about so, a read of a fixed width, or of a given count, takes what
it needs or nothing. The variable-length number is read an octet at a time, and what a
failed read of one has taken is gone.
-/
namespace SkinGetBE
open Octets Machine

/-- The reads that can fail. A signed number and a float are read as their bits. -/
inductive ReadOp
  | u8
  | i8
  | u16
  | u16Le
  | u32
  | u32Le
  | u24Le
  | u64
  | u64Le
  | varInt
  | f32
  | f32Le
  | f64
  | bytes (count : UInt32)
  deriving DecidableEq

namespace RawBuffer

def new : RawBuffer := ⟨[], 0⟩

def readRemaining (b : RawBuffer) : Run (Bytes × RawBuffer) := do
  let slice ← range b.data b.position b.data.length
  .ok (slice, { b with position := b.data.length })

/-- Octets at the end of the data, which must fit in one allocation. -/
def extend (octets : Bytes) (b : RawBuffer) : Run RawBuffer :=
  if b.data.length + octets.length < 2 ^ 63 then .ok { b with data := b.data ++ octets }
  else .error .overflow

def reset (b : RawBuffer) : RawBuffer := { b with position := 0 }

def setPosition (pos : ℕ) (b : RawBuffer) : RawBuffer :=
  { b with position := min pos b.data.length }

def clear (_ : RawBuffer) : RawBuffer := ⟨[], 0⟩

/-- The octets not read yet. -/
def rest (b : RawBuffer) : Bytes := b.data.drop b.position

end RawBuffer

/-- The result of a read as a reading. -/
def answerRaw {α : Type} (f : α → Reading) (read : RawBuffer → Run (Except Error α × RawBuffer))
    (b : RawBuffer) : Run (Except Error Reading × RawBuffer) := do
  let (result, b') ← read b
  .ok (result.map f, b')

namespace ReadOp

def run : ReadOp → RawBuffer → Run (Except Error Reading × RawBuffer)
  | u8 | i8 => answerRaw (fun v => .number v.toNat) RawBuffer.readU8
  | u16 => answerRaw .number RawBuffer.readU16
  | u16Le => answerRaw .number RawBuffer.readU16Le
  | u32 | f32 => answerRaw .number RawBuffer.readU32
  | u32Le | f32Le => answerRaw .number RawBuffer.readU32Le
  | u24Le => answerRaw .number RawBuffer.readU24Le
  | u64 | f64 => answerRaw .number RawBuffer.readU64
  | u64Le => answerRaw .number RawBuffer.readU64Le
  | varInt => answerRaw .number RawBuffer.readVarInt
  | bytes count => answerRaw .octets (RawBuffer.readBytes count.toNat)

/-- The octets that an encoding takes when it is at the front of `octets`. -/
def width : ReadOp → Bytes → ℕ
  | u8, _ | i8, _ => 1
  | u16, _ | u16Le, _ => 2
  | u24Le, _ => 3
  | u32, _ | u32Le, _ | f32, _ | f32Le, _ => 4
  | u64, _ | u64Le, _ | f64, _ => 8
  | varInt, octets => (octets.takeWhile fun x => 128 ≤ x.toNat).length + 1
  | bytes count, _ => count.toNat

end ReadOp

/-- What changes a buffer. Every write puts its octets at the end, and `read_bytes` takes any
word as its count. -/
inductive Method
  | read (op : ReadOp)
  | readBytes (count : ℕ)
  | readRemaining
  | write (octets : Bytes)
  | reset
  | setPosition (pos : ℕ)
  | clear

def Method.run : Method → RawBuffer → Run RawBuffer
  | read op, b => do
    let (_, b') ← op.run b
    .ok b'
  | readBytes count, b => do
    let (_, b') ← b.readBytes count
    .ok b'
  | readRemaining, b => do
    let (_, b') ← b.readRemaining
    .ok b'
  | write octets, b => b.extend octets
  | reset, b => .ok b.reset
  | setPosition pos, b => .ok (b.setPosition pos)
  | clear, b => .ok b.clear

namespace RawBuffer

/-- The buffers of a running program. A slice in memory has fewer than `2 ^ 63` octets. -/
inductive Reachable : RawBuffer → Prop
  | new : Reachable new
  | ofBytes (data : Bytes) (h : data.length < 2 ^ 63) : Reachable (ofBytes data)
  | method (m : Method) {b b' : RawBuffer} (hb : Reachable b) (hrun : m.run b = .ok b') :
      Reachable b'

/-- A read that fails changes nothing, and one that succeeds moves on by its width, inside the
data. -/
structure Clean {α : Type} (width : ℕ) (b : RawBuffer) (result : Except Error α)
    (b' : RawBuffer) : Prop where
  failed : ∀ e, result = .error e → b' = b
  done : ∀ v, result = .ok v → b'.data = b.data ∧ b'.position = b.position + width ∧
    b'.position ≤ b'.data.length

theorem clean_refused {α : Type} (width : ℕ) (b : RawBuffer) (e : Error) :
    Clean width b (.error e : Except Error α) b where
  failed _ _ := rfl
  done _ h := by cases h

theorem clean_taken {α : Type} {width : ℕ} {b : RawBuffer}
    (h : b.position + width ≤ b.data.length) (v : α) :
    Clean width b (.ok v) ⟨b.data, b.position + width⟩ where
  failed _ h := by cases h
  done _ _ := ⟨rfl, rfl, h⟩

/-- The value that is read does not matter. -/
theorem clean_map_iff {α β : Type} {width : ℕ} {b b' : RawBuffer} {result : Except Error α}
    (f : α → β) : Clean width b (result.map f) b' ↔ Clean width b result b' := by
  cases result with
  | error e =>
    constructor
    · intro h
      rw [h.failed e rfl]
      exact clean_refused width b e
    · intro h
      rw [h.failed e rfl]
      exact clean_refused width b e
  | ok v =>
    constructor
    · exact fun h => ⟨fun _ he => (by cases he), fun _ _ => h.done (f v) rfl⟩
    · exact fun h => ⟨fun _ he => (by cases he), fun _ _ => h.done v rfl⟩

end RawBuffer

/-- A number has begun, and none of its octets so far is the last one. -/
def StopsInside (octets : Bytes) : Prop := octets ≠ [] ∧ ∀ x ∈ octets.take 5, 128 ≤ x.toNat

namespace Buffer
open RawBuffer (Clean)

theorem readU8_clean (b : Buffer) : Clean 1 b.raw b.readU8.1 b.readU8.2.raw := by
  unfold readU8
  split_ifs with h
  · exact RawBuffer.clean_taken (b := b.raw) h _
  · exact RawBuffer.clean_refused 1 b.raw overflow

theorem readWord_clean (width : ℕ) (assemble : (Fin width → ℕ) → ℕ) (b : Buffer) :
    Clean width b.raw (b.readWord width assemble).1 (b.readWord width assemble).2.raw := by
  unfold readWord
  split_ifs with h
  · exact RawBuffer.clean_taken (b := b.raw) h _
  · exact RawBuffer.clean_refused width b.raw overflow

theorem readBytes_clean (count : ℕ) (b : Buffer) :
    Clean count b.raw (b.readBytes count).1 (b.readBytes count).2.raw := by
  unfold readBytes
  split_ifs with h
  · exact RawBuffer.clean_taken (b := b.raw) h _
  · exact RawBuffer.clean_refused count b.raw overflow

/-- Without a final octet the loop fails, and what it has read is behind it. -/
theorem readVarIntLoop_stopped (n i result : ℕ) {b : Buffer}
    (h : ∀ x ∈ b.rest.take n, 128 ≤ x.toNat) :
    ∃ e, readVarIntLoop n i result b = (.error e, b.advance (min n b.rest.length)) := by
  induction n generalizing i result b with
  | zero => exact ⟨_, by rw [Nat.zero_min, advance_zero]; rfl⟩
  | succ n ih =>
    cases hb : b.rest with
    | nil =>
      have hend : ¬ b.position < b.data.length := by
        have := congrArg List.length hb
        rw [rest_length, List.length_nil] at this
        omega
      exact ⟨overflow, by simp [readVarIntLoop, readU8, hend]⟩
    | cons x tl =>
      have hrest : (b.advance 1).rest = tl := by simp [hb]
      have hx : 128 ≤ x.toNat := h x (by simp [hb])
      have htl : ∀ y ∈ (b.advance 1).rest.take n, 128 ≤ y.toNat := by
        rw [hrest]
        exact fun y hy => h y (by simp [hb, hy])
      obtain ⟨e, he⟩ := ih (i + 1) _ htl
      refine ⟨e, ?_⟩
      simp only [readVarIntLoop, readU8_cons hb]
      rw [if_neg (by rw [and_128_eq_zero]; omega), he, hrest, advance_advance, List.length_cons,
        Nat.add_min_add_right, Nat.add_comm 1]

theorem readVarInt_stopped {b : Buffer} (h : ∀ x ∈ b.rest.take 5, 128 ≤ x.toNat) :
    ∃ e, b.readVarInt = (.error e, b.advance (min 5 b.rest.length)) :=
  readVarIntLoop_stopped 5 0 0 h

theorem takeWhile_groups {init : Bytes} {last : UInt8} {tl : Bytes}
    (hinit : ∀ x ∈ init, 128 ≤ x.toNat) (hlast : last.toNat < 128) :
    (init ++ last :: tl).takeWhile (fun x => 128 ≤ x.toNat) = init := by
  rw [List.takeWhile_append_of_pos (by simpa using hinit), List.takeWhile_cons_of_neg (by
    simpa using hlast), List.append_nil]

/-- A final octet among the first ones ends the groups before it. -/
theorem exists_groups (n : ℕ) {octets : Bytes} (h : ¬ ∀ x ∈ octets.take n, 128 ≤ x.toNat) :
    ∃ init last tl, octets = init ++ last :: tl ∧ (∀ x ∈ init, 128 ≤ x.toNat) ∧
      last.toNat < 128 ∧ init.length < n := by
  induction n generalizing octets with
  | zero => exact absurd (by simp) h
  | succ n ih =>
    cases octets with
    | nil => exact absurd (by simp) h
    | cons x octets =>
      by_cases hx : 128 ≤ x.toNat
      · have hrest : ¬ ∀ y ∈ octets.take n, 128 ≤ y.toNat := fun hall =>
          h (by simpa [hx] using hall)
        obtain ⟨init, last, tl, rfl, hinit, hlast, hlen⟩ := ih hrest
        exact ⟨x :: init, last, tl, rfl, by simpa [hx] using hinit, hlast, by simpa using hlen⟩
      · exact ⟨[], x, octets, rfl, by simp, by omega, by simp⟩

theorem readVarInt_clean_iff (b : Buffer) :
    Clean (ReadOp.varInt.width b.rest) b.raw b.readVarInt.1 b.readVarInt.2.raw ↔
      ¬ StopsInside b.rest := by
  by_cases h : ∀ x ∈ b.rest.take 5, 128 ≤ x.toNat
  · obtain ⟨e, he⟩ := readVarInt_stopped h
    rw [he]
    by_cases hnil : b.rest = []
    · refine iff_of_true ?_ fun hstops => hstops.1 hnil
      rw [hnil, List.length_nil, Nat.min_zero, advance_zero]
      exact RawBuffer.clean_refused _ b.raw e
    · refine iff_of_false (fun hclean => ?_) fun hstops => hstops ⟨hnil, h⟩
      have hposition := congrArg RawBuffer.position (hclean.failed e rfl)
      have hlength := List.length_pos_iff.mpr hnil
      rw [rest_length] at hlength
      have hle : b.position + min 5 b.rest.length ≤ b.data.length := by
        rw [rest_length]
        omega
      rw [advance_eq hle] at hposition
      simp only [raw] at hposition
      rw [rest_length] at hposition
      omega
  · obtain ⟨init, last, tl, hrest, hinit, hlast, hlen⟩ := exists_groups 5 h
    refine iff_of_true ?_ fun hstops => h hstops.2
    have hle : b.position + (init.length + 1) ≤ b.data.length := by
      have := congrArg List.length hrest
      rw [rest_length, List.length_append, List.length_cons] at this
      omega
    rw [readVarInt_mod init last tl hinit hlast hlen hrest, advance_eq hle, ReadOp.width, hrest,
      takeWhile_groups hinit hlast]
    exact RawBuffer.clean_taken (b := b.raw) hle _

/-- The same read of a buffer whose position is inside its data. -/
def plainRead : ReadOp → Buffer → Except Error Reading × Buffer
  | .u8, b | .i8, b => answer (fun v => .number v.toNat) b.readU8
  | .u16, b => answer .number b.readU16
  | .u16Le, b => answer .number b.readU16Le
  | .u32, b | .f32, b => answer .number b.readU32
  | .u32Le, b | .f32Le, b => answer .number b.readU32Le
  | .u24Le, b => answer .number b.readU24Le
  | .u64, b | .f64, b => answer .number b.readU64
  | .u64Le, b => answer .number b.readU64Le
  | .varInt, b => answer .number b.readVarInt
  | .bytes count, b => answer .octets (b.readBytes count.toNat)

theorem answerRaw_agrees {α : Type} {checked : RawBuffer → Run (Except Error α × RawBuffer)}
    {plain : Buffer → Except Error α × Buffer} (h : Agrees checked plain) (f : α → Reading) :
    Agrees (answerRaw f checked) fun b => answer f (plain b) := by
  intro b hb
  obtain ⟨hrun, hfits⟩ := h b hb
  refine ⟨?_, hfits⟩
  unfold answerRaw
  rw [hrun]
  rfl

theorem plainRead_agrees (op : ReadOp) : Agrees op.run (plainRead op) := by
  cases op with
  | u8 | i8 => exact answerRaw_agrees readU8_agrees _
  | u16 => exact answerRaw_agrees readU16_agrees _
  | u16Le => exact answerRaw_agrees readU16Le_agrees _
  | u32 | f32 => exact answerRaw_agrees readU32_agrees _
  | u32Le | f32Le => exact answerRaw_agrees readU32Le_agrees _
  | u24Le => exact answerRaw_agrees readU24Le_agrees _
  | u64 | f64 => exact answerRaw_agrees readU64_agrees _
  | u64Le => exact answerRaw_agrees readU64Le_agrees _
  | varInt => exact answerRaw_agrees readVarInt_agrees _
  | bytes count =>
    have hcount := count.toNat_lt
    exact answerRaw_agrees (readBytes_agrees (by omega)) _

theorem plainRead_clean_iff (op : ReadOp) (b : Buffer) :
    Clean (op.width b.rest) b.raw (plainRead op b).1 (plainRead op b).2.raw ↔
      ¬ (op = .varInt ∧ StopsInside b.rest) := by
  cases op with
  | u8 | i8 => exact iff_of_true ((RawBuffer.clean_map_iff _).mpr b.readU8_clean) nofun
  | u16 | u16Le | u32 | f32 | u32Le | f32Le | u24Le | u64 | f64 | u64Le =>
    exact iff_of_true ((RawBuffer.clean_map_iff _).mpr (readWord_clean _ _ b)) nofun
  | bytes count =>
    exact iff_of_true ((RawBuffer.clean_map_iff _).mpr (readBytes_clean _ b)) nofun
  | varInt =>
    calc
      Clean (ReadOp.varInt.width b.rest) b.raw (plainRead .varInt b).1 (plainRead .varInt b).2.raw
      _ ↔ Clean (ReadOp.varInt.width b.rest) b.raw b.readVarInt.1 b.readVarInt.2.raw :=
        RawBuffer.clean_map_iff _
      _ ↔ ¬ StopsInside b.rest := readVarInt_clean_iff b
      _ ↔ ¬ (ReadOp.varInt = .varInt ∧ StopsInside b.rest) := by simp

end Buffer

namespace RawBuffer

/-- A state that a buffer in memory can have. -/
def Sound (b : RawBuffer) : Prop := ∃ inner : Buffer, b = inner.raw ∧ inner.Fits

/-- A count that is no word of a slice leaves the buffer, or faults. -/
theorem readBytes_sound {count : ℕ} {b b' : RawBuffer} {result : Except Error Bytes} (hb : b.Sound)
    (h : b.readBytes count = .ok (result, b')) : b'.Sound := by
  obtain ⟨inner, rfl, hfits⟩ := hb
  by_cases hc : count < 2 ^ 63
  · obtain ⟨hrun, hafter⟩ := Buffer.readBytes_agrees hc inner hfits
    rw [hrun] at h
    cases h
    exact ⟨_, rfl, hafter⟩
  · have hlt : inner.data.length < 2 ^ 63 := hfits
    have hbig : ¬ inner.raw.position + count ≤ inner.raw.data.length := by
      change ¬ inner.position + count ≤ inner.data.length
      omega
    unfold readBytes add at h
    split_ifs at h with hword
    · rw [ok_bind, if_neg hbig] at h
      cases h
      exact ⟨inner, rfl, hfits⟩
    · cases h

theorem method_sound {m : Method} {b b' : RawBuffer} (hb : b.Sound) (h : m.run b = .ok b') :
    b'.Sound := by
  obtain ⟨inner, rfl, hfits⟩ := hb
  have hlt : inner.data.length < 2 ^ 63 := hfits
  cases m with
  | read op =>
    obtain ⟨hrun, hafter⟩ := Buffer.plainRead_agrees op inner hfits
    rw [Method.run, hrun] at h
    cases h
    exact ⟨_, rfl, hafter⟩
  | readBytes count =>
    cases hread : inner.raw.readBytes count with
    | error e =>
      rw [Method.run, hread] at h
      cases h
    | ok out =>
      rw [Method.run, hread] at h
      cases h
      exact readBytes_sound ⟨inner, rfl, hfits⟩ hread
  | readRemaining =>
    have hsum : inner.position + (inner.data.length - inner.position) = inner.data.length :=
      Nat.add_sub_cancel' inner.position_le
    have hrange := range_eq hsum.le
    rw [hsum] at hrange
    simp only [Method.run, readRemaining, Buffer.raw, hrange, ok_bind] at h
    cases h
    exact ⟨inner.readRemaining.2, rfl, hfits⟩
  | write octets =>
    simp only [Method.run, extend] at h
    split_ifs at h with hroom
    cases h
    refine ⟨inner.push octets, rfl, ?_⟩
    rw [Buffer.Fits, Buffer.data_push, List.length_append]
    exact hroom
  | reset =>
    cases h
    exact ⟨⟨inner.data, 0, Nat.zero_le _⟩, rfl, hfits⟩
  | setPosition pos =>
    cases h
    exact ⟨⟨inner.data, min pos inner.data.length, min_le_right _ _⟩, rfl, hfits⟩
  | clear =>
    cases h
    exact ⟨Buffer.new, rfl, Nat.two_pow_pos 63⟩

theorem Reachable.sound {b : RawBuffer} (h : Reachable b) : b.Sound := by
  induction h with
  | new => exact ⟨Buffer.new, rfl, Nat.two_pow_pos 63⟩
  | ofBytes data h => exact ⟨Buffer.ofBytes data, rfl, h⟩
  | method m _ hrun ih => exact method_sound ih hrun

/-- No read of a running program faults, and each is clean but the one of a variable-length
number that begins and does not end. -/
theorem read_clean_iff {b : RawBuffer} (hb : Reachable b) (op : ReadOp) :
    ∃ result b', op.run b = .ok (result, b') ∧
      (Clean (op.width b.rest) b result b' ↔ ¬ (op = .varInt ∧ StopsInside b.rest)) := by
  obtain ⟨inner, rfl, hfits⟩ := hb.sound
  obtain ⟨hrun, -⟩ := Buffer.plainRead_agrees op inner hfits
  exact ⟨_, _, hrun, Buffer.plainRead_clean_iff op inner⟩

/-- A number of two octets is read after one more octet. -/
theorem read_clean_iff_second : ∃ result b',
    ReadOp.varInt.run ⟨[7, 0xc1, 1], 1⟩ = .ok (result, b') ∧
      (Clean 2 ⟨[7, 0xc1, 1], 1⟩ result b' ↔ ¬ (ReadOp.varInt = .varInt ∧ StopsInside [0xc1, 1])) :=
  read_clean_iff (.method (.read .u8) (.ofBytes [7, 0xc1, 1] (by decide)) rfl) .varInt

/-- The octet of a packet identifier is taken by a read that then fails. -/
theorem read_clean_taken : Reachable (ofBytes [0xc1]) ∧ ∃ e b',
    ReadOp.varInt.run (ofBytes [0xc1]) = .ok (.error e, b') ∧ b'.position = 1 ∧
      ¬ Clean (ReadOp.varInt.width [0xc1]) (ofBytes [0xc1]) (.error e : Except Error Reading) b' :=
  ⟨.ofBytes [0xc1] (by decide), Buffer.overflow, ⟨[0xc1], 1⟩, rfl, rfl, fun hclean =>
    absurd (congrArg RawBuffer.position (hclean.failed _ rfl)) (by decide)⟩

end RawBuffer

end SkinGetBE
