import SkinGetBE.FrameEncoding

/-!
# Frame sets of standard clients

Every reliability has its own header. A datagram that holds such frames, the last
of them split or not, is read back in full, and never in octets.
-/
namespace SkinGetBE.RakNet
open Octets Text

/-- A frame with a body of whole octets. The numbers that its reliability does not carry are not
written. -/
structure StandardFrame where
  reliability : ℕ
  reliableSeq : ℕ
  orderIndex : ℕ
  orderChannel : ℕ
  split : Option SplitHeader
  body : Bytes
  reliability_le : reliability ≤ 7
  reliableSeq_lt : reliableSeq < 2 ^ 24
  orderIndex_lt : orderIndex < 2 ^ 24
  orderChannel_le : orderChannel ≤ 31
  split_fits : ∀ header ∈ split, header.Fits ∧ header.count ≤ 1024
  body_le : body.length ≤ 8191

namespace StandardFrame

def flags (f : StandardFrame) : UInt8 :=
  if f.split.isSome then splitFlags f.reliability else singleFlags f.reliability

/-- The length counts the bits of the body, not those of the split header in front of it. -/
def encode (f : StandardFrame) : Bytes :=
  f.flags :: (beBytes 2 (8 * f.body.length) ++
    ((if hasReliable f.reliability then leBytes 3 f.reliableSeq else []) ++
      ((if hasOrdering f.reliability then leBytes 3 f.orderIndex ++ [UInt8.ofNat f.orderChannel]
        else []) ++ ((f.split.map splitHeaderBytes).getD [] ++ f.body))))

/-- The frame as a receiver should see it. -/
def frame (f : StandardFrame) : RakNetFrame where
  reliability := f.reliability
  isSplit := f.split.isSome
  payload := f.body
  reliableSeq := if hasReliable f.reliability then some f.reliableSeq else none
  orderIndex := if hasOrdering f.reliability then some f.orderIndex else none
  orderChannel := if hasOrdering f.reliability then some f.orderChannel else none
  splitCount := f.split.map (·.count)
  splitId := f.split.map (·.id)
  splitIndex := f.split.map (·.index)

def fields (f : StandardFrame) : FrameFields :=
  ⟨f.flags, 8 * f.body.length, f.reliableSeq, f.orderIndex, f.orderChannel,
    f.split.getD ⟨0, 0, 0⟩, f.body⟩

theorem fields_wellFormed (f : StandardFrame) : f.fields.WellFormed := by
  have hbody := f.body_le
  have hsplit : (f.split.getD ⟨0, 0, 0⟩).Fits ∧ (f.split.getD ⟨0, 0, 0⟩).count ≤ 1024 := by
    cases hs : f.split with
    | none => exact ⟨⟨by decide, by decide, by decide⟩, by decide⟩
    | some header => exact f.split_fits header hs
  refine ⟨?_, ?_, f.reliableSeq_lt, f.orderIndex_lt, f.orderChannel_le, hsplit.1, hsplit.2⟩
  · unfold fields
    dsimp only
    omega
  · unfold fields
    dsimp only
    omega

/-- The flags say the reliability and whether the frame is split. -/
theorem flags_fields (f : StandardFrame) :
    f.fields.reliability = f.reliability ∧ f.fields.isSplit = f.split.isSome := by
  unfold FrameFields.reliability FrameFields.isSplit fields flags
  cases f.split with
  | none => exact singleFlags_fields f.reliability_le
  | some header => exact splitFlags_fields f.reliability_le

theorem encode_fields (f : StandardFrame) : f.fields.encode = f.encode := by
  obtain ⟨hreliability, hsplit⟩ := f.flags_fields
  unfold FrameFields.encode encode
  rw [hreliability, hsplit]
  unfold fields
  cases f.split with
  | none => rfl
  | some header => rfl

theorem frame_fields (f : StandardFrame) : f.fields.frame = f.frame := by
  obtain ⟨hreliability, hsplit⟩ := f.flags_fields
  unfold FrameFields.frame frame
  rw [hreliability, hsplit]
  unfold fields
  cases f.split with
  | none => rfl
  | some header => rfl

end StandardFrame

def standardDatagram (id : UInt8) (seq : ℕ) (frames : List StandardFrame) : Bytes :=
  id :: (leBytes 3 seq ++ frames.flatMap StandardFrame.encode)

/-- A standard frame set is read back as it was written, and no reading in bits that comes to
the end of a datagram is given up for the one in octets. -/
theorem parseFrameSet_standard (id : UInt8) (hid : 0x80 ≤ id ∧ id ≤ 0x8d) (seq : ℕ)
    (hseq : seq < 2 ^ 24) (frames : List StandardFrame)
    (hsplit : ∀ f ∈ frames.dropLast, f.split = none) :
    parseFrameSet (standardDatagram id seq frames) =
      some (.ok ⟨id, seq, frames.map StandardFrame.frame⟩) ∧
    ∀ data kept, parseFrameSetWithMode data .bits = .ok (kept, data.length, false) →
      selectFrames data = .ok kept := by
  refine ⟨?_, fun data kept => selectFrames_complete⟩
  have hfields : ∀ f ∈ frames.map StandardFrame.fields, f.WellFormed :=
    List.forall_mem_map.mpr fun f _ => f.fields_wellFormed
  have hlast : ∀ f ∈ (frames.map StandardFrame.fields).dropLast, f.isSplit = false := by
    rw [← List.map_dropLast]
    refine List.forall_mem_map.mpr fun f hf => ?_
    rw [f.flags_fields.2, hsplit f hf]
    rfl
  have hencode : frames.flatMap StandardFrame.encode =
      (frames.map StandardFrame.fields).flatMap FrameFields.encode := by
    rw [List.flatMap_map]
    exact List.flatMap_congr fun f _ => f.encode_fields.symm
  have hframes : (frames.map StandardFrame.fields).map FrameFields.frame =
      frames.map StandardFrame.frame := by
    rw [List.map_map]
    exact List.map_congr_left fun f _ => f.frame_fields
  have hvalue : leValue [UInt8.ofNat (seq % 256), UInt8.ofNat (seq / 256 % 256),
      UInt8.ofNat (seq / 256 / 256 % 256), 0] = seq := by
    have hzero : (0 : UInt8).toNat = 0 := rfl
    simp only [leValue, toNat_ofNat_mod, hzero]
    omega
  have hparse := parseFrameSet_fields hid (UInt8.ofNat (seq % 256))
    (UInt8.ofNat (seq / 256 % 256)) (UInt8.ofNat (seq / 256 / 256 % 256)) hfields hlast
  rw [hvalue, hframes] at hparse
  unfold standardDatagram
  rw [hencode]
  exact hparse

/-- An ordered frame. -/
def orderedStandardFrame : StandardFrame where
  reliability := 3
  reliableSeq := 9
  orderIndex := 4
  orderChannel := 1
  split := none
  body := [0x13]
  reliability_le := by decide
  reliableSeq_lt := by decide
  orderIndex_lt := by decide
  orderChannel_le := by decide
  split_fits := nofun
  body_le := by decide

/-- The first of as many fragments as the parser accepts. -/
def fragmentStandardFrame : StandardFrame where
  reliability := 2
  reliableSeq := 10
  orderIndex := 11
  orderChannel := 2
  split := some ⟨1024, 7, 0⟩
  body := [0xfe, 0x00]
  reliability_le := by decide
  reliableSeq_lt := by decide
  orderIndex_lt := by decide
  orderChannel_le := by decide
  split_fits := by
    rintro header ⟨⟩
    exact ⟨⟨by decide, by decide, by decide⟩, by decide⟩
  body_le := by decide

theorem parseFrameSet_standard_two :
    parseFrameSet (standardDatagram 0x8d 258 [orderedStandardFrame, fragmentStandardFrame]) =
      some (.ok ⟨0x8d, 258, [orderedStandardFrame.frame, fragmentStandardFrame.frame]⟩) ∧
    ∀ data kept, parseFrameSetWithMode data .bits = .ok (kept, data.length, false) →
      selectFrames data = .ok kept :=
  parseFrameSet_standard 0x8d (by decide) 258 (by decide)
    [orderedStandardFrame, fragmentStandardFrame] (by
      intro f hf
      obtain rfl : f = orderedStandardFrame := by simpa using hf
      rfl)

end SkinGetBE.RakNet
