import SkinGetBE.RakNetProtocol

/-!
# The fields of a parsed frame

A field that is read has the width of its place in the header. Channels beyond the
last one and split messages of too many parts are refused.
-/
namespace SkinGetBE.RakNet
open Octets Text

/-- Every field that is present is a number that its place can hold. -/
structure RakNetFrame.InRange (frame : RakNetFrame) : Prop where
  order : ∀ idx ∈ frame.orderIndex, idx < 2 ^ 24
  channel : ∀ ch ∈ frame.orderChannel, ch ≤ 31
  splitId : ∀ sid ∈ frame.splitId, sid < 2 ^ 16

/-- What holds of the result of a read that has one. -/
def Yields {α : Type} (P : α → Prop) (r : Except FrameStop α) : Prop := ∀ a, r = .ok a → P a

section Rules

variable {α β : Type} {P : α → Prop} {Q : β → Prop}

theorem yields_ok {a : α} (h : P a) : Yields P (.ok a) := by
  rintro a' ⟨⟩
  exact h

theorem yields_error (stop : FrameStop) : Yields P (.error stop) := by
  rintro a ⟨⟩

theorem Yields.bind {r : Except FrameStop α} {f : α → Except FrameStop β} (h : Yields P r)
    (hf : ∀ a, P a → Yields Q (f a)) : Yields Q (r >>= f) := by
  cases r with
  | ok a => exact hf a (h a rfl)
  | error stop => exact yields_error stop

theorem Yields.then {r : Except FrameStop α} {f : α → Except FrameStop β}
    (hf : ∀ a, Yields Q (f a)) : Yields Q (r >>= f) := by
  have hany : Yields (fun _ => True) r := fun _ _ => trivial
  exact hany.bind fun a _ => hf a

theorem Yields.ite {c : Prop} [Decidable c] {r r' : Except FrameStop α} (h : Yields P r)
    (h' : ¬ c → Yields P r') : Yields P (if c then r else r') := by
  by_cases hc : c
  · rw [if_pos hc]
    exact h
  · rw [if_neg hc]
    exact h' hc

end Rules

variable {data : Bytes} {off : ℕ}

theorem readU24Le_yields : Yields (fun r => r.1 < 2 ^ 24) (readU24Le data off) := by
  unfold readU24Le
  refine .ite (yields_error _) fun _ => ?_
  refine .then fun b0 => .then fun b1 => .then fun b2 => yields_ok ?_
  have h0 := b0.toNat_lt
  have h1 := b1.toNat_lt
  have h2 := b2.toNat_lt
  have e1 : b0.toNat ||| b1.toNat <<< 8 = b0.toNat + b1.toNat * 2 ^ 8 := or_shiftLeft h0 _
  dsimp only
  rw [e1, or_shiftLeft (by omega)]
  omega

theorem readU16Be_yields : Yields (fun r => r.1 < 2 ^ 16) (readU16Be data off) := by
  unfold readU16Be
  refine .ite (yields_error _) fun _ => ?_
  refine .then fun b0 => .then fun b1 => yields_ok ?_
  have hlt := leValue_lt [b1, b0]
  norm_num at hlt
  exact hlt

theorem readOrdering_yields (reliability : ℕ) :
    Yields (fun r => (∀ idx ∈ r.1, idx < 2 ^ 24) ∧ ∀ ch ∈ r.2.1, ch ≤ 31)
      (readOrdering data reliability off) := by
  unfold readOrdering
  refine .ite ?_ fun _ => yields_ok (by simp)
  refine readU24Le_yields.bind fun index hindex => ?_
  refine .ite (yields_error _) fun _ => ?_
  refine .then fun channel => ?_
  refine .ite (yields_error _) fun hchannel => yields_ok ⟨?_, ?_⟩
  · rintro idx ⟨⟩
    exact hindex
  · rintro ch ⟨⟩
    exact Nat.le_of_not_lt hchannel

theorem readSplitHeader_yields (isSplit : Bool) :
    Yields (fun r => ∀ sid ∈ r.2.1, sid < 2 ^ 16) (readSplitHeader data isSplit off) := by
  unfold readSplitHeader
  refine .ite ?_ fun _ => yields_ok (by simp)
  refine .then fun count => readU16Be_yields.bind fun id hid => .then fun index => ?_
  refine .ite (yields_error _) fun _ => yields_ok ?_
  rintro sid ⟨⟩
  exact hid

theorem parseFrame_inRange (start : ℕ) (mode : FrameLengthMode) :
    Yields (fun r => r.1.InRange) (parseFrame data start mode) := by
  unfold parseFrame
  refine .ite (yields_error _) fun _ => ?_
  refine .then fun flags => .then fun length => ?_
  refine .ite (yields_error _) fun _ => ?_
  refine .then fun reliable => ?_
  refine (readOrdering_yields _).bind fun order horder => ?_
  refine (readSplitHeader_yields _).bind fun split hsplit => ?_
  refine .ite (yields_error _) fun _ => ?_
  refine .then fun _ => .then fun payload => yields_ok ?_
  exact ⟨horder.1, horder.2, hsplit⟩

theorem refusedFrame_inRange (mode : FrameLengthMode) (offset : ℕ) {frames : List RakNetFrame}
    (h : ∀ f ∈ frames, f.InRange) :
    Yields (fun r => ∀ f ∈ r.1, f.InRange) (refusedFrame data mode offset frames) := by
  unfold refusedFrame
  dsimp only
  split
  · refine .ite ?_ fun _ => .then fun _ => yields_ok h
    refine .then fun trailing => yields_ok ?_
    intro f hf
    have hframe := h _ List.mem_cons_self
    rw [List.mem_singleton.mp hf]
    exact ⟨hframe.order, hframe.channel, hframe.splitId⟩
  · exact .then fun _ => yields_ok h

theorem parseFramesLoop_inRange (mode : FrameLengthMode) (fuel offset : ℕ)
    {frames : List RakNetFrame} (h : ∀ f ∈ frames, f.InRange) :
    Yields (fun r => ∀ f ∈ r.1, f.InRange) (parseFramesLoop data mode fuel offset frames) := by
  induction fuel generalizing offset frames with
  | zero => exact yields_ok h
  | succ fuel ih =>
    unfold parseFramesLoop
    refine .ite ?_ fun _ => yields_ok h
    have hframe := @parseFrame_inRange data offset mode
    generalize parseFrame data offset mode = r at hframe
    cases r with
    | ok read =>
      have hnext : ∀ f ∈ frames ++ [read.1], f.InRange := by
        intro f hf
        rcases List.mem_append.mp hf with hf | hf
        · exact h f hf
        · rw [List.mem_singleton.mp hf]
          exact hframe read rfl
      exact .ite (yields_ok hnext) fun _ => ih _ hnext
    | error stop =>
      cases stop with
      | refused => exact refusedFrame_inRange mode offset h
      | outOfBounds => exact yields_error _

theorem selectFrames_inRange : Yields (fun frames => ∀ f ∈ frames, f.InRange)
    (selectFrames data) := by
  have hloop : ∀ mode, Yields (fun r => ∀ f ∈ r.1, f.InRange)
      (parseFrameSetWithMode data mode) := fun mode =>
    parseFramesLoop_inRange mode data.length 4 fun _ h => absurd h List.not_mem_nil
  unfold selectFrames
  refine (hloop .bits).bind fun bits hbits => ?_
  refine .ite ?_ fun _ => yields_ok hbits
  refine (hloop .bytes).bind fun octets hoctets => yields_ok ?_
  intro f hf
  split_ifs at hf
  · exact hoctets f hf
  · exact hbits f hf

/-- The frames of a datagram that is accepted. -/
theorem parseFrameSet_inRange {frameset : FrameSet} (h : parseFrameSet data = some (.ok frameset)) :
    ∀ f ∈ frameset.frames, f.InRange := by
  unfold parseFrameSet at h
  split at h
  · next id s0 s1 s2 tl =>
    by_cases hid : 0x80 ≤ id ∧ id ≤ 0x8d
    · rw [if_pos hid] at h
      have hframes := @selectFrames_inRange (id :: s0 :: s1 :: s2 :: tl)
      cases hselect : selectFrames (id :: s0 :: s1 :: s2 :: tl) with
      | ok frames =>
        rw [hselect] at h
        cases h
        exact hframes frames hselect
      | error stop =>
        rw [hselect] at h
        cases h
    · rw [if_neg hid] at h
      cases h
  · cases h

end SkinGetBE.RakNet
