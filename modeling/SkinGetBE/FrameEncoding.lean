import SkinGetBE.FrameRoundTrip

/-!
# Frames as they are written

The header of a frame says which fields follow, and the length in front of them
counts the bits of the payload alone. Frames in a row are read back one by one,
and a reading in bits that comes to the end is the one that is kept.
-/
namespace SkinGetBE.RakNet
open Octets Text

/-- What goes into a frame. Fields that the flags do not ask for are not written. -/
structure FrameFields where
  flags : UInt8
  bits : ℕ
  reliableSeq : ℕ
  orderIndex : ℕ
  orderChannel : ℕ
  split : SplitHeader
  payload : Bytes

namespace FrameFields

def reliability (f : FrameFields) : ℕ := ((f.flags >>> 5) &&& 0x07).toNat

def isSplit (f : FrameFields) : Bool := (f.flags &&& 0x10) != 0

def encode (f : FrameFields) : Bytes :=
  f.flags :: (beBytes 2 f.bits ++
    ((if hasReliable f.reliability then leBytes 3 f.reliableSeq else []) ++
      ((if hasOrdering f.reliability then leBytes 3 f.orderIndex ++ [UInt8.ofNat f.orderChannel]
        else []) ++ ((if f.isSplit then splitHeaderBytes f.split else []) ++ f.payload))))

/-- The frame as a receiver should see it. -/
def frame (f : FrameFields) : RakNetFrame where
  reliability := f.reliability
  isSplit := f.isSplit
  payload := f.payload
  reliableSeq := if hasReliable f.reliability then some f.reliableSeq else none
  orderIndex := if hasOrdering f.reliability then some f.orderIndex else none
  orderChannel := if hasOrdering f.reliability then some f.orderChannel else none
  splitCount := if f.isSplit then some f.split.count else none
  splitId := if f.isSplit then some f.split.id else none
  splitIndex := if f.isSplit then some f.split.index else none

/-- The numbers fit in their fields, and the receiver accepts the channel and the split count. -/
structure WellFormed (f : FrameFields) : Prop where
  bits : f.bits < 2 ^ 16
  payload : f.payload.length = (f.bits + 7) / 8
  reliableSeq : f.reliableSeq < 2 ^ 24
  orderIndex : f.orderIndex < 2 ^ 24
  orderChannel : f.orderChannel ≤ 31
  split : f.split.Fits
  count : f.split.count ≤ 1024

theorem encode_length (f : FrameFields) : f.encode.length =
    3 + headerOverhead f.reliability + (if f.isSplit then 10 else 0) + f.payload.length := by
  unfold encode headerOverhead
  by_cases hr : hasReliable f.reliability <;> by_cases ho : hasOrdering f.reliability <;>
    by_cases hs : f.isSplit <;> simp [hr, ho, hs, splitHeaderBytes_length] <;> omega

end FrameFields

variable {data tl : Bytes} {start : ℕ} {f : FrameFields}

theorem readSplitHeader_fields {off : ℕ} (hf : f.WellFormed)
    (h : data.drop off = (if f.isSplit then splitHeaderBytes f.split else []) ++ tl)
    (hoff : off ≤ data.length) :
    readSplitHeader data f.isSplit off = .ok (f.frame.splitCount, f.frame.splitId,
        f.frame.splitIndex, off + if f.isSplit then 10 else 0) ∧
      data.drop (off + if f.isSplit then 10 else 0) = tl := by
  unfold FrameFields.frame
  dsimp only
  cases hs : f.isSplit with
  | false =>
    rw [hs] at h
    exact ⟨rfl, h⟩
  | true =>
    rw [hs] at h
    have hcount := hf.count
    have htail := drop_add_length (w := splitHeaderBytes f.split) h
    rw [splitHeaderBytes_length] at htail
    rw [readSplitHeader_of_drop hf.split h hoff, if_neg (by omega)]
    exact ⟨rfl, htail⟩

/-- The parser reads a well-formed frame wherever it stands. -/
theorem parseFrame_fields (hf : f.WellFormed) (h : data.drop start = f.encode ++ tl)
    (hstart : start ≤ data.length) :
    parseFrame data start .bits = .ok (f.frame, start + f.encode.length) := by
  have hlen := length_of_drop h hstart
  rw [List.length_append, f.encode_length] at hlen
  unfold FrameFields.encode at h
  simp only [List.cons_append, List.append_assoc] at h
  have h1 := drop_add_one h
  have h3 := drop_add_length (w := beBytes 2 f.bits) h1
  rw [beBytes_length] at h3
  have hheader : (if hasReliable f.reliability then 3 else 0) +
      (if hasOrdering f.reliability then 4 else 0) = headerOverhead f.reliability := rfl
  obtain ⟨hrel, h4⟩ := readReliableSeq_of_drop hf.reliableSeq h3 (by omega)
  obtain ⟨hord, h5⟩ := readOrdering_of_drop hf.orderIndex hf.orderChannel h4 (by omega)
  obtain ⟨hsplit, h6⟩ := readSplitHeader_fields hf h5 (by omega)
  have hpayload := sliceAt_of_drop h6 (by omega)
  have hbytes : frameByteLen .bits f.bits = f.payload.length := hf.payload.symm
  have hdump : ∀ n, n ≤ data.length - start → ∃ o, sliceAt data start (start + n) = .ok o :=
    fun n hn => ⟨_, if_pos ⟨by omega, by omega⟩⟩
  rw [f.encode_length]
  unfold parseFrame
  rw [if_neg (by omega), octetAt_of_drop h]
  simp only [bind, Except.bind]
  have hreliability : ((f.flags >>> 5) &&& 0x07).toNat = f.reliability := rfl
  have hflag : ((f.flags &&& 0x10) != 0) = f.isSplit := rfl
  rw [hreliability, hflag, readU16Be_of_drop hf.bits h1 (by omega)]
  dsimp only
  rw [hbytes, if_neg (by omega), hrel]
  dsimp only
  rw [hord]
  dsimp only
  rw [hsplit]
  dsimp only
  rw [if_neg (by omega)]
  obtain ⟨o, ho⟩ := hdump (min 256 (min data.length (start + 1 + 2 +
    (if hasReliable f.reliability then 3 else 0) + (if hasOrdering f.reliability then 4 else 0) +
    (if f.isSplit then 10 else 0) + f.payload.length) - start)) (by omega)
  rw [ho]
  dsimp only
  rw [hpayload]
  dsimp only
  refine congrArg Except.ok (Prod.ext rfl ?_)
  dsimp only
  omega

/-- Every frame is read when only the last one is split. -/
theorem parseFramesLoop_fields (fs : List FrameFields) (fuel offset : ℕ)
    (frames : List RakNetFrame) (hfs : ∀ f ∈ fs, f.WellFormed)
    (hdrop : data.drop offset = fs.flatMap FrameFields.encode) (hoffset : offset ≤ data.length)
    (hfuel : fs.length ≤ fuel) (hsplit : ∀ f ∈ fs.dropLast, f.isSplit = false) :
    parseFramesLoop data .bits fuel offset frames =
      .ok (frames ++ fs.map FrameFields.frame, data.length, false) := by
  induction fs generalizing fuel offset frames with
  | nil =>
    have hend : offset = data.length := (length_of_drop hdrop hoffset).symm
    rw [List.map_nil, List.append_nil, hend]
    cases fuel with
    | zero => rfl
    | succ fuel =>
      unfold parseFramesLoop
      rw [if_neg (Nat.lt_irrefl _)]
  | cons f fs ih =>
    obtain ⟨fuel, rfl⟩ : ∃ n, fuel = n + 1 :=
      ⟨fuel - 1, by rw [List.length_cons] at hfuel; omega⟩
    rw [List.flatMap_cons] at hdrop
    have hlen := length_of_drop hdrop hoffset
    have hencode := f.encode_length
    rw [List.length_append] at hlen
    have htail := drop_add_length hdrop
    have hwell := hfs f List.mem_cons_self
    unfold parseFramesLoop
    rw [if_pos (by omega), parseFrame_fields hwell hdrop hoffset]
    dsimp only
    have hgo : ¬ (f.frame.isSplit && decide (offset + f.encode.length < data.length)) = true := by
      cases fs with
      | nil =>
        rw [List.flatMap_nil, List.length_nil] at hlen
        have hend : ¬ offset + f.encode.length < data.length := by omega
        simp [hend]
      | cons f' fs =>
        have hfirst : f.isSplit = false := hsplit f List.mem_cons_self
        have hframe : f.frame.isSplit = f.isSplit := rfl
        simp [hframe, hfirst]
    have hrest := ih fuel (offset + f.encode.length) (frames ++ [f.frame])
      (fun f' hf' => hfs f' (List.mem_cons_of_mem _ hf')) htail (by omega)
      (by rw [List.length_cons] at hfuel; omega)
    rw [if_neg hgo, hrest ?_]
    · rw [List.map_cons, List.append_assoc, List.singleton_append]
    · intro f' hf'
      refine hsplit f' ?_
      cases fs with
      | nil => simp at hf'
      | cons f'' fs => exact List.mem_cons_of_mem _ hf'

/-- A frame set with the sequence number in `s0`, `s1`, `s2`. -/
def fieldsDatagram (id s0 s1 s2 : UInt8) (fs : List FrameFields) : Bytes :=
  id :: s0 :: s1 :: s2 :: fs.flatMap FrameFields.encode

theorem parseFrameSetWithMode_fields (id s0 s1 s2 : UInt8) {fs : List FrameFields}
    (hfs : ∀ f ∈ fs, f.WellFormed) (hsplit : ∀ f ∈ fs.dropLast, f.isSplit = false) :
    parseFrameSetWithMode (fieldsDatagram id s0 s1 s2 fs) .bits =
      .ok (fs.map FrameFields.frame, (fieldsDatagram id s0 s1 s2 fs).length, false) := by
  have hlength (gs : List FrameFields) : gs.length ≤ (gs.flatMap FrameFields.encode).length := by
    induction gs with
    | nil => exact Nat.zero_le _
    | cons g gs ih =>
      rw [List.flatMap_cons, List.length_append, List.length_cons, g.encode_length]
      omega
  have hfuel := hlength fs
  refine parseFramesLoop_fields fs _ 4 [] hfs rfl ?_ ?_ hsplit
  · simp only [fieldsDatagram, List.length_cons]
    omega
  · simp only [fieldsDatagram, List.length_cons]
    omega

/-- The reading in octets is not even tried when the one in bits comes to the end. -/
theorem selectFrames_complete {frames : List RakNetFrame}
    (h : parseFrameSetWithMode data .bits = .ok (frames, data.length, false)) :
    selectFrames data = .ok frames := by
  unfold selectFrames
  rw [h]
  simp only [bind, Except.bind, Bool.false_or, lt_irrefl, decide_false, Bool.false_eq_true,
    if_false]

theorem parseFrameSet_fields {id : UInt8} (hid : 0x80 ≤ id ∧ id ≤ 0x8d) (s0 s1 s2 : UInt8)
    {fs : List FrameFields} (hfs : ∀ f ∈ fs, f.WellFormed)
    (hsplit : ∀ f ∈ fs.dropLast, f.isSplit = false) :
    parseFrameSet (fieldsDatagram id s0 s1 s2 fs) =
      some (.ok ⟨id, leValue [s0, s1, s2, 0], fs.map FrameFields.frame⟩) := by
  have hselect := selectFrames_complete (parseFrameSetWithMode_fields id s0 s1 s2 hfs hsplit)
  unfold fieldsDatagram at hselect ⊢
  unfold parseFrameSet
  dsimp only
  rw [if_pos hid, hselect]

end SkinGetBE.RakNet
