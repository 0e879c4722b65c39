import SkinGetBE.RakNetProtocol

/-!
# Frame sets of any origin

Whatever octets a datagram holds, each read is in bounds or refuses the frame, and
each frame ends further on than it began. The payloads are pieces of the datagram,
one behind the other.
-/
namespace SkinGetBE.RakNet
open Octets Text

/-- The pieces lie in the text in this order, each behind a gap, and the last one ends it. -/
inductive Tiled {α : Type} : List (List α) → List α → Prop
  | nil : Tiled [] []
  | cons (gap piece : List α) {pieces : List (List α)} {text : List α} (h : Tiled pieces text) :
      Tiled (piece :: pieces) (gap ++ (piece ++ text))

theorem Tiled.concat {α : Type} {pieces : List (List α)} {text : List α} (h : Tiled pieces text)
    (gap piece : List α) : Tiled (pieces ++ [piece]) (text ++ (gap ++ piece)) := by
  induction h with
  | nil => simpa using Tiled.cons gap piece .nil
  | cons gap' piece' _ ih => simpa using Tiled.cons gap' piece' ih

/-- What follows a single piece can be joined to it. -/
theorem Tiled.extend {α : Type} {piece text : List α} (h : Tiled [piece] text)
    (trailing : List α) : Tiled [piece ++ trailing] (text ++ trailing) := by
  cases h with
  | cons gap _ h =>
    cases h
    simpa using Tiled.cons gap (piece ++ trailing) .nil

/-- A read that is in bounds throughout: it refuses, or returns what `P` holds of. -/
def Sound {α : Type} (P : α → Prop) : Except FrameStop α → Prop
  | .ok a => P a
  | .error .refused => True
  | .error .outOfBounds => False

section Rules

variable {α β : Type} {P : α → Prop} {Q : β → Prop}

theorem sound_refused : Sound P (.error .refused) := trivial

theorem Sound.bind {r : Except FrameStop α} {f : α → Except FrameStop β} (h : Sound P r)
    (hf : ∀ a, P a → Sound Q (f a)) : Sound Q (r >>= f) := by
  cases r with
  | ok a => exact hf a h
  | error stop =>
    cases stop with
    | refused => trivial
    | outOfBounds => exact h.elim

theorem Sound.ite {c : Prop} [Decidable c] {r r' : Except FrameStop α} (h : c → Sound P r)
    (h' : ¬ c → Sound P r') : Sound P (if c then r else r') := by
  by_cases hc : c
  · rw [if_pos hc]
    exact h hc
  · rw [if_neg hc]
    exact h' hc

end Rules

variable {data : Bytes} {off start stop : ℕ}

theorem octetAt_sound (h : off < data.length) : Sound (fun _ => True) (octetAt data off) := by
  unfold octetAt
  rw [List.getElem?_eq_getElem h]
  trivial

theorem sliceAt_eq (h : start ≤ stop) (hstop : stop ≤ data.length) :
    sliceAt data start stop = .ok ((data.drop start).take (stop - start)) := if_pos ⟨h, hstop⟩

/-- A number of a fixed width moves the offset by it, inside the datagram. -/
theorem readU24Le_sound : Sound (fun r => r.2 = off + 3 ∧ r.2 ≤ data.length)
    (readU24Le data off) := by
  unfold readU24Le
  refine .ite (fun _ => sound_refused) fun h => ?_
  refine (octetAt_sound (by omega)).bind fun b0 _ => ?_
  refine (octetAt_sound (by omega)).bind fun b1 _ => ?_
  refine (octetAt_sound (by omega)).bind fun b2 _ => ?_
  exact ⟨rfl, by dsimp only; omega⟩

theorem readU16Be_sound : Sound (fun r => r.2 = off + 2 ∧ r.2 ≤ data.length)
    (readU16Be data off) := by
  unfold readU16Be
  refine .ite (fun _ => sound_refused) fun h => ?_
  refine (octetAt_sound (by omega)).bind fun b0 _ => ?_
  refine (octetAt_sound (by omega)).bind fun b1 _ => ?_
  exact ⟨rfl, by dsimp only; omega⟩

theorem readU32Be_sound : Sound (fun r => r.2 = off + 4 ∧ r.2 ≤ data.length)
    (readU32Be data off) := by
  unfold readU32Be
  refine .ite (fun _ => sound_refused) fun h => ?_
  refine (octetAt_sound (by omega)).bind fun b0 _ => ?_
  refine (octetAt_sound (by omega)).bind fun b1 _ => ?_
  refine (octetAt_sound (by omega)).bind fun b2 _ => ?_
  refine (octetAt_sound (by omega)).bind fun b3 _ => ?_
  exact ⟨rfl, by dsimp only; omega⟩

theorem readReliableSeq_sound (reliability : ℕ) (h : off ≤ data.length) :
    Sound (fun r => off ≤ r.2 ∧ r.2 ≤ data.length) (readReliableSeq data reliability off) := by
  unfold readReliableSeq
  refine .ite (fun _ => ?_) fun _ => ⟨le_rfl, h⟩
  refine readU24Le_sound.bind fun r hr => ?_
  exact ⟨by dsimp only; omega, hr.2⟩

theorem readOrdering_sound (reliability : ℕ) (h : off ≤ data.length) :
    Sound (fun r => off ≤ r.2.2 ∧ r.2.2 ≤ data.length) (readOrdering data reliability off) := by
  unfold readOrdering
  refine .ite (fun _ => ?_) fun _ => ⟨le_rfl, h⟩
  refine readU24Le_sound.bind fun r hr => ?_
  refine .ite (fun _ => sound_refused) fun hin => ?_
  refine (octetAt_sound (by omega)).bind fun channel _ => ?_
  refine .ite (fun _ => sound_refused) fun _ => ?_
  exact ⟨by dsimp only; omega, by dsimp only; omega⟩

theorem readSplitHeader_sound (isSplit : Bool) (h : off ≤ data.length) :
    Sound (fun r => off ≤ r.2.2.2 ∧ r.2.2.2 ≤ data.length) (readSplitHeader data isSplit off) := by
  unfold readSplitHeader
  refine .ite (fun _ => ?_) fun _ => ⟨le_rfl, h⟩
  refine readU32Be_sound.bind fun count hcount => ?_
  refine readU16Be_sound.bind fun id hid => ?_
  refine readU32Be_sound.bind fun index hindex => ?_
  refine .ite (fun _ => sound_refused) fun _ => ?_
  exact ⟨by dsimp only; omega, hindex.2⟩

/-- The frame ends at `stop`, and its payload is the last piece of it. -/
structure ReadsPiece (data : Bytes) (start : ℕ) (payload : Bytes) (stop : ℕ) : Prop where
  header : ∃ header tl, 3 ≤ header.length ∧ data.drop start = header ++ (payload ++ tl) ∧
    stop = start + header.length + payload.length
  le : stop ≤ data.length

theorem readsPiece_slice (h : start + 3 ≤ off) {byteLen : ℕ} (hend : off + byteLen ≤ data.length) :
    ReadsPiece data start ((data.drop off).take (off + byteLen - off)) (off + byteLen) := by
  have hlength : ((data.drop off).take (off + byteLen - off)).length = byteLen := by
    rw [List.length_take, List.length_drop]
    omega
  have hheader : ((data.drop start).take (off - start)).length = off - start := by
    rw [List.length_take, List.length_drop]
    omega
  refine ⟨⟨(data.drop start).take (off - start), (data.drop off).drop byteLen, by omega, ?_, ?_⟩,
    hend⟩
  · have hsplit := List.take_append_drop (off - start) (data.drop start)
    rw [List.drop_drop, Nat.add_sub_cancel' (by omega)] at hsplit
    rw [Nat.add_sub_cancel_left, List.take_append_drop, hsplit]
  · omega

theorem parseFrame_sound (data : Bytes) (start : ℕ) (mode : FrameLengthMode) :
    Sound (fun r => ReadsPiece data start r.1.payload r.2) (parseFrame data start mode) := by
  unfold parseFrame
  refine .ite (fun _ => sound_refused) fun hstart => ?_
  refine (octetAt_sound (by omega)).bind fun flags _ => ?_
  refine readU16Be_sound.bind fun ⟨lenBe, offLength⟩ hlen => ?_
  refine .ite (fun _ => sound_refused) fun _ => ?_
  refine (readReliableSeq_sound _ hlen.2).bind fun ⟨seq, offReliable⟩ hrel => ?_
  refine (readOrdering_sound _ hrel.2).bind fun ⟨index, channel, offOrder⟩ hord => ?_
  refine (readSplitHeader_sound _ hord.2).bind fun ⟨count, id, place, offSplit⟩ hsplit => ?_
  dsimp only at hlen hrel hord hsplit
  refine .ite (fun _ => sound_refused) fun hend => ?_
  -- the dump of the raw frame is cut at the end of the frame
  dsimp only
  rw [sliceAt_eq (by omega) (by omega), sliceAt_eq (by omega) (by omega)]
  exact readsPiece_slice (by omega) (by omega)

/-- The offset lies inside the datagram, and the payloads tile what lies in front of it. -/
structure Consumed (data : Bytes) (frames : List RakNetFrame) (offset : ℕ) : Prop where
  begun : 4 ≤ offset
  le : offset ≤ data.length
  tiled : Tiled (frames.map (·.payload)) ((data.drop 4).take (offset - 4))

theorem Consumed.frame {frames : List RakNetFrame} {frame : RakNetFrame}
    (h : Consumed data frames start) (hframe : ReadsPiece data start frame.payload stop) :
    start + 3 ≤ stop ∧ Consumed data (frames ++ [frame]) stop := by
  obtain ⟨⟨header, tl, hlong, hdrop, hstop⟩, hle⟩ := hframe
  have hbegun := h.begun
  refine ⟨by omega, by omega, hle, ?_⟩
  have hread : (data.drop 4).take (stop - 4) =
      (data.drop 4).take (start - 4) ++ (header ++ frame.payload) := by
    have hlength : stop - 4 = (start - 4) + (header ++ frame.payload).length := by
      rw [List.length_append]
      omega
    have hrest : (data.drop 4).drop (start - 4) = (header ++ frame.payload) ++ tl := by
      rw [List.drop_drop, Nat.add_sub_cancel' hbegun, hdrop, List.append_assoc]
    rw [hlength, List.take_add, hrest, List.take_left]
  rw [hread, List.map_append]
  exact h.tiled.concat header frame.payload

/-- What is left is dumped in bounds, or is the end of the single batch frame. -/
theorem refusedFrame_consumed {frames : List RakNetFrame} (mode : FrameLengthMode)
    (h : Consumed data frames start) :
    ∃ result, refusedFrame data mode start frames = .ok result ∧
      Consumed data result.1 result.2.1 := by
  have hle := h.le
  have hbegun := h.begun
  unfold refusedFrame
  have hdump : start ≤ start + min 32 (data.length - start) := Nat.le_add_right _ _
  rw [sliceAt_eq hdump (by omega), sliceAt_eq hle le_rfl]
  split
  · next frame =>
    by_cases hbatch : isOversizedBatch frame.payload
    · rw [if_pos hbatch]
      have hwhole : (data.drop 4).take (data.length - 4) = (data.drop 4).take (start - 4) ++
          (data.drop start).take (data.length - start) := by
        have hlength : data.length - 4 = (start - 4) + (data.length - start) := by omega
        rw [hlength, List.take_add, List.drop_drop, Nat.add_sub_cancel' hbegun]
      refine ⟨_, rfl, hbegun.trans hle, le_rfl, ?_⟩
      rw [hwhole]
      exact h.tiled.extend _
    · rw [if_neg hbatch]
      exact ⟨_, rfl, h⟩
  · exact ⟨_, rfl, h⟩

theorem parseFramesLoop_consumed (mode : FrameLengthMode) (fuel : ℕ) {frames : List RakNetFrame}
    (h : Consumed data frames start) :
    ∃ result, parseFramesLoop data mode fuel start frames = .ok result ∧
      Consumed data result.1 result.2.1 := by
  induction fuel generalizing start frames with
  | zero => exact ⟨_, rfl, h⟩
  | succ fuel ih =>
    unfold parseFramesLoop
    by_cases hlt : start < data.length
    · rw [if_pos hlt]
      have hframe := parseFrame_sound data start mode
      generalize parseFrame data start mode = r at hframe
      match r, hframe with
      | .ok (frame, newOffset), hframe =>
        have hnext := (h.frame hframe).2
        dsimp only
        by_cases hstop : frame.isSplit && decide (newOffset < data.length)
        · rw [if_pos hstop]
          exact ⟨_, rfl, hnext⟩
        · rw [if_neg hstop]
          exact ih hnext
      | .error .refused, _ => exact refusedFrame_consumed mode h
    · rw [if_neg hlt]
      exact ⟨_, rfl, h⟩

theorem parseFramesLoop_end (mode : FrameLengthMode) (fuel : ℕ) (frames : List RakNetFrame)
    (h : data.length ≤ start) :
    parseFramesLoop data mode fuel start frames = .ok (frames, start, false) := by
  cases fuel with
  | zero => rfl
  | succ fuel => exact if_neg (by omega)

/-- A round takes three octets or more, so rounds beyond the octets that are left change nothing. -/
theorem parseFramesLoop_budget (mode : FrameLengthMode) {fuel fuel' : ℕ}
    {frames : List RakNetFrame} (h : Consumed data frames start)
    (hfuel : data.length ≤ start + fuel) (hfuel' : data.length ≤ start + fuel') :
    parseFramesLoop data mode fuel start frames = parseFramesLoop data mode fuel' start frames := by
  induction fuel generalizing fuel' start frames with
  | zero =>
    have hend : data.length ≤ start := hfuel
    rw [parseFramesLoop_end mode _ frames hend, parseFramesLoop_end mode _ frames hend]
  | succ fuel ih =>
    by_cases hlt : start < data.length
    · obtain ⟨fuel', rfl⟩ : ∃ n, fuel' = n + 1 := ⟨fuel' - 1, by omega⟩
      unfold parseFramesLoop
      rw [if_pos hlt, if_pos hlt]
      have hframe := parseFrame_sound data start mode
      generalize parseFrame data start mode = r at hframe
      match r, hframe with
      | .ok (frame, newOffset), hframe =>
        obtain ⟨hfar, hnext⟩ := h.frame hframe
        exact if_congr Iff.rfl rfl (ih hnext (by omega) (by omega))
      | .error .refused, _ => rfl
    · have hend : data.length ≤ start := by omega
      rw [parseFramesLoop_end mode _ frames hend, parseFramesLoop_end mode _ frames hend]

/-- The payloads are pieces of the text, in this order and apart from each other. -/
def PiecesOf (payloads : List Bytes) (text : Bytes) : Prop :=
  ∃ read rest, text = read ++ rest ∧ Tiled payloads read

theorem Consumed.piecesOf {frames : List RakNetFrame} (h : Consumed data frames start) :
    PiecesOf (frames.map (·.payload)) (data.drop 4) :=
  ⟨_, _, (List.take_append_drop (start - 4) (data.drop 4)).symm, h.tiled⟩

/-- The reading in one of the two modes ends in bounds, whatever the budget, with pieces of the
datagram. -/
structure SafeReading (data : Bytes) (mode : FrameLengthMode) : Prop where
  ends : ∀ fuel, data.length ≤ fuel →
    parseFramesLoop data mode fuel 4 [] = parseFrameSetWithMode data mode
  pieces : ∃ result, parseFrameSetWithMode data mode = .ok result ∧
    PiecesOf (result.1.map (·.payload)) (data.drop 4)

theorem safeReading (h : 4 ≤ data.length) (mode : FrameLengthMode) : SafeReading data mode := by
  have hbegin : Consumed data [] 4 := ⟨le_rfl, h, by simpa using Tiled.nil⟩
  refine ⟨fun fuel hfuel => parseFramesLoop_budget mode hbegin (by omega) (by omega), ?_⟩
  obtain ⟨result, hresult, hconsumed⟩ := parseFramesLoop_consumed mode data.length hbegin
  exact ⟨result, hresult, hconsumed.piecesOf⟩

/-- One of the two readings is selected. -/
theorem selectFrames_pieces (h : 4 ≤ data.length) : ∃ frames, selectFrames data = .ok frames ∧
    PiecesOf (frames.map (·.payload)) (data.drop 4) := by
  obtain ⟨bits, hbits, hpieces⟩ := (safeReading h .bits).pieces
  obtain ⟨bytes, hbytes, hpieces'⟩ := (safeReading h .bytes).pieces
  unfold selectFrames
  rw [hbits, hbytes]
  simp only [bind, Except.bind]
  by_cases htry : bits.2.2 || decide (bits.2.1 < data.length)
  · rw [if_pos htry]
    refine ⟨_, rfl, ?_⟩
    split
    · exact hpieces'
    · exact hpieces
  · rw [if_neg htry]
    exact ⟨_, rfl, hpieces⟩

/-- The parser returns for every datagram of a frame set. No index or slice is out of bounds in
either mode, and the payloads are pieces of the datagram behind its header. -/
theorem parseFrameSet_safe (data : Bytes) (hlen : 4 ≤ data.length)
    (hid : ∃ id ∈ data.head?, 0x80 ≤ id ∧ id ≤ 0x8d) :
    (∃ frameset, parseFrameSet data = some (.ok frameset) ∧
      PiecesOf (frameset.frames.map (·.payload)) (data.drop 4)) ∧
    ∀ mode, SafeReading data mode := by
  refine ⟨?_, safeReading hlen⟩
  obtain ⟨frames, hframes, hpieces⟩ := selectFrames_pieces hlen
  obtain ⟨id, hhead, hid⟩ := hid
  match data, hlen with
  | id' :: s0 :: s1 :: s2 :: tl, _ =>
    obtain rfl : id' = id := Option.some.inj hhead
    refine ⟨⟨id', leValue [s0, s1, s2, 0], frames⟩, ?_, hpieces⟩
    unfold parseFrameSet
    dsimp only
    rw [if_pos hid, hframes]

/-- A batch frame whose length is in octets, with more behind it than it says. -/
theorem parseFrameSet_safe_oversized :
    (∃ frameset, parseFrameSet [0x84, 0, 0, 0, 0, 0, 2, 0xfe, 0, 7, 7, 7] = some (.ok frameset) ∧
      PiecesOf (frameset.frames.map (·.payload)) [0, 0, 2, 0xfe, 0, 7, 7, 7]) ∧
    ∀ mode, SafeReading [0x84, 0, 0, 0, 0, 0, 2, 0xfe, 0, 7, 7, 7] mode :=
  parseFrameSet_safe [0x84, 0, 0, 0, 0, 0, 2, 0xfe, 0, 7, 7, 7] (by decide)
    ⟨0x84, rfl, by decide, by decide⟩

end SkinGetBE.RakNet
