import SkinGetBE.AckLookup

/-!
# The numbers of an acknowledgement

A packet that acknowledges numbers, or asks for them again, lists ranges. What is cut
off is read as zero, so the ranges behind the end of the packet hold no number but
zero, which no datagram is sent under.
-/
namespace SkinGetBE.RakNet
open Octets Text Tables

/-- The numbers of the ranges that are left, in the order in which they are handled. -/
def rangeNumbers : ℕ → Buffer → List ℕ
  | 0, _ => []
  | left + 1, buf =>
    let start := readTriad buf
    let stop := readTriad start.2
    sequenceRange start.1 stop.1 ++ rangeNumbers left stop.2

def requestedNumbers (data : Bytes) : List ℕ :=
  rangeNumbers (readSegmentCount data).1 (readSegmentCount data).2

theorem acknowledgeSegments_session (now : ℕ) (addr : SocketAddr) (left : ℕ) (buf : Buffer)
    (s : ServerState) : (acknowledgeSegments now addr left buf s).session addr =
      (s.session addr).map fun c =>
        (rangeNumbers left buf).foldl (ClientSession.acknowledge now) c := by
  induction left generalizing buf s with
  | zero => simp [acknowledgeSegments, rangeNumbers]
  | succ left ih =>
    unfold acknowledgeSegments rangeNumbers
    dsimp only
    rw [ih]
    unfold ServerState.session
    rw [ServerState.lookup_modifySession, if_pos rfl, Option.map_map]
    congr 1
    funext c
    rw [Function.comp_apply, List.foldl_append]

/-- An acknowledgement takes its numbers out of the session, one after the other. -/
theorem handleAckPacket_session (env : ServerEnv) (addr : SocketAddr) (s : ServerState)
    (data : Bytes) : (handleAckPacket env addr s data).session addr =
      (s.session addr).map fun c =>
        (requestedNumbers data).foldl (ClientSession.acknowledge (env.instant s.tick)) c :=
  acknowledgeSegments_session _ addr _ _ s.advance

theorem nackSegments_eq (env : ServerEnv) (addr : SocketAddr) (left : ℕ) (buf : Buffer)
    (collected : ServerState × List (SocketAddr × Bytes)) :
    nackSegments env addr left buf collected =
      (rangeNumbers left buf).foldl (nackSequence env addr) collected := by
  induction left generalizing buf collected with
  | zero => rfl
  | succ left ih =>
    unfold nackSegments rangeNumbers
    dsimp only
    rw [ih, List.foldl_append]

/-- The number of ranges that a packet announces; none when it is cut off before. -/
def segmentCount (data : Bytes) : ℕ :=
  if 3 ≤ data.length then beValue ((data.drop 1).take 2) else 0

/-- The number is in the `i`-th of the ranges, which is there with both of its ends. -/
def inRange (ranges : Bytes) (i seq : ℕ) : Bool :=
  6 * (i + 1) ≤ ranges.length && leValue ((ranges.drop (6 * i)).take 3) ≤ seq &&
    seq ≤ leValue ((ranges.drop (6 * i + 3)).take 3)

def covers (data : Bytes) (seq : ℕ) : Bool :=
  (List.range (segmentCount data)).any fun i => inRange (data.drop 4) i seq

theorem readTriad_short {buf : Buffer} (h : buf.rest.length < 3) : readTriad buf = (0, buf) := by
  have hread : buf.readU24Le = (.error Buffer.overflow, buf) := Buffer.readWord_short h
  unfold readTriad
  rw [hread]

theorem mem_sequenceRange {start stop seq : ℕ} :
    seq ∈ sequenceRange start stop ↔ start ≤ seq ∧ seq ≤ stop := by
  unfold sequenceRange
  rw [List.mem_range'_1]
  omega

/-- What is read where fewer than three octets are left. -/
theorem rangeNumbers_short {left seq : ℕ} {buf : Buffer} (h : buf.rest.length < 3)
    (hmem : seq ∈ rangeNumbers left buf) : seq = 0 := by
  induction left with
  | zero => exact absurd hmem List.not_mem_nil
  | succ left ih =>
    unfold rangeNumbers at hmem
    rw [readTriad_short h] at hmem
    dsimp only at hmem
    rw [readTriad_short h, List.mem_append, mem_sequenceRange] at hmem
    rcases hmem with hrange | hmem
    · omega
    · exact ih hmem

theorem exists_three {l : Bytes} (h : 3 ≤ l.length) : ∃ x0 x1 x2 tl, l = x0 :: x1 :: x2 :: tl :=
  match l, h with
  | x0 :: x1 :: x2 :: tl, _ => ⟨x0, x1, x2, tl, rfl⟩

theorem inRange_iff {ranges : Bytes} {i seq : ℕ} : inRange ranges i seq = true ↔
    6 * (i + 1) ≤ ranges.length ∧ leValue ((ranges.drop (6 * i)).take 3) ≤ seq ∧
      seq ≤ leValue ((ranges.drop (6 * i + 3)).take 3) := by
  unfold inRange
  rw [Bool.and_eq_true, Bool.and_eq_true, decide_eq_true_eq, decide_eq_true_eq, decide_eq_true_eq,
    and_assoc]

theorem inRange_zero (x0 x1 x2 y0 y1 y2 : UInt8) (tl : Bytes) (seq : ℕ) :
    inRange (x0 :: x1 :: x2 :: y0 :: y1 :: y2 :: tl) 0 seq = true ↔
      leValue [x0, x1, x2] ≤ seq ∧ seq ≤ leValue [y0, y1, y2] := by
  rw [inRange_iff]
  simp

theorem inRange_succ (x0 x1 x2 y0 y1 y2 : UInt8) (tl : Bytes) (i seq : ℕ) :
    inRange (x0 :: x1 :: x2 :: y0 :: y1 :: y2 :: tl) (i + 1) seq = true ↔
      inRange tl i seq = true := by
  have hlen : 6 * (i + 1 + 1) ≤ (x0 :: x1 :: x2 :: y0 :: y1 :: y2 :: tl).length ↔
      6 * (i + 1) ≤ tl.length := by
    simp only [List.length_cons]
    omega
  have hstop : 6 * (i + 1) + 3 = 6 * i + 3 + 6 := by omega
  rw [inRange_iff, inRange_iff, hlen, hstop]
  rfl

/-- A range of which an end is missing holds at most zero. -/
theorem mem_rangeNumbers_short {left seq : ℕ} {buf : Buffer} (h : buf.rest.length < 6)
    (hmem : seq ∈ rangeNumbers left buf) : seq = 0 := by
  cases left with
  | zero => exact absurd hmem List.not_mem_nil
  | succ left =>
    by_cases hstart : buf.rest.length < 3
    · exact rangeNumbers_short hstart hmem
    · obtain ⟨x0, x1, x2, tl, hrest⟩ := exists_three (Nat.le_of_not_lt hstart)
      have htl : ((buf.advance 3).rest).length < 3 := by
        rw [Buffer.rest_advance, hrest]
        simp only [hrest, List.length_cons] at h
        simpa using by omega
      unfold rangeNumbers at hmem
      rw [readTriad_cons hrest] at hmem
      dsimp only at hmem
      rw [readTriad_short htl, List.mem_append, mem_sequenceRange] at hmem
      rcases hmem with hrange | hmem
      · exact Nat.le_zero.mp hrange.2
      · exact rangeNumbers_short htl hmem

/-- Every number but zero is read from a range with both of its ends. -/
theorem mem_rangeNumbers {left seq : ℕ} {buf : Buffer} (hseq : seq ≠ 0) :
    seq ∈ rangeNumbers left buf ↔ ∃ i < left, inRange buf.rest i seq = true := by
  induction left generalizing buf with
  | zero => simp [rangeNumbers]
  | succ left ih =>
    by_cases hlong : 6 ≤ buf.rest.length
    · obtain ⟨x0, x1, x2, tl, hrest⟩ := exists_three (by omega : 3 ≤ buf.rest.length)
      have htl : (buf.advance 3).rest = tl := by simp [hrest]
      obtain ⟨y0, y1, y2, tl', rfl⟩ := exists_three (l := tl) (by
        rw [hrest] at hlong
        simpa using hlong)
      have htl' : ((buf.advance 3).advance 3).rest = tl' := by simp [hrest]
      unfold rangeNumbers
      rw [readTriad_cons hrest]
      dsimp only
      rw [readTriad_cons htl, List.mem_append, mem_sequenceRange, ih, htl', hrest]
      constructor
      · rintro (hrange | ⟨i, hi, hin⟩)
        · exact ⟨0, Nat.succ_pos left, (inRange_zero _ _ _ _ _ _ tl' seq).mpr hrange⟩
        · exact ⟨i + 1, Nat.succ_lt_succ hi, (inRange_succ _ _ _ _ _ _ tl' i seq).mpr hin⟩
      · rintro ⟨i, hi, hin⟩
        cases i with
        | zero => exact .inl ((inRange_zero _ _ _ _ _ _ tl' seq).mp hin)
        | succ i =>
          exact .inr ⟨i, Nat.lt_of_succ_lt_succ hi, (inRange_succ _ _ _ _ _ _ tl' i seq).mp hin⟩
    · refine iff_of_false (fun hmem => hseq (mem_rangeNumbers_short (by omega) hmem)) ?_
      rintro ⟨i, -, hin⟩
      rw [inRange_iff] at hin
      omega

theorem rest_readU8 (buf : Buffer) : buf.readU8.2.rest = buf.rest.drop 1 := by
  cases hrest : buf.rest with
  | nil =>
    have hend : ¬ buf.position < buf.data.length := by
      have hlen := buf.rest_length
      rw [hrest, List.length_nil] at hlen
      omega
    unfold Buffer.readU8
    rw [dif_neg hend]
    exact hrest
  | cons x tl => rw [Buffer.readU8_cons hrest, Buffer.rest_advance, hrest]

theorem readSegmentCount_short {data : Bytes} (h : data.length < 3) :
    (readSegmentCount data).1 = 0 := by
  have hrest : (Buffer.ofBytes data).readU8.2.rest.length < 2 := by
    rw [rest_readU8, Buffer.rest_ofBytes, List.length_drop]
    omega
  have hread : (Buffer.ofBytes data).readU8.2.readU16 =
      (.error Buffer.overflow, (Buffer.ofBytes data).readU8.2) := Buffer.readWord_short hrest
  unfold readSegmentCount
  rw [hread]

theorem readSegmentCount_long {x0 x1 x2 : UInt8} {tl : Bytes} :
    (readSegmentCount (x0 :: x1 :: x2 :: tl)).1 = beValue [x1, x2] ∧
      (readSegmentCount (x0 :: x1 :: x2 :: tl)).2.rest = tl.drop 1 := by
  have hid := Buffer.readU8_cons (b := .ofBytes (x0 :: x1 :: x2 :: tl)) rfl
  have hcount : ((Buffer.ofBytes (x0 :: x1 :: x2 :: tl)).advance 1).rest = x1 :: x2 :: tl := by simp
  unfold readSegmentCount
  rw [hid, Buffer.readU16_cons hcount]
  dsimp only
  rw [rest_readU8, Buffer.rest_advance, hcount]
  exact ⟨rfl, rfl⟩

/-- The numbers that are read, zero apart, are those of the ranges that are present. -/
theorem mem_requestedNumbers {data : Bytes} {seq : ℕ} (hseq : seq ≠ 0) :
    seq ∈ requestedNumbers data ↔ covers data seq = true := by
  unfold requestedNumbers covers
  rw [mem_rangeNumbers hseq, List.any_eq_true]
  simp only [List.mem_range]
  by_cases h : data.length < 3
  · rw [readSegmentCount_short h, segmentCount, if_neg (by omega)]
    simp
  · obtain ⟨x0, x1, x2, tl, rfl⟩ := exists_three (Nat.le_of_not_lt h)
    rw [readSegmentCount_long.1, readSegmentCount_long.2, segmentCount, if_pos (Nat.le_of_not_lt h)]
    rfl

end SkinGetBE.RakNet
