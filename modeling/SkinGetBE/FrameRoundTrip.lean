import SkinGetBE.RakNetFrames

/-!
# Sent frames and the parser

An unsplit frame comes back with all its fields. The length of a fragment
counts the split header, which the parser reads before it counts, so that every
fragment is refused in both readings of the length.
-/
namespace SkinGetBE.RakNet
open Octets Text

theorem singleFlags_fields {reliability : ℕ} (hr : reliability ≤ 7) :
    ((singleFlags reliability >>> 5) &&& 0x07).toNat = reliability ∧
      ((singleFlags reliability &&& 0x10) != 0) = false := by
  have key : ∀ r < 8, ((singleFlags r >>> 5) &&& 0x07).toNat = r ∧
      ((singleFlags r &&& 0x10) != 0) = false := by decide
  exact key reliability (by omega)

theorem splitFlags_fields {reliability : ℕ} (hr : reliability ≤ 7) :
    ((splitFlags reliability >>> 5) &&& 0x07).toNat = reliability ∧
      ((splitFlags reliability &&& 0x10) != 0) = true := by
  have key : ∀ r < 8, ((splitFlags r >>> 5) &&& 0x07).toNat = r ∧
      ((splitFlags r &&& 0x10) != 0) = true := by decide
  exact key reliability (by omega)

/-- Counters that a 24-bit field holds. -/
structure Allocated.Fits (a : Allocated) : Prop where
  seq : a.seq < 2 ^ 24
  relSeq : a.relSeq < 2 ^ 24
  orderIdx : a.orderIdx < 2 ^ 24

theorem readReliableSeq_of_drop {data tl : Bytes} {reliability v off : ℕ} (hv : v < 2 ^ 24)
    (h : data.drop off = (if hasReliable reliability then leBytes 3 v else []) ++ tl)
    (hoff : off ≤ data.length) :
    readReliableSeq data reliability off =
        .ok (if hasReliable reliability then some v else none,
          off + if hasReliable reliability then 3 else 0) ∧
      data.drop (off + if hasReliable reliability then 3 else 0) = tl := by
  unfold readReliableSeq
  by_cases hr : hasReliable reliability
  · simp only [hr, if_true] at h ⊢
    rw [readU24Le_of_drop hv h hoff]
    exact ⟨rfl, drop_add_length (w := leBytes 3 v) h⟩
  · simp only [hr] at h ⊢
    exact ⟨rfl, h⟩

theorem readOrdering_of_drop {data tl : Bytes} {reliability v channel off : ℕ} (hv : v < 2 ^ 24)
    (hchannel : channel ≤ 31)
    (h : data.drop off =
      (if hasOrdering reliability then leBytes 3 v ++ [UInt8.ofNat channel] else []) ++ tl)
    (hoff : off ≤ data.length) :
    readOrdering data reliability off =
        .ok (if hasOrdering reliability then some v else none,
          if hasOrdering reliability then some channel else none,
          off + if hasOrdering reliability then 4 else 0) ∧
      data.drop (off + if hasOrdering reliability then 4 else 0) = tl := by
  unfold readOrdering
  by_cases hr : hasOrdering reliability
  · simp only [hr, if_true] at h ⊢
    have hlen := length_of_drop h hoff
    simp only [List.length_append, leBytes_length, List.length_singleton] at hlen
    rw [List.append_assoc] at h
    have hread : data.drop (off + 3) = UInt8.ofNat channel :: tl :=
      drop_add_length (w := leBytes 3 v) h
    have hvalue : (UInt8.ofNat channel).toNat = channel := toNat_ofNat_lt (by omega)
    rw [readU24Le_of_drop hv h hoff]
    refine ⟨?_, drop_add_one hread⟩
    simp only [bind, Except.bind]
    rw [if_neg (by omega), octetAt_of_drop hread]
    dsimp only
    rw [hvalue, if_neg (by omega)]
  · simp only [hr] at h ⊢
    exact ⟨rfl, h⟩

/-- The octets of a split header. -/
def splitHeaderBytes (header : SplitHeader) : Bytes :=
  beBytes 4 header.count ++ (beBytes 2 header.id ++ beBytes 4 header.index)

theorem splitBody_eq (header : SplitHeader) (chunk : Bytes) :
    splitBody header chunk = splitHeaderBytes header ++ chunk := by
  simp only [splitBody, splitHeaderBytes, List.append_assoc]

theorem splitHeaderBytes_length (header : SplitHeader) : (splitHeaderBytes header).length = 10 := by
  simp only [splitHeaderBytes, List.length_append, beBytes_length]

/-- Numbers that the fields of a split header hold. -/
structure SplitHeader.Fits (header : SplitHeader) : Prop where
  count : header.count < 2 ^ 32
  id : header.id < 2 ^ 16
  index : header.index < 2 ^ 32

theorem readSplitHeader_of_drop {data tl : Bytes} {header : SplitHeader} {off : ℕ}
    (hheader : header.Fits) (h : data.drop off = splitHeaderBytes header ++ tl)
    (hoff : off ≤ data.length) : readSplitHeader data true off =
      if header.count > 1024 then .error .refused
      else .ok (some header.count, some header.id, some header.index, off + 10) := by
  have hlen := length_of_drop h hoff
  rw [List.length_append, splitHeaderBytes_length] at hlen
  unfold splitHeaderBytes at h
  rw [List.append_assoc, List.append_assoc] at h
  have hcount := readU32Be_of_drop hheader.count h hoff
  have h4 := drop_add_length (w := beBytes 4 header.count) h
  rw [beBytes_length] at h4
  have hid := readU16Be_of_drop hheader.id h4 (by omega)
  have h6 := drop_add_length (w := beBytes 2 header.id) h4
  rw [beBytes_length] at h6
  have hindex := readU32Be_of_drop hheader.index h6 (by omega)
  unfold readSplitHeader
  simp only [bind, Except.bind, if_true, hcount, hid, hindex]

theorem frameDatagram_length (flags : UInt8) (reliability : ℕ) (a : Allocated) (body : Bytes) :
    (frameDatagram flags reliability a body).length =
      7 + headerOverhead reliability + body.length := by
  unfold frameDatagram headerOverhead
  by_cases hr : hasReliable reliability <;> by_cases ho : hasOrdering reliability <;>
    simp [hr, ho] <;> omega

/-- What is left of a frame once its header is read. -/
def readBody (data : Bytes) (start : ℕ) (reliability : ℕ) (isSplit : Bool) (a : Allocated)
    (off byteLen : ℕ) : Except FrameStop (RakNetFrame × ℕ) := do
  let (splitCount, splitId, splitIndex, off) ← readSplitHeader data isSplit off
  if off + byteLen > data.length then .error .refused
  else do
    let frameEnd := min data.length (off + byteLen)
    let _ ← sliceAt data start (start + min 256 (frameEnd - start))
    let payload ← sliceAt data off (off + byteLen)
    .ok (⟨reliability, isSplit, payload, if hasReliable reliability then some a.relSeq else none,
      if hasOrdering reliability then some a.orderIdx else none,
      if hasOrdering reliability then some 0 else none, splitCount, splitId, splitIndex⟩,
      off + byteLen)

theorem frameDatagram_drop_four (flags : UInt8) (reliability : ℕ) (a : Allocated) (body : Bytes) :
    (frameDatagram flags reliability a body).drop 4 = flags ::
      (beBytes 2 (frameLengthBits body) ++
        ((if hasReliable reliability then leBytes 3 a.relSeq else []) ++
          ((if hasOrdering reliability then leBytes 3 a.orderIdx ++ [0] else []) ++ body))) := rfl

/-- The body follows the header. -/
theorem frameDatagram_drop_header (flags : UInt8) (reliability : ℕ) (a : Allocated) (body : Bytes) :
    (frameDatagram flags reliability a body).drop (7 + headerOverhead reliability) = body := by
  unfold frameDatagram headerOverhead
  by_cases h1 : hasReliable reliability <;> by_cases h2 : hasOrdering reliability <;>
    simp [h1, h2, leBytes, beBytes]

/-- The parser reads the header that the sender wrote. -/
theorem parseFrame_frameDatagram {flags : UInt8} {reliability : ℕ} {isSplit : Bool} {a : Allocated}
    {body : Bytes} (mode : FrameLengthMode)
    (hflags : ((flags >>> 5) &&& 0x07).toNat = reliability ∧ ((flags &&& 0x10) != 0) = isSplit)
    (ha : a.Fits) (hlen : frameByteLen mode (frameLengthBits body) ≤ body.length) :
    parseFrame (frameDatagram flags reliability a body) 4 mode =
      readBody (frameDatagram flags reliability a body) 4 reliability isSplit a
        (7 + headerOverhead reliability) (frameByteLen mode (frameLengthBits body)) := by
  have hlength := frameDatagram_length flags reliability a body
  have hdrop := frameDatagram_drop_four flags reliability a body
  generalize frameDatagram flags reliability a body = data at hlength hdrop
  have hword : frameLengthBits body < 2 ^ 16 := Nat.mod_lt _ (by omega)
  have h5 := drop_add_one hdrop
  have h7 := drop_add_length (w := beBytes 2 (frameLengthBits body)) h5
  rw [beBytes_length] at h7
  obtain ⟨hrel, h8⟩ := readReliableSeq_of_drop ha.relSeq h7 (by omega)
  have hoff : 7 + (if hasReliable reliability then 3 else 0) ≤ data.length := by
    rw [hlength, headerOverhead]
    omega
  obtain ⟨hord, -⟩ := readOrdering_of_drop ha.orderIdx (Nat.zero_le 31) h8 hoff
  have hbody : (4 + 1 + 2 + if hasReliable reliability then 3 else 0) +
      (if hasOrdering reliability then 4 else 0) = 7 + headerOverhead reliability :=
    Nat.add_assoc 7 _ _
  unfold parseFrame
  rw [if_neg (by omega), octetAt_of_drop hdrop]
  simp only [bind, Except.bind, hflags.1, hflags.2, readU16Be_of_drop hword h5 (by omega)]
  rw [if_neg (by omega), hrel]
  simp only [hord]
  rw [hbody]
  rfl

theorem parseFrame_refused {flags : UInt8} {reliability : ℕ} {a : Allocated} {body : Bytes}
    (mode : FrameLengthMode) (hflags : ((flags >>> 5) &&& 0x07).toNat = reliability)
    (hlen : body.length < frameByteLen mode (frameLengthBits body)) :
    parseFrame (frameDatagram flags reliability a body) 4 mode = .error .refused := by
  have hlength := frameDatagram_length flags reliability a body
  have hdrop := frameDatagram_drop_four flags reliability a body
  generalize frameDatagram flags reliability a body = data at hlength hdrop
  have hword : frameLengthBits body < 2 ^ 16 := Nat.mod_lt _ (by omega)
  unfold parseFrame
  rw [if_neg (by omega), octetAt_of_drop hdrop]
  simp only [bind, Except.bind, hflags,
    readU16Be_of_drop hword (drop_add_one hdrop) (by omega)]
  rw [if_pos (by omega)]

theorem frameLengthBits_eq {body : Bytes} (h : body.length < 2 ^ 13) :
    frameLengthBits body = body.length * 8 := by
  unfold frameLengthBits
  omega

theorem parseFrame_single {reliability : ℕ} {a : Allocated} {payload : Bytes}
    (hr : reliability ≤ 7) (ha : a.Fits) (hlen : payload.length < 2 ^ 13) :
    parseFrame (OutFrame.datagram ⟨a, none, payload⟩ reliability) 4 .bits =
      .ok (OutFrame.frame ⟨a, none, payload⟩ reliability,
        (OutFrame.datagram ⟨a, none, payload⟩ reliability).length) := by
  have hbyteLen : frameByteLen .bits (frameLengthBits payload) = payload.length := by
    rw [frameLengthBits_eq hlen, frameByteLen]
    omega
  have hlength := frameDatagram_length (singleFlags reliability) reliability a payload
  have hdrop : (frameDatagram (singleFlags reliability) reliability a payload).drop
      (7 + headerOverhead reliability) = payload ++ [] := by
    rw [frameDatagram_drop_header, List.append_nil]
  have hparse := parseFrame_frameDatagram .bits (singleFlags_fields hr) ha hbyteLen.le
  unfold OutFrame.datagram
  dsimp only
  rw [hparse, hbyteLen]
  generalize frameDatagram (singleFlags reliability) reliability a payload = data at hlength hdrop
  have hpayload := sliceAt_of_drop hdrop (by omega)
  have hdump : ∀ n, n ≤ data.length - 4 → ∃ w, sliceAt data 4 (4 + n) = .ok w := fun n hn =>
    ⟨_, if_pos ⟨by omega, by omega⟩⟩
  obtain ⟨w, hw⟩ := hdump (min 256 (min data.length
    (7 + headerOverhead reliability + payload.length) - 4)) (by omega)
  unfold readBody readSplitHeader
  simp only [bind, Except.bind, Bool.false_eq_true, if_false]
  rw [if_neg (by omega), hw]
  simp only [hpayload, hlength]
  rfl

theorem parseFramesLoop_single {data : Bytes} {frame : RakNetFrame} (hlen : 4 < data.length)
    (hsplit : frame.isSplit = false) (h : parseFrame data 4 .bits = .ok (frame, data.length)) :
    parseFrameSetWithMode data .bits = .ok ([frame], data.length, false) := by
  obtain ⟨fuel, hfuel⟩ : ∃ fuel, data.length = fuel + 2 := ⟨data.length - 2, by omega⟩
  have hend : ¬ data.length < data.length := by omega
  unfold parseFrameSetWithMode
  rw [hfuel, parseFramesLoop, ← hfuel, if_pos hlen, h]
  simp only [hsplit, Bool.false_and, Bool.false_eq_true, if_false]
  rw [parseFramesLoop, if_neg hend]
  rfl

theorem parseFramesLoop_refused {data : Bytes} {mode : FrameLengthMode} (hlen : 4 < data.length)
    (h : parseFrame data 4 mode = .error .refused) :
    parseFrameSetWithMode data mode = .ok ([], 4, true) := by
  obtain ⟨fuel, hfuel⟩ : ∃ fuel, data.length = fuel + 1 := ⟨data.length - 1, by omega⟩
  have hdump : ∃ w, sliceAt data 4 (4 + min 32 (data.length - 4)) = .ok w :=
    ⟨_, if_pos ⟨by omega, by omega⟩⟩
  obtain ⟨w, hw⟩ := hdump
  unfold parseFrameSetWithMode
  rw [hfuel, parseFramesLoop, if_pos hlen, h]
  unfold refusedFrame
  cases mode with
  | bits => simp only [hw, bind, Except.bind]
  | bytes => simp only [hw, bind, Except.bind]

/-- The sequence number and the identifier of a datagram, whatever its frames. -/
theorem parseFrameSet_frameDatagram {flags : UInt8} {reliability : ℕ} {a : Allocated}
    {body : Bytes} {frames : List RakNetFrame} (hseq : a.seq < 2 ^ 24)
    (h : selectFrames (frameDatagram flags reliability a body) = .ok frames) :
    parseFrameSet (frameDatagram flags reliability a body) = some (.ok ⟨0x84, a.seq, frames⟩) := by
  have hid : (0x80 : UInt8) ≤ 0x84 ∧ (0x84 : UInt8) ≤ 0x8d := by decide
  have hzero : (0 : UInt8).toNat = 0 := rfl
  have hvalue : leValue [UInt8.ofNat (a.seq % 256), UInt8.ofNat (a.seq / 256 % 256),
      UInt8.ofNat (a.seq / 256 / 256 % 256), 0] = a.seq := by
    simp only [leValue, toNat_ofNat_mod, hzero]
    omega
  have hcons : ∃ tl, frameDatagram flags reliability a body = 0x84 ::
      UInt8.ofNat (a.seq % 256) :: UInt8.ofNat (a.seq / 256 % 256) ::
        UInt8.ofNat (a.seq / 256 / 256 % 256) :: tl := ⟨_, rfl⟩
  obtain ⟨tl, htl⟩ := hcons
  rw [htl] at h ⊢
  unfold parseFrameSet
  dsimp only
  rw [if_pos hid, h, hvalue]

theorem parseFrameSet_single {reliability : ℕ} {a : Allocated} {payload : Bytes}
    (hr : reliability ≤ 7) (ha : a.Fits) (hlen : payload.length < 2 ^ 13) :
    parseFrameSet (OutFrame.datagram ⟨a, none, payload⟩ reliability) =
      some (.ok ⟨0x84, a.seq, [OutFrame.frame ⟨a, none, payload⟩ reliability]⟩) := by
  have hparse := parseFrame_single hr ha hlen
  apply parseFrameSet_frameDatagram ha.seq
  have hlength := frameDatagram_length (singleFlags reliability) reliability a payload
  unfold selectFrames
  unfold OutFrame.datagram at hparse
  dsimp only at hparse
  rw [parseFramesLoop_single (by omega) rfl hparse]
  simp only [bind, Except.bind, Bool.false_or, lt_irrefl, decide_false, Bool.false_eq_true,
    if_false]

/-- In bits the fragment passes the end of the datagram, in octets the length does. -/
theorem parseFrame_fragment {reliability : ℕ} {a : Allocated} {header : SplitHeader}
    {chunk : Bytes} (mode : FrameLengthMode) (hr : reliability ≤ 7) (ha : a.Fits)
    (hheader : header.count < 2 ^ 32 ∧ header.id < 2 ^ 16 ∧ header.index < 2 ^ 32)
    (hlen : (splitBody header chunk).length < 2 ^ 13) :
    parseFrame (OutFrame.datagram ⟨a, some header, chunk⟩ reliability) 4 mode =
      .error .refused := by
  have hbody : (splitBody header chunk).length = 10 + chunk.length := by
    simp only [splitBody, List.length_append, beBytes_length]
    omega
  have hbits := frameLengthBits_eq hlen
  unfold OutFrame.datagram
  dsimp only
  cases mode with
  | bytes =>
    apply parseFrame_refused _ (splitFlags_fields hr).1
    rw [frameByteLen, hbits]
    omega
  | bits =>
    have hbyteLen : frameByteLen .bits (frameLengthBits (splitBody header chunk)) =
        10 + chunk.length := by
      rw [hbits, frameByteLen, hbody]
      omega
    rw [parseFrame_frameDatagram .bits (splitFlags_fields hr) ha (by omega), hbyteLen]
    have hlength := frameDatagram_length (splitFlags reliability) reliability a
      (splitBody header chunk)
    have hdrop := frameDatagram_drop_header (splitFlags reliability) reliability a
      (splitBody header chunk)
    generalize frameDatagram (splitFlags reliability) reliability a (splitBody header chunk) =
      data at hlength hdrop
    rw [splitBody_eq] at hdrop
    unfold readBody
    rw [readSplitHeader_of_drop ⟨hheader.1, hheader.2.1, hheader.2.2⟩ hdrop (by omega)]
    by_cases hmany : header.count > 1024
    · rw [if_pos hmany]
      rfl
    · rw [if_neg hmany]
      exact if_pos (by omega)

/-- No frame of a fragment's datagram is found. -/
theorem parseFrameSet_fragment {reliability : ℕ} {a : Allocated} {header : SplitHeader}
    {chunk : Bytes} (hr : reliability ≤ 7) (ha : a.Fits)
    (hheader : header.count < 2 ^ 32 ∧ header.id < 2 ^ 16 ∧ header.index < 2 ^ 32)
    (hlen : (splitBody header chunk).length < 2 ^ 13) :
    parseFrameSet (OutFrame.datagram ⟨a, some header, chunk⟩ reliability) =
      some (.ok ⟨0x84, a.seq, []⟩) := by
  have hbits := parseFrame_fragment .bits hr ha hheader hlen
  have hbytes := parseFrame_fragment .bytes hr ha hheader hlen
  apply parseFrameSet_frameDatagram ha.seq
  have hlength := frameDatagram_length (splitFlags reliability) reliability a
    (splitBody header chunk)
  unfold OutFrame.datagram at hbits hbytes
  dsimp only at hbits hbytes
  unfold selectFrames
  rw [parseFramesLoop_refused (by omega) hbits, parseFramesLoop_refused (by omega) hbytes]
  simp only [bind, Except.bind, Bool.true_or, if_true]
  rfl

/-- Every datagram that a call submits is read as the one frame that was put into it. -/
def ReadsAsSent (env : ServerEnv) (s : ServerState) (payload : Bytes) (reliability : ℕ)
    (dest : SocketAddr) : Prop :=
  ∀ (i : ℕ) (entry : SocketAddr × Bytes),
    ((sendFrame env s payload reliability dest).2.sent.drop s.sent.length)[i]? = some entry →
      ∃ f, (outgoing env s payload reliability dest)[i]? = some f ∧
        parseFrameSet entry.2 = some (.ok ⟨0x84, f.counters.seq, [f.frame reliability]⟩)

theorem headerOverhead_le (reliability : ℕ) : headerOverhead reliability ≤ 7 := by
  unfold headerOverhead
  split <;> split <;> omega

theorem maxSinglePayload_eq {mtu : ℕ} (h : 25 ≤ mtu) (reliability : ℕ) :
    maxSinglePayload mtu reliability = mtu - 7 - headerOverhead reliability := by
  have := headerOverhead_le reliability
  unfold maxSinglePayload baseOverhead
  rw [if_pos (by omega)]
  omega

theorem maxFragPayload_eq {mtu : ℕ} (h : 25 ≤ mtu) (reliability : ℕ) :
    maxFragPayload mtu reliability = mtu - 17 - headerOverhead reliability := by
  have := headerOverhead_le reliability
  unfold maxFragPayload baseOverhead splitOverhead
  rw [if_pos (by omega)]
  omega

theorem fitsSingle_iff {mtu : ℕ} (h : 25 ≤ mtu) (reliability : ℕ) (payload : Bytes) :
    fitsSingle mtu reliability payload = true ↔
      payload.length ≤ mtu - 7 - headerOverhead reliability := by
  have := headerOverhead_le reliability
  unfold fitsSingle
  rw [maxSinglePayload_eq h, Bool.and_eq_true, decide_eq_true_eq, decide_eq_true_eq]
  omega

theorem readsAsSent_of_fits {env : ServerEnv} {s : ServerState} {payload : Bytes}
    {reliability : ℕ} {dest : SocketAddr} (hmtu : 25 ≤ env.config.mtuSize)
    (hmtu' : env.config.mtuSize ≤ 8191) (hr : reliability ≤ 7) (ha : (s.countersOf dest).Fits)
    (hfits : fitsSingle env.config.mtuSize reliability payload) :
    ReadsAsSent env s payload reliability dest := by
  have hlen := (fitsSingle_iff hmtu reliability payload).mp hfits
  have hplan : outgoing env s payload reliability dest = [⟨s.countersOf dest, none, payload⟩] :=
    if_pos hfits
  obtain ⟨n, hsent, -⟩ := sendFrame_transmits env s payload reliability dest
  intro i entry hentry
  rw [hsent, List.drop_left, List.getElem?_map, Option.map_eq_some_iff] at hentry
  obtain ⟨f, hf, rfl⟩ := hentry
  have hmem : f ∈ outgoing env s payload reliability dest :=
    List.mem_of_mem_take (List.mem_of_getElem? hf)
  rw [hplan, List.mem_singleton] at hmem
  have hi : i < n := by
    by_contra hge
    rw [List.getElem?_eq_none (by rw [List.length_take]; omega)] at hf
    cases hf
  refine ⟨f, (List.getElem?_take_of_lt hi).symm.trans hf, ?_⟩
  rw [hmem]
  exact parseFrameSet_single hr ha (by omega)

/-- The first fragment of a payload that does not fit is already lost. -/
theorem not_readsAsSent_of_fragments {env : ServerEnv} {s : ServerState} {payload : Bytes}
    {reliability : ℕ} {dest : SocketAddr} (hmtu : 25 ≤ env.config.mtuSize)
    (hmtu' : env.config.mtuSize ≤ 8191) (hr : reliability ≤ 7) (ha : (s.countersOf dest).Fits)
    (hfits : fitsSingle env.config.mtuSize reliability payload = false)
    (hcount : 0 < fragmentCount payload.length (maxFragPayload env.config.mtuSize reliability)) :
    ¬ ReadsAsSent env s payload reliability dest := by
  intro hreads
  obtain ⟨left, hleft⟩ : ∃ left, fragmentCount payload.length
      (maxFragPayload env.config.mtuSize reliability) = left + 1 :=
    ⟨_, (Nat.sub_add_cancel hcount).symm⟩
  obtain ⟨rest, hplan⟩ : ∃ rest, outgoing env s payload reliability dest =
      ⟨s.countersOf dest, some ⟨left + 1, env.random s.tick % 2 ^ 16, 0⟩,
        fragmentChunk payload (maxFragPayload env.config.mtuSize reliability) 0⟩ :: rest := by
    unfold outgoing planFrames
    rw [if_neg (by simp [hfits])]
    dsimp only
    rw [hleft]
    exact ⟨_, rfl⟩
  obtain ⟨n, hsent, -, hn, -⟩ := sendFrame_transmits env s payload reliability dest
  obtain ⟨m, rfl⟩ : ∃ m, n = m + 1 :=
    ⟨n - 1, (Nat.sub_add_cancel (hn (by rw [hplan]; exact List.cons_ne_nil _ _))).symm⟩
  obtain ⟨f, hf, hparse⟩ := hreads 0 _ (by
    rw [hsent, List.drop_left, hplan]
    rfl)
  have hchunk : (fragmentChunk payload (maxFragPayload env.config.mtuSize reliability) 0).length ≤
      maxFragPayload env.config.mtuSize reliability := by
    unfold fragmentChunk fragmentTake
    rw [List.length_take]
    omega
  have hbody : (splitBody ⟨left + 1, env.random s.tick % 2 ^ 16, 0⟩ (fragmentChunk payload
      (maxFragPayload env.config.mtuSize reliability) 0)).length < 2 ^ 13 := by
    rw [maxFragPayload_eq hmtu] at hchunk ⊢
    simp only [splitBody, List.length_append, beBytes_length]
    omega
  have hleft' : left + 1 < 2 ^ 32 := by
    rw [← hleft]
    exact Nat.mod_lt _ (by omega)
  have hfragment := parseFrameSet_fragment hr ha
    ⟨hleft', Nat.mod_lt _ (by omega), Nat.two_pow_pos 32⟩ hbody
  rw [hfragment] at hparse
  simp at hparse

/-- When the number of fragments is zero as a 32-bit word, nothing is sent. -/
theorem sendFrame_of_no_fragments {env : ServerEnv} {payload : Bytes} {reliability : ℕ}
    (hfits : ¬ fitsSingle env.config.mtuSize reliability payload = true)
    (hcount : fragmentCount payload.length (maxFragPayload env.config.mtuSize reliability) = 0)
    (s : ServerState) (dest : SocketAddr) :
    sendFrame env s payload reliability dest = (.ok (), s.advance) := by
  unfold sendFrame
  rw [if_neg hfits]
  dsimp only
  rw [hcount]
  rfl

theorem readsAsSent_of_no_fragments {env : ServerEnv} {s : ServerState} {payload : Bytes}
    {reliability : ℕ} {dest : SocketAddr}
    (hfits : fitsSingle env.config.mtuSize reliability payload = false)
    (hcount : fragmentCount payload.length (maxFragPayload env.config.mtuSize reliability) = 0) :
    ReadsAsSent env s payload reliability dest := by
  intro i entry hentry
  rw [sendFrame_of_no_fragments (by simp [hfits]) hcount] at hentry
  rw [show s.advance.sent = s.sent from rfl, List.drop_length, List.getElem?_nil] at hentry
  cases hentry

/-- The parser reads back what the sender sends exactly when the payload goes out
unsplit, or when the 32-bit number of its fragments is zero and nothing is sent. -/
theorem readsAsSent_iff (env : ServerEnv) (s : ServerState) (payload : Bytes) (reliability : ℕ)
    (dest : SocketAddr) (hmtu : 25 ≤ env.config.mtuSize ∧ env.config.mtuSize ≤ 8191)
    (hr : reliability ≤ 7) (ha : (s.countersOf dest).Fits) :
    ReadsAsSent env s payload reliability dest ↔
      payload.length ≤ env.config.mtuSize - 7 - headerOverhead reliability ∨
        fragmentCount payload.length
          (env.config.mtuSize - 17 - headerOverhead reliability) = 0 := by
  rw [← fitsSingle_iff hmtu.1, ← maxFragPayload_eq hmtu.1]
  by_cases hfits : fitsSingle env.config.mtuSize reliability payload
  · exact iff_of_true (readsAsSent_of_fits hmtu.1 hmtu.2 hr ha hfits) (.inl hfits)
  · have hfits' : fitsSingle env.config.mtuSize reliability payload = false := by simpa using hfits
    by_cases hcount : fragmentCount payload.length
        (maxFragPayload env.config.mtuSize reliability) = 0
    · exact iff_of_true (readsAsSent_of_no_fragments hfits' hcount) (.inr hcount)
    · refine iff_of_false
        (not_readsAsSent_of_fragments hmtu.1 hmtu.2 hr ha hfits' (by omega)) ?_
      exact not_or.mpr ⟨hfits, hcount⟩

/-- The address of a peer on this host. -/
def loopback : SocketAddr := ⟨"127.0.0.1:19133".toList, .v4 [127, 0, 0, 1], 19133⟩

theorem readsAsSent_eighteen :
    ReadsAsSent (.quiet 25) (.new (ServerEnv.quiet 25).config .empty) (List.replicate 18 7) 0
        loopback ↔
      (List.replicate 18 (7 : UInt8)).length ≤ 25 - 7 - headerOverhead 0 ∨
        fragmentCount (List.replicate 18 (7 : UInt8)).length (25 - 17 - headerOverhead 0) = 0 :=
  readsAsSent_iff (.quiet 25) _ _ 0 loopback (by decide) (by decide)
    ⟨by decide, by decide, by decide⟩

/-- Nineteen octets are cut into three fragments at the smallest size, and the first is refused. -/
theorem readsAsSent_nineteen_false :
    ¬ ReadsAsSent (.quiet 25) (.new (ServerEnv.quiet 25).config .empty) (List.replicate 19 7) 0
      loopback :=
  not_readsAsSent_of_fragments (by decide) (by decide) (by decide)
    ⟨by decide, by decide, by decide⟩ (by decide) (by decide)

end SkinGetBE.RakNet
