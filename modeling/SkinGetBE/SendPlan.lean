import SkinGetBE.FragmentedStream
import SkinGetBE.RakNetHandshake

/-!
# What a call to the sender submits

The datagrams of a payload, by their place in the plan: the length field of each,
the part of the payload that it carries, the sequence number that it takes, and the
copy of it that waits for an acknowledgement.
-/
namespace SkinGetBE.RakNet
open Octets Text Tables

/-- The octets that the length field of a frame counts. -/
def OutFrame.bodyLength (f : OutFrame) : ℕ :=
  (if f.split.isSome then splitOverhead else 0) + f.chunk.length

variable {mtu reliability : ℕ} {payload : Bytes}

theorem splitBody_length (header : SplitHeader) (chunk : Bytes) :
    (splitBody header chunk).length = splitOverhead + chunk.length := by
  simp only [splitBody, List.length_append, beBytes_length, splitOverhead]
  omega

/-- A datagram of the plan as header and body. -/
theorem OutFrame.datagram_eq (f : OutFrame) (reliability : ℕ) : ∃ flags body,
    f.datagram reliability = frameDatagram flags reliability f.counters body ∧
      body.length = f.bodyLength := by
  obtain ⟨counters, split, chunk⟩ := f
  cases split with
  | none => exact ⟨_, chunk, rfl, (Nat.zero_add _).symm⟩
  | some header => exact ⟨_, _, rfl, splitBody_length header chunk⟩

theorem OutFrame.datagram_length (f : OutFrame) (reliability : ℕ) :
    (f.datagram reliability).length = 7 + headerOverhead reliability + f.bodyLength := by
  obtain ⟨flags, body, heq, hbody⟩ := f.datagram_eq reliability
  rw [heq, frameDatagram_length, hbody]

/-- The fragment with the index `i` begins behind `i` full ones. -/
theorem planFragments_eq (reliability : ℕ) {payload : Bytes} (maxFrag count id left idx : ℕ)
    {offset : ℕ} (h : offset ≤ payload.length) (a : Allocated) :
    planFragments reliability payload maxFrag count id left idx offset a =
      (List.range left).map fun i => ⟨(·.next reliability)^[i] a, some ⟨count, id, idx + i⟩,
        fragmentChunk payload maxFrag (min payload.length (offset + i * maxFrag))⟩ := by
  induction left generalizing idx offset a with
  | zero => rfl
  | succ left ih =>
    have hle : offset + fragmentTake payload maxFrag offset ≤ payload.length := by
      unfold fragmentTake
      omega
    have hoffset (i : ℕ) : min payload.length
        (offset + fragmentTake payload maxFrag offset + i * maxFrag) =
          min payload.length (offset + (i + 1) * maxFrag) := by
      unfold fragmentTake
      rw [Nat.succ_mul]
      omega
    unfold planFragments
    rw [ih (idx + 1) hle, List.range_succ_eq_map, List.map_cons, List.map_map]
    congr 1
    · simp [h]
    · refine List.map_congr_left fun i _ => ?_
      have hidx : idx + 1 + i = idx + (i + 1) := by omega
      rw [Function.comp_apply, hoffset, hidx]
      rfl

theorem fragmentChunk_length (payload : Bytes) (maxFrag offset : ℕ) :
    (fragmentChunk payload maxFrag offset).length = min maxFrag (payload.length - offset) := by
  unfold fragmentChunk fragmentTake
  rw [List.length_take, List.length_drop]
  omega

/-- What is submitted, frame by frame. -/
theorem sendFrame_submitted (env : ServerEnv) (s : ServerState) (payload : Bytes)
    (reliability : ℕ) (dest : SocketAddr) : ∃ n,
      (sendFrame env s payload reliability dest).2.sent.drop s.sent.length =
        ((outgoing env s payload reliability dest).take n).map
          (fun f => (dest, f.datagram reliability)) ∧
      (outgoing env s payload reliability dest ≠ [] → 0 < n) := by
  obtain ⟨n, hsent, -, hpos, -⟩ := sendFrame_transmits env s payload reliability dest
  exact ⟨n, by rw [hsent, List.drop_left], hpos⟩

/-- The length field of a datagram with one frame. -/
def lengthField (datagram : Bytes) : ℕ := beValue ((datagram.drop 5).take 2)

/-- The octets of a frame behind its header. -/
def countedOctets (reliability : ℕ) (datagram : Bytes) : ℕ :=
  datagram.length - (7 + headerOverhead reliability)

/-- The length field says the number of bits. -/
def LengthExact (reliability : ℕ) (datagram : Bytes) : Prop :=
  lengthField datagram = 8 * countedOctets reliability datagram

theorem lengthField_frameDatagram (flags : UInt8) (reliability : ℕ) (a : Allocated)
    (body : Bytes) :
    lengthField (frameDatagram flags reliability a body) = frameLengthBits body := by
  have hfield : ((frameDatagram flags reliability a body).drop 5).take 2 =
      beBytes 2 (frameLengthBits body) := List.take_left' (beBytes_length 2 _)
  unfold lengthField
  rw [hfield]
  exact beValue_beBytes_of_lt (n := 2) (Nat.mod_lt _ (by omega))

theorem lengthExact_datagram_iff (f : OutFrame) (reliability : ℕ) :
    LengthExact reliability (f.datagram reliability) ↔ f.bodyLength < 2 ^ 13 := by
  obtain ⟨flags, body, heq, hbody⟩ := f.datagram_eq reliability
  unfold LengthExact countedOctets
  rw [heq, lengthField_frameDatagram, frameDatagram_length, Nat.add_sub_cancel_left, ← hbody]
  unfold frameLengthBits
  omega

/-- The first fragment is the longest. -/
theorem fragments_lengthExact_iff {maxFrag count id n : ℕ} (a : Allocated) (hcount : 0 < count)
    (hn : 0 < n) : (∀ f ∈ (planFragments reliability payload maxFrag count id count 0 0 a).take n,
        LengthExact reliability (f.datagram reliability)) ↔
      splitOverhead + min maxFrag payload.length < 2 ^ 13 := by
  have hbody (offset : ℕ) : splitOverhead + (fragmentChunk payload maxFrag offset).length ≤
      splitOverhead + min maxFrag payload.length := by
    rw [fragmentChunk_length]
    omega
  rw [planFragments_eq reliability maxFrag count id count 0 (Nat.zero_le _) a]
  constructor
  · intro h
    obtain ⟨left, rfl⟩ : ∃ left, count = left + 1 := ⟨count - 1, by omega⟩
    obtain ⟨m, rfl⟩ : ∃ m, n = m + 1 := ⟨n - 1, by omega⟩
    have hfirst := h _ (by
      rw [List.range_succ_eq_map, List.map_cons, List.take_succ_cons]
      exact List.mem_cons_self)
    rw [lengthExact_datagram_iff, OutFrame.bodyLength, Option.isSome_some, if_pos rfl,
      fragmentChunk_length] at hfirst
    simpa using hfirst
  · intro h f hf
    obtain ⟨i, -, rfl⟩ := List.mem_map.mp (List.mem_of_mem_take hf)
    rw [lengthExact_datagram_iff, OutFrame.bodyLength, Option.isSome_some, if_pos rfl]
    exact (hbody _).trans_lt h

/-- The length fields of a call are exact as long as its longest frame has fewer than `2 ^ 13`
octets. -/
theorem lengthFields_exact_iff (env : ServerEnv) (s : ServerState) (payload : Bytes)
    (reliability : ℕ) (dest : SocketAddr) :
    (∀ d ∈ (sendFrame env s payload reliability dest).2.sent.drop s.sent.length,
        LengthExact reliability d.2) ↔
      env.config.mtuSize ≤ 8198 + headerOverhead reliability ∨ payload.length ≤ 8191 ∨
        fragmentCount payload.length (maxFragPayload env.config.mtuSize reliability) = 0 := by
  obtain ⟨n, hsent, hpos⟩ := sendFrame_submitted env s payload reliability dest
  rw [hsent, List.forall_mem_map]
  unfold outgoing planFrames at hpos ⊢
  have hsingle : maxSinglePayload env.config.mtuSize reliability =
      env.config.mtuSize - 7 - headerOverhead reliability := by
    unfold maxSinglePayload baseOverhead
    split_ifs <;> omega
  have hfrag : maxFragPayload env.config.mtuSize reliability =
      max (env.config.mtuSize - 17 - headerOverhead reliability) 1 := by
    unfold maxFragPayload baseOverhead splitOverhead
    split_ifs <;> omega
  have hfits : fitsSingle env.config.mtuSize reliability payload = true ↔
      payload.length ≤ env.config.mtuSize - 7 - headerOverhead reliability ∧
        0 < env.config.mtuSize - 7 - headerOverhead reliability := by
    unfold fitsSingle
    rw [hsingle, Bool.and_eq_true, decide_eq_true_eq, decide_eq_true_eq, gt_iff_lt]
  by_cases h : fitsSingle env.config.mtuSize reliability payload
  · rw [if_pos h] at hpos ⊢
    obtain ⟨m, rfl⟩ : ∃ m, n = m + 1 := ⟨n - 1, by have := hpos (List.cons_ne_nil _ _); omega⟩
    rw [List.take_succ_cons, List.take_nil, List.forall_mem_singleton, lengthExact_datagram_iff]
    have hbody : OutFrame.bodyLength ⟨s.countersOf dest, none, payload⟩ = payload.length :=
      Nat.zero_add _
    rw [hfits] at h
    rw [hbody]
    constructor
    · intro hlen
      exact .inr (.inl (by omega))
    · rintro (hmtu | hlen | hnone)
      · omega
      · omega
      · by_contra hlong
        have hsome : 0 < fragmentCount payload.length
            (maxFragPayload env.config.mtuSize reliability) :=
          fragmentCount_pos (show 0 < payload.length by omega) (by omega)
            (show 2 < 2 ^ 32 by decide) (by omega)
        omega
  · rw [if_neg h] at hpos ⊢
    rw [hfits] at h
    dsimp only at hpos ⊢
    by_cases hnone :
        fragmentCount payload.length (maxFragPayload env.config.mtuSize reliability) = 0
    · rw [hnone]
      exact iff_of_true (by simp [planFragments]) (.inr (.inr rfl))
    · rw [fragments_lengthExact_iff (s.countersOf dest) (by omega) (hpos fun hnil => ?_)]
      · unfold splitOverhead
        omega
      · have hlength := congrArg List.length hnil
        rw [planFragments_length] at hlength
        exact hnone hlength

/-- The length of a frame of `2 ^ 13` octets is written as zero. -/
theorem lengthField_wraps : ∃ d ∈ (sendFrame (.quiet 65535) (freshServer 65535 loopback)
      (List.replicate (2 ^ 13) 7) 0 loopback).2.sent.drop (freshServer 65535 loopback).sent.length,
    lengthField d.2 = 0 ∧ countedOctets 0 d.2 = 2 ^ 13 := by
  obtain ⟨n, hsent, hpos⟩ := sendFrame_submitted (.quiet 65535) (freshServer 65535 loopback)
    (List.replicate (2 ^ 13) 7) 0 loopback
  have hlength : (List.replicate (2 ^ 13) (7 : UInt8)).length = 2 ^ 13 := List.length_replicate
  generalize List.replicate (2 ^ 13) (7 : UInt8) = payload at hsent hpos hlength ⊢
  have hfits : fitsSingle 65535 0 payload = true := by
    unfold fitsSingle
    rw [hlength]
    decide
  have hplan : outgoing (.quiet 65535) (freshServer 65535 loopback) payload 0 loopback =
      [⟨(freshServer 65535 loopback).countersOf loopback, none, payload⟩] := if_pos hfits
  obtain ⟨m, rfl⟩ : ∃ m, n = m + 1 :=
    ⟨n - 1, by have := hpos (by rw [hplan]; exact List.cons_ne_nil _ _); omega⟩
  rw [hsent, hplan, List.take_succ_cons, List.take_nil, List.map_singleton]
  refine ⟨_, List.mem_singleton_self _, ?_, ?_⟩
  · unfold OutFrame.datagram
    dsimp only
    rw [lengthField_frameDatagram, frameLengthBits, hlength]
    rfl
  · unfold countedOctets
    rw [OutFrame.datagram_length, Nat.add_sub_cancel_left, ← hlength]
    exact Nat.zero_add _

/-- A session that would be made has nothing pending. -/
theorem pendingOf_eq (s : ServerState) (dest : SocketAddr) (seq : ℕ) :
    s.pendingOf dest seq = (s.sessionOf dest).pendingMessages.lookup seq := by
  unfold ServerState.pendingOf ServerState.session ServerState.sessionOf getOr
  cases s.connections.lookup dest.display with
  | none => rfl
  | some c => rfl

/-- The other entries are as before. -/
theorem Transmits.lookup_other {c c' : ClientSession} {frames : List OutFrame}
    (h : Transmits reliability c frames c') {seq : ℕ}
    (hseq : seq ∉ frames.map (·.counters.seq)) :
    c'.pendingMessages.lookup seq = c.pendingMessages.lookup seq := by
  induction h with
  | nil c => rfl
  | cons c f now hcounters _ ih =>
    rw [List.map_cons, List.mem_cons, not_or, hcounters] at hseq
    rw [ih hseq.2]
    unfold ClientSession.transmitted
    by_cases hr : hasReliable reliability
    · rw [if_pos hr]
      exact AList.lookup_insert_ne hseq.1
    · rw [if_neg hr]
      rfl

/-- Each reliable datagram waits under its number, as it was sent. -/
theorem Transmits.stored {c c' : ClientSession} {frames : List OutFrame}
    (h : Transmits reliability c frames c') (hr : hasReliable reliability = true)
    (hdistinct : (frames.map (·.counters.seq)).Nodup) {f : OutFrame} (hf : f ∈ frames) :
    ∃ msg, c'.pendingMessages.lookup f.counters.seq = some msg ∧
      msg.frame = f.datagram reliability := by
  induction h with
  | nil c => exact absurd hf List.not_mem_nil
  | cons c g now hcounters hrest ih =>
    rw [List.map_cons, List.nodup_cons] at hdistinct
    rcases List.mem_cons.mp hf with rfl | hf
    · refine ⟨⟨f.datagram reliability, (f.datagram reliability).length, now, 1⟩, ?_, rfl⟩
      rw [hrest.lookup_other hdistinct.1, ClientSession.transmitted, if_pos hr, hcounters]
      exact AList.lookup_insert _
    · exact ih hdistinct.2 hf

/-- One unsplit frame with all of it, or fragments with one count and one split id, in order and
none of them empty, which make it up. -/
inductive Carries (payload : Bytes) (frames : List OutFrame) : Prop
  | single (f : OutFrame) (hframes : frames = [f]) (hsplit : f.split = none)
      (hchunk : f.chunk = payload)
  | fragments (id : ℕ) (hid : id < 2 ^ 16) (hcount : frames.length < 2 ^ 32)
      (hindex : ∀ (i : ℕ) (f : OutFrame), frames[i]? = some f →
        f.split = some ⟨frames.length, id, i⟩ ∧ f.chunk ≠ [])
      (hchunks : (frames.map (·.chunk)).flatten = payload)

/-- A call submits datagrams of the given frames, `n` of them, and all when no send fails. They
fit, they are numbered consecutively, and reliable ones are pending as they were sent. -/
structure SendsParts (env : ServerEnv) (s : ServerState) (payload : Bytes) (reliability : ℕ)
    (dest : SocketAddr) (frames : List OutFrame) (n : ℕ) : Prop where
  sent : (sendFrame env s payload reliability dest).2.sent = s.sent ++
    (frames.take n).map (fun f => (dest, f.datagram reliability))
  complete : (sendFrame env s payload reliability dest).1 = .ok () → frames.length ≤ n
  carries : Carries payload frames
  fits : ∀ f ∈ frames, (f.datagram reliability).length ≤ env.config.mtuSize
  numbered : ∀ i f, frames[i]? = some f →
    f.counters.seq = ((s.countersOf dest).seq + i) % 2 ^ 32
  stored : hasReliable reliability = true → ∀ f ∈ frames.take n,
    ∃ msg, (sendFrame env s payload reliability dest).2.pendingOf dest f.counters.seq = some msg ∧
      msg.frame = f.datagram reliability

theorem iterate_next_seq (reliability : ℕ) {a : Allocated} (h : a.seq < 2 ^ 32) (k : ℕ) :
    ((·.next reliability)^[k] a).seq = (a.seq + k) % 2 ^ 32 := by
  induction k with
  | zero => exact (Nat.mod_eq_of_lt h).symm
  | succ k ih =>
    have hnext (b : Allocated) : (b.next reliability).seq = (b.seq + 1) % 2 ^ 32 := rfl
    rw [Function.iterate_succ_apply', hnext, ih]
    omega

section Parts

variable {env : ServerEnv} {s : ServerState} {dest : SocketAddr}

theorem chunks_length_le {frames : List OutFrame} {m : ℕ} (h : ∀ f ∈ frames, f.chunk.length ≤ m) :
    (frames.map (·.chunk)).flatten.length ≤ frames.length * m := by
  induction frames with
  | nil => simp
  | cons f fs ih =>
    have hf := h f List.mem_cons_self
    have hrest := ih fun g hg => h g (List.mem_cons_of_mem _ hg)
    rw [List.map_cons, List.flatten_cons, List.length_append, List.length_cons, Nat.succ_mul]
    omega

/-- The frames of the plan of a payload that is not too long. -/
theorem planFrames_carries (hmtu : 25 ≤ mtu)
    (hlen : payload.length ≤ (2 ^ 32 - 1) * (mtu - 17 - headerOverhead reliability)) (id : ℕ)
    (hid : id < 2 ^ 16) (a : Allocated) :
    Carries payload (planFrames mtu reliability payload id a) := by
  have hoverhead := headerOverhead_le reliability
  unfold planFrames
  by_cases hfits : fitsSingle mtu reliability payload
  · rw [if_pos hfits]
    exact .single _ rfl rfl rfl
  · rw [if_neg hfits]
    dsimp only
    rw [maxFragPayload_eq hmtu]
    obtain ⟨hcount, htotal, hinside⟩ := fragmentCount_le (show 0 < _ by omega) (by decide) hlen
    generalize fragmentCount payload.length (mtu - 17 - headerOverhead reliability) = count at *
    have hlength := planFragments_length reliability payload
      (mtu - 17 - headerOverhead reliability) count id count 0 0 a
    have hflatten := planFragments_flatten reliability payload
      (mtu - 17 - headerOverhead reliability) count id count 0
      (show payload.length - 0 ≤ count * (mtu - 17 - headerOverhead reliability) by omega) a
    refine .fragments id hid (by omega) ?_ hflatten
    intro i f hf
    rw [hlength]
    rw [planFragments_eq reliability _ _ _ _ _ (Nat.zero_le _), List.getElem?_map,
      Option.map_eq_some_iff] at hf
    obtain ⟨j, hj, rfl⟩ := hf
    obtain ⟨hi, rfl⟩ := List.getElem?_eq_some_iff.mp hj
    rw [List.length_range] at hi
    rw [List.getElem_range]
    refine ⟨by rw [Nat.zero_add], fun hnil => ?_⟩
    have hempty := congrArg List.length hnil
    have hbegin := hinside i hi
    rw [fragmentChunk_length, List.length_nil] at hempty
    omega

theorem planFrames_fits (hmtu : 25 ≤ mtu) (id : ℕ) (a : Allocated) :
    ∀ f ∈ planFrames mtu reliability payload id a, (f.datagram reliability).length ≤ mtu := by
  have hoverhead := headerOverhead_le reliability
  have hiff := fitsSingle_iff hmtu reliability payload
  intro f hf
  rw [OutFrame.datagram_length]
  unfold planFrames at hf
  by_cases hfits : fitsSingle mtu reliability payload
  · rw [if_pos hfits, List.mem_singleton] at hf
    have hlen := hiff.mp hfits
    have hbody : f.bodyLength = payload.length := by
      rw [hf]
      exact Nat.zero_add _
    omega
  · rw [if_neg hfits] at hf
    dsimp only at hf
    rw [maxFragPayload_eq hmtu, planFragments_eq reliability _ _ _ _ _ (Nat.zero_le _)] at hf
    obtain ⟨i, -, rfl⟩ := List.mem_map.mp hf
    rw [OutFrame.bodyLength, Option.isSome_some, if_pos rfl, fragmentChunk_length]
    unfold splitOverhead
    omega

theorem planFrames_numbered (mtu reliability : ℕ) (payload : Bytes) (id : ℕ) {a : Allocated}
    (ha : a.seq < 2 ^ 32) (i : ℕ) (f : OutFrame)
    (hf : (planFrames mtu reliability payload id a)[i]? = some f) :
    f.counters.seq = (a.seq + i) % 2 ^ 32 := by
  unfold planFrames at hf
  by_cases hfits : fitsSingle mtu reliability payload
  · rw [if_pos hfits] at hf
    obtain ⟨hi, rfl⟩ := List.getElem?_eq_some_iff.mp hf
    obtain rfl : i = 0 := by simpa using hi
    exact (Nat.mod_eq_of_lt ha).symm
  · rw [if_neg hfits] at hf
    dsimp only at hf
    rw [planFragments_eq reliability _ _ _ _ _ (Nat.zero_le _), List.getElem?_map,
      Option.map_eq_some_iff] at hf
    obtain ⟨j, hj, rfl⟩ := hf
    obtain ⟨hi, rfl⟩ := List.getElem?_eq_some_iff.mp hj
    rw [List.getElem_range]
    exact iterate_next_seq reliability ha i

/-- Fewer than `2 ^ 32` consecutive numbers are distinct. -/
theorem nodup_of_numbered {frames : List OutFrame} {start : ℕ} (hlen : frames.length < 2 ^ 32)
    (h : ∀ (i : ℕ) (f : OutFrame), frames[i]? = some f → f.counters.seq = (start + i) % 2 ^ 32) :
    (frames.map (·.counters.seq)).Nodup := by
  rw [List.nodup_iff_injective_getElem]
  rintro ⟨i, hi⟩ ⟨j, hj⟩ hij
  rw [List.length_map] at hi hj
  dsimp only at hij
  rw [List.getElem_map, List.getElem_map, h i _ (List.getElem?_eq_getElem hi),
    h j _ (List.getElem?_eq_getElem hj)] at hij
  refine Fin.ext ?_
  dsimp only
  omega

/-- A call with a payload that is not too long. -/
theorem sendsParts_outgoing (hmtu : 25 ≤ env.config.mtuSize)
    (hlen : payload.length ≤
      (2 ^ 32 - 1) * (env.config.mtuSize - 17 - headerOverhead reliability))
    (hseq : (s.countersOf dest).seq < 2 ^ 32) : ∃ frames n,
    SendsParts env s payload reliability dest frames n := by
  obtain ⟨n, hsent, htransmits, -, hcomplete⟩ :=
    sendFrame_transmits env s payload reliability dest
  have hid : env.random s.tick % 2 ^ 16 < 2 ^ 16 := Nat.mod_lt _ (Nat.two_pow_pos 16)
  have hcarries : Carries payload (outgoing env s payload reliability dest) :=
    planFrames_carries hmtu hlen _ hid _
  have hnumbered := planFrames_numbered env.config.mtuSize reliability payload
    (env.random s.tick % 2 ^ 16) hseq
  refine ⟨outgoing env s payload reliability dest, n, hsent, hcomplete, hcarries,
    planFrames_fits hmtu _ _, hnumbered, fun hr f hf => ?_⟩
  have hcount : (outgoing env s payload reliability dest).length < 2 ^ 32 := by
    cases hcarries with
    | single f hframes hsplit hchunk =>
      rw [hframes, List.length_singleton]
      exact Nat.one_lt_two_pow (by omega)
    | fragments id hid hcount hindex hchunks => exact hcount
  have hdistinct := nodup_of_numbered hcount hnumbered
  obtain ⟨msg, hmsg, hframe⟩ :=
    htransmits.stored hr (hdistinct.sublist ((List.take_sublist n _).map _)) hf
  exact ⟨msg, (pendingOf_eq _ dest _).trans hmsg, hframe⟩

/-- The count of fragments is a 32-bit word, and each takes its part of a datagram. -/
theorem length_le_of_sendsParts (hmtu : 25 ≤ env.config.mtuSize) {frames : List OutFrame} {n : ℕ}
    (h : SendsParts env s payload reliability dest frames n) :
    payload.length ≤ (2 ^ 32 - 1) * (env.config.mtuSize - 17 - headerOverhead reliability) := by
  have hoverhead := headerOverhead_le reliability
  generalize hmax : env.config.mtuSize - 17 - headerOverhead reliability = maxFrag
  have hpos : 0 < maxFrag := by omega
  cases h.carries with
  | single f hframes hsplit hchunk =>
    have hfits := h.fits f (by rw [hframes]; exact List.mem_singleton_self f)
    rw [OutFrame.datagram_length, OutFrame.bodyLength, hsplit, hchunk] at hfits
    simp only [Option.isSome_none, Bool.false_eq_true, if_false, Nat.zero_add] at hfits
    have := Nat.le_mul_of_pos_right (2 ^ 32 - 1) hpos
    omega
  | fragments id hid hcount hindex hchunks =>
    have hchunk : ∀ f ∈ frames, f.chunk.length ≤ maxFrag := by
      intro f hf
      obtain ⟨i, hi, rfl⟩ := List.getElem_of_mem hf
      obtain ⟨hsplit, -⟩ := hindex i _ (List.getElem?_eq_getElem hi)
      have hfits := h.fits _ hf
      rw [OutFrame.datagram_length, OutFrame.bodyLength, hsplit, Option.isSome_some, if_pos rfl]
        at hfits
      unfold splitOverhead at hfits
      omega
    have hle := chunks_length_le hchunk
    rw [hchunks] at hle
    exact hle.trans (Nat.mul_le_mul_right maxFrag (by omega))

end Parts

/-- A call sends the parts of its payload exactly when no more than `2 ^ 32 - 1` fragments are
needed. -/
theorem sendsParts_iff (env : ServerEnv) (s : ServerState) (payload : Bytes) (reliability : ℕ)
    (dest : SocketAddr) (hmtu : 25 ≤ env.config.mtuSize)
    (hseq : (s.countersOf dest).seq < 2 ^ 32) :
    (∃ frames n, SendsParts env s payload reliability dest frames n) ↔
      payload.length ≤
        (2 ^ 32 - 1) * (env.config.mtuSize - 17 - headerOverhead reliability) := by
  constructor
  · rintro ⟨frames, n, hparts⟩
    exact length_le_of_sendsParts hmtu hparts
  · intro hlen
    exact sendsParts_outgoing hmtu hlen hseq

theorem sendsParts_nineteen : ∃ frames n, SendsParts (.quiet 25) (freshServer 25 loopback)
    (List.replicate 19 7) 3 loopback frames n :=
  (sendsParts_iff (.quiet 25) (freshServer 25 loopback) (List.replicate 19 7) 3 loopback
    (by decide) (by decide)).mpr (by rw [List.length_replicate]; decide)

theorem sendsParts_none : (sendFrame (.quiet 25) (freshServer 25 loopback)
      (List.replicate (2 ^ 32) 7) 3 loopback).1 = .ok () ∧
    (sendFrame (.quiet 25) (freshServer 25 loopback)
      (List.replicate (2 ^ 32) 7) 3 loopback).2.sent = (freshServer 25 loopback).sent := by
  have hlength : (List.replicate (2 ^ 32) (7 : UInt8)).length = 2 ^ 32 := List.length_replicate
  generalize List.replicate (2 ^ 32) (7 : UInt8) = payload at hlength ⊢
  have hmax : maxFragPayload 25 3 = 1 := by decide
  have hfits : ¬ fitsSingle 25 3 payload = true := by
    rw [fitsSingle_iff le_rfl, hlength]
    omega
  have hcount : fragmentCount payload.length (maxFragPayload 25 3) = 0 := by
    rw [hmax, hlength, fragmentCount, Nat.div_one]
    omega
  rw [sendFrame_of_no_fragments hfits hcount]
  exact ⟨rfl, rfl⟩

end SkinGetBE.RakNet
