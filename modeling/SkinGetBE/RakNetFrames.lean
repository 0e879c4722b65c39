import SkinGetBE.RakNetSession

/-!
# Outgoing frames

The sender takes the counters of a session one frame at a time, builds the
datagram, remembers reliable ones and submits them to the socket. The plan of a
payload lists the frames with the fields that are put into them; the datagrams
that are sent are the beginning of the plan, all of it when no send fails.
-/
namespace SkinGetBE.RakNet
open Octets Text Tables

/-- The counters of a frame, before they are incremented. -/
structure Allocated where
  seq : ℕ
  relSeq : ℕ
  orderIdx : ℕ
  deriving DecidableEq, Repr

def ClientSession.counters (session : ClientSession) : Allocated :=
  ⟨session.packetSeq, session.reliableSeq, session.orderIndex⟩

/-- The counters that follow; they wrap around as 32-bit words. -/
def Allocated.next (a : Allocated) (reliability : ℕ) : Allocated where
  seq := (a.seq + 1) % 2 ^ 32
  relSeq := if hasReliable reliability then (a.relSeq + 1) % 2 ^ 32 else a.relSeq
  orderIdx := if hasOrdering reliability then (a.orderIdx + 1) % 2 ^ 32 else a.orderIdx

def allocateSequence (session : ClientSession) (reliability : ℕ) : Allocated × ClientSession :=
  let following := session.counters.next reliability
  (session.counters, { session with
    packetSeq := following.seq
    reliableSeq := following.relSeq
    orderIndex := following.orderIdx })

/-- The accounting of a reliable datagram. -/
def registerPending (seq : ℕ) (frame : Bytes) (now : ℕ) (session : ClientSession) :
    ClientSession :=
  { session with
    inFlightBytes := saturatingSum session.inFlightBytes frame.length
    pendingMessages := session.pendingMessages.insert seq ⟨frame, frame.length, now, 1⟩ }

namespace ServerState

/-- A submitted datagram counts as sent, whatever the socket answers. -/
def sendTo (env : ServerEnv) (s : ServerState) (dest : SocketAddr) (datagram : Bytes) :
    Except Error Unit × ServerState :=
  (match env.sendFails s.tick with
    | some e => .error (.ioError e)
    | none => .ok (),
    { s.advance with sent := s.sent ++ [(dest, datagram)] })

/-- The entry of the peer, made when it is missing, gives up its counters. -/
def allocate (s : ServerState) (dest : SocketAddr) (reliability : ℕ) : Allocated × ServerState :=
  let taken := allocateSequence (s.sessionOf dest) reliability
  (taken.1, { s with connections := s.connections.insert dest.display taken.2 })

end ServerState

/-- The length field, a 16-bit number of bits. -/
def frameLengthBits (body : Bytes) : ℕ := body.length % 2 ^ 16 * 8 % 2 ^ 16

def frameDatagram (flags : UInt8) (reliability : ℕ) (a : Allocated) (body : Bytes) : Bytes :=
  0x84 :: (leBytes 3 a.seq ++ (flags :: (beBytes 2 (frameLengthBits body) ++
    ((if hasReliable reliability then leBytes 3 a.relSeq else []) ++
      ((if hasOrdering reliability then leBytes 3 a.orderIdx ++ [0] else []) ++ body)))))

def singleFlags (reliability : ℕ) : UInt8 := UInt8.ofNat reliability <<< 5

def splitFlags (reliability : ℕ) : UInt8 := singleFlags reliability ||| 0x10

/-- A reliable datagram is kept until it is acknowledged. -/
def rememberReliable (env : ServerEnv) (s : ServerState) (dest : SocketAddr) (reliability seq : ℕ)
    (frame : Bytes) : ServerState :=
  if hasReliable reliability then
    (s.modifySession dest (registerPending seq frame (env.instant s.tick))).advance
  else s

/-- The part that the single and the fragmented path share. -/
def transmit (env : ServerEnv) (s : ServerState) (dest : SocketAddr) (reliability : ℕ)
    (flags : UInt8) (body : Bytes) : Except Error Unit × ServerState :=
  let taken := s.allocate dest reliability
  let frame := frameDatagram flags reliability taken.1 body
  (rememberReliable env taken.2 dest reliability taken.1.seq frame).sendTo env dest frame

def baseOverhead : ℕ := 3

def splitOverhead : ℕ := 10

def maxSinglePayload (mtu reliability : ℕ) : ℕ :=
  if mtu > 4 + baseOverhead + headerOverhead reliability then
    mtu - 4 - baseOverhead - headerOverhead reliability
  else 0

def maxFragPayload (mtu reliability : ℕ) : ℕ :=
  if mtu > 4 + baseOverhead + headerOverhead reliability + splitOverhead then
    mtu - 4 - baseOverhead - headerOverhead reliability - splitOverhead
  else 1

def fragmentCount (total maxFrag : ℕ) : ℕ := (total + maxFrag - 1) / maxFrag % 2 ^ 32

/-- As long as the number of fragments is a word, they hold the payload, and each of them begins
inside of it. -/
theorem fragmentCount_le {total maxFrag bound : ℕ} (hpos : 0 < maxFrag) (hbound : bound < 2 ^ 32)
    (h : total ≤ bound * maxFrag) : fragmentCount total maxFrag ≤ bound ∧
      total ≤ fragmentCount total maxFrag * maxFrag ∧
      ∀ i < fragmentCount total maxFrag, i * maxFrag < total := by
  have hle : (total + maxFrag - 1) / maxFrag ≤ bound := by
    rw [Nat.div_le_iff_le_mul_add_pred hpos, Nat.mul_comm]
    omega
  have hge : total ≤ (total + maxFrag - 1) / maxFrag * maxFrag := by
    have := Nat.lt_div_mul_add (a := total + maxFrag - 1) hpos
    omega
  unfold fragmentCount
  rw [Nat.mod_eq_of_lt (by omega)]
  refine ⟨hle, hge, fun i hi => ?_⟩
  have := (Nat.le_div_iff_mul_le hpos).mp (Nat.succ_le_of_lt hi)
  rw [Nat.succ_mul] at this
  omega

theorem fragmentCount_pos {total maxFrag bound : ℕ} (htotal : 0 < total) (hpos : 0 < maxFrag)
    (hbound : bound < 2 ^ 32) (h : total ≤ bound * maxFrag) : 0 < fragmentCount total maxFrag := by
  obtain ⟨-, hge, -⟩ := fragmentCount_le hpos hbound h
  exact Nat.pos_of_mul_pos_right (htotal.trans_le hge)

structure SplitHeader where
  count : ℕ
  id : ℕ
  index : ℕ
  deriving DecidableEq, Repr

def splitBody (header : SplitHeader) (chunk : Bytes) : Bytes :=
  beBytes 4 header.count ++ (beBytes 2 header.id ++ (beBytes 4 header.index ++ chunk))

/-- What a fragment takes of the payload at `offset`. -/
def fragmentTake (payload : Bytes) (maxFrag offset : ℕ) : ℕ := min maxFrag (payload.length - offset)

def fragmentChunk (payload : Bytes) (maxFrag offset : ℕ) : Bytes :=
  (payload.drop offset).take (fragmentTake payload maxFrag offset)

/-- The fragments that are left; a failed send ends the loop. -/
def sendFragments (env : ServerEnv) (dest : SocketAddr) (reliability : ℕ) (payload : Bytes)
    (maxFrag count id : ℕ) : ℕ → ℕ → ℕ → ServerState → Except Error Unit × ServerState
  | 0, _, _, s => (.ok (), s)
  | left + 1, idx, offset, s =>
    match transmit env s dest reliability (splitFlags reliability)
        (splitBody ⟨count, id, idx⟩ (fragmentChunk payload maxFrag offset)) with
    | (.error e, s) => (.error e, s)
    | (.ok (), s) =>
      sendFragments env dest reliability payload maxFrag count id left (idx + 1)
        (offset + fragmentTake payload maxFrag offset) s

/-- Whether the payload goes out in one unsplit frame. -/
def fitsSingle (mtu reliability : ℕ) (payload : Bytes) : Bool :=
  payload.length ≤ maxSinglePayload mtu reliability && maxSinglePayload mtu reliability > 0

def sendFrame (env : ServerEnv) (s : ServerState) (payload : Bytes) (reliability : ℕ)
    (dest : SocketAddr) : Except Error Unit × ServerState :=
  if fitsSingle env.config.mtuSize reliability payload then
    transmit env s dest reliability (singleFlags reliability) payload
  else
    let maxFrag := maxFragPayload env.config.mtuSize reliability
    let count := fragmentCount payload.length maxFrag
    sendFragments env dest reliability payload maxFrag count (env.random s.tick % 2 ^ 16) count 0 0
      s.advance

/-- A frame with the fields that are put into it. -/
structure OutFrame where
  counters : Allocated
  split : Option SplitHeader
  chunk : Bytes
  deriving DecidableEq, Repr

def OutFrame.datagram (f : OutFrame) (reliability : ℕ) : Bytes :=
  match f.split with
  | none => frameDatagram (singleFlags reliability) reliability f.counters f.chunk
  | some header =>
    frameDatagram (splitFlags reliability) reliability f.counters (splitBody header f.chunk)

/-- The same frame as a receiver should see it. -/
def OutFrame.frame (f : OutFrame) (reliability : ℕ) : RakNetFrame where
  reliability := reliability
  isSplit := f.split.isSome
  payload := f.chunk
  reliableSeq := if hasReliable reliability then some f.counters.relSeq else none
  orderIndex := if hasOrdering reliability then some f.counters.orderIdx else none
  orderChannel := if hasOrdering reliability then some 0 else none
  splitCount := f.split.map (·.count)
  splitId := f.split.map (·.id)
  splitIndex := f.split.map (·.index)

def planFragments (reliability : ℕ) (payload : Bytes) (maxFrag count id : ℕ) :
    ℕ → ℕ → ℕ → Allocated → List OutFrame
  | 0, _, _, _ => []
  | left + 1, idx, offset, a =>
    ⟨a, some ⟨count, id, idx⟩, fragmentChunk payload maxFrag offset⟩ ::
      planFragments reliability payload maxFrag count id left (idx + 1)
        (offset + fragmentTake payload maxFrag offset) (a.next reliability)

def planFrames (mtu reliability : ℕ) (payload : Bytes) (id : ℕ) (a : Allocated) : List OutFrame :=
  if fitsSingle mtu reliability payload then [⟨a, none, payload⟩]
  else
    let maxFrag := maxFragPayload mtu reliability
    let count := fragmentCount payload.length maxFrag
    planFragments reliability payload maxFrag count id count 0 0 a

/-- The counters that the next frame to the peer takes. -/
def ServerState.countersOf (s : ServerState) (dest : SocketAddr) : Allocated :=
  (s.sessionOf dest).counters

/-- The plan of the frames of one call. -/
def outgoing (env : ServerEnv) (s : ServerState) (payload : Bytes) (reliability : ℕ)
    (dest : SocketAddr) : List OutFrame :=
  planFrames env.config.mtuSize reliability payload (env.random s.tick % 2 ^ 16) (s.countersOf dest)

theorem rememberReliable_sent (env : ServerEnv) (s : ServerState) (dest : SocketAddr)
    (reliability seq : ℕ) (frame : Bytes) :
    (rememberReliable env s dest reliability seq frame).sent = s.sent := by
  unfold rememberReliable
  by_cases h : hasReliable reliability
  · rw [if_pos h]
    rfl
  · rw [if_neg h]

theorem rememberReliable_counters (env : ServerEnv) (s : ServerState) (dest : SocketAddr)
    (reliability seq : ℕ) (frame : Bytes) :
    (rememberReliable env s dest reliability seq frame).countersOf dest = s.countersOf dest := by
  unfold rememberReliable
  by_cases h : hasReliable reliability
  · rw [if_pos h]
    unfold ServerState.countersOf ServerState.sessionOf getOr ServerState.advance
    dsimp only
    rw [ServerState.lookup_modifySession, if_pos rfl]
    cases s.connections.lookup dest.display with
    | some session => rfl
    | none => rfl
  · rw [if_neg h]

/-- The counters of a state after an allocation. -/
theorem allocate_counters (s : ServerState) (dest : SocketAddr) (reliability : ℕ) :
    (s.allocate dest reliability).2.countersOf dest = (s.countersOf dest).next reliability := by
  unfold ServerState.countersOf ServerState.allocate ServerState.sessionOf getOr
  dsimp only
  rw [AList.lookup_insert]
  rfl

theorem lookup_allocate (s : ServerState) (dest : SocketAddr) (reliability : ℕ) :
    (s.allocate dest reliability).2.connections.lookup dest.display =
      some (allocateSequence (s.sessionOf dest) reliability).2 := AList.lookup_insert _

/-- The session that has sent: a reliable datagram is pending in it. -/
theorem lookup_transmit (env : ServerEnv) (s : ServerState) (dest : SocketAddr) (reliability : ℕ)
    (flags : UInt8) (body : Bytes) :
    (transmit env s dest reliability flags body).2.connections.lookup dest.display =
      some (if hasReliable reliability then
        registerPending (s.allocate dest reliability).1.seq
          (frameDatagram flags reliability (s.allocate dest reliability).1 body)
          (env.instant (s.allocate dest reliability).2.tick)
          (allocateSequence (s.sessionOf dest) reliability).2
      else (allocateSequence (s.sessionOf dest) reliability).2) := by
  unfold transmit rememberReliable ServerState.sendTo ServerState.advance
  dsimp only
  by_cases hr : hasReliable reliability
  · rw [if_pos hr, if_pos hr]
    dsimp only
    rw [ServerState.lookup_modifySession, if_pos rfl, lookup_allocate, Option.map_some]
  · rw [if_neg hr, if_neg hr, lookup_allocate]

theorem transmit_sent (env : ServerEnv) (s : ServerState) (dest : SocketAddr) (reliability : ℕ)
    (flags : UInt8) (body : Bytes) : (transmit env s dest reliability flags body).2.sent =
      s.sent ++ [(dest, frameDatagram flags reliability (s.countersOf dest) body)] := by
  unfold transmit ServerState.sendTo
  dsimp only
  rw [rememberReliable_sent]
  rfl

/-- A frame takes the counters and leaves the ones that follow. -/
theorem transmit_counters (env : ServerEnv) (s : ServerState) (dest : SocketAddr)
    (reliability : ℕ) (flags : UInt8) (body : Bytes) :
    (transmit env s dest reliability flags body).2.countersOf dest =
      (s.countersOf dest).next reliability :=
  (rememberReliable_counters env _ dest reliability _ _).trans
    (allocate_counters s dest reliability)

/-- The session after a datagram: its counters are taken, and a reliable datagram is pending. -/
def ClientSession.transmitted (c : ClientSession) (reliability : ℕ) (datagram : Bytes) (now : ℕ) :
    ClientSession :=
  if hasReliable reliability then
    registerPending c.packetSeq datagram now (allocateSequence c reliability).2
  else (allocateSequence c reliability).2

theorem transmitted_packetSeq (c : ClientSession) (reliability : ℕ) (datagram : Bytes)
    (now : ℕ) : (c.transmitted reliability datagram now).packetSeq =
      (c.packetSeq + 1) % 2 ^ 32 := by
  unfold ClientSession.transmitted
  split_ifs
  · rfl
  · rfl

/-- What is pending was pending before, or is the datagram. -/
theorem transmitted_pending {c : ClientSession} {reliability now seq : ℕ} {datagram : Bytes}
    {msg : PendingMessage}
    (h : (c.transmitted reliability datagram now).pendingMessages.lookup seq = some msg) :
    c.pendingMessages.lookup seq = some msg ∨
      seq = c.packetSeq ∧ msg = ⟨datagram, datagram.length, now, 1⟩ := by
  unfold ClientSession.transmitted at h
  split_ifs at h
  · have h' := (lookup_insert_eq c.packetSeq seq _ c.pendingMessages).symm.trans h
    by_cases hseq : seq = c.packetSeq
    · rw [if_pos hseq] at h'
      exact .inr ⟨hseq, (Option.some.inj h').symm⟩
    · rw [if_neg hseq] at h'
      exact .inl h'
  · exact .inl h

/-- A session that sends the frames one after the other, each with the counters it has. -/
inductive Transmits (reliability : ℕ) : ClientSession → List OutFrame → ClientSession → Prop
  | nil (c : ClientSession) : Transmits reliability c [] c
  | cons (c : ClientSession) (f : OutFrame) (now : ℕ) {fs : List OutFrame} {c' : ClientSession}
      (hcounters : f.counters = c.counters)
      (h : Transmits reliability (c.transmitted reliability (f.datagram reliability) now) fs c') :
      Transmits reliability c (f :: fs) c'

theorem transmit_session (env : ServerEnv) (s : ServerState) (dest : SocketAddr)
    (reliability : ℕ) (flags : UInt8) (body : Bytes) : ∃ now,
    (transmit env s dest reliability flags body).2.session dest =
      some ((s.sessionOf dest).transmitted reliability
        (frameDatagram flags reliability (s.countersOf dest) body) now) :=
  ⟨_, lookup_transmit env s dest reliability flags body⟩

theorem sessionOf_eq {s : ServerState} {dest : SocketAddr} {c : ClientSession}
    (h : s.session dest = some c) : s.sessionOf dest = c := by
  unfold ServerState.session at h
  unfold ServerState.sessionOf getOr
  rw [h]
  rfl

/-- The fragments that a call gets to send, and the session behind them. -/
theorem sendFragments_transmits (env : ServerEnv) (dest : SocketAddr) (reliability : ℕ)
    (payload : Bytes) (maxFrag count id left idx offset : ℕ) (s : ServerState) :
    let plan :=
      planFragments reliability payload maxFrag count id left idx offset (s.countersOf dest)
    let out := sendFragments env dest reliability payload maxFrag count id left idx offset s
    ∃ n, out.2.sent = s.sent ++ (plan.take n).map (fun f => (dest, f.datagram reliability)) ∧
      Transmits reliability (s.sessionOf dest) (plan.take n) (out.2.sessionOf dest) ∧
      (0 < left → 0 < n) ∧ (out.1 = .ok () → plan.length ≤ n) := by
  induction left generalizing idx offset s with
  | zero => exact ⟨0, by simp [sendFragments], .nil _, by simp, by simp [planFragments]⟩
  | succ left ih =>
    dsimp only
    have hsent := transmit_sent env s dest reliability (splitFlags reliability)
      (splitBody ⟨count, id, idx⟩ (fragmentChunk payload maxFrag offset))
    have hcounters := transmit_counters env s dest reliability (splitFlags reliability)
      (splitBody ⟨count, id, idx⟩ (fragmentChunk payload maxFrag offset))
    obtain ⟨now, hsession⟩ := transmit_session env s dest reliability (splitFlags reliability)
      (splitBody ⟨count, id, idx⟩ (fragmentChunk payload maxFrag offset))
    unfold sendFragments planFragments
    generalize transmit env s dest reliability (splitFlags reliability)
      (splitBody ⟨count, id, idx⟩ (fragmentChunk payload maxFrag offset)) = out at *
    obtain ⟨result, s'⟩ := out
    dsimp only at hsent hcounters hsession
    have hfirst := sessionOf_eq hsession
    cases result with
    | error e =>
      refine ⟨1, ?_, ?_, by simp, by simp⟩
      · dsimp only
        rw [hsent]
        rfl
      · dsimp only
        rw [hfirst]
        exact .cons _ ⟨s.countersOf dest, some ⟨count, id, idx⟩, _⟩ now rfl (.nil _)
    | ok u =>
      obtain ⟨n, h1, h2, -, h3⟩ := ih (idx + 1) (offset + fragmentTake payload maxFrag offset) s'
      rw [hcounters] at h1 h2 h3
      refine ⟨n + 1, ?_, ?_, by simp, ?_⟩
      · dsimp only
        rw [h1, hsent, List.append_assoc]
        rfl
      · dsimp only
        rw [hfirst] at h2
        exact .cons _ ⟨s.countersOf dest, some ⟨count, id, idx⟩, _⟩ now rfl h2
      · intro hok
        have := h3 hok
        simpa using this

/-- What is sent is the beginning of the plan, not empty unless the plan is, and the session has
sent it frame by frame. -/
theorem sendFrame_transmits (env : ServerEnv) (s : ServerState) (payload : Bytes)
    (reliability : ℕ) (dest : SocketAddr) : ∃ n,
      (sendFrame env s payload reliability dest).2.sent = s.sent ++
        ((outgoing env s payload reliability dest).take n).map
          (fun f => (dest, f.datagram reliability)) ∧
      Transmits reliability (s.sessionOf dest)
        ((outgoing env s payload reliability dest).take n)
        ((sendFrame env s payload reliability dest).2.sessionOf dest) ∧
      (outgoing env s payload reliability dest ≠ [] → 0 < n) ∧
      ((sendFrame env s payload reliability dest).1 = .ok () →
        (outgoing env s payload reliability dest).length ≤ n) := by
  unfold sendFrame outgoing planFrames
  by_cases h : fitsSingle env.config.mtuSize reliability payload
  · rw [if_pos h, if_pos h]
    obtain ⟨now, hsession⟩ :=
      transmit_session env s dest reliability (singleFlags reliability) payload
    refine ⟨1, ?_, ?_, by simp, by simp⟩
    · rw [transmit_sent]
      rfl
    · rw [sessionOf_eq hsession]
      exact .cons _ ⟨s.countersOf dest, none, payload⟩ now rfl (.nil _)
  · rw [if_neg h, if_neg h]
    dsimp only
    generalize hc : fragmentCount payload.length (maxFragPayload env.config.mtuSize reliability) =
      count
    obtain ⟨n, h1, h2, h3, h4⟩ := sendFragments_transmits env dest reliability payload
      (maxFragPayload env.config.mtuSize reliability) count (env.random s.tick % 2 ^ 16) count 0 0
      s.advance
    refine ⟨n, h1, h2, ?_, h4⟩
    intro hne
    apply h3
    by_contra h0
    obtain rfl : count = 0 := by omega
    exact hne rfl

theorem maxFragPayload_le (mtu reliability : ℕ) : maxFragPayload mtu reliability ≤ mtu + 1 := by
  unfold maxFragPayload
  split_ifs <;> omega

theorem fitsSingle_length_le {mtu reliability : ℕ} {payload : Bytes}
    (h : fitsSingle mtu reliability payload = true) : payload.length ≤ mtu + 11 := by
  unfold fitsSingle maxSinglePayload at h
  simp only [Bool.and_eq_true, decide_eq_true_eq] at h
  split_ifs at h <;> omega

theorem splitBody_length_le (header : SplitHeader) (payload : Bytes) (maxFrag offset : ℕ) :
    (splitBody header (fragmentChunk payload maxFrag offset)).length ≤ maxFrag + 10 := by
  have hchunk : (fragmentChunk payload maxFrag offset).length ≤ maxFrag :=
    (List.length_take_le _ _).trans (Nat.min_le_left _ _)
  unfold splitBody
  simp only [List.length_append, beBytes_length]
  omega

/-- The header of a datagram and of its frame has 14 octets at most. -/
theorem frameDatagram_length_le (flags : UInt8) (reliability : ℕ) (a : Allocated) (body : Bytes) :
    (frameDatagram flags reliability a body).length ≤ body.length + 14 := by
  unfold frameDatagram
  split_ifs <;>
    simp only [List.length_cons, List.length_append, leBytes_length, beBytes_length,
      List.length_nil] <;> omega

section Kept

variable {env : ServerEnv} {dest : SocketAddr} {R : ServerState → ServerState → Prop}
  (hrefl : ∀ s, R s s) (htrans : ∀ {s t u}, R s t → R t u → R s u)

include hrefl htrans

/-- The loop stops at a send that fails, so it may have sent only some of the fragments. -/
theorem sendFragments_related {maxFrag : ℕ}
    (htransmit : ∀ s reliability flags body, body.length ≤ maxFrag + 10 →
      R s (transmit env s dest reliability flags body).2)
    (reliability : ℕ) (payload : Bytes) (count id left idx offset : ℕ) (s : ServerState) :
    R s (sendFragments env dest reliability payload maxFrag count id left idx offset s).2 := by
  induction left generalizing idx offset s with
  | zero => exact hrefl s
  | succ left ih =>
    have hone := htransmit s reliability (splitFlags reliability)
      (splitBody ⟨count, id, idx⟩ (fragmentChunk payload maxFrag offset))
      (splitBody_length_le _ payload maxFrag offset)
    unfold sendFragments
    generalize transmit env s dest reliability (splitFlags reliability)
      (splitBody ⟨count, id, idx⟩ (fragmentChunk payload maxFrag offset)) = out at hone
    obtain ⟨result, s'⟩ := out
    cases result with
    | error e => exact hone
    | ok u => exact htrans hone (ih _ _ s')

theorem sendFrame_related
    (htransmit : ∀ s reliability flags body, body.length ≤ env.config.mtuSize + 11 →
      R s (transmit env s dest reliability flags body).2)
    (hadvance : ∀ s, R s s.advance) (s : ServerState) (payload : Bytes) (reliability : ℕ) :
    R s (sendFrame env s payload reliability dest).2 := by
  unfold sendFrame
  by_cases h : fitsSingle env.config.mtuSize reliability payload
  · rw [if_pos h]
    exact htransmit s reliability _ payload (fitsSingle_length_le h)
  · rw [if_neg h]
    have hmax := maxFragPayload_le env.config.mtuSize reliability
    exact htrans (hadvance s) (sendFragments_related hrefl htrans
      (fun s reliability flags body hbody => htransmit s reliability flags body (by omega))
      reliability payload _ _ _ _ _ s.advance)

end Kept

end SkinGetBE.RakNet
