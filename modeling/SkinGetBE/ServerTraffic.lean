import SkinGetBE.AckLookup
import SkinGetBE.ServerTables

/-!
# What the server sends

A datagram of frames is either the next one of its session or one that was sent to
the same address before. The server keeps what it may have to repeat, and it never
sends anything to an address that it has not heard from.
-/
namespace SkinGetBE.RakNet
open Octets Text Tables Relation

/-- The frame that is pending under a number. -/
def ClientSession.frameAt (c : ClientSession) (seq : ℕ) : Option Bytes :=
  (c.pendingMessages.lookup seq).map PendingMessage.frame

/-- The frame that waits for the acknowledgement of a peer. -/
def ServerState.waiting (s : ServerState) (peer : Str) (seq : ℕ) : Option Bytes :=
  (s.connections.lookup peer).bind fun c => c.frameAt seq

/-- What is pending was pending before. -/
def Fewer (c c' : ClientSession) : Prop :=
  ∀ seq frame, c'.frameAt seq = some frame → c.frameAt seq = some frame

/-- A frame set of the server with a number in its header. -/
structure IsFrame (seq : ℕ) (datagram : Bytes) : Prop where
  id : datagram.head? = some 0x84
  number : headerNumber datagram = leBytes 3 seq

/-- What is submitted while a datagram from `addr` is handled: an answer to it, the next frames of
the session, or frames that wait for an acknowledgement. -/
inductive Submission (addr : SocketAddr) (s : ServerState) (datagram : Bytes) : Prop
  | answer (id : UInt8) (hid : id ∈ answerIds) (h : datagram.head? = some id)
  | next (h : IsFrame (s.countersOf addr).seq datagram)
  | again (seq : ℕ) (h : s.waiting addr.display seq = some datagram)

/-- What handling a datagram from `addr` adds to the datagrams that were sent and to those that
wait. -/
structure Traffic (addr : SocketAddr) (s s' : ServerState) (new : List (SocketAddr × Bytes)) :
    Prop where
  sent : s'.sent = s.sent ++ new
  dest : ∀ e ∈ new, e.1 = addr
  submitted : ∀ e ∈ new, Submission addr s e.2
  present : ∀ peer, (s'.connections.lookup peer).isSome →
    (s.connections.lookup peer).isSome ∨ peer = addr.display
  waiting : ∀ peer seq frame, s'.waiting peer seq = some frame →
    s.waiting peer seq = some frame ∨
      (peer = addr.display ∧ (addr, frame) ∈ new ∧ IsFrame seq frame)

variable {env : ServerEnv} {parse : Str → Option SocketAddr} {addr : SocketAddr}
  {datagram : Bytes} {peer : Str} {c c' : ClientSession} {s s' : ServerState}

theorem Fewer.refl (c : ClientSession) : Fewer c c := fun _ _ h => h

theorem fewer_of_pending (h : c'.pendingMessages = c.pendingMessages) : Fewer c c' := by
  intro seq frame hframe
  unfold ClientSession.frameAt at hframe ⊢
  rwa [h] at hframe

theorem fewer_acknowledge (now seq : ℕ) (c : ClientSession) : Fewer c (c.acknowledge now seq) := by
  intro k frame hframe
  unfold ClientSession.acknowledge at hframe
  cases hm : c.pendingMessages.lookup seq with
  | none => rwa [hm] at hframe
  | some msg =>
    rw [hm] at hframe
    unfold ClientSession.frameAt at hframe ⊢
    dsimp only at hframe
    rw [lookup_erase_eq] at hframe
    by_cases hk : k = seq
    · rw [if_pos hk] at hframe
      cases hframe
    · rwa [if_neg hk] at hframe

theorem fewer_foldl_acknowledge (now : ℕ) (seqs : List ℕ) (c : ClientSession) :
    Fewer c (seqs.foldl (ClientSession.acknowledge now) c) := by
  induction seqs generalizing c with
  | nil => exact .refl c
  | cons seq seqs ih =>
    intro k frame hframe
    exact fewer_acknowledge now seq c k frame (ih _ k frame hframe)

/-- Resending notes an attempt and keeps the frame. -/
theorem frameAt_resend {seq : ℕ} {msg : PendingMessage}
    (hm : c.pendingMessages.lookup seq = some msg) (now k : ℕ) :
    (c.resend now seq msg).frameAt k = c.frameAt k := by
  unfold ClientSession.frameAt ClientSession.resend
  dsimp only
  rw [lookup_insert_eq]
  by_cases hk : k = seq
  · rw [if_pos hk, hk, hm]
    rfl
  · rw [if_neg hk]

theorem fewer_prune (c : ClientSession) (now : ℕ) : Fewer c (pruneSessionQueues c now) := by
  intro k frame hframe
  obtain ⟨msg, hmsg, hframe⟩ := Option.map_eq_some_iff.mp hframe
  have hlookup := (lookup_retain _ k c.pendingMessages).symm.trans hmsg
  unfold ClientSession.frameAt
  rw [(Option.filter_eq_some_iff.mp hlookup).1, Option.map_some, hframe]

theorem frameAt_transmitted (c : ClientSession) (reliability : ℕ) (datagram : Bytes) (now : ℕ)
    {seq : ℕ} {frame : Bytes}
    (h : (c.transmitted reliability datagram now).frameAt seq = some frame) :
    c.frameAt seq = some frame ∨ (seq = c.packetSeq ∧ frame = datagram) := by
  obtain ⟨msg, hmsg, rfl⟩ := Option.map_eq_some_iff.mp h
  rcases transmitted_pending hmsg with hmsg | ⟨hseq, rfl⟩
  · exact .inl (congrArg (Option.map PendingMessage.frame) hmsg)
  · exact .inr ⟨hseq, rfl⟩

/-- A change of the sessions under which nothing new waits. -/
theorem traffic_silent (hsent : s'.sent = s.sent)
    (h : ∀ peer c', s'.connections.lookup peer = some c' →
      (∃ c, s.connections.lookup peer = some c ∧ Fewer c c') ∨
        (peer = addr.display ∧ c'.pendingMessages = ∅)) : Traffic addr s s' [] where
  sent := by rw [hsent, List.append_nil]
  dest e he := absurd he List.not_mem_nil
  submitted e he := absurd he List.not_mem_nil
  present peer hp := by
    obtain ⟨c', hc'⟩ := Option.isSome_iff_exists.mp hp
    rcases h peer c' hc' with ⟨c, hc, -⟩ | ⟨hpeer, -⟩
    · exact .inl (Option.isSome_of_eq_some hc)
    · exact .inr hpeer
  waiting b seq frame hwaiting := by
    obtain ⟨c', hc', hframe⟩ := Option.bind_eq_some_iff.mp hwaiting
    rcases h b c' hc' with ⟨c, hc, hfewer⟩ | ⟨-, hnone⟩
    · exact .inl (Option.bind_eq_some_iff.mpr ⟨c, hc, hfewer seq frame hframe⟩)
    · unfold ClientSession.frameAt at hframe
      rw [hnone] at hframe
      cases hframe

theorem traffic_connections (hsent : s'.sent = s.sent) (h : s'.connections = s.connections) :
    Traffic addr s s' [] :=
  traffic_silent hsent fun _ c' hc' => .inl ⟨c', h ▸ hc', .refl c'⟩

theorem traffic_modifySession (s : ServerState) (addr : SocketAddr)
    {f : ClientSession → ClientSession} (hf : ∀ c, s.session addr = some c → Fewer c (f c)) :
    Traffic addr s (s.modifySession addr f) [] := by
  refine traffic_silent rfl fun peer c' hc' => .inl ?_
  rw [ServerState.lookup_modifySession] at hc'
  by_cases hpeer : peer = addr.display
  · rw [if_pos hpeer] at hc'
    obtain ⟨c, hc, rfl⟩ := Option.map_eq_some_iff.mp hc'
    exact ⟨c, hpeer ▸ hc, hf c hc⟩
  · rw [if_neg hpeer] at hc'
    exact ⟨c', hc', .refl c'⟩

/-- A session that has to be made has nothing pending. -/
theorem traffic_replace (c' : ClientSession)
    (h : c'.pendingMessages = (s.sessionOf addr).pendingMessages) (hsent : s'.sent = s.sent)
    (hself : s'.connections.lookup addr.display = some c')
    (hothers : ∀ b ≠ addr.display, s'.connections.lookup b = s.connections.lookup b) :
    Traffic addr s s' [] := by
  refine traffic_silent hsent fun peer c'' hc'' => ?_
  by_cases hpeer : peer = addr.display
  · rw [hpeer, hself] at hc''
    obtain rfl := Option.some.inj hc''
    cases hc : s.connections.lookup addr.display with
    | none =>
      have hfresh : (s.sessionOf addr).pendingMessages = ∅ := by
        unfold ServerState.sessionOf getOr
        rw [hc]
        rfl
      exact .inr ⟨hpeer, h.trans hfresh⟩
    | some c =>
      rw [sessionOf_eq hc] at h
      exact .inl ⟨c, hpeer ▸ hc, fewer_of_pending h⟩
  · rw [hothers peer hpeer] at hc''
    exact .inl ⟨c'', hc'', .refl c''⟩

theorem traffic_sendTo (h : Submission addr s datagram) :
    Traffic addr s (s.sendTo env addr datagram).2 [(addr, datagram)] where
  sent := rfl
  dest e he := by rw [List.mem_singleton.mp he]
  submitted e he := by
    rw [List.mem_singleton.mp he]
    exact h
  present peer hp := .inl hp
  waiting peer seq frame hwaiting := .inl hwaiting

theorem isFrame_frameDatagram (flags : UInt8) (reliability : ℕ) (a : Allocated) (body : Bytes) :
    IsFrame a.seq (frameDatagram flags reliability a body) :=
  ⟨rfl, headerNumber_frameDatagram flags reliability a body⟩

theorem traffic_transmit (env : ServerEnv) (s : ServerState) (addr : SocketAddr) (reliability : ℕ)
    (flags : UInt8) (body : Bytes) : Traffic addr s (transmit env s addr reliability flags body).2
      [(addr, frameDatagram flags reliability (s.countersOf addr) body)] := by
  obtain ⟨now, hsession⟩ := transmit_session env s addr reliability flags body
  have hothers := (keeps_transmit env s addr reliability flags body).others
  refine ⟨transmit_sent env s addr reliability flags body, ?_, ?_, ?_, ?_⟩
  · intro e he
    rw [List.mem_singleton.mp he]
  · intro e he
    rw [List.mem_singleton.mp he]
    exact .next (isFrame_frameDatagram flags reliability _ body)
  · intro peer hp
    by_cases hpeer : peer = addr.display
    · exact .inr hpeer
    · rw [hothers peer hpeer] at hp
      exact .inl hp
  · intro peer seq frame hwaiting
    unfold ServerState.waiting at hwaiting ⊢
    by_cases hpeer : peer = addr.display
    · have hself : (transmit env s addr reliability flags body).2.connections.lookup peer =
          some ((s.sessionOf addr).transmitted reliability
            (frameDatagram flags reliability (s.countersOf addr) body) now) := hpeer ▸ hsession
      rw [hself, Option.bind_some] at hwaiting
      rcases frameAt_transmitted _ _ _ _ hwaiting with hold | ⟨rfl, rfl⟩
      · left
        unfold ServerState.sessionOf getOr at hold
        rw [hpeer]
        cases hc : s.connections.lookup addr.display with
        | none =>
          rw [hc] at hold
          cases hold
        | some c =>
          rw [hc] at hold
          exact hold
      · have hframe := isFrame_frameDatagram flags reliability (s.countersOf addr) body
        exact .inr ⟨hpeer, List.mem_singleton_self _, hframe⟩
    · rw [hothers peer hpeer] at hwaiting
      exact .inl hwaiting

theorem traffic_ensureSession (s : ServerState) (addr : SocketAddr) (connected : Bool)
    (protocol : ℕ) : Traffic addr s (s.ensureSession addr connected protocol) [] := by
  refine traffic_silent rfl fun peer c' hc' => ?_
  rw [ServerState.lookup_ensureSession] at hc'
  by_cases hpeer : peer = addr.display
  · rw [if_pos hpeer] at hc'
    obtain rfl := Option.some.inj hc'
    unfold getOr
    cases hc : s.connections.lookup addr.display with
    | none => exact .inr ⟨hpeer, rfl⟩
    | some c => exact .inl ⟨c, hpeer ▸ hc, .refl c⟩
  · rw [if_neg hpeer] at hc'
    exact .inl ⟨c', hc', .refl c'⟩

theorem traffic_pruneQueues (env : ServerEnv) (s : ServerState) (addr : SocketAddr) :
    Traffic addr s (pruneQueues env s addr) [] := by
  refine traffic_silent rfl fun peer c' hc' => .inl ?_
  have hlookup := ServerState.lookup_modifySession (pruneSplitBuffersForPeer env s addr) addr
    (fun c => pruneSessionQueues c (env.instant (pruneSplitBuffersForPeer env s addr).tick)) peer
  have hpruned := hlookup.symm.trans hc'
  by_cases hpeer : peer = addr.display
  · rw [if_pos hpeer] at hpruned
    obtain ⟨c, hc, hc''⟩ := Option.map_eq_some_iff.mp hpruned
    exact ⟨c, hpeer ▸ hc, hc'' ▸ fewer_prune c _⟩
  · rw [if_neg hpeer] at hpruned
    exact ⟨c', hpruned, .refl c'⟩

theorem traffic_drop (s : ServerState) (addr : SocketAddr) :
    Traffic addr s (s.dropConnectionState addr) [] := by
  have hdrops := drops_dropConnectionState s addr
  refine traffic_silent rfl fun peer c' hc' => .inl ?_
  by_cases hpeer : peer = addr.display
  · rw [hpeer, hdrops.absent] at hc'
    cases hc'
  · rw [hdrops.others peer hpeer] at hc'
    exact ⟨c', hc', .refl c'⟩

/-- Receiving a frame leaves what is pending alone, and sends nothing. -/
structure Receives (addr : SocketAddr) (s s' : ServerState) : Prop where
  sent : s'.sent = s.sent
  pending : ∃ c', s'.connections.lookup addr.display = some c' ∧
    c'.packetSeq = (s.sessionOf addr).packetSeq ∧
    c'.pendingMessages = (s.sessionOf addr).pendingMessages
  others : ∀ b ≠ addr.display, s'.connections.lookup b = s.connections.lookup b

theorem receives_deliver (env : ServerEnv) (s : ServerState) (addr : SocketAddr) (payload : Bytes)
    (orderIndex orderChannel : Option ℕ) :
    Receives addr s (deliver env s addr payload orderIndex orderChannel).1 where
  sent := rfl
  pending := by
    have hbooks := bufferOrderedPayload_books (s.sessionOf addr) payload orderIndex orderChannel
      (env.instant s.tick)
    exact ⟨_, AList.lookup_insert _, hbooks.packetSeq, hbooks.pendingMessages⟩
  others _ hb := AList.lookup_insert_ne hb

theorem receives_storeFragment (env : ServerEnv) (hactive : s.isActiveConnection addr) (sid : ℕ)
    (entry : SplitBuffer) (idx : ℕ) (payload : Bytes) :
    Receives addr s (storeFragment env s addr sid entry idx payload).1 := by
  obtain ⟨c, hc⟩ := Option.isSome_iff_exists.mp (ServerState.isActiveConnection_iff.mp hactive)
  have hkept : Receives addr s s :=
    ⟨rfl, ⟨c, hc, by rw [sessionOf_eq hc], by rw [sessionOf_eq hc]⟩, fun _ _ => rfl⟩
  unfold storeFragment
  by_cases h : entry.received[idx]? = some false
  · rw [dif_pos h]
    dsimp only
    by_cases hcount : (entry.store idx payload h).receivedCount = (entry.store idx payload h).count
    · rw [if_pos hcount]
      unfold completeSplit
      dsimp only
      have hdelivered := receives_deliver env
        { s with
          splitBuffers := s.splitBuffers.erase (addr.display, sid)
          assembled := s.assembled ++ [⟨addr.display, sid, (entry.store idx payload h).count,
            (entry.store idx payload h).fragments.flatten⟩] }
        addr (entry.store idx payload h).fragments.flatten
        (entry.store idx payload h).orderIndex (entry.store idx payload h).orderChannel
      exact ⟨hdelivered.sent, hdelivered.pending, hdelivered.others⟩
    · rw [if_neg hcount]
      exact ⟨hkept.sent, hkept.pending, hkept.others⟩
  · rw [dif_neg h]
    exact ⟨hkept.sent, hkept.pending, hkept.others⟩

theorem Receives.of_ensured (h : Receives addr (s.ensureSession addr true 0) s') :
    Receives addr s s' where
  sent := h.sent
  pending := by
    obtain ⟨c', hc', hseq, hpending⟩ := h.pending
    have hlookup := ServerState.lookup_ensureSession s addr true 0 addr.display
    rw [if_pos rfl] at hlookup
    have hsame : (s.ensureSession addr true 0).sessionOf addr = s.sessionOf addr :=
      sessionOf_eq hlookup
    exact ⟨c', hc', hsame ▸ hseq, hsame ▸ hpending⟩
  others b hb := by
    rw [h.others b hb, ServerState.lookup_ensureSession, if_neg hb]

theorem receives_receiveFrame (env : ServerEnv) (s : ServerState) (addr : SocketAddr)
    (frame : RakNetFrame) : Receives addr s (receiveFrame env s addr frame).1 := by
  apply Receives.of_ensured
  have hactive := isActiveConnection_ensureSession s addr
  unfold receiveFrame
  dsimp only
  generalize s.ensureSession addr true 0 = s at hactive
  obtain ⟨c, hc⟩ := Option.isSome_iff_exists.mp (ServerState.isActiveConnection_iff.mp hactive)
  have hkept : Receives addr s s :=
    ⟨rfl, ⟨c, hc, by rw [sessionOf_eq hc], by rw [sessionOf_eq hc]⟩, fun _ _ => rfl⟩
  by_cases hsplit : frame.isSplit
  · rw [if_pos hsplit]
    unfold receiveSplit
    cases frame.splitId with
    | none => exact hkept
    | some sid =>
      dsimp only
      by_cases hzero : frame.splitCount.getD 0 = 0
      · rw [if_pos hzero]
        exact hkept
      rw [if_neg hzero]
      by_cases hmax : frame.splitCount.getD 0 > maxSplitParts
      · rw [if_pos hmax]
        exact hkept
      rw [if_neg hmax]
      have hadvanced : s.advance.isActiveConnection addr := hactive
      have hstored := receives_storeFragment env hadvanced sid
        (getOr (addr.display, sid) (.new (frame.splitCount.getD 0) (env.instant s.tick) frame)
          s.splitBuffers) (frame.splitIndex.getD 0) frame.payload
      exact ⟨hstored.sent, hstored.pending, hstored.others⟩
  · rw [if_neg hsplit]
    exact receives_deliver env _ addr _ _ _

theorem Receives.traffic (h : Receives addr s s') : Traffic addr s s' [] := by
  obtain ⟨c', hc', -, hpending⟩ := h.pending
  exact traffic_replace c' hpending h.sent hc' h.others

theorem waiting_of_pendingOf {seq : ℕ} {msg : PendingMessage}
    (h : s.pendingOf addr seq = some msg) : s.waiting addr.display seq = some msg.frame := by
  unfold ServerState.pendingOf at h
  cases hc : s.session addr with
  | none =>
    rw [hc] at h
    cases h
  | some c =>
    rw [hc] at h
    refine Option.bind_eq_some_iff.mpr ⟨c, hc, ?_⟩
    exact Option.map_eq_some_iff.mpr ⟨msg, h, rfl⟩

theorem answerIds_ne {id : UInt8} (h : id ∈ answerIds) : id ≠ 0x84 := by
  rintro rfl
  exact absurd h (by decide)

/-- The number that the next frame to a peer takes. -/
def ServerState.nextNumber (s : ServerState) (peer : Str) : ℕ :=
  (s.connections.lookup peer).elim 1 ClientSession.packetSeq

theorem countersOf_seq (s : ServerState) (dest : SocketAddr) :
    (s.countersOf dest).seq = s.nextNumber dest.display := by
  unfold ServerState.countersOf ServerState.sessionOf ServerState.nextNumber getOr
  cases s.connections.lookup dest.display with
  | none => rfl
  | some c => rfl

theorem nextNumber_modifySession (s : ServerState) (addr : SocketAddr)
    {f : ClientSession → ClientSession}
    (hf : ∀ c, s.session addr = some c → (f c).packetSeq = c.packetSeq) (peer : Str) :
    (s.modifySession addr f).nextNumber peer = s.nextNumber peer := by
  unfold ServerState.nextNumber
  rw [ServerState.lookup_modifySession]
  by_cases hpeer : peer = addr.display
  · rw [if_pos hpeer, hpeer]
    cases hc : s.connections.lookup addr.display with
    | none => rfl
    | some c => exact hf c hc
  · rw [if_neg hpeer]

theorem nextNumber_ensureSession (s : ServerState) (addr : SocketAddr) (connected : Bool)
    (protocol : ℕ) (peer : Str) :
    (s.ensureSession addr connected protocol).nextNumber peer = s.nextNumber peer := by
  unfold ServerState.nextNumber
  rw [ServerState.lookup_ensureSession]
  by_cases hpeer : peer = addr.display
  · rw [if_pos hpeer, hpeer]
    unfold getOr
    cases s.connections.lookup addr.display with
    | none => rfl
    | some c => rfl
  · rw [if_neg hpeer]

theorem Receives.nextNumber (h : Receives addr s s') (peer : Str) :
    s'.nextNumber peer = s.nextNumber peer := by
  by_cases hpeer : peer = addr.display
  · obtain ⟨c', hc', hseq, -⟩ := h.pending
    have hnext : s'.nextNumber addr.display = c'.packetSeq := by
      unfold ServerState.nextNumber
      rw [hc']
      rfl
    rw [hpeer, hnext, hseq, ← countersOf_seq]
    rfl
  · unfold ServerState.nextNumber
    rw [h.others peer hpeer]

/-- An effect sends the next frame of the session, or it sends no frame for the first time and
leaves the numbers as they are. -/
inductive Sends (env : ServerEnv) (addr : SocketAddr) (s : ServerState) : ServerState → Prop
  | frame (reliability : ℕ) (flags : UInt8) (body : Bytes) :
      Sends env addr s (transmit env s addr reliability flags body).2
  | other {s' : ServerState} (new : List (SocketAddr × Bytes)) (h : Traffic addr s s' new)
      (hframes : ∀ e ∈ new, e.2.head? = some 0x84 → ∃ seq, s.waiting addr.display seq = some e.2)
      (hnumbers : ∀ peer, s'.nextNumber peer = s.nextNumber peer ∨
        s'.connections.lookup peer = none) : Sends env addr s s'

theorem Sends.silent (h : Traffic addr s s' [])
    (hnumbers : ∀ peer, s'.nextNumber peer = s.nextNumber peer) : Sends env addr s s' :=
  .other [] h (fun _ he => absurd he List.not_mem_nil) fun peer => .inl (hnumbers peer)

theorem Sends.modify {f : ClientSession → ClientSession}
    (hfewer : ∀ c, s.session addr = some c → Fewer c (f c))
    (hseq : ∀ c, s.session addr = some c → (f c).packetSeq = c.packetSeq) :
    Sends env addr s (s.modifySession addr f) :=
  .silent (traffic_modifySession s addr hfewer) (nextNumber_modifySession s addr hseq)

theorem Sends.connections (hsent : s'.sent = s.sent) (h : s'.connections = s.connections) :
    Sends env addr s s' := by
  refine .silent (traffic_connections hsent h) fun peer => ?_
  unfold ServerState.nextNumber
  rw [h]

theorem nextNumber_pruneQueues (env : ServerEnv) (s : ServerState) (addr : SocketAddr)
    (peer : Str) : (pruneQueues env s addr).nextNumber peer = s.nextNumber peer := by
  have hpruned := nextNumber_modifySession (pruneSplitBuffersForPeer env s addr) addr
    (f := fun c => pruneSessionQueues c (env.instant (s.tick + 1))) (fun _ _ => rfl) peer
  exact hpruned

theorem Effect.sends (h : Effect env addr datagram s s') : Sends env addr s s' := by
  cases h with
  | clock => exact .connections rfl rfl
  | answer id fields hid hasked =>
    refine .other _ (traffic_sendTo (.answer id hid rfl)) (fun e he hframe => ?_) fun _ => .inl rfl
    rw [List.mem_singleton.mp he] at hframe
    exact absurd (Option.some.inj hframe) (answerIds_ne hid)
  | transmit reliability flags body => exact .frame reliability flags body
  | again seq msg hm =>
    have hwaiting := waiting_of_pendingOf hm
    refine .other _ (traffic_sendTo (.again seq hwaiting)) (fun e he _ => ?_) fun _ => .inl rfl
    rw [List.mem_singleton.mp he]
    exact ⟨seq, hwaiting⟩
  | ensure connected protocol =>
    exact .silent (traffic_ensureSession s addr connected protocol)
      (nextNumber_ensureSession s addr connected protocol)
  | update f hf =>
    exact .modify (fun c _ => fewer_of_pending (hf c).pendingMessages) fun c _ => (hf c).packetSeq
  | acknowledge now seqs _ _ =>
    exact .modify (fun c _ => fewer_foldl_acknowledge now seqs c)
      fun c _ => (foldl_acknowledge_course now c seqs).packetSeq
  | resend now seq msg hm =>
    refine .modify (fun c hc k frame hframe => ?_) fun c _ => rfl
    unfold ServerState.pendingOf at hm
    rw [hc] at hm
    rwa [frameAt_resend hm] at hframe
  | prune => exact .silent (traffic_pruneQueues env s addr) (nextNumber_pruneQueues env s addr)
  | receive frame _ =>
    have hreceives := receives_receiveFrame env s addr frame
    exact .silent hreceives.traffic hreceives.nextNumber
  | dispatch e => exact .connections rfl rfl
  | sync protocol => exact .connections rfl rfl
  | save parsed skin result fs _ _ => exact .connections rfl rfl
  | halt parsed skin _ _ => exact .connections rfl rfl
  | drop =>
    refine .other [] (traffic_drop s addr) (fun _ he => absurd he List.not_mem_nil) fun peer => ?_
    have hdrops := drops_dropConnectionState s addr
    by_cases hpeer : peer = addr.display
    · exact .inr (hpeer ▸ hdrops.absent)
    · unfold ServerState.nextNumber
      exact .inl (by rw [hdrops.others peer hpeer])

theorem Effect.traffic (h : Effect env addr datagram s s') : ∃ new, Traffic addr s s' new := by
  cases h.sends with
  | frame reliability flags body => exact ⟨_, traffic_transmit env s addr reliability flags body⟩
  | other new h _ _ => exact ⟨new, h⟩

theorem frameAt_resendKeys (now : ℕ) (keys : List ℕ) (c : ClientSession) (out : List Bytes)
    (k : ℕ) : (keys.foldl (resendKey now) (c, out)).1.frameAt k = c.frameAt k := by
  induction keys generalizing c out with
  | nil => rfl
  | cons seq keys ih =>
    rw [List.foldl_cons]
    unfold resendKey
    dsimp only
    cases hm : c.pendingMessages.lookup seq with
    | none => exact ih c out
    | some msg => exact (ih _ _).trans (frameAt_resend hm now k)

/-- What the worker queues for a session is pending in it. -/
theorem resendKeys_pending (now : ℕ) (keys : List ℕ) (c : ClientSession) (out : List Bytes)
    {frame : Bytes} (h : frame ∈ (keys.foldl (resendKey now) (c, out)).2) :
    frame ∈ out ∨ ∃ seq, c.frameAt seq = some frame := by
  induction keys generalizing c out with
  | nil => exact .inl h
  | cons seq keys ih =>
    rw [List.foldl_cons] at h
    unfold resendKey at h
    dsimp only at h
    cases hm : c.pendingMessages.lookup seq with
    | none =>
      rw [hm] at h
      exact ih c out h
    | some msg =>
      rw [hm] at h
      rcases ih _ _ h with hout | ⟨k, hk⟩
      · rcases List.mem_append.mp hout with hout | hframe
        · exact .inl hout
        · rw [List.mem_singleton.mp hframe]
          exact .inr ⟨seq, Option.map_eq_some_iff.mpr ⟨msg, hm, rfl⟩⟩
      · rw [frameAt_resend hm] at hk
        exact .inr ⟨k, hk⟩

theorem sendAll_sent_eq (env : ServerEnv) (s : ServerState) (frames : List (SocketAddr × Bytes)) :
    (s.sendAll env frames).sent = s.sent ++ frames := by
  induction frames generalizing s with
  | nil => exact (List.append_nil _).symm
  | cons frame frames ih =>
    refine (ih _).trans ?_
    exact List.append_assoc _ _ _

/-- The worker sends what waits, to the address that the key of the session spells. -/
theorem resendRound_sent_eq (env : ServerEnv) (parse : Str → Option SocketAddr) (s : ServerState) :
    ∃ due, (resendRound env parse s).sent = s.sent ++ due ∧
      ∀ e ∈ due, ∃ peer seq, parse peer = some e.1 ∧ s.waiting peer seq = some e.2 := by
  refine ⟨_, sendAll_sent_eq env _ _, fun e he => ?_⟩
  obtain ⟨entry, hentry, he⟩ := List.mem_flatMap.mp he
  have hlookup : s.connections.lookup entry.1 = some entry.2 := AList.mem_lookup_iff.mpr hentry
  cases hparse : parse entry.1 with
  | none =>
    rw [hparse] at he
    exact absurd he List.not_mem_nil
  | some dest =>
    rw [hparse] at he
    obtain ⟨frame, hframe, rfl⟩ := List.mem_map.mp he
    rcases resendKeys_pending _ _ _ _ hframe with hnone | ⟨seq, hseq⟩
    · exact absurd hnone List.not_mem_nil
    · exact ⟨entry.1, seq, hparse, Option.bind_eq_some_iff.mpr ⟨entry.2, hlookup, hseq⟩⟩

theorem waiting_resendRound (env : ServerEnv) (parse : Str → Option SocketAddr) (s : ServerState)
    (peer : Str) (seq : ℕ) : (resendRound env parse s).waiting peer seq = s.waiting peer seq := by
  unfold ServerState.waiting
  rw [lookup_resendRound]
  cases s.connections.lookup peer with
  | none => rfl
  | some c =>
    rw [Option.map_some, Option.bind_some, Option.bind_some]
    split_ifs
    · exact frameAt_resendKeys _ _ c [] seq
    · rfl

/-- The addresses that the server has heard from. -/
def Serving.peers (x : Serving) : List SocketAddr := x.heard.map Prod.fst

/-- The text of an address that was heard from spells that address. -/
def Readable (parse : Str → Option SocketAddr) (x : Serving) : Prop :=
  ∀ addr ∈ x.peers, parse addr.display = some addr

/-- Sessions belong to addresses that were heard from, and what waits are frames that were sent to
them. -/
structure Traced (x : Serving) : Prop where
  present : ∀ peer, (x.state.connections.lookup peer).isSome → ∃ addr ∈ x.peers, addr.display = peer
  dests : ∀ e ∈ x.state.sent, e.1 ∈ x.peers
  waiting : ∀ peer seq frame, x.state.waiting peer seq = some frame →
    ∃ addr ∈ x.peers, addr.display = peer ∧ (addr, frame) ∈ x.state.sent

/-- What a turn submits goes to addresses that were heard from. A frame set among it has the next
number of its session, or was sent to the same address before. -/
structure Submits (x y : Serving) (new : List (SocketAddr × Bytes)) : Prop where
  sent : y.state.sent = x.state.sent ++ new
  known : ∀ e ∈ new, e.1 ∈ x.peers
  frames : ∀ e ∈ new, e.2.head? = some 0x84 →
    e ∈ x.state.sent ∨ headerNumber e.2 = leBytes 3 (x.state.countersOf e.1).seq

variable {x y : Serving}

theorem Serving.mem_peers (h : (addr, datagram) ∈ x.heard) : addr ∈ x.peers :=
  List.mem_map_of_mem h

theorem Readable.unique (h : Readable parse x) {a b : SocketAddr} (ha : a ∈ x.peers)
    (hb : b ∈ x.peers) (hdisplay : a.display = b.display) : a = b := by
  have hparse := h a ha
  rw [hdisplay, h b hb] at hparse
  exact (Option.some.inj hparse).symm

theorem Traced.repeated (hx : Traced x) (hread : Readable parse x) {dest : SocketAddr}
    (hdest : dest ∈ x.peers) {seq : ℕ} {frame : Bytes}
    (h : x.state.waiting dest.display seq = some frame) : (dest, frame) ∈ x.state.sent := by
  obtain ⟨a, ha, hdisplay, hsent⟩ := hx.waiting _ _ _ h
  rwa [hread.unique ha hdest hdisplay] at hsent

theorem Traced.traffic (hx : Traced x) (hread : Readable parse x) (haddr : addr ∈ x.peers)
    {new : List (SocketAddr × Bytes)} (h : Traffic addr x.state s' new) :
    Submits x { x with state := s' } new ∧ Traced { x with state := s' } := by
  refine ⟨⟨h.sent, fun e he => ?_, fun e he hframe => ?_⟩, fun peer hp => ?_, fun e he => ?_,
    fun peer seq frame hwaiting => ?_⟩
  · rw [h.dest e he]
    exact haddr
  · have hdest := h.dest e he
    obtain ⟨dest, frame⟩ := e
    obtain rfl : dest = addr := hdest
    cases h.submitted _ he with
    | answer id hid hhead =>
      exact absurd (Option.some.inj (hhead.symm.trans hframe)) (answerIds_ne hid)
    | next hnext => exact .inr hnext.number
    | again seq hseq => exact .inl (hx.repeated hread haddr hseq)
  · rcases h.present peer hp with hbefore | rfl
    · exact hx.present peer hbefore
    · exact ⟨addr, haddr, rfl⟩
  · have hmem : e ∈ x.state.sent ++ new := h.sent ▸ he
    rcases List.mem_append.mp hmem with hold | hnew
    · exact hx.dests e hold
    · rw [h.dest e hnew]
      exact haddr
  · have hsent : ∀ e, e ∈ s'.sent ↔ e ∈ x.state.sent ∨ e ∈ new := fun e => by
      rw [h.sent, List.mem_append]
    rcases h.waiting peer seq frame hwaiting with hold | ⟨rfl, hnew, -⟩
    · obtain ⟨a, ha, hdisplay, hmem⟩ := hx.waiting peer seq frame hold
      exact ⟨a, ha, hdisplay, (hsent _).mpr (.inl hmem)⟩
    · exact ⟨addr, haddr, rfl, (hsent _).mpr (.inr hnew)⟩

/-- A turn that leaves what waits alone, and whose submissions were sent before or are no frames. -/
theorem Traced.sending (hx : Traced x) {new : List (SocketAddr × Bytes)}
    (hsent : s'.sent = x.state.sent ++ new) (hknown : ∀ e ∈ new, e.1 ∈ x.peers)
    (hframes : ∀ e ∈ new, e.2.head? = some 0x84 → e ∈ x.state.sent)
    (hpresent : ∀ peer, (s'.connections.lookup peer).isSome →
      (x.state.connections.lookup peer).isSome)
    (hwaiting : ∀ peer seq, s'.waiting peer seq = x.state.waiting peer seq) :
    Submits x { x with state := s' } new ∧ Traced { x with state := s' } := by
  refine ⟨⟨hsent, hknown, fun e he hframe => .inl (hframes e he hframe)⟩,
    fun peer hp => hx.present peer (hpresent peer hp), fun e he => ?_,
    fun peer seq frame h => ?_⟩
  · have hmem : e ∈ x.state.sent ++ new := hsent ▸ he
    exact (List.mem_append.mp hmem).elim (hx.dests e) (hknown e)
  · obtain ⟨a, ha, hdisplay, hmem⟩ := hx.waiting peer seq frame ((hwaiting peer seq).symm.trans h)
    refine ⟨a, ha, hdisplay, ?_⟩
    dsimp only
    rw [hsent]
    exact List.mem_append_left _ hmem

theorem Traced.resendRound (hx : Traced x) (hread : Readable parse x) : ∃ due,
    Submits x { x with state := resendRound env parse x.state } due ∧
      Traced { x with state := resendRound env parse x.state } := by
  obtain ⟨due, hsent, hdue⟩ := resendRound_sent_eq env parse x.state
  have hqueued : ∀ e ∈ due, e.1 ∈ x.peers ∧ e ∈ x.state.sent := by
    intro e he
    obtain ⟨peer, seq, hparse, hwaiting⟩ := hdue e he
    obtain ⟨a, ha, rfl, hmem⟩ := hx.waiting peer seq e.2 hwaiting
    obtain ⟨dest, frame⟩ := e
    obtain rfl : dest = a := Option.some.inj (hparse.symm.trans (hread a ha))
    exact ⟨ha, hmem⟩
  refine ⟨due, hx.sending hsent (fun e he => (hqueued e he).1) (fun e he _ => (hqueued e he).2)
    (fun peer hp => ?_) (waiting_resendRound env parse x.state)⟩
  rwa [lookup_resendRound, Option.isSome_map] at hp

theorem Turn.submits (h : Turn env parse x y) (hread : Readable parse x) (hx : Traced x) :
    ∃ new, Submits x y new ∧ Traced y := by
  cases h with
  | hear addr datagram =>
    refine ⟨[], ⟨(List.append_nil _).symm, fun e he => absurd he List.not_mem_nil,
      fun e he => absurd he List.not_mem_nil⟩, fun peer hp => ?_, fun e he => ?_,
      fun peer seq frame hwaiting => ?_⟩
    · obtain ⟨a, ha, hdisplay⟩ := hx.present peer hp
      exact ⟨a, List.mem_cons_of_mem _ ha, hdisplay⟩
    · exact List.mem_cons_of_mem _ (hx.dests e he)
    · obtain ⟨a, ha, hdisplay, hmem⟩ := hx.waiting peer seq frame hwaiting
      exact ⟨a, List.mem_cons_of_mem _ ha, hdisplay, hmem⟩
  | effect addr datagram s hheard heffect =>
    obtain ⟨new, htraffic⟩ := heffect.traffic
    exact ⟨new, hx.traffic hread (Serving.mem_peers hheard) htraffic⟩
  | acknowledge addr datagram frameset hheard _ =>
    have hack : (ackDatagram frameset.seq).head? = some 0xC0 := rfl
    refine ⟨[(addr, ackDatagram frameset.seq)], hx.sending rfl (fun e he => ?_)
      (fun e he hframe => ?_) (fun peer hp => hp) fun peer seq => rfl⟩
    · rw [List.mem_singleton.mp he]
      exact Serving.mem_peers hheard
    · rw [List.mem_singleton.mp he, hack] at hframe
      exact absurd (Option.some.inj hframe) (by decide)
  | worker => exact hx.resendRound hread

theorem Turn.sent (h : Turn env parse x y) : x.state.sent <+: y.state.sent := by
  cases h with
  | hear addr datagram => exact List.prefix_refl _
  | effect addr datagram s hheard heffect =>
    obtain ⟨new, htraffic⟩ := heffect.traffic
    exact ⟨new, htraffic.sent.symm⟩
  | acknowledge addr datagram frameset hheard hparse => exact List.prefix_append _ _
  | worker =>
    obtain ⟨due, hsent, -⟩ := resendRound_sent_eq env parse x.state
    exact ⟨due, hsent.symm⟩

theorem Turn.heard_subset (h : Turn env parse x y) : ∀ e ∈ x.heard, e ∈ y.heard := by
  cases h with
  | hear addr datagram => exact fun e he => List.mem_cons_of_mem _ he
  | effect addr datagram s hheard heffect => exact fun e he => he
  | acknowledge addr datagram frameset hheard hparse => exact fun e he => he
  | worker => exact fun e he => he

theorem Readable.before (h : Readable parse y) (hturn : Turn env parse x y) : Readable parse x := by
  intro addr haddr
  obtain ⟨e, he, rfl⟩ := List.mem_map.mp haddr
  exact h e.1 (List.mem_map_of_mem (hturn.heard_subset e he))

theorem traced_new (config : RakNetConfig) (fs : FileSystem) : Traced ⟨[], .new config fs⟩ where
  present peer hp := by cases hp
  dests e he := absurd he List.not_mem_nil
  waiting peer seq frame hwaiting := by cases hwaiting

theorem turns_traced {config : RakNetConfig} {fs : FileSystem}
    (h : Turns env parse ⟨[], .new config fs⟩ x) (hread : Readable parse x) : Traced x := by
  induction h with
  | refl => exact traced_new config fs
  | @tail y z _ hturn ih =>
    have hbefore := hread.before hturn
    obtain ⟨new, -, hz⟩ := hturn.submits hbefore (ih hbefore)
    exact hz

/-- Whatever the server submits in a run goes to an address that it has heard from. A datagram of
frames is the next of its session, or repeats one that went to the same address before. -/
theorem serving_submits (env : ServerEnv) (parse : Str → Option SocketAddr) (fs : FileSystem)
    (x : Serving) (h : Turns env parse ⟨[], .new env.config fs⟩ x) (hread : Readable parse x) :
    (∀ e ∈ x.state.sent, e.1 ∈ x.peers) ∧
      ∀ y, Turn env parse x y → ∃ new, Submits x y new := by
  have hx := turns_traced h hread
  refine ⟨hx.dests, fun y hturn => ?_⟩
  obtain ⟨new, hsubmits, -⟩ := hturn.submits hread hx
  exact ⟨new, hsubmits⟩

/-- A peer opens a session and asks for the connection. The answer is a frame that waits. -/
def openAndConnect : List ServerEvent :=
  [.datagram loopback (0x05 :: (magic ++ [11])),
    .datagram loopback ([0x84, 0, 0, 0, 0, 0, 136] ++ (0x09 :: List.replicate 16 0)),
    .worker]

theorem readable_loopback :
    Readable (fun _ => some loopback) (quietServing (fun _ => some loopback) openAndConnect) := by
  have hheard : ∀ addr ∈ ((incoming openAndConnect).reverse).map Prod.fst, addr = loopback := by
    decide
  intro addr haddr
  rw [hheard addr haddr]

theorem serving_submits_connect :
    let x := quietServing (fun _ => some loopback) openAndConnect
    ((∀ e ∈ x.state.sent, e.1 ∈ x.peers) ∧
      ∀ y, Turn (.quiet 1492) (fun _ => some loopback) x y → ∃ new, Submits x y new) ∧
      x.state.sent.map (fun e => e.2.head?) = [some 0x06, some 0x84, some 0xC0] ∧
      (x.state.waiting loopback.display 1).isSome :=
  ⟨serving_submits (.quiet 1492) (fun _ => some loopback) .empty
    (quietServing (fun _ => some loopback) openAndConnect)
    (quietServing_turns (fun _ => some loopback) openAndConnect) readable_loopback,
    by decide +kernel,
    by decide +kernel⟩

end SkinGetBE.RakNet
