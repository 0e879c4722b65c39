import SkinGetBE.PeerIsolation
import SkinGetBE.SendPlan

/-!
# Octets in flight

A session counts the octets of the datagrams that wait for an acknowledgement.
The count stays exact under sending, acknowledging and resending. Pruning takes
expired datagrams out of the table without telling the count.
-/
namespace SkinGetBE.RakNet
open Octets Text Tables Relation

/-- The octets of what is pending. -/
def ClientSession.pendingBytes (c : ClientSession) : ℕ :=
  weight PendingMessage.sizeBytes c.pendingMessages

/-- The datagrams that were submitted for a peer. -/
def ServerState.sentCount (s : ServerState) (peer : Str) : ℕ :=
  s.sent.countP fun d => d.1.display == peer

/-- The count is exact after `n` allocated numbers, for datagrams of at most `bound` octets. The
numbers that are pending have been allocated. -/
structure Balanced (bound n : ℕ) (c : ClientSession) : Prop where
  packetSeq : c.packetSeq = (n + 1) % 2 ^ 32
  allocated : ∀ seq msg, c.pendingMessages.lookup seq = some msg → seq ≤ n
  inFlight : c.inFlightBytes = c.pendingBytes
  bounded : c.pendingBytes ≤ n * bound

variable {env : ServerEnv} {addr : SocketAddr} {stored : ℕ → Prop} {peer : Str}
  {s s' : ServerState} {c : ClientSession} {bound n : ℕ}

theorem balanced_new (connected : Bool) (raknetProtocol bedrockProtocol : ℕ) (version : Str) :
    Balanced bound 0 (.new connected raknetProtocol bedrockProtocol version) where
  packetSeq := rfl
  allocated seq msg h := by
    have hnone : (ClientSession.new connected raknetProtocol bedrockProtocol
        version).pendingMessages.lookup seq = none := AList.lookup_empty seq
    rw [hnone] at h
    cases h
  inFlight := rfl
  bounded := Nat.zero_le _

/-- Only three fields matter. -/
theorem Balanced.of_eq {c' : ClientSession} (h : Balanced bound n c)
    (hseq : c'.packetSeq = c.packetSeq) (hbytes : c'.inFlightBytes = c.inFlightBytes)
    (hpending : c'.pendingMessages = c.pendingMessages) : Balanced bound n c' where
  packetSeq := hseq.trans h.packetSeq
  allocated seq msg hm := h.allocated seq msg (hpending ▸ hm)
  inFlight := by
    unfold ClientSession.pendingBytes
    rw [hbytes, hpending]
    exact h.inFlight
  bounded := by
    unfold ClientSession.pendingBytes
    rw [hpending]
    exact h.bounded

theorem Balanced.allocate (h : Balanced bound n c) (hn : n + 1 < 2 ^ 32) (reliability : ℕ) :
    (allocateSequence c reliability).1.seq = n + 1 ∧
      Balanced bound (n + 1) (allocateSequence c reliability).2 := by
  have hseq : c.packetSeq = n + 1 := h.packetSeq.trans (Nat.mod_eq_of_lt hn)
  refine ⟨hseq, ⟨?_, ?_, h.inFlight, ?_⟩⟩
  · show (c.packetSeq + 1) % 2 ^ 32 = _
    rw [hseq]
  · intro seq msg hm
    exact (h.allocated seq msg hm).trans (Nat.le_succ n)
  · exact h.bounded.trans (Nat.mul_le_mul_right bound (Nat.le_succ n))

/-- A number that is not pending yet adds the octets of its datagram. -/
theorem registerPending_pendingBytes {seq : ℕ} (hfree : c.pendingMessages.lookup seq = none)
    (frame : Bytes) (now : ℕ) :
    (registerPending seq frame now c).pendingBytes = c.pendingBytes + frame.length := by
  have hweight := weight_insert PendingMessage.sizeBytes seq ⟨frame, frame.length, now, 1⟩
    c.pendingMessages
  rw [hfree, Option.elim_none, Nat.add_zero, Nat.add_comm] at hweight
  exact hweight

/-- An acknowledged number takes its octets out. -/
theorem Balanced.acknowledge (h : Balanced bound n c) (now seq : ℕ) :
    Balanced bound n (c.acknowledge now seq) := by
  unfold ClientSession.acknowledge
  cases hm : c.pendingMessages.lookup seq with
  | none => exact h
  | some msg =>
    have hweight := weight_erase PendingMessage.sizeBytes seq c.pendingMessages
    rw [hm, Option.elim_some] at hweight
    have hbytes : c.inFlightBytes = weight PendingMessage.sizeBytes c.pendingMessages := h.inFlight
    have hbound : weight PendingMessage.sizeBytes c.pendingMessages ≤ n * bound := h.bounded
    refine ⟨h.packetSeq, fun seq' msg' hm' => ?_, ?_, ?_⟩
    · have hkept : (if seq' = seq then none else c.pendingMessages.lookup seq') = some msg' :=
        (lookup_erase_eq seq seq' c.pendingMessages).symm.trans hm'
      by_cases he : seq' = seq
      · rw [if_pos he] at hkept
        cases hkept
      · rw [if_neg he] at hkept
        exact h.allocated seq' msg' hkept
    · show c.inFlightBytes - msg.sizeBytes =
        weight PendingMessage.sizeBytes (c.pendingMessages.erase seq)
      omega
    · show weight PendingMessage.sizeBytes (c.pendingMessages.erase seq) ≤ n * bound
      omega

/-- A resent datagram stays pending with the same size. -/
theorem resend_pendingBytes {seq : ℕ} {msg : PendingMessage}
    (hm : c.pendingMessages.lookup seq = some msg) (now : ℕ) :
    (c.resend now seq msg).pendingBytes = c.pendingBytes := by
  have hweight := weight_insert PendingMessage.sizeBytes seq
    { msg with attempts := min (msg.attempts + 1) (2 ^ 32 - 1), lastSent := now }
    c.pendingMessages
  rw [hm, Option.elim_some, Nat.add_comm] at hweight
  exact Nat.add_left_cancel hweight

theorem Balanced.resend {seq : ℕ} {msg : PendingMessage} (h : Balanced bound n c)
    (hm : c.pendingMessages.lookup seq = some msg) (now : ℕ) :
    Balanced bound n (c.resend now seq msg) where
  packetSeq := h.packetSeq
  allocated seq' msg' hm' := by
    by_cases he : seq' = seq
    · rw [he]
      exact h.allocated seq msg hm
    · exact h.allocated seq' msg' ((AList.lookup_insert_ne he).symm.trans hm')
  inFlight := h.inFlight.trans (resend_pendingBytes hm now).symm
  bounded := (resend_pendingBytes hm now).trans_le h.bounded

/-- Pruning keeps the count when nothing that is pending has expired. -/
theorem Balanced.prune {now : ℕ} (h : Balanced bound n c)
    (hfresh : ∀ e ∈ c.pendingMessages.entries, isFresh now e.2.lastSent = true) :
    Balanced bound n (pruneSessionQueues c now) :=
  h.of_eq rfl rfl (retain_eq_self hfresh)

/-- So few datagrams of that size never fill the counter. -/
theorem Balanced.transmitted (h : Balanced bound n c) (hbound : bound ≤ 2 ^ 32)
    (hn : n + 1 < 2 ^ 32) (reliability : ℕ) {datagram : Bytes} (hlen : datagram.length ≤ bound)
    (now : ℕ) : Balanced bound (n + 1) (c.transmitted reliability datagram now) := by
  obtain ⟨hseq, halloc⟩ := h.allocate hn reliability
  unfold ClientSession.transmitted
  by_cases hr : hasReliable reliability
  · rw [if_pos hr]
    have hfree : (allocateSequence c reliability).2.pendingMessages.lookup c.packetSeq = none := by
      cases hm : (allocateSequence c reliability).2.pendingMessages.lookup c.packetSeq with
      | none => rfl
      | some msg =>
        have hle : (allocateSequence c reliability).1.seq ≤ n := h.allocated _ msg hm
        exact absurd hseq (by omega)
    have hpending := registerPending_pendingBytes hfree datagram now
    have hbefore : (allocateSequence c reliability).2.pendingBytes ≤ n * bound := h.bounded
    have hcount : (allocateSequence c reliability).2.inFlightBytes =
        (allocateSequence c reliability).2.pendingBytes := halloc.inFlight
    have hsmall : (n + 1) * bound < 2 ^ 64 := by
      have hle := Nat.mul_le_mul (Nat.le_of_lt_succ hn) hbound
      omega
    rw [Nat.succ_mul] at hsmall
    refine ⟨halloc.packetSeq, fun seq msg hm => ?_, ?_, ?_⟩
    · have hm' := (lookup_insert_eq c.packetSeq seq _ c.pendingMessages).symm.trans hm
      by_cases he : seq = c.packetSeq
      · exact (he.trans hseq).le
      · rw [if_neg he] at hm'
        exact (h.allocated seq msg hm').trans (Nat.le_succ n)
    · rw [hpending, ← hcount]
      exact Nat.min_eq_left (by omega)
    · rw [hpending, Nat.succ_mul]
      omega
  · rw [if_neg hr]
    exact halloc

/-- What holds of a session and the count of the numbers that it has allocated, and is kept by
all that handlers do, as long as they send no more than `bound` octets at a time. -/
structure Maintained (bound : ℕ) (P : ℕ → ClientSession → Prop) : Prop where
  new : ∀ connected raknetProtocol bedrockProtocol version,
    P 0 (.new connected raknetProtocol bedrockProtocol version)
  aside : ∀ {n c c'}, P n c → c'.packetSeq = c.packetSeq → c'.inFlightBytes = c.inFlightBytes →
    c'.pendingMessages = c.pendingMessages → P n c'
  transmitted : ∀ {n c}, P n c → n + 1 < 2 ^ 32 → ∀ reliability datagram,
    datagram.length ≤ bound → ∀ now, P (n + 1) (c.transmitted reliability datagram now)
  acknowledge : ∀ {n c}, P n c → ∀ now seq, P n (c.acknowledge now seq)
  resend : ∀ {n c seq msg}, P n c → c.pendingMessages.lookup seq = some msg → ∀ now,
    P n (c.resend now seq msg)

/-- It holds of the session of the peer, when there is one, which has not allocated more
numbers than datagrams were submitted for the peer. -/
def Tracked (P : ℕ → ClientSession → Prop) (peer : Str) (s : ServerState) : Prop :=
  ∀ c, s.connections.lookup peer = some c → ∃ n ≤ s.sentCount peer, P n c

/-- A datagram has at most 25 octets more than the configured size. -/
def datagramBound (env : ServerEnv) : ℕ := env.config.mtuSize + 25

/-- The session of the peer, when there is one, is balanced, and has not allocated more
numbers than datagrams were submitted for the peer. -/
def InFlightExact (env : ServerEnv) (peer : Str) (s : ServerState) : Prop :=
  ∀ c, s.connections.lookup peer = some c →
    ∃ n ≤ s.sentCount peer, Balanced (datagramBound env) n c

theorem maintained_balanced (hbound : bound ≤ 2 ^ 32) : Maintained bound (Balanced bound) where
  new := balanced_new
  aside := Balanced.of_eq
  transmitted h hn reliability _ hlen now := h.transmitted hbound hn reliability hlen now
  acknowledge := Balanced.acknowledge
  resend := Balanced.resend

theorem sentCount_mono (h : s.sent <+: s'.sent) (peer : Str) :
    s.sentCount peer ≤ s'.sentCount peer :=
  h.sublist.countP_le

section Tracked

variable {P : ℕ → ClientSession → Prop}

theorem Maintained.acknowledgeAll (hP : Maintained bound P) (h : P n c) (now : ℕ) (seqs : List ℕ) :
    P n (seqs.foldl (ClientSession.acknowledge now) c) := by
  induction seqs generalizing c with
  | nil => exact h
  | cons seq seqs ih => exact ih (hP.acknowledge h now seq)

theorem Maintained.resendDue (hP : Maintained bound P) (h : P n c) (now : ℕ) :
    P n (resendDue now c).1 := by
  have hfold : ∀ (seqs : List ℕ) (collected : ClientSession × List Bytes),
      P n collected.1 → P n (seqs.foldl (resendKey now) collected).1 := by
    intro seqs
    induction seqs with
    | nil => exact fun _ hc => hc
    | cons seq seqs ih =>
      intro collected hc
      apply ih
      unfold resendKey
      cases hm : collected.1.pendingMessages.lookup seq with
      | none => exact hc
      | some msg => exact hP.resend hc hm now
  exact hfold (dueKeys now c) (c, []) h

theorem tracked_new (P : ℕ → ClientSession → Prop) (config : RakNetConfig) (fs : FileSystem)
    (peer : Str) : Tracked P peer (.new config fs) := fun c h => by
  have hnone : (ServerState.new config fs).connections.lookup peer = none := AList.lookup_empty peer
  rw [hnone] at h
  cases h

theorem Tracked.of_lookup (h : Tracked P peer s)
    (hlookup : s'.connections.lookup peer = s.connections.lookup peer)
    (hsent : s.sent <+: s'.sent) : Tracked P peer s' := by
  intro c hc
  obtain ⟨n, hn, hb⟩ := h c (hlookup ▸ hc)
  exact ⟨n, hn.trans (sentCount_mono hsent peer), hb⟩

/-- A change of the session that keeps what holds. -/
theorem Tracked.modify (h : Tracked P addr.display s) {f : ClientSession → ClientSession}
    (hf : ∀ n c, s.session addr = some c → P n c → P n (f c)) :
    Tracked P addr.display (s.modifySession addr f) := by
  intro c hc
  rw [ServerState.lookup_modifySession, if_pos rfl, Option.map_eq_some_iff] at hc
  obtain ⟨c₀, hc₀, rfl⟩ := hc
  obtain ⟨n, hn, hb⟩ := h c₀ hc₀
  exact ⟨n, hn, hf n c₀ hc₀ hb⟩

theorem Tracked.sessionOf (hP : Maintained bound P) (h : Tracked P addr.display s) :
    ∃ n ≤ s.sentCount addr.display, P n (s.sessionOf addr) := by
  unfold ServerState.sessionOf getOr
  cases hc : s.connections.lookup addr.display with
  | none => exact ⟨0, Nat.zero_le _, hP.new _ _ _ _⟩
  | some c => exact h c hc

/-- A datagram takes a number, and is submitted. -/
theorem Tracked.transmit (hP : Maintained (datagramBound env) P) (h : Tracked P addr.display s)
    (reliability : ℕ) (flags : UInt8) {body : Bytes}
    (hbody : body.length ≤ env.config.mtuSize + 11)
    (hsent : (transmit env s addr reliability flags body).2.sentCount addr.display < 2 ^ 32) :
    Tracked P addr.display (transmit env s addr reliability flags body).2 := by
  obtain ⟨n, hn, hb⟩ := h.sessionOf hP
  have hcount : (RakNet.transmit env s addr reliability flags body).2.sentCount addr.display =
      s.sentCount addr.display + 1 := by
    unfold ServerState.sentCount
    rw [transmit_sent, List.countP_append, List.countP_singleton, if_pos (by simp)]
  rw [hcount] at hsent
  obtain ⟨now, hsession⟩ := transmit_session env s addr reliability flags body
  intro c hc
  refine ⟨n + 1, by omega, ?_⟩
  obtain rfl := Option.some.inj (hsession.symm.trans hc)
  have hlen := frameDatagram_length_le flags reliability (s.countersOf addr) body
  exact hP.transmitted hb (by omega) reliability _ (hlen.trans (Nat.add_le_add_right hbody 14)) now

theorem Step.sent (hstep : Step env addr stored s s') : s.sent <+: s'.sent := by
  cases hstep with
  | aside haside => exact haside.sent
  | transmit reliability flags body =>
    rw [transmit_sent]
    exact List.prefix_append _ _
  | _ => exact List.prefix_refl _

theorem Step.tracked (hP : Maintained (datagramBound env) P) (hstep : Step env addr stored s s')
    (h : Tracked P peer s)
    (hsent : s'.sentCount peer < 2 ^ 32) : Tracked P peer s' := by
  by_cases hpeer : peer = addr.display
  · subst hpeer
    cases hstep with
    | aside haside => exact h.of_lookup (by rw [haside.connections]) haside.sent
    | sync protocol hp => exact h
    | ensure connected protocol =>
      intro c hc
      rw [ServerState.lookup_ensureSession, if_pos rfl, Option.some.injEq] at hc
      subst hc
      unfold getOr
      cases hfound : s.connections.lookup addr.display with
      | none => exact ⟨0, Nat.zero_le _, hP.new _ _ _ _⟩
      | some c => exact h c hfound
    | update f hf =>
      exact h.modify fun n c _ hb =>
        hP.aside hb (hf c).packetSeq (hf c).inFlightBytes (hf c).pendingMessages
    | replace c hc =>
      obtain ⟨n, hn, hb⟩ := h.sessionOf hP
      intro c' hc'
      rw [AList.lookup_insert, Option.some.injEq] at hc'
      exact ⟨n, hn, hc' ▸ hP.aside hb hc.packetSeq hc.inFlightBytes hc.pendingMessages⟩
    | transmit reliability flags body hbody => exact h.transmit hP reliability flags hbody hsent
    | negotiate proto hp => exact h.modify fun n c _ hb => hP.aside hb rfl rfl rfl
    | capture name path protocol hp => exact h.modify fun n c _ hb => hP.aside hb rfl rfl rfl
    | acknowledge now seqs => exact h.modify fun n c _ hb => hP.acknowledgeAll hb now seqs
    | resend now seq msg hm =>
      refine h.modify fun n c hc hb => hP.resend hb ?_ now
      unfold ServerState.pendingOf at hm
      rw [hc] at hm
      exact hm
    | drop =>
      intro c hc
      rw [(drops_dropConnectionState s addr).absent] at hc
      cases hc
  · exact h.of_lookup (hstep.untouched hpeer).session hstep.sent

theorem Steps.sent (hsteps : Steps env addr stored s s') : s.sent <+: s'.sent := by
  induction hsteps with
  | refl => exact List.prefix_refl _
  | tail _ hstep ih => exact ih.trans hstep.sent

theorem Steps.tracked (hP : Maintained (datagramBound env) P) (hsteps : Steps env addr stored s s')
    (h : Tracked P peer s) (hsent : s'.sentCount peer < 2 ^ 32) : Tracked P peer s' := by
  induction hsteps with
  | refl => exact h
  | tail _ hstep ih =>
    exact hstep.tracked hP (ih ((sentCount_mono hstep.sent peer).trans_lt hsent)) hsent

theorem Tracked.pruneQueues (h : Tracked P peer s)
    (hprune : ∀ n c, peer = addr.display → s.session addr = some c → P n c →
      P n (pruneSessionQueues c (env.instant (s.tick + 1)))) :
    Tracked P peer (pruneQueues env s addr) := by
  by_cases hpeer : peer = addr.display
  · subst hpeer
    have hstart : Tracked P addr.display (pruneSplitBuffersForPeer env s addr) := h
    have hpruned := hstart.modify (f := fun c => pruneSessionQueues c (env.instant (s.tick + 1)))
      fun n c hc hb => hprune n c rfl hc hb
    exact hpruned
  · exact h.of_lookup (untouched_pruneQueues hpeer s).session (List.prefix_refl _)

theorem sendAll_connections (env : ServerEnv) (s : ServerState)
    (frames : List (SocketAddr × Bytes)) : (s.sendAll env frames).connections = s.connections := by
  induction frames generalizing s with
  | nil => rfl
  | cons frame frames ih => exact ih _

theorem sendAll_sent (env : ServerEnv) (s : ServerState) (frames : List (SocketAddr × Bytes)) :
    s.sent <+: (s.sendAll env frames).sent := by
  induction frames generalizing s with
  | nil => exact List.prefix_refl _
  | cons frame frames ih =>
    exact (List.prefix_append _ _).trans (ih (s.sendTo env frame.1 frame.2).2)

theorem resendRound_sent (env : ServerEnv) (parse : Str → Option SocketAddr) (s : ServerState) :
    s.sent <+: (resendRound env parse s).sent := by
  refine .trans ?_ (sendAll_sent env _ _)
  exact List.prefix_refl _

theorem Tracked.resendRound (hP : Maintained bound P) (h : Tracked P peer s)
    (parse : Str → Option SocketAddr) : Tracked P peer (resendRound env parse s) := by
  intro c hc
  have hsent := sentCount_mono (resendRound_sent env parse s) peer
  unfold RakNet.resendRound at hc
  dsimp only at hc
  rw [sendAll_connections, lookup_filterMap, Option.bind_eq_some_iff] at hc
  obtain ⟨c₀, hc₀, hc⟩ := hc
  rw [Option.some.injEq] at hc
  obtain ⟨n, hn, hb⟩ := h c₀ hc₀
  refine ⟨n, hn.trans hsent, ?_⟩
  rw [← hc]
  cases parse peer with
  | none => exact hb
  | some addr => exact hP.resendDue hb _

end Tracked

/-- Nothing that is pending for the peer has expired when its queues are pruned. -/
def pendingFresh (env : ServerEnv) (s : ServerState) (addr : SocketAddr) : Bool :=
  match s.session addr with
  | some c => c.pendingMessages.entries.all fun e =>
      isFresh (env.instant (s.tick + 1)) e.2.lastSent
  | none => true

theorem InFlightExact.pruneQueues (h : InFlightExact env peer s)
    (hfresh : peer = addr.display → pendingFresh env s addr = true) :
    InFlightExact env peer (pruneQueues env s addr) := by
  refine Tracked.pruneQueues h fun n c hpeer hc hb => ?_
  have hf := hfresh hpeer
  unfold pendingFresh at hf
  rw [hc] at hf
  exact hb.prune (List.all_eq_true.mp hf)

/-- What can happen to the sessions: a datagram is handled, the worker has its turn, or one
of the operations that handlers are made of is carried out. -/
inductive Operation
  | packet (addr : SocketAddr) (data : Bytes)
  | send (addr : SocketAddr) (payload : Bytes) (reliability : ℕ)
  | prune (addr : SocketAddr)
  | resend

def operate (env : ServerEnv) (parse : Str → Option SocketAddr) (s : ServerState) :
    Operation → ServerState
  | .packet addr data => (handlePacket env addr s data).2
  | .send addr payload reliability => (sendFrame env s payload reliability addr).2
  | .prune addr => pruneQueues env s addr
  | .resend => resendRound env parse s

def runOperations (env : ServerEnv) (parse : Str → Option SocketAddr) :
    ServerState → List Operation → ServerState := List.foldl (operate env parse)

/-- A step that prunes the queues of the peer finds nothing expired among what is pending. -/
def prunesFresh (env : ServerEnv) (peer : Str) (s : ServerState) : Operation → Bool
  | .packet addr data => addr.display != peer || !prunes s addr data || pendingFresh env s addr
  | .send _ _ _ => true
  | .prune addr => addr.display != peer || pendingFresh env s addr
  | .resend => true

def allFresh (env : ServerEnv) (parse : Str → Option SocketAddr) (peer : Str) :
    ServerState → List Operation → Bool
  | _, [] => true
  | s, operation :: rest =>
    prunesFresh env peer s operation && allFresh env parse peer (operate env parse s operation) rest

theorem operate_sent (parse : Str → Option SocketAddr) (s : ServerState) (operation : Operation) :
    s.sent <+: (operate env parse s operation).sent := by
  cases operation with
  | packet addr data =>
    have hstart : (startOf env s addr data).sent = s.sent := by
      unfold startOf
      by_cases hp : prunes s addr data
      · rw [if_pos hp]
        rfl
      · rw [if_neg hp]
    exact hstart ▸ (handlePacket_steps s data).sent
  | send addr payload reliability =>
    have hsteps : Steps env addr (fun _ => True) s (sendFrame env s payload reliability addr).2 :=
      sendFrame_steps s payload reliability
    exact hsteps.sent
  | prune addr => exact List.prefix_refl _
  | resend => exact resendRound_sent env parse s

theorem runOperations_sent (parse : Str → Option SocketAddr) (s : ServerState)
    (operations : List Operation) : s.sent <+: (runOperations env parse s operations).sent := by
  induction operations generalizing s with
  | nil => exact List.prefix_refl _
  | cons operation rest ih => exact (operate_sent parse s operation).trans (ih _)

theorem InFlightExact.operate (hmtu : env.config.mtuSize < 2 ^ 16) (h : InFlightExact env peer s)
    (parse : Str → Option SocketAddr) (operation : Operation)
    (hfresh : prunesFresh env peer s operation = true)
    (hsent : (operate env parse s operation).sentCount peer < 2 ^ 32) :
    InFlightExact env peer (operate env parse s operation) := by
  have hmaintained : Maintained (datagramBound env) (Balanced (datagramBound env)) :=
    maintained_balanced (by unfold datagramBound; omega)
  cases operation with
  | packet addr data =>
    have hstart : InFlightExact env peer (startOf env s addr data) := by
      unfold startOf
      by_cases hp : prunes s addr data
      · rw [if_pos hp]
        refine h.pruneQueues ?_
        rintro rfl
        simpa [prunesFresh, hp] using hfresh
      · rw [if_neg hp]
        exact h
    exact (handlePacket_steps s data).tracked hmaintained hstart hsent
  | send addr payload reliability =>
    have hsteps : Steps env addr (fun _ => True) s (sendFrame env s payload reliability addr).2 :=
      sendFrame_steps s payload reliability
    exact hsteps.tracked hmaintained h hsent
  | prune addr =>
    refine h.pruneQueues ?_
    rintro rfl
    simpa [prunesFresh] using hfresh
  | resend => exact Tracked.resendRound hmaintained h parse

theorem inFlightExact_run (hmtu : env.config.mtuSize < 2 ^ 16) (parse : Str → Option SocketAddr)
    (operations : List Operation) (h : InFlightExact env peer s)
    (hfresh : allFresh env parse peer s operations = true)
    (hsent : (runOperations env parse s operations).sentCount peer < 2 ^ 32) :
    InFlightExact env peer (runOperations env parse s operations) := by
  induction operations generalizing s with
  | nil => exact h
  | cons operation rest ih =>
    unfold allFresh at hfresh
    rw [Bool.and_eq_true] at hfresh
    have hrest : (operate env parse s operation).sentCount peer < 2 ^ 32 :=
      (sentCount_mono (runOperations_sent parse _ rest) peer).trans_lt hsent
    exact ih (h.operate hmtu parse operation hfresh.1 hrest) hfresh.2 hsent

/-- As long as no pruning finds an expired datagram, the count of a session is the sum over what
is pending. -/
theorem inFlightBytes_eq_pendingBytes (env : ServerEnv) (parse : Str → Option SocketAddr)
    (config : RakNetConfig) (fs : FileSystem) (peer : Str) (operations : List Operation)
    (hmtu : env.config.mtuSize < 2 ^ 16)
    (hfresh : allFresh env parse peer (.new config fs) operations = true)
    (hsent : (runOperations env parse (.new config fs) operations).sentCount peer < 2 ^ 32)
    (c : ClientSession)
    (hc : (runOperations env parse (.new config fs) operations).connections.lookup peer = some c) :
    c.inFlightBytes = c.pendingBytes := by
  obtain ⟨n, -, hb⟩ :=
    inFlightExact_run hmtu parse operations (tracked_new _ config fs peer) hfresh hsent c hc
  exact hb.inFlight

/-- A connection request, whose answer the client acknowledges. -/
def acknowledgedAnswer : List Operation :=
  [.packet loopback (0x05 :: (magic ++ [11])),
    .packet loopback [0x84, 0, 0, 0, 0, 0, 8, 0x09],
    .resend,
    .packet loopback (ackDatagram 1),
    .send loopback [7] 3]

theorem inFlightBytes_eq_pendingBytes_acknowledged :
    let run := runOperations (.quiet 1492) (fun _ => some loopback)
      (.new (ServerEnv.quiet 1492).config .empty) acknowledgedAnswer
    ∃ c, run.connections.lookup loopback.display = some c ∧ c.inFlightBytes = c.pendingBytes := by
  have hsome : ((runOperations (.quiet 1492) (fun _ => some loopback)
      (.new (ServerEnv.quiet 1492).config .empty) acknowledgedAnswer).connections.lookup
        loopback.display).isSome = true := by decide +kernel
  obtain ⟨c, hc⟩ := Option.isSome_iff_exists.mp hsome
  exact ⟨c, hc, inFlightBytes_eq_pendingBytes (.quiet 1492) (fun _ => some loopback) _ .empty
    loopback.display acknowledgedAnswer (by decide) (by decide +kernel) (by decide +kernel) c hc⟩

/-- The clock moves two seconds with each reading, and once by forty seconds. -/
def pausingClock : ServerEnv :=
  { ServerEnv.quiet 1492 with
    instant := fun n => millis (2100 * n + if n < 16 then 0 else 40000) }

/-- The client never acknowledges the answer, and comes back when it has been given up. -/
def abandonedAnswer : List Operation :=
  [.packet loopback (0x05 :: (magic ++ [11])),
    .packet loopback [0x84, 0, 0, 0, 0, 0, 8, 0x09],
    .resend, .resend, .resend, .resend,
    .packet loopback [0x84, 1, 0, 0]]

/-- The expired answer leaves the table and stays in the count. -/
theorem inFlightBytes_abandoned :
    let run := runOperations pausingClock (fun _ => some loopback)
      (.new pausingClock.config .empty) abandonedAnswer
    run.sentCount loopback.display < 2 ^ 32 ∧
      (run.session loopback).map (fun c => (c.inFlightBytes, c.pendingBytes)) = some (110, 0) := by
  decide +kernel

end SkinGetBE.RakNet
