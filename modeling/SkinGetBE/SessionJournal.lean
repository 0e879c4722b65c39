import SkinGetBE.SequenceRanges

/-!
# The journal of a session

A run of one session: its frames are sent, acknowledged, asked for again, pruned, and
resent by the worker when its turn comes. Each operation is the server's own, and adds
to a journal what happens to the datagrams of the session. The elementary changes that
the operations are made of carry the invariants.
-/
namespace SkinGetBE.RakNet
open Octets Text Tables

/-- What happens to a datagram: it is sent under a number, a number is acknowledged (with the
time that a pending datagram took), or a pending one is queued for resending. -/
inductive SessionEvent
  | sent (seq : ℕ) (datagram : Bytes)
  | acknowledged (seq : ℕ) (rtt : Option ℕ)
  | resent (byWorker : Bool) (seq : ℕ) (frame : Bytes)
  deriving DecidableEq

/-- One change of a session, with what it adds to the journal. -/
inductive Change : ClientSession → List SessionEvent → ClientSession → Prop
  | transmit (c : ClientSession) (reliability : ℕ) (datagram : Bytes) (now : ℕ) :
      Change c [.sent c.packetSeq datagram] (c.transmitted reliability datagram now)
  | acknowledge (c : ClientSession) (now seq : ℕ) :
      Change c
        [.acknowledged seq ((c.pendingMessages.lookup seq).map fun msg => now - msg.lastSent)]
        (c.acknowledge now seq)
  | resend (c : ClientSession) (now seq : ℕ) (msg : PendingMessage) (byWorker : Bool)
      (hm : c.pendingMessages.lookup seq = some msg) (hdue : byWorker = true → msg.attempts < 5) :
      Change c [.resent byWorker seq msg.frame] (c.resend now seq msg)
  | prune (c : ClientSession) (now : ℕ) : Change c [] (pruneSessionQueues c now)

/-- Changes one after the other. -/
inductive Changes (c : ClientSession) : List SessionEvent → ClientSession → Prop
  | refl : Changes c [] c
  | tail {c' c'' : ClientSession} {journal added : List SessionEvent} (h : Changes c journal c')
      (hchange : Change c' added c'') : Changes c (journal ++ added) c''

variable {c c' c'' : ClientSession} {journal added : List SessionEvent}

theorem Change.changes (h : Change c added c') : Changes c added c' := .tail .refl h

theorem Changes.trans (h : Changes c journal c') (h' : Changes c' added c'') :
    Changes c (journal ++ added) c'' := by
  induction h' with
  | refl => rwa [List.append_nil]
  | tail _ hchange ih =>
    rw [← List.append_assoc]
    exact ih.tail hchange

/-- The frame that an event queues. -/
def SessionEvent.frame : SessionEvent → Option Bytes
  | resent _ _ frame => some frame
  | _ => none

inductive SessionOperation
  | send (payload : Bytes) (reliability : ℕ)
  | ack (data : Bytes)
  | nack (data : Bytes)
  | prune
  | tick

/-- The numbers of an acknowledgement, with the times of the datagrams that were pending. -/
def ackEvents (now : ℕ) : ClientSession → List ℕ → List SessionEvent
  | _, [] => []
  | c, seq :: seqs =>
    .acknowledged seq ((c.pendingMessages.lookup seq).map fun msg => now - msg.lastSent) ::
      ackEvents now (c.acknowledge now seq) seqs

/-- A datagram that is found pending is queued. -/
def queueEvents (byWorker : Bool) (seq : ℕ) : Option PendingMessage → List SessionEvent
  | some msg => [.resent byWorker seq msg.frame]
  | none => []

/-- The requested numbers that are pending. -/
def nackEvents (env : ServerEnv) (addr : SocketAddr) : ServerState → List ℕ → List SessionEvent
  | _, [] => []
  | s, seq :: seqs =>
    queueEvents false seq (s.pendingOf addr seq) ++
      nackEvents env addr (nackSequence env addr (s, []) seq).1 seqs

/-- The keys that the worker has found to be due, and that are pending. -/
def workerEvents (now : ℕ) : ClientSession → List ℕ → List SessionEvent
  | _, [] => []
  | c, seq :: seqs =>
    queueEvents true seq (c.pendingMessages.lookup seq) ++
      workerEvents now (resendKey now (c, []) seq).1 seqs

/-- The frames that a call submits. -/
def submittedFrames (env : ServerEnv) (s : ServerState) (payload : Bytes) (reliability : ℕ)
    (dest : SocketAddr) : List OutFrame :=
  (outgoing env s payload reliability dest).take
    ((sendFrame env s payload reliability dest).2.sent.length - s.sent.length)

namespace SessionOperation

variable (env : ServerEnv) (parse : Str → Option SocketAddr) (addr : SocketAddr)

def apply (s : ServerState) : SessionOperation → ServerState
  | send payload reliability => (sendFrame env s payload reliability addr).2
  | ack data => handleAckPacket env addr s data
  | nack data => handleNackPacket env addr s data
  | prune => pruneQueues env s addr
  | tick => resendRound env parse s

/-- What the operation adds to the journal. The worker passes over a key that is no address. -/
def events (s : ServerState) : SessionOperation → List SessionEvent
  | send payload reliability => (submittedFrames env s payload reliability addr).map fun f =>
      .sent f.counters.seq (f.datagram reliability)
  | ack data => ackEvents (env.instant s.tick) (s.sessionOf addr) (requestedNumbers data)
  | nack data => nackEvents env addr s (requestedNumbers data)
  | prune => []
  | tick => if (parse addr.display).isSome then
      workerEvents (env.instant s.tick) (s.sessionOf addr)
        (dueKeys (env.instant s.tick) (s.sessionOf addr))
    else []

/-- The frames that the operation queues for the session: those to resend for a request, and
those on the list of the worker. -/
def queued (s : ServerState) : SessionOperation → List Bytes
  | nack data => (nackSegments env addr (readSegmentCount data).1 (readSegmentCount data).2
      (s, [])).2.map Prod.snd
  | tick => if (parse addr.display).isSome then
      (resendDue (env.instant s.tick) (s.sessionOf addr)).2
    else []
  | _ => []

end SessionOperation

def runSession (env : ServerEnv) (parse : Str → Option SocketAddr) (addr : SocketAddr) :
    ServerState → List SessionOperation → ServerState :=
  List.foldl (SessionOperation.apply env parse addr)

def journalOf (env : ServerEnv) (parse : Str → Option SocketAddr) (addr : SocketAddr) :
    ServerState → List SessionOperation → List SessionEvent
  | _, [] => []
  | s, operation :: rest => operation.events env parse addr s ++
      journalOf env parse addr (operation.apply env parse addr s) rest

variable {env : ServerEnv} {parse : Str → Option SocketAddr} {addr : SocketAddr} {s : ServerState}

theorem Transmits.changes {reliability : ℕ} {frames : List OutFrame}
    (h : Transmits reliability c frames c') :
    Changes c (frames.map fun f => .sent f.counters.seq (f.datagram reliability)) c' := by
  induction h with
  | nil c => exact .refl
  | cons c f now hcounters _ ih =>
    have hseq : f.counters.seq = c.packetSeq := congrArg Allocated.seq hcounters
    rw [List.map_cons, hseq]
    exact (Change.transmit c reliability _ now).changes.trans ih

theorem sendFragments_session (dest : SocketAddr) (reliability : ℕ) (payload : Bytes)
    (maxFrag count id left idx offset : ℕ) {s : ServerState} (h : (s.session dest).isSome) :
    ((sendFragments env dest reliability payload maxFrag count id left idx offset s).2.session
      dest).isSome := by
  induction left generalizing idx offset s with
  | zero => exact h
  | succ left ih =>
    obtain ⟨now, hsession⟩ := transmit_session env s dest reliability (splitFlags reliability)
      (splitBody ⟨count, id, idx⟩ (fragmentChunk payload maxFrag offset))
    have hsome := Option.isSome_of_eq_some hsession
    unfold sendFragments
    generalize transmit env s dest reliability (splitFlags reliability)
      (splitBody ⟨count, id, idx⟩ (fragmentChunk payload maxFrag offset)) = out at *
    obtain ⟨result, s'⟩ := out
    cases result with
    | error e => exact hsome
    | ok u => exact ih _ _ hsome

theorem send_changes (env : ServerEnv) (payload : Bytes) (reliability : ℕ)
    (hc : s.session addr = some c) :
    ∃ c', (sendFrame env s payload reliability addr).2.session addr = some c' ∧
      Changes c ((submittedFrames env s payload reliability addr).map fun f =>
        .sent f.counters.seq (f.datagram reliability)) c' := by
  obtain ⟨n, hsent, htransmits, -⟩ := sendFrame_transmits env s payload reliability addr
  have hsome : ((sendFrame env s payload reliability addr).2.session addr).isSome := by
    unfold sendFrame
    by_cases h : fitsSingle env.config.mtuSize reliability payload
    · rw [if_pos h]
      obtain ⟨now, hsession⟩ :=
        transmit_session env s addr reliability (singleFlags reliability) payload
      exact Option.isSome_of_eq_some hsession
    · rw [if_neg h]
      exact sendFragments_session addr reliability payload _ _ _ _ _ _
        (Option.isSome_of_eq_some hc)
  obtain ⟨c', hc'⟩ := Option.isSome_iff_exists.mp hsome
  have hframes : submittedFrames env s payload reliability addr =
      (outgoing env s payload reliability addr).take n := by
    unfold submittedFrames
    rw [hsent, List.length_append, List.length_map, List.length_take, Nat.add_sub_cancel_left,
      List.take_eq_take_iff]
    omega
  refine ⟨c', hc', ?_⟩
  rw [hframes, ← sessionOf_eq hc, ← sessionOf_eq hc']
  exact htransmits.changes

theorem ack_changes (now : ℕ) (c : ClientSession) (seqs : List ℕ) :
    Changes c (ackEvents now c seqs) (seqs.foldl (ClientSession.acknowledge now) c) := by
  induction seqs generalizing c with
  | nil => exact .refl
  | cons seq seqs ih => exact (Change.acknowledge c now seq).changes.trans (ih _)

theorem ackEvents_frames (now : ℕ) (c : ClientSession) (seqs : List ℕ) :
    (ackEvents now c seqs).filterMap SessionEvent.frame = [] := by
  induction seqs generalizing c with
  | nil => rfl
  | cons seq seqs ih => exact ih _

/-- The frames that were collected before do not matter. -/
theorem nackSequence_eq (s : ServerState) (out : List (SocketAddr × Bytes)) (seq : ℕ) :
    nackSequence env addr (s, out) seq = ((nackSequence env addr (s, []) seq).1,
      out ++ (nackSequence env addr (s, []) seq).2) := by
  unfold nackSequence
  dsimp only
  cases s.pendingOf addr seq with
  | none => rw [List.append_nil]
  | some msg => rfl

/-- A requested number that is pending is resent. -/
theorem nack_changes (env : ServerEnv) (seqs : List ℕ) {s : ServerState}
    (out : List (SocketAddr × Bytes)) (hc : s.session addr = some c) : ∃ c',
      (seqs.foldl (nackSequence env addr) (s, out)).1.session addr = some c' ∧
      Changes c (nackEvents env addr s seqs) c' ∧
      (seqs.foldl (nackSequence env addr) (s, out)).2.map Prod.snd =
        out.map Prod.snd ++ (nackEvents env addr s seqs).filterMap SessionEvent.frame := by
  induction seqs generalizing s c out with
  | nil => exact ⟨c, hc, .refl, (List.append_nil _).symm⟩
  | cons seq seqs ih =>
    have hlookup : s.pendingOf addr seq = c.pendingMessages.lookup seq := by
      unfold ServerState.pendingOf
      rw [hc]
    unfold nackEvents
    rw [List.foldl_cons, nackSequence_eq]
    cases hm : c.pendingMessages.lookup seq with
    | none =>
      have hsame : nackSequence env addr (s, []) seq = (s, []) := by
        unfold nackSequence
        dsimp only
        rw [hlookup, hm]
      rw [hlookup, hm, hsame, List.append_nil]
      exact ih out hc
    | some msg =>
      have hnext : nackSequence env addr (s, []) seq =
          ((s.modifySession addr fun c => c.resend (env.instant s.tick) seq msg).advance,
            [(addr, msg.frame)]) := by
        unfold nackSequence
        dsimp only
        rw [hlookup, hm]
        rfl
      have hc' : (s.modifySession addr fun c => c.resend (env.instant s.tick) seq
          msg).advance.session addr = some (c.resend (env.instant s.tick) seq msg) := by
        refine (ServerState.lookup_modifySession s addr _ addr.display).trans ?_
        rw [if_pos rfl]
        exact congrArg (Option.map _) hc
      rw [hlookup, hm, hnext]
      obtain ⟨c', hsession, hchanges, hframes⟩ := ih (out ++ [(addr, msg.frame)]) hc'
      refine ⟨c', hsession, ?_, ?_⟩
      · exact (Change.resend c _ seq msg false hm
          fun hfalse => absurd hfalse Bool.false_ne_true).changes.trans hchanges
      · rw [hframes, List.map_append, List.append_assoc]
        rfl

theorem resendKey_none {now seq : ℕ} (hm : c.pendingMessages.lookup seq = none)
    (out : List Bytes) : resendKey now (c, out) seq = (c, out) := by
  unfold resendKey
  dsimp only
  rw [hm]

theorem resendKey_some {now seq : ℕ} {msg : PendingMessage}
    (hm : c.pendingMessages.lookup seq = some msg) (out : List Bytes) :
    resendKey now (c, out) seq = (c.resend now seq msg, out ++ [msg.frame]) := by
  unfold resendKey
  dsimp only
  rw [hm]

/-- The worker's keys are distinct, so that each is still due when its turn comes. -/
theorem worker_changes (now : ℕ) (keys : List ℕ) (hkeys : keys.Nodup) (c : ClientSession)
    (hdue : ∀ seq ∈ keys, ∀ msg, c.pendingMessages.lookup seq = some msg → msg.attempts < 5)
    (out : List Bytes) :
    Changes c (workerEvents now c keys) (keys.foldl (resendKey now) (c, out)).1 ∧
      (keys.foldl (resendKey now) (c, out)).2 =
        out ++ (workerEvents now c keys).filterMap SessionEvent.frame := by
  induction keys generalizing c out with
  | nil => exact ⟨.refl, (List.append_nil _).symm⟩
  | cons seq keys ih =>
    rw [List.nodup_cons] at hkeys
    unfold workerEvents
    rw [List.foldl_cons]
    cases hm : c.pendingMessages.lookup seq with
    | none =>
      rw [resendKey_none hm, resendKey_none hm]
      exact ih hkeys.2 c (fun k hk => hdue k (List.mem_cons_of_mem _ hk)) out
    | some msg =>
      rw [resendKey_some hm, resendKey_some hm]
      have hrest : ∀ k ∈ keys, ∀ msg', (c.resend now seq msg).pendingMessages.lookup k = some msg' →
          msg'.attempts < 5 := by
        intro k hk msg' hmsg'
        have hne : k ≠ seq := by
          rintro rfl
          exact hkeys.1 hk
        exact hdue k (List.mem_cons_of_mem _ hk) msg'
          ((AList.lookup_insert_ne hne).symm.trans hmsg')
      obtain ⟨hchanges, hframes⟩ := ih hkeys.2 _ hrest (out ++ [msg.frame])
      constructor
      · exact (Change.resend c now seq msg true hm
          fun _ => hdue seq List.mem_cons_self msg hm).changes.trans hchanges
      · rw [hframes, List.append_assoc]
        rfl

theorem dueKeys_nodup (now : ℕ) (c : ClientSession) : (dueKeys now c).Nodup :=
  (List.filter_sublist.map _).nodup c.pendingMessages.nodupKeys

theorem dueKeys_attempts {now seq : ℕ} (h : seq ∈ dueKeys now c) {msg : PendingMessage}
    (hm : c.pendingMessages.lookup seq = some msg) : msg.attempts < 5 := by
  obtain ⟨e, he, rfl⟩ := List.mem_map.mp h
  obtain ⟨hmem, hdue⟩ := List.mem_filter.mp he
  obtain rfl := Option.some.inj ((AList.mem_lookup_iff.mpr hmem).symm.trans hm)
  simp only [Bool.and_eq_true, decide_eq_true_eq] at hdue
  exact hdue.2

theorem tick_session (hc : s.session addr = some c) :
    (resendRound env parse s).session addr = some
      (if (parse addr.display).isSome then (resendDue (env.instant s.tick) c).1 else c) := by
  unfold resendRound ServerState.session
  dsimp only
  rw [sendAll_connections, lookup_filterMap]
  have hc' : s.connections.lookup addr.display = some c := hc
  rw [hc', Option.bind_some]
  cases parse addr.display with
  | none => rfl
  | some dest => rfl

/-- An operation changes the session by what it adds to the journal, and queues the frames that
it says are resent. -/
theorem operation_changes (env : ServerEnv) (parse : Str → Option SocketAddr)
    (operation : SessionOperation)
    (hc : s.session addr = some c) : ∃ c',
      (operation.apply env parse addr s).session addr = some c' ∧
      Changes c (operation.events env parse addr s) c' ∧
      operation.queued env parse addr s =
        (operation.events env parse addr s).filterMap SessionEvent.frame := by
  have hof := sessionOf_eq hc
  cases operation with
  | send payload reliability =>
    obtain ⟨c', hc', hchanges⟩ := send_changes env payload reliability hc
    refine ⟨c', hc', hchanges, ?_⟩
    unfold SessionOperation.events SessionOperation.queued
    dsimp only
    rw [List.filterMap_map]
    exact (List.filterMap_eq_nil_iff.mpr fun f _ => rfl).symm
  | ack data =>
    unfold SessionOperation.events SessionOperation.apply SessionOperation.queued
    dsimp only
    rw [hof, handleAckPacket_session, hc, Option.map_some]
    exact ⟨_, rfl, ack_changes _ c _, (ackEvents_frames _ c _).symm⟩
  | nack data =>
    obtain ⟨c', hc', hchanges, hframes⟩ :=
      nack_changes env (requestedNumbers data) [] hc
    refine ⟨c', ?_, hchanges, ?_⟩
    · unfold SessionOperation.apply handleNackPacket ServerState.session
      dsimp only
      rw [sendAll_connections, nackSegments_eq]
      exact hc'
    · unfold SessionOperation.queued SessionOperation.events
      dsimp only
      rw [nackSegments_eq]
      exact hframes
  | prune =>
    refine ⟨pruneSessionQueues c (env.instant (s.tick + 1)), ?_, (Change.prune c _).changes, rfl⟩
    have hprune := ServerState.lookup_modifySession (pruneSplitBuffersForPeer env s addr) addr
      (fun c => pruneSessionQueues c (env.instant (s.tick + 1))) addr.display
    rw [if_pos rfl] at hprune
    exact hprune.trans (congrArg (Option.map _) hc)
  | tick =>
    refine ⟨_, tick_session hc, ?_⟩
    unfold SessionOperation.events SessionOperation.queued
    dsimp only
    rw [hof]
    by_cases hparse : (parse addr.display).isSome
    · rw [if_pos hparse, if_pos hparse, if_pos hparse]
      obtain ⟨hchanges, hframes⟩ := worker_changes (env.instant s.tick) _
        (dueKeys_nodup (env.instant s.tick) c) c
        (fun seq hseq msg hm => dueKeys_attempts hseq hm) []
      exact ⟨hchanges, hframes⟩
    · rw [if_neg hparse, if_neg hparse, if_neg hparse]
      exact ⟨.refl, rfl⟩

theorem runSession_changes (env : ServerEnv) (parse : Str → Option SocketAddr)
    (operations : List SessionOperation) (hc : s.session addr = some c) : ∃ c',
      (runSession env parse addr s operations).session addr = some c' ∧
      Changes c (journalOf env parse addr s operations) c' := by
  induction operations generalizing s c with
  | nil => exact ⟨c, hc, .refl⟩
  | cons operation rest ih =>
    obtain ⟨c₁, hc₁, hchanges₁, -⟩ := operation_changes env parse operation hc
    obtain ⟨c₂, hc₂, hchanges₂⟩ := ih hc₁
    exact ⟨c₂, hc₂, hchanges₁.trans hchanges₂⟩

end SkinGetBE.RakNet
