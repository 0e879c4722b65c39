import SkinGetBE.ServerEffects

/-!
# Runs of the server

Datagrams of any number of peers arrive one after the other, and the worker takes its
turns between them. A run is a sequence of turns, each of which is one effect for a
datagram that has arrived, an acknowledgement, or a round of the worker.
An invariant of the turns also holds between two effects of a datagram, whichever
rounds of the worker fall there.
-/
namespace SkinGetBE.RakNet
open Octets Text Tables Relation

inductive ServerEvent
  | datagram (addr : SocketAddr) (data : Bytes)
  | worker

/-- A call that does not return keeps the later datagrams waiting, but not the worker. -/
def ServerEvent.apply (env : ServerEnv) (parse : Str → Option SocketAddr) (s : ServerState) :
    ServerEvent → ServerState
  | datagram addr data => if s.stuck then s else (handlePacket env addr s data).2
  | worker => resendRound env parse s

def runServer (env : ServerEnv) (parse : Str → Option SocketAddr) :
    ServerState → List ServerEvent → ServerState := List.foldl (ServerEvent.apply env parse)

def ServerEvent.incoming : ServerEvent → Option (SocketAddr × Bytes)
  | datagram addr data => some (addr, data)
  | worker => none

/-- The datagrams that arrive. -/
def incoming (events : List ServerEvent) : List (SocketAddr × Bytes) :=
  events.filterMap ServerEvent.incoming

/-- The server, with the datagrams that have arrived. -/
structure Serving where
  heard : List (SocketAddr × Bytes)
  state : ServerState

inductive Turn (env : ServerEnv) (parse : Str → Option SocketAddr) : Serving → Serving → Prop
  | hear (x : Serving) (addr : SocketAddr) (datagram : Bytes) :
      Turn env parse x { x with heard := (addr, datagram) :: x.heard }
  | effect (x : Serving) (addr : SocketAddr) (datagram : Bytes) (s : ServerState)
      (hheard : (addr, datagram) ∈ x.heard) (h : Effect env addr datagram x.state s) :
      Turn env parse x { x with state := s }
  | acknowledge (x : Serving) (addr : SocketAddr) (datagram : Bytes) (frameset : FrameSet)
      (hheard : (addr, datagram) ∈ x.heard)
      (hparse : parseFrameSet datagram = some (.ok frameset)) :
      Turn env parse x { x with state := (x.state.sendTo env addr (ackDatagram frameset.seq)).2 }
  | worker (x : Serving) : Turn env parse x { x with state := resendRound env parse x.state }

abbrev Turns (env : ServerEnv) (parse : Str → Option SocketAddr) : Serving → Serving → Prop :=
  ReflTransGen (Turn env parse)

variable {env : ServerEnv} {parse : Str → Option SocketAddr} {addr : SocketAddr}
  {datagram : Bytes} {s s' : ServerState}

theorem acknowledgeSegments_effects (hid : datagram.head? = some 0xC0) (now left : ℕ)
    (buf : Buffer) (hnumbers : ∀ seq ∈ rangeNumbers left buf, seq ∈ requestedNumbers datagram)
    (s : ServerState) : Effects env addr datagram s (acknowledgeSegments now addr left buf s) := by
  induction left generalizing buf s with
  | zero => exact .refl
  | succ left ih =>
    refine .head (.acknowledge s now _ hid fun seq hseq => ?_) (ih _ (fun seq hseq => ?_) _)
    · exact hnumbers seq (List.mem_append_left _ hseq)
    · exact hnumbers seq (List.mem_append_right _ hseq)

theorem handleAckPacket_effects (s : ServerState) {data : Bytes} (hid : data.head? = some 0xC0) :
    Effects env addr data s (handleAckPacket env addr s data) :=
  (clock_effects s).trans (acknowledgeSegments_effects hid _ _ _ (fun _ hseq => hseq) _)

/-- The frame waits for an acknowledgement of the peer. -/
def Awaits (s : ServerState) (addr : SocketAddr) (frame : Bytes) : Prop :=
  ∃ seq msg, s.pendingOf addr seq = some msg ∧ msg.frame = frame

theorem pendingOf_resend {seq : ℕ} {msg : PendingMessage} (now : ℕ) (k : ℕ) :
    (s.modifySession addr fun c => c.resend now seq msg).pendingOf addr k =
      match s.session addr with
      | some c => (c.resend now seq msg).pendingMessages.lookup k
      | none => none := by
  unfold ServerState.pendingOf ServerState.session
  rw [ServerState.lookup_modifySession, if_pos rfl]
  cases s.connections.lookup addr.display with
  | none => rfl
  | some c => rfl

/-- Resending keeps what waits. -/
theorem Awaits.resend {frame : Bytes} (h : Awaits s addr frame) {seq : ℕ} {msg : PendingMessage}
    (hm : s.pendingOf addr seq = some msg) (now : ℕ) :
    Awaits (s.modifySession addr fun c => c.resend now seq msg) addr frame := by
  obtain ⟨k, msg', hk, rfl⟩ := h
  cases hc : s.session addr with
  | none =>
    rw [ServerState.pendingOf, hc] at hk
    cases hk
  | some c =>
    rw [ServerState.pendingOf, hc] at hk hm
    dsimp only at hk hm
    by_cases hseq : k = seq
    · subst hseq
      obtain rfl := Option.some.inj (hk.symm.trans hm)
      refine ⟨k, { msg' with attempts := min (msg'.attempts + 1) (2 ^ 32 - 1), lastSent := now },
        ?_, rfl⟩
      rw [pendingOf_resend, hc]
      exact AList.lookup_insert _
    · refine ⟨k, msg', ?_, rfl⟩
      rw [pendingOf_resend, hc]
      exact (AList.lookup_insert_ne hseq).trans hk

/-- The frames that were collected for the peer wait for it. -/
def Collected (addr : SocketAddr) (collected : ServerState × List (SocketAddr × Bytes)) : Prop :=
  ∀ e ∈ collected.2, e.1 = addr ∧ Awaits collected.1 addr e.2

theorem nackSequence_effects (env : ServerEnv) {collected : ServerState × List (SocketAddr × Bytes)}
    (h : Collected addr collected) (seq : ℕ) :
    Effects env addr datagram collected.1 (nackSequence env addr collected seq).1 ∧
      Collected addr (nackSequence env addr collected seq) := by
  unfold nackSequence
  cases hm : collected.1.pendingOf addr seq with
  | none => exact ⟨.refl, h⟩
  | some msg =>
    refine ⟨.head (.resend collected.1 _ seq msg hm) (clock_effects _), ?_⟩
    have hcollected : Awaits collected.1 addr msg.frame := ⟨seq, msg, hm, rfl⟩
    intro e he
    rcases List.mem_append.mp he with he | he
    · exact ⟨(h e he).1, (h e he).2.resend hm _⟩
    · rw [List.mem_singleton.mp he]
      exact ⟨rfl, hcollected.resend hm _⟩

theorem nackRange_effects (env : ServerEnv) {collected : ServerState × List (SocketAddr × Bytes)}
    (h : Collected addr collected) (seqs : List ℕ) :
    Effects env addr datagram collected.1 (seqs.foldl (nackSequence env addr) collected).1 ∧
      Collected addr (seqs.foldl (nackSequence env addr) collected) := by
  induction seqs generalizing collected with
  | nil => exact ⟨.refl, h⟩
  | cons seq seqs ih =>
    obtain ⟨heffects, hnext⟩ := nackSequence_effects env h seq
    obtain ⟨hrest, hlast⟩ := ih hnext
    exact ⟨heffects.trans hrest, hlast⟩

theorem nackSegments_effects (env : ServerEnv) {collected : ServerState × List (SocketAddr × Bytes)}
    (h : Collected addr collected) (left : ℕ) (buf : Buffer) :
    Effects env addr datagram collected.1 (nackSegments env addr left buf collected).1 ∧
      Collected addr (nackSegments env addr left buf collected) := by
  induction left generalizing buf collected with
  | zero => exact ⟨.refl, h⟩
  | succ left ih =>
    obtain ⟨heffects, hnext⟩ := nackRange_effects env h
      (sequenceRange (readTriad buf).1 (readTriad (readTriad buf).2).1)
    obtain ⟨hrest, hlast⟩ := ih hnext (readTriad (readTriad buf).2).2
    exact ⟨heffects.trans hrest, hlast⟩

theorem sendAll_effects {frames : List (SocketAddr × Bytes)} (h : Collected addr (s, frames)) :
    Effects env addr datagram s (s.sendAll env frames) := by
  induction frames generalizing s with
  | nil => exact .refl
  | cons e frames ih =>
    obtain ⟨dest, frame⟩ := e
    obtain ⟨rfl, seq, msg, hm, rfl⟩ := h _ List.mem_cons_self
    refine .head (.again s seq msg hm) (ih ?_)
    -- a submission leaves the sessions as they are
    intro e he
    exact h e (List.mem_cons_of_mem _ he)

theorem handleNackPacket_effects (s : ServerState) (data : Bytes) :
    Effects env addr datagram s (handleNackPacket env addr s data) := by
  have hnone : Collected addr (s, []) := fun e he => absurd he List.not_mem_nil
  obtain ⟨heffects, hcollected⟩ :=
    nackSegments_effects env hnone (readSegmentCount data).1 (readSegmentCount data).2
  exact heffects.trans (sendAll_effects hcollected)

theorem handleUnconnectedPing_effects (s : ServerState) {data : Bytes}
    (h : ∃ asked ∈ requestIds, data.head? = some asked) :
    Effects env addr data s (handleUnconnectedPing env addr s data).2 := by
  unfold handleUnconnectedPing
  by_cases hlen : data.length < 25
  · rw [if_pos hlen]
  · rw [if_neg hlen]
    exact .head (.clock s) (.single (.answer _ _ _ (by simp [answerIds]) h))

theorem handleOpenConnectionRequest1_effects (s : ServerState) {data : Bytes}
    (h : ∃ asked ∈ requestIds, data.head? = some asked) :
    Effects env addr data s (handleOpenConnectionRequest1 env addr s data).2 := by
  unfold handleOpenConnectionRequest1
  by_cases hlen : data.length < 17
  · rw [if_pos hlen]
  · rw [if_neg hlen]
    refine .trans ?_ (.single (.answer _ _ _ (by simp [answerIds]) h))
    cases extractOpenConnectionProtocol data with
    | none => exact .refl
    | some protocol =>
      exact .head (.ensure s false protocol)
        (update_effects _ (fun _ => ⟨rfl, rfl, rfl⟩) fun _ => rfl)

theorem handleOpenConnectionRequest2_effects (s : ServerState) {data : Bytes}
    (h : ∃ asked ∈ requestIds, data.head? = some asked) :
    Effects env addr data s (handleOpenConnectionRequest2 env addr s data).2 := by
  unfold handleOpenConnectionRequest2
  by_cases hlen : data.length < 19
  · rw [if_pos hlen]
  · rw [if_neg hlen]
    exact .single (.answer s _ _ (by simp [answerIds]) h)

theorem handleConnectionRequest_effects (s : ServerState) {data : Bytes}
    (h : ∃ asked ∈ requestIds, data.head? = some asked) :
    Effects env addr data s (handleConnectionRequest env addr s data).2 :=
  .head (.clock s) (.head (.ensure _ true 0)
    (.single (.answer _ _ _ (by simp [answerIds]) h)))

/-- No frame set is accepted under another identifier. -/
theorem acceptedFrameSet_other {id : UInt8} (h : isFrameSetId id = false) (tl : Bytes) :
    acceptedFrameSet s addr (id :: tl) = none := by
  have herror : ∃ e, parseFrameSet (id :: tl) = some (.error e) := by
    unfold isFrameSetId at h
    simp only [Bool.and_eq_false_iff, decide_eq_false_iff_not] at h
    have hid : ¬ (0x80 ≤ id ∧ id ≤ 0x8d) := fun hand => h.elim (· hand.1) (· hand.2)
    match tl with
    | [] => exact ⟨_, rfl⟩
    | [_] => exact ⟨_, rfl⟩
    | [_, _] => exact ⟨_, rfl⟩
    | s0 :: s1 :: s2 :: rest => exact ⟨_, if_neg hid⟩
  obtain ⟨e, he⟩ := herror
  unfold acceptedFrameSet
  rw [he]
  split_ifs <;> rfl

theorem handlePacket_handling (s : ServerState) (data : Bytes) :
    Handling env addr data s (acceptedFrameSet s addr data) (handlePacket env addr s data).2 := by
  cases data with
  | nil =>
    have hnone : acceptedFrameSet s addr [] = none := by
      unfold acceptedFrameSet parseFrameSet
      split_ifs <;> rfl
    rw [hnone]
    exact .passed .refl
  | cons id tl =>
    cases hset : isFrameSetId id with
    | true =>
      rw [handlePacket_frameSet hset]
      exact handleGamePacket_handling s (id :: tl)
    | false =>
      rw [acceptedFrameSet_other hset]
      unfold handlePacket
      dsimp only
      by_cases h01 : id = 0x01
      · rw [if_pos h01]
        exact .passed (handleUnconnectedPing_effects s ⟨id, by simp [h01, requestIds], rfl⟩)
      rw [if_neg h01]
      by_cases h05 : id = 0x05
      · rw [if_pos h05]
        exact .passed (handleOpenConnectionRequest1_effects s ⟨id, by simp [h05, requestIds], rfl⟩)
      rw [if_neg h05]
      by_cases h07 : id = 0x07
      · rw [if_pos h07]
        exact .passed (handleOpenConnectionRequest2_effects s ⟨id, by simp [h07, requestIds], rfl⟩)
      rw [if_neg h07]
      by_cases h09 : id = 0x09
      · rw [if_pos h09]
        exact .passed (handleConnectionRequest_effects s ⟨id, by simp [h09, requestIds], rfl⟩)
      rw [if_neg h09, if_neg (by simp [hset])]
      by_cases hack : id = 0xC0
      · rw [if_pos hack]
        subst hack
        exact .passed (handleAckPacket_effects s rfl)
      rw [if_neg hack]
      by_cases hnack : id = 0xA0
      · rw [if_pos hnack]
        exact .passed (handleNackPacket_effects s _)
      · rw [if_neg hnack]
        exact .passed .refl

theorem Effects.turns {heard : List (SocketAddr × Bytes)} (h : Effects env addr datagram s s')
    (hheard : (addr, datagram) ∈ heard) : Turns env parse ⟨heard, s⟩ ⟨heard, s'⟩ := by
  induction h with
  | refl => exact .refl
  | tail _ heffect ih => exact ih.tail (.effect ⟨heard, _⟩ addr datagram _ hheard heffect)

theorem Handling.turns {heard : List (SocketAddr × Bytes)} {frameset : Option FrameSet}
    (h : Handling env addr datagram s frameset s') (hheard : (addr, datagram) ∈ heard) :
    Turns env parse ⟨heard, s⟩ ⟨heard, s'⟩ := by
  cases h with
  | passed h => exact h.turns hheard
  | interrupted frameset h hstuck => exact h.turns hheard
  | acknowledged frameset hparse h hstuck =>
    exact (h.turns hheard).tail (.acknowledge ⟨heard, _⟩ addr datagram frameset hheard hparse)

theorem runServer_turns (env : ServerEnv) (parse : Str → Option SocketAddr)
    (heard : List (SocketAddr × Bytes)) (s : ServerState) (events : List ServerEvent) :
    Turns env parse ⟨heard, s⟩
      ⟨(incoming events).reverse ++ heard, runServer env parse s events⟩ := by
  induction events generalizing heard s with
  | nil => exact .refl
  | cons event events ih =>
    cases event with
    | datagram addr data =>
      have hheard : (incoming (.datagram addr data :: events)).reverse ++ heard =
          (incoming events).reverse ++ (addr, data) :: heard := by
        have hincoming : incoming (.datagram addr data :: events) =
            (addr, data) :: incoming events := rfl
        rw [hincoming, List.reverse_cons, List.append_assoc]
        rfl
      rw [hheard]
      refine .head (.hear ⟨heard, s⟩ addr data) (.trans ?_ (ih ((addr, data) :: heard) _))
      unfold ServerEvent.apply
      dsimp only
      by_cases hs : s.stuck = true
      · rw [if_pos hs]
      · rw [if_neg hs]
        exact (handlePacket_handling s data).turns List.mem_cons_self
    | worker => exact .head (.worker ⟨heard, s⟩) (ih heard _)

/-- The server of the quiet environment after some events. -/
def quietServing (parse : Str → Option SocketAddr) (events : List ServerEvent) : Serving :=
  ⟨(incoming events).reverse,
    runServer (.quiet 1492) parse (.new (ServerEnv.quiet 1492).config .empty) events⟩

theorem quietServing_turns (parse : Str → Option SocketAddr) (events : List ServerEvent) :
    Turns (.quiet 1492) parse ⟨[], .new (ServerEnv.quiet 1492).config .empty⟩
      (quietServing parse events) := by
  have h := runServer_turns (.quiet 1492) parse []
    (.new (ServerEnv.quiet 1492).config .empty) events
  rwa [List.append_nil] at h

end SkinGetBE.RakNet
