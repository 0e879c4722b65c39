import SkinGetBE.PeerIsolation

/-!
# Closed sessions

What a server does for one peer is split into moves: a datagram is taken, its
next frame is received, the next payload that this released is dispatched. Other
peers and the worker move in between. Once the peer has taken its leave nothing
is kept for it, unless the same datagram brings another frame or a ping.
-/
namespace SkinGetBE.RakNet
open Octets Text Tables

/-- Nothing is kept for the peer. -/
structure Closed (addr : SocketAddr) (s : ServerState) : Prop where
  session : s.connections.lookup addr.display = none
  fragments : ∀ sid, s.splitBuffers.lookup (addr.display, sid) = none

/-- The server on its way through a datagram of the peer: the frames that are left, the payloads
that the last one released, and whether the peer has taken its leave and not come back. -/
structure Exchange where
  state : ServerState
  frames : List RakNetFrame
  emitted : List Emitted
  notified : Bool

inductive Move
  | resend
  | other (source : SocketAddr) (data : Bytes)
  | datagram (data : Bytes)
  | frame
  | dispatch
  | submit (datagram : Bytes)
  | abandon

/-- A disconnection notification, and the request that opens a session again. -/
def heard (notified : Bool) (payload : Bytes) : Bool :=
  if payload.head? = some 0x15 then true
  else if payload.head? = some 0x09 then false
  else notified

/-- The datagrams outside of a frame set that open a session. -/
def asksConnection (data : Bytes) : Bool := data.head? = some 0x05 || data.head? = some 0x09

namespace Exchange

/-- The beginning of a datagram; one that is no frame set is handled at once. -/
def arrive (env : ServerEnv) (addr : SocketAddr) (x : Exchange) (data : Bytes) : Exchange :=
  if prunes x.state addr data then
    let s := pruneQueues env x.state addr
    if data.length < 4 then { x with state := s }
    else
      match parseFrameSet data with
      | none => { x with state := { s with stuck := true } }
      | some (.error _) => { x with state := s }
      | some (.ok frameset) => { x with state := markConnected s addr, frames := frameset.frames }
  else
    { x with
      state := (handlePacket env addr x.state data).2
      notified := x.notified && !asksConnection data }

def receive (env : ServerEnv) (addr : SocketAddr) (x : Exchange) : Exchange :=
  match x.frames, x.emitted with
  | frame :: frames, [] =>
    let received := receiveFrame env x.state addr frame
    ⟨received.1, frames, received.2, x.notified⟩
  | _, _ => x

def dispatch (env : ServerEnv) (addr : SocketAddr) (x : Exchange) : Exchange :=
  match x.emitted with
  | e :: emitted =>
    ⟨dispatchEmitted env addr x.state e, x.frames, emitted, heard x.notified e.payload⟩
  | [] => x

def move (env : ServerEnv) (parse : Str → Option SocketAddr) (addr : SocketAddr) (x : Exchange) :
    Move → Exchange
  | .resend => { x with state := resendRound env parse x.state }
  | .other source data =>
    if source.display = addr.display then x
    else { x with state := (handlePacket env source x.state data).2 }
  | .datagram data => if x.frames.isEmpty && x.emitted.isEmpty then x.arrive env addr data else x
  | .frame => if x.state.stuck then x else x.receive env addr
  | .dispatch => if x.state.stuck then x else x.dispatch env addr
  | .submit datagram => { x with state := (x.state.sendTo env addr datagram).2 }
  | .abandon => if x.state.stuck then { x with frames := [], emitted := [] } else x

def run (env : ServerEnv) (parse : Str → Option SocketAddr) (addr : SocketAddr) :
    Exchange → List Move → Exchange := List.foldl (move env parse addr)

end Exchange

variable {env : ServerEnv} {parse : Str → Option SocketAddr} {addr : SocketAddr}
  {s : ServerState} {x : Exchange}

theorem Closed.inactive (h : Closed addr s) : s.isActiveConnection addr = false := by
  unfold ServerState.isActiveConnection ServerState.session
  rw [h.session]
  rfl

theorem Closed.modifySession (h : Closed addr s) (f : ClientSession → ClientSession) :
    Closed addr (s.modifySession addr f) := by
  refine ⟨?_, h.fragments⟩
  rw [ServerState.lookup_modifySession, if_pos rfl, h.session]
  rfl

theorem Closed.untouched {s' : ServerState} (h : Closed addr s)
    (hu : Untouched addr.display s s') : Closed addr s' :=
  ⟨hu.session.trans h.session, fun sid => (hu.fragments sid).trans (h.fragments sid)⟩

theorem untouched_sendAll (peer : Str) (s : ServerState) (frames : List (SocketAddr × Bytes)) :
    Untouched peer s (s.sendAll env frames) := by
  induction frames generalizing s with
  | nil => exact Untouched.refl peer s
  | cons frame frames ih =>
    have hone : Untouched peer s (s.sendTo env frame.1 frame.2).2 := ⟨rfl, fun _ => rfl⟩
    exact hone.trans (ih _)

theorem Closed.resendRound (h : Closed addr s) : Closed addr (resendRound env parse s) := by
  unfold RakNet.resendRound
  dsimp only
  refine Closed.untouched ?_ (untouched_sendAll _ _ _)
  refine ⟨?_, h.fragments⟩
  rw [lookup_filterMap, h.session]
  rfl

theorem Closed.drop (s : ServerState) (addr : SocketAddr) :
    Closed addr (s.dropConnectionState addr) := by
  have hdrops := drops_dropConnectionState s addr
  refine ⟨hdrops.absent, fun sid => ?_⟩
  rw [hdrops.splits, if_pos rfl]

theorem Closed.acknowledgeSegments (h : Closed addr s) (now left : ℕ) (buf : Buffer) :
    Closed addr (acknowledgeSegments now addr left buf s) := by
  induction left generalizing buf s with
  | zero => exact h
  | succ left ih => exact ih (h.modifySession _) _

theorem nackSequence_closed (h : Closed addr s) (frames : List (SocketAddr × Bytes)) (seq : ℕ) :
    nackSequence env addr (s, frames) seq = (s, frames) := by
  unfold nackSequence ServerState.pendingOf ServerState.session
  dsimp only
  rw [h.session]

theorem nackRange_closed (h : Closed addr s) (frames : List (SocketAddr × Bytes))
    (seqs : List ℕ) : seqs.foldl (nackSequence env addr) (s, frames) = (s, frames) := by
  induction seqs with
  | nil => rfl
  | cons seq seqs ih =>
    rw [List.foldl_cons, nackSequence_closed h]
    exact ih

theorem nackSegments_closed (h : Closed addr s) (left : ℕ) (buf : Buffer)
    (frames : List (SocketAddr × Bytes)) :
    nackSegments env addr left buf (s, frames) = (s, frames) := by
  induction left generalizing buf with
  | zero => rfl
  | succ left ih =>
    unfold nackSegments
    dsimp only
    rw [nackRange_closed h]
    exact ih _

/-- A datagram that does not ask for a connection finds a closed peer and leaves it so. -/
theorem Closed.handlePacket (h : Closed addr s) {data : Bytes}
    (hasks : asksConnection data = false) :
    Closed addr (handlePacket env addr s data).2 := by
  unfold RakNet.handlePacket
  cases data with
  | nil => exact h
  | cons id tl =>
    dsimp only
    unfold asksConnection at hasks
    simp only [List.head?_cons, Option.some.injEq, Bool.or_eq_false_iff,
      decide_eq_false_iff_not] at hasks
    by_cases h01 : id = 0x01
    · rw [if_pos h01]
      unfold handleUnconnectedPing
      by_cases hlen : (id :: tl).length < 25
      · rw [if_pos hlen]
        exact h
      · rw [if_neg hlen]
        exact ⟨h.session, h.fragments⟩
    rw [if_neg h01, if_neg hasks.1]
    by_cases h07 : id = 0x07
    · rw [if_pos h07]
      unfold handleOpenConnectionRequest2
      by_cases hlen : (id :: tl).length < 19
      · rw [if_pos hlen]
        exact h
      · rw [if_neg hlen]
        exact ⟨h.session, h.fragments⟩
    rw [if_neg h07, if_neg hasks.2]
    by_cases hset : isFrameSetId id
    · rw [if_pos hset]
      dsimp only
      rw [handleGamePacket_inactive h.inactive]
      exact h
    rw [if_neg hset]
    by_cases hack : id = 0xC0
    · rw [if_pos hack]
      have hadvance : Closed addr s.advance := ⟨h.session, h.fragments⟩
      exact hadvance.acknowledgeSegments _ _ _
    rw [if_neg hack]
    by_cases hnack : id = 0xA0
    · rw [if_pos hnack]
      unfold handleNackPacket
      dsimp only
      rw [nackSegments_closed h]
      exact h.untouched (untouched_sendAll _ _ _)
    · rw [if_neg hnack]
      exact h

theorem Closed.dispatchBatch (h : Closed addr s) (data : Bytes) :
    dispatchBatch env s data addr = s := by
  unfold RakNet.dispatchBatch
  by_cases hlen : data.length ≤ 1
  · rw [if_pos hlen]
  · rw [if_neg hlen]
    cases decompressBatch env.tools.flate (data.drop 1) (s.compressionEnabled addr) with
    | error e => rfl
    | ok decompressed => exact forEach_processSingleBedrockPacket_absent h.session _

theorem Closed.dispatchConnectedPing (h : Closed addr s) {data : Bytes} (hlen : data.length ≠ 9) :
    dispatchConnectedPing env s data addr = s := by
  have hc : s.compressionEnabled addr = false := by
    unfold ServerState.compressionEnabled ServerState.session
    rw [h.session]
  unfold RakNet.dispatchConnectedPing
  rw [if_neg hlen, if_neg (by simp [hc])]

namespace Exchange

end Exchange

theorem Closed.absent (h : Closed addr s) : ¬ (s.connections.lookup addr.display).isSome := by
  rw [h.session]
  simp

namespace Exchange

end Exchange

theorem forEach_stuck {α : Type} {f : ServerState → α → ServerState} (h : s.stuck = true)
    (xs : List α) : forEach f s xs = s := by
  cases xs with
  | nil => rfl
  | cons x xs => exact if_pos h

namespace Exchange

theorem run_append (x : Exchange) (moves moves' : List Move) :
    x.run env parse addr (moves ++ moves') =
      (x.run env parse addr moves).run env parse addr moves' :=
  List.foldl_append

theorem run_dispatch (parse : Str → Option SocketAddr) (emitted : List Emitted) (s : ServerState)
    (frames : List RakNetFrame) (notified : Bool) : ∃ moves frames' notified',
      run env parse addr ⟨s, frames, emitted, notified⟩ moves =
        ⟨forEach (dispatchEmitted env addr) s emitted, frames', [], notified'⟩ ∧
      (frames' = frames ∨ (forEach (dispatchEmitted env addr) s emitted).stuck = true) := by
  induction emitted generalizing s notified with
  | nil => exact ⟨[], frames, notified, rfl, .inl rfl⟩
  | cons e emitted ih =>
    by_cases hstuck : s.stuck
    · refine ⟨[.abandon], [], notified, ?_, .inr ?_⟩
      · rw [forEach_stuck hstuck]
        exact if_pos hstuck
      · rw [forEach_stuck hstuck]
        exact hstuck
    · obtain ⟨moves, frames', notified', hrun, hframes⟩ :=
        ih (dispatchEmitted env addr s e) (heard notified e.payload)
      have hall : forEach (dispatchEmitted env addr) s (e :: emitted) =
          forEach (dispatchEmitted env addr) (dispatchEmitted env addr s e) emitted :=
        if_neg hstuck
      have hmove : move env parse addr ⟨s, frames, e :: emitted, notified⟩ .dispatch =
          ⟨dispatchEmitted env addr s e, frames, emitted, heard notified e.payload⟩ :=
        if_neg hstuck
      refine ⟨.dispatch :: moves, frames', notified', ?_, hall ▸ hframes⟩
      rw [hall, ← hrun, ← hmove]
      rfl

theorem run_frames (parse : Str → Option SocketAddr) (frames : List RakNetFrame) (s : ServerState)
    (notified : Bool) : ∃ moves notified', run env parse addr ⟨s, frames, [], notified⟩ moves =
      ⟨forEach (handleFrame env addr) s frames, [], [], notified'⟩ := by
  induction frames generalizing s notified with
  | nil => exact ⟨[], notified, rfl⟩
  | cons frame frames ih =>
    by_cases hstuck : s.stuck
    · refine ⟨[.abandon], notified, ?_⟩
      rw [forEach_stuck hstuck]
      exact if_pos hstuck
    · have hall : forEach (handleFrame env addr) s (frame :: frames) =
          forEach (handleFrame env addr) (handleFrame env addr s frame) frames := if_neg hstuck
      have hmove : move env parse addr ⟨s, frame :: frames, [], notified⟩ .frame =
          ⟨(receiveFrame env s addr frame).1, frames, (receiveFrame env s addr frame).2,
            notified⟩ := if_neg hstuck
      obtain ⟨moves, frames', notified', hrun, hframes⟩ :=
        run_dispatch parse (receiveFrame env s addr frame).2 (receiveFrame env s addr frame).1
          frames notified
      have hone : run env parse addr ⟨s, frame :: frames, [], notified⟩ (.frame :: moves) =
          ⟨handleFrame env addr s frame, frames', [], notified'⟩ := by
        unfold handleFrame
        rw [← hrun, ← hmove]
        rfl
      rcases hframes with rfl | hgone
      · obtain ⟨moves', notified'', hrest⟩ := ih (handleFrame env addr s frame) notified'
        refine ⟨.frame :: moves ++ moves', notified'', ?_⟩
        rw [run_append, hone, hrest, hall]
      · refine ⟨.frame :: moves ++ [.abandon], notified', ?_⟩
        have hgone' : (handleFrame env addr s frame).stuck = true := hgone
        rw [run_append, hone, hall, forEach_stuck hgone']
        exact if_pos hgone'

end Exchange

/-- The handling of a datagram is a run of moves. -/
theorem handlePacket_moves (env : ServerEnv) (parse : Str → Option SocketAddr) (addr : SocketAddr)
    (s : ServerState) (data : Bytes) (notified : Bool) : ∃ moves notified',
      Exchange.run env parse addr ⟨s, [], [], notified⟩ moves =
        ⟨(handlePacket env addr s data).2, [], [], notified'⟩ := by
  by_cases hp : prunes s addr data
  · obtain ⟨id, tl, rfl, hset, hactive⟩ : ∃ id tl, data = id :: tl ∧ isFrameSetId id = true ∧
        s.isActiveConnection addr = true := by
      unfold prunes at hp
      cases data with
      | nil => cases hp
      | cons id tl =>
        rw [Bool.and_eq_true] at hp
        exact ⟨id, tl, rfl, hp.1, hp.2⟩
    have harrive : Exchange.run env parse addr ⟨s, [], [], notified⟩ [.datagram (id :: tl)] =
        Exchange.arrive env addr ⟨s, [], [], notified⟩ (id :: tl) := rfl
    unfold Exchange.arrive at harrive
    rw [if_pos hp] at harrive
    rw [handlePacket_frameSet hset]
    unfold handleGamePacket
    dsimp only at harrive ⊢
    rw [if_neg (by simp [hactive])]
    by_cases hlen : (id :: tl).length < 4
    · rw [if_pos hlen] at harrive ⊢
      exact ⟨_, _, harrive⟩
    · rw [if_neg hlen] at harrive ⊢
      cases hparse : parseFrameSet (id :: tl) with
      | none =>
        rw [hparse] at harrive
        exact ⟨_, _, harrive⟩
      | some result =>
        rw [hparse] at harrive
        cases result with
        | error e => exact ⟨_, _, harrive⟩
        | ok frameset =>
          dsimp only at harrive ⊢
          obtain ⟨moves, notified', hframes⟩ := @Exchange.run_frames env addr parse
            frameset.frames (markConnected (pruneQueues env s addr) addr) notified
          unfold handleFrameSet
          dsimp only
          have hrun : Exchange.run env parse addr ⟨s, [], [], notified⟩
              ([.datagram (id :: tl)] ++ moves) = ⟨forEach (handleFrame env addr)
                (markConnected (pruneQueues env s addr) addr) frameset.frames, [], [],
              notified'⟩ := by
            rw [Exchange.run_append, harrive, hframes]
          by_cases hstuck : (forEach (handleFrame env addr)
              (markConnected (pruneQueues env s addr) addr) frameset.frames).stuck
          · rw [if_pos hstuck]
            exact ⟨_, _, hrun⟩
          · rw [if_neg hstuck]
            refine ⟨[.datagram (id :: tl)] ++ moves ++ [.submit (ackDatagram frameset.seq)],
              notified', ?_⟩
            rw [Exchange.run_append, hrun]
            rfl
  · refine ⟨[.datagram data], notified && !asksConnection data, ?_⟩
    exact if_neg hp

end SkinGetBE.RakNet
