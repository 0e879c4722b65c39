import SkinGetBE.FrameRoundTrip
import SkinGetBE.OrderedDelivery
import SkinGetBE.SplitReassembly

/-!
# Ordered streams with fragmentation

The sender takes an order index for each fragment, the receiver uses that of the
first fragment for the whole message. The gap that this leaves behind a fragmented
message is not noticed: the record of the channel, with nothing buffered, is dropped
at the next datagram, and the next message begins a new one under its own index.
-/
namespace SkinGetBE.RakNet
open Octets Text Tables

/-- The datagram of a frame as a receiver should read it. -/
def OutFrame.frameSet (f : OutFrame) (reliability : ℕ) : FrameSet :=
  ⟨0x84, f.counters.seq % 2 ^ 24, [f.frame reliability]⟩

/-- The frame sets that ordered payloads are sent as, one call after the other. -/
def assignedFrameSets (env : ServerEnv) (dest : SocketAddr) :
    ServerState → List Bytes → List FrameSet
  | _, [] => []
  | s, payload :: payloads =>
    (outgoing env s payload 3 dest).map (·.frameSet 3) ++
      assignedFrameSets env dest (sendFrame env s payload 3 dest).2 payloads

/-- The handling of a datagram that is read as the frame set. -/
def receiveFrameSet (env : ServerEnv) (addr : SocketAddr) (s : ServerState)
    (frameset : FrameSet) : ServerState :=
  if s.isActiveConnection addr = false then s
  else handleFrameSet env (pruneQueues env s addr) frameset addr

theorem handleGamePacket_eq_receiveFrameSet {data : Bytes} {frameset : FrameSet}
    (hparse : parseFrameSet data = some (.ok frameset)) (env : ServerEnv) (addr : SocketAddr)
    (s : ServerState) : handleGamePacket env addr s data = receiveFrameSet env addr s frameset := by
  unfold receiveFrameSet
  split_ifs with hactive
  · unfold handleGamePacket
    exact if_pos hactive
  · exact handleGamePacket_read (Bool.eq_true_of_not_eq_false hactive) hparse

/-- Each datagram is handled, its peer has a session then, and none of the fragments that wait
has expired. -/
def FrameSetsServed (env : ServerEnv) (addr : SocketAddr) : ServerState → List FrameSet → Prop
  | _, [] => True
  | s, d :: framesets => s.stuck = false ∧ s.isActiveConnection addr = true ∧
      Unexpired env s addr ∧ FrameSetsServed env addr (receiveFrameSet env addr s d) framesets

instance decidableFrameSetsServed (env : ServerEnv) (addr : SocketAddr) :
    (s : ServerState) → (framesets : List FrameSet) →
      Decidable (FrameSetsServed env addr s framesets)
  | _, [] => isTrue trivial
  | s, d :: framesets =>
    have := decidableFrameSetsServed env addr (receiveFrameSet env addr s d) framesets
    inferInstanceAs (Decidable (_ ∧ _ ∧ _ ∧ _))

/-- The frames are the fragments from `idx` on of the message that was cut into `chunks`. -/
def AreFragments (chunks : List Bytes) (sid : ℕ) : ℕ → List RakNetFrame → Prop
  | idx, [] => chunks.length = idx
  | idx, frame :: frames =>
    IsFragment chunks sid idx frame ∧ AreFragments chunks sid (idx + 1) frames

theorem planFragments_length (reliability : ℕ) (payload : Bytes)
    (maxFrag count id left idx offset : ℕ) (a : Allocated) :
    (planFragments reliability payload maxFrag count id left idx offset a).length = left := by
  induction left generalizing idx offset a with
  | zero => rfl
  | succ left ih => simp [planFragments, ih]

/-- The fragments that are left make up the rest of the payload. -/
theorem planFragments_flatten (reliability : ℕ) (payload : Bytes) (maxFrag count id left idx : ℕ)
    {offset : ℕ} (h : payload.length - offset ≤ left * maxFrag) (a : Allocated) :
    ((planFragments reliability payload maxFrag count id left idx offset a).map
      (·.chunk)).flatten = payload.drop offset := by
  induction left generalizing idx offset a with
  | zero =>
    rw [List.drop_eq_nil_of_le (by omega)]
    rfl
  | succ left ih =>
    have hrest : payload.length - (offset + fragmentTake payload maxFrag offset) ≤
        left * maxFrag := by
      unfold fragmentTake
      rw [Nat.succ_mul] at h
      omega
    unfold planFragments
    rw [List.map_cons, List.flatten_cons, ih (idx + 1) hrest]
    unfold fragmentChunk
    rw [← List.drop_drop]
    exact List.take_append_drop _ _

/-- The planned fragments carry their indices, behind those that were planned before. -/
theorem planFragments_areFragments (reliability : ℕ) (payload : Bytes) (maxFrag id left : ℕ)
    (before : List Bytes) (offset : ℕ) (a : Allocated) :
    let plan := planFragments reliability payload maxFrag (before.length + left) id left
      before.length offset a
    AreFragments (before ++ plan.map (·.chunk)) id before.length
      (plan.map (·.frame reliability)) := by
  induction left generalizing before offset a with
  | zero => simp [planFragments, AreFragments]
  | succ left ih =>
    have hrest := ih (before ++ [fragmentChunk payload maxFrag offset])
      (offset + fragmentTake payload maxFrag offset) (a.next reliability)
    have hcount : (before ++ [fragmentChunk payload maxFrag offset]).length + left =
        before.length + (left + 1) := by
      rw [List.length_append, List.length_singleton]
      omega
    have hidx : (before ++ [fragmentChunk payload maxFrag offset]).length = before.length + 1 := by
      rw [List.length_append, List.length_singleton]
    dsimp only at hrest ⊢
    rw [hcount, hidx, List.append_assoc, List.singleton_append] at hrest
    unfold planFragments
    rw [List.map_cons, List.map_cons]
    refine ⟨⟨rfl, rfl, ?_, rfl, ?_⟩, hrest⟩
    · simp [OutFrame.frame, planFragments_length]
    · simp [OutFrame.frame]

/-- The frame was ordered on channel zero. -/
def OnChannelZero (orderIndex orderChannel : Option ℕ) : Prop :=
  (∃ idx, orderIndex = some idx) ∧ orderChannel = some 0

/-- No payload waits for its turn on channel zero. -/
def NothingBuffered (addr : SocketAddr) (s : ServerState) : Prop :=
  ∀ channel, (s.channels addr.display).lookup 0 = some channel → channel.buffer = ∅

/-- The peer's only fragments are those before `idx` of the message under `sid`. -/
structure Partway (addr : SocketAddr) (chunks : List Bytes) (sid idx : ℕ) (s : ServerState) :
    Prop where
  progress : Progress OnChannelZero chunks (· < idx) (s.splitBuffers.lookup (addr.display, sid))
  others : ∀ k, k ≠ sid → s.splitBuffers.lookup (addr.display, k) = none
  buffered : NothingBuffered addr s

/-- Nothing of the peer waits for anything. -/
structure Drained (addr : SocketAddr) (s : ServerState) : Prop where
  splits : ∀ sid, s.splitBuffers.lookup (addr.display, sid) = none
  buffered : NothingBuffered addr s

/-- One payload was dispatched for the peer, and nothing waits. -/
structure Dispatches (addr : SocketAddr) (payload : Bytes) (s s' : ServerState) : Prop where
  dispatched : (s'.dispatchedTo addr.display).map (·.payload) =
    (s.dispatchedTo addr.display).map (·.payload) ++ [payload]
  drained : Drained addr s'

variable {env : ServerEnv} {addr : SocketAddr} {s s' : ServerState} {payload : Bytes}
  {chunks : List Bytes} {sid idx : ℕ}

theorem Drained.partway (h : Drained addr s) (chunks : List Bytes) (sid : ℕ) :
    Partway addr chunks sid 0 s where
  progress := by
    rw [h.splits]
    exact fun i _ => Nat.not_lt_zero i
  others k _ := h.splits k
  buffered := h.buffered

theorem Drained.of_outcome (h : Drained addr s) (hout : Outcome addr.display s s') :
    Drained addr s' := by
  rcases hout with hkeeps | hdrops
  · constructor
    · rw [hkeeps.splits]
      exact h.splits
    · unfold NothingBuffered
      rw [hkeeps.channels]
      exact h.buffered
  · constructor
    · intro sid
      rw [hdrops.splits, if_pos rfl]
    · intro channel hchannel
      rw [ServerState.channels_eq_empty hdrops.absent] at hchannel
      cases hchannel

/-- What a datagram finds when its frames are handled: the same fragments, and no record of
the channel. -/
structure Ready (addr : SocketAddr) (s s' : ServerState) : Prop where
  splits : ∀ key, s'.splitBuffers.lookup key = s.splitBuffers.lookup key
  record : (s'.channels addr.display).lookup 0 = none
  dispatched : s'.dispatched = s.dispatched
  running : s'.stuck = false

theorem markConnected_pruneQueues_ready (hbuffered : NothingBuffered addr s)
    (hrun : s.stuck = false) (hfresh : Unexpired env s addr) :
    Ready addr s (markConnected (pruneQueues env s addr) addr) := by
  have hkeeps := keeps_markConnected (pruneQueues env s addr) addr
  obtain ⟨now, hchannels⟩ := pruneQueues_channels env s addr
  constructor
  · intro key
    rw [hkeeps.splits, pruneQueues_splits hfresh]
  · rw [hkeeps.channels, hchannels, lookup_filterMap]
    cases hrecord : (s.channels addr.display).lookup 0 with
    | none => rfl
    | some channel =>
      have hempty := hbuffered channel hrecord
      rw [Option.bind_some]
      unfold pruneChannel
      rw [hempty]
      rfl
  · exact hkeeps.dispatched
  · exact hrun

/-- A datagram with one frame comes down to its frame. -/
theorem receiveFrameSet_single (hbuffered : NothingBuffered addr s) (hrun : s.stuck = false)
    (hactive : s.isActiveConnection addr = true) (hfresh : Unexpired env s addr)
    {frameset : FrameSet} {frame : RakNetFrame} (hframes : frameset.frames = [frame]) :
    ∃ ready, Ready addr s ready ∧
      Keeps addr.display (handleFrame env addr ready frame)
        (receiveFrameSet env addr s frameset) := by
  have hready := markConnected_pruneQueues_ready hbuffered hrun hfresh
  refine ⟨_, hready, ?_⟩
  unfold receiveFrameSet handleFrameSet
  rw [if_neg (by simp [hactive])]
  dsimp only
  rw [hframes, forEach_singleton hready.running]
  split_ifs
  · exact Keeps.refl _ _
  · exact keeps_sendTo env _ addr _

/-- Without a record of its channel an ordered payload is released at once. -/
theorem deliver_unrecorded (env : ServerEnv) (hrecord : (s.channels addr.display).lookup 0 = none)
    (payload : Bytes) (idx : ℕ) :
    (deliver env s addr payload (some idx) (some 0)).2 = [⟨some (0, idx), payload⟩] ∧
      NothingBuffered addr (deliver env s addr payload (some idx) (some 0)).1 := by
  have hat : channelAt (s.sessionOf addr) 0 = ⟨0, ∅⟩ := by
    unfold channelAt getOr
    rw [ServerState.channels_sessionOf, hrecord]
    rfl
  have hdue : bufferOrderedPayload (s.sessionOf addr) payload (some idx) (some 0)
      (env.instant s.tick) = _ := bufferOrderedPayload_due hat (.inr rfl) payload _
  constructor
  · unfold deliver
    dsimp only
    rw [hdue]
  · intro channel hchannel
    rw [deliver_channels, hdue] at hchannel
    dsimp only at hchannel
    rw [AList.lookup_insert] at hchannel
    rw [← Option.some.inj hchannel]

/-- A frame that is delivered is dispatched, and nothing of the peer waits then. -/
theorem handleFrame_dispatches {ready : ServerState} (hready : Ready addr s ready)
    {frame : RakNetFrame} {orderIndex orderChannel : Option ℕ}
    (horder : OnChannelZero orderIndex orderChannel) {delivering : ServerState}
    (heq : receiveFrame env ready addr frame =
      deliver env delivering addr payload orderIndex orderChannel)
    (hchannels : delivering.channels addr.display = ready.channels addr.display)
    (hsplits : ∀ sid, delivering.splitBuffers.lookup (addr.display, sid) = none)
    (hdispatched : delivering.dispatched = ready.dispatched)
    (hrun : delivering.stuck = false) :
    Dispatches addr payload s (handleFrame env addr ready frame) := by
  obtain ⟨⟨idx, rfl⟩, rfl⟩ := horder
  have hrecord : (delivering.channels addr.display).lookup 0 = none := by
    rw [hchannels]
    exact hready.record
  obtain ⟨hemitted, hbuffered⟩ := deliver_unrecorded env hrecord payload idx
  have hdrained : Drained addr { (deliver env delivering addr payload (some idx) (some 0)).1 with
      dispatched := (deliver env delivering addr payload (some idx) (some 0)).1.dispatched ++
        [⟨addr.display, ⟨some (0, idx), payload⟩⟩] } := ⟨hsplits, hbuffered⟩
  have houtcome := dispatchEmitted_outcome env addr
    (deliver env delivering addr payload (some idx) (some 0)).1 ⟨some (0, idx), payload⟩
  have hlocal := houtcome.elim Keeps.toLocal Drops.toLocal
  have hhandled : handleFrame env addr ready frame = dispatchEmitted env addr
      (deliver env delivering addr payload (some idx) (some 0)).1 ⟨some (0, idx), payload⟩ := by
    unfold handleFrame
    dsimp only
    rw [heq, hemitted]
    exact forEach_singleton hrun
  rw [hhandled]
  constructor
  · have hlog : (dispatchEmitted env addr (deliver env delivering addr payload (some idx)
        (some 0)).1 ⟨some (0, idx), payload⟩).dispatchedTo addr.display =
          s.dispatchedTo addr.display ++ [⟨some (0, idx), payload⟩] := by
      apply dispatchedTo_append
      rw [hlocal.dispatched, ← hready.dispatched, ← hdispatched]
      rfl
    rw [hlog, List.map_append]
    rfl
  · exact hdrained.of_outcome houtcome

theorem Dispatches.of_keeps {after : ServerState} (h : Dispatches addr payload s s')
    (hkeeps : Keeps addr.display s' after) : Dispatches addr payload s after where
  dispatched := by
    rw [dispatchedTo_eq hkeeps.dispatched]
    exact h.dispatched
  drained := h.drained.of_outcome (.inl hkeeps)

/-- An unsplit frame is received at once. -/
theorem receiveFrameSet_unsplit (hs : Drained addr s) (hrun : s.stuck = false)
    (hactive : s.isActiveConnection addr = true) (hfresh : Unexpired env s addr) {f : OutFrame}
    (hsplit : f.split = none) :
    Dispatches addr f.chunk s (receiveFrameSet env addr s (f.frameSet 3)) := by
  obtain ⟨ready, hready, hkeeps⟩ := receiveFrameSet_single hs.buffered hrun hactive hfresh
    (show (f.frameSet 3).frames = [f.frame 3] from rfl)
  have hunsplit : (f.frame 3).isSplit = false := by
    unfold OutFrame.frame
    rw [hsplit]
    rfl
  refine (handleFrame_dispatches hready ⟨⟨f.counters.orderIdx, rfl⟩, rfl⟩
    (receiveFrame_unsplit hunsplit env ready addr)
    (ServerState.channels_ensureSession ready addr true 0 _) (fun sid => ?_) rfl
    hready.running).of_keeps hkeeps
  exact (hready.splits _).trans (hs.splits sid)

/-- A fragment that does not complete its message goes to those that came before it. -/
theorem Partway.keep (hs : Partway addr chunks sid idx s) {ready kept : ServerState}
    (hready : Ready addr s ready) {stored : SplitBuffer}
    (hstored : Holds OnChannelZero chunks (· < idx + 1) stored)
    (hstep : SplitStep (addr.display, sid) (some stored) (ready.ensureSession addr true 0) kept) :
    Partway addr chunks sid (idx + 1) kept where
  progress := by
    rw [hstep.splits, if_pos rfl]
    exact hstored
  others k hk := by
    rw [hstep.splits, if_neg fun h => hk (congrArg Prod.snd h)]
    exact (hready.splits _).trans (hs.others k hk)
  buffered channel hchannel := by
    rw [hstep.channels, ServerState.channels_ensureSession, hready.record] at hchannel
    cases hchannel

theorem Partway.of_keeps (hs : Partway addr chunks sid idx s)
    (hkeeps : Keeps addr.display s s') : Partway addr chunks sid idx s' where
  progress := by
    rw [hkeeps.splits]
    exact hs.progress
  others := by
    rw [hkeeps.splits]
    exact hs.others
  buffered := by
    unfold NothingBuffered
    rw [hkeeps.channels]
    exact hs.buffered

/-- A fragment is kept, or completes its message. -/
theorem receiveFrameSet_fragment (hlen : chunks.length ≤ maxSplitParts) {f : OutFrame}
    (hf : IsFragment chunks sid idx (f.frame 3)) (hs : Partway addr chunks sid idx s)
    (hrun : s.stuck = false) (hactive : s.isActiveConnection addr = true)
    (hfresh : Unexpired env s addr) :
    (idx + 1 < chunks.length ∧
      Partway addr chunks sid (idx + 1) (receiveFrameSet env addr s (f.frameSet 3)) ∧
      (receiveFrameSet env addr s (f.frameSet 3)).dispatchedTo addr.display =
        s.dispatchedTo addr.display) ∨
    (idx + 1 = chunks.length ∧
      Dispatches addr chunks.flatten s (receiveFrameSet env addr s (f.frameSet 3))) := by
  obtain ⟨ready, hready, hkeeps⟩ := receiveFrameSet_single hs.buffered hrun hactive hfresh
    (show (f.frameSet 3).frames = [f.frame 3] from rfl)
  have hidx : idx < chunks.length := (List.getElem?_eq_some_iff.mp hf.payload).1
  have hnext : (fun i => i < idx ∨ i = idx) = (· < idx + 1) := by
    ext i
    omega
  have hensured := ServerState.channels_ensureSession ready addr true 0 addr.display
  have hprogress := hs.progress
  rw [← hready.splits] at hprogress
  rcases receiveFrame_fragment hf hlen env ready addr hprogress
      (fun _ => ⟨⟨f.counters.orderIdx, rfl⟩, rfl⟩)
      (fun hall => absurd (hall idx hidx) (Nat.lt_irrefl idx)) with
    ⟨hmore, kept, stored, heq, hstored, hstep⟩ |
    ⟨hall, delivering, orderIndex, orderChannel, heq, horder, hstep⟩
  · left
    rw [hnext] at hstored
    have hhandled : handleFrame env addr ready (f.frame 3) = kept := by
      unfold handleFrame
      rw [heq]
      rfl
    rw [hhandled] at hkeeps
    refine ⟨?_, (hs.keep hready hstored hstep).of_keeps hkeeps, ?_⟩
    · by_contra hlast
      exact hmore fun i hi => by omega
    · exact dispatchedTo_eq ((hkeeps.dispatched.trans hstep.dispatched).trans hready.dispatched) _
  · right
    refine ⟨?_, (handleFrame_dispatches hready horder heq ((hstep.channels _).trans hensured)
      (fun k => ?_) hstep.dispatched (hstep.stuck.trans hready.running)).of_keeps hkeeps⟩
    · have := hall (chunks.length - 1) (by omega)
      omega
    · rw [hstep.splits]
      by_cases hk : k = sid
      · rw [if_pos (by rw [hk])]
      · rw [if_neg fun h => hk (congrArg Prod.snd h)]
        exact (hready.splits _).trans (hs.others k hk)

/-- The fragments of a message that are left are received like the whole of it. -/
theorem forEach_fragments (hlen : chunks.length ≤ maxSplitParts) {frames : List OutFrame}
    (hframes : AreFragments chunks sid idx (frames.map (·.frame 3))) (hne : frames ≠ [])
    (hs : Partway addr chunks sid idx s)
    (hserved : FrameSetsServed env addr s (frames.map (·.frameSet 3))) :
    Dispatches addr chunks.flatten s
      (forEach (receiveFrameSet env addr) s (frames.map (·.frameSet 3))) := by
  induction frames generalizing idx s with
  | nil => exact absurd rfl hne
  | cons f frames ih =>
    obtain ⟨hf, hrest⟩ := hframes
    obtain ⟨hrun, hactive, hfresh, hnext⟩ := hserved
    rw [List.map_cons]
    unfold forEach
    rw [if_neg (by simp [hrun])]
    rcases receiveFrameSet_fragment hlen hf hs hrun hactive hfresh with
      ⟨hmore, hpartway, hlog⟩ | ⟨hlast, hdispatches⟩
    · have hleft : frames ≠ [] := by
        rintro rfl
        have : chunks.length = idx + 1 := hrest
        omega
      have hwhole := ih hrest hleft hpartway hnext
      exact ⟨by rw [hwhole.dispatched, hlog], hwhole.drained⟩
    · have hnil : frames = [] := by
        cases frames with
        | nil => rfl
        | cons g frames =>
          have := (List.getElem?_eq_some_iff.mp hrest.1.payload).1
          omega
      rw [hnil]
      exact hdispatches

/-- The frame sets of one call are received as the payload. -/
theorem forEach_planFrames {mtu : ℕ} (hmtu : 25 ≤ mtu)
    (hlen : payload.length ≤ 512 * (mtu - 24)) (id : ℕ) (a : Allocated) (hs : Drained addr s)
    (hserved : FrameSetsServed env addr s ((planFrames mtu 3 payload id a).map (·.frameSet 3))) :
    Dispatches addr payload s (forEach (receiveFrameSet env addr) s
      ((planFrames mtu 3 payload id a).map (·.frameSet 3))) := by
  unfold planFrames at hserved ⊢
  by_cases hfits : fitsSingle mtu 3 payload
  · rw [if_pos hfits] at hserved ⊢
    obtain ⟨hrun, hactive, hfresh, -⟩ := hserved
    rw [List.map_singleton, forEach_singleton hrun]
    exact receiveFrameSet_unsplit (f := ⟨a, none, payload⟩) hs hrun hactive hfresh rfl
  · rw [if_neg hfits] at hserved ⊢
    dsimp only at hserved ⊢
    have hmax : maxFragPayload mtu 3 = mtu - 24 := maxFragPayload_eq hmtu 3
    rw [hmax] at hserved ⊢
    obtain ⟨hcount, htotal, -⟩ :=
      fragmentCount_le (show 0 < mtu - 24 by omega) (by decide) hlen
    generalize fragmentCount payload.length (mtu - 24) = count at *
    have hfragments := planFragments_areFragments 3 payload (mtu - 24) id count [] 0 a
    have hflatten := planFragments_flatten 3 payload (mtu - 24) count id count 0
      (show payload.length - 0 ≤ count * (mtu - 24) by omega) a
    have hlength := planFragments_length 3 payload (mtu - 24) count id count 0 0 a
    dsimp only [List.length_nil, List.nil_append] at hfragments
    rw [Nat.zero_add] at hfragments
    rw [fitsSingle_iff hmtu] at hfits
    generalize planFragments 3 payload (mtu - 24) count id count 0 0 a = plan at *
    have hne : plan ≠ [] := by
      rintro rfl
      rw [← hlength, List.length_nil, Nat.zero_mul] at htotal
      omega
    have hparts : (plan.map (·.chunk)).length ≤ maxSplitParts := by
      rw [List.length_map, hlength]
      exact hcount
    have hdispatches := forEach_fragments hparts hfragments hne (hs.partway _ id) hserved
    rwa [hflatten] at hdispatches

/-- The datagrams before the last served ones were served too. -/
theorem FrameSetsServed.append {as bs : List FrameSet}
    (h : FrameSetsServed env addr s (as ++ bs)) : FrameSetsServed env addr s as ∧
      FrameSetsServed env addr (forEach (receiveFrameSet env addr) s as) bs := by
  induction as generalizing s with
  | nil => exact ⟨trivial, h⟩
  | cons d as ih =>
    obtain ⟨hrun, hactive, hfresh, hnext⟩ := h
    obtain ⟨hfirst, hrest⟩ := ih hnext
    refine ⟨⟨hrun, hactive, hfresh, hfirst⟩, ?_⟩
    unfold forEach
    rw [if_neg (by simp [hrun])]
    exact hrest

/-- The payloads that are sent in turn are dispatched in turn, whichever of them are cut, to a
receiver that has the session at each datagram and in which no fragment expires. -/
theorem stream_received (env env' : ServerEnv) (s r : ServerState) (dest addr : SocketAddr)
    (payloads : List Bytes) (hmtu : 25 ≤ env.config.mtuSize)
    (hlen : ∀ p ∈ payloads, p.length ≤ 512 * (env.config.mtuSize - 24))
    (hchannel : (r.channels addr.display).lookup 0 = none)
    (hsplits : ∀ sid, r.splitBuffers.lookup (addr.display, sid) = none)
    (hserved : FrameSetsServed env' addr r (assignedFrameSets env dest s payloads)) :
    ((forEach (receiveFrameSet env' addr) r (assignedFrameSets env dest s payloads)).dispatchedTo
        addr.display).map (·.payload) =
      (r.dispatchedTo addr.display).map (·.payload) ++ payloads := by
  have hdrained : Drained addr r := by
    refine ⟨hsplits, fun channel hrecord => ?_⟩
    rw [hchannel] at hrecord
    cases hrecord
  clear hchannel hsplits
  induction payloads generalizing s r with
  | nil => exact (List.append_nil _).symm
  | cons payload payloads ih =>
    obtain ⟨hfirst, hrest⟩ := hserved.append
    have hdispatches : Dispatches addr payload r (forEach (receiveFrameSet env' addr) r
        ((outgoing env s payload 3 dest).map (·.frameSet 3))) :=
      forEach_planFrames hmtu (hlen payload List.mem_cons_self) _ _ hdrained hfirst
    have hothers :=
      ih _ _ (fun p hp => hlen p (List.mem_cons_of_mem _ hp)) hrest hdispatches.drained
    unfold assignedFrameSets
    rw [forEach_append, hothers, hdispatches.dispatched, List.append_assoc]
    rfl

/-- Three payloads of which the second is cut into twelve. -/
theorem stream_received_three :
    ((forEach (receiveFrameSet (.quiet 25) loopback) (freshServer 25 loopback)
      (assignedFrameSets (.quiet 25) loopback (freshServer 25 loopback)
        [[1], List.replicate 12 7, [2, 3]])).dispatchedTo loopback.display).map (·.payload) =
      [[1], List.replicate 12 7, [2, 3]] :=
  stream_received (.quiet 25) (.quiet 25) (freshServer 25 loopback) (freshServer 25 loopback)
    loopback loopback [[1], List.replicate 12 7, [2, 3]] (by decide) (by decide) rfl (fun _ => rfl)
    (by decide +kernel)

/-- An hour passes between two readings of the clock. -/
def slowEnv : ServerEnv := { ServerEnv.quiet 25 with instant := fun n => n * millis 3600000 }

/-- Fragments that wait too long are given up, and behind a disconnect nothing is handled. -/
theorem stream_cutShort :
    ((forEach (receiveFrameSet slowEnv loopback) (freshServer 25 loopback)
        (assignedFrameSets (.quiet 25) loopback (freshServer 25 loopback)
          [List.replicate 12 7])).dispatchedTo loopback.display).map (·.payload) ≠
      [List.replicate 12 7] ∧
    ((forEach (receiveFrameSet (.quiet 25) loopback) (freshServer 25 loopback)
        (assignedFrameSets (.quiet 25) loopback (freshServer 25 loopback)
          [[0x15], [1]])).dispatchedTo loopback.display).map (·.payload) ≠
      [[0x15], [1]] := by
  decide +kernel

end SkinGetBE.RakNet
