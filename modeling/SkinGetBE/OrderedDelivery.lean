import SkinGetBE.FrameRoundTrip
import SkinGetBE.OrderedQueue
import SkinGetBE.RakNetEffects

/-!
# Ordered delivery over runs

The record of an ordered channel is dropped at the next datagram once nothing is
buffered, and the next arrival makes a new one that adopts whatever index it
has. The dispatched indices increase exactly in the runs in which every such
index exceeds all that were dispatched before it.
-/
namespace SkinGetBE.RakNet
open Octets Text Tables

/-- What was dispatched for a peer, in order. -/
def ServerState.dispatchedTo (s : ServerState) (peer : Str) : List Emitted :=
  s.dispatched.filterMap fun d => if d.peer = peer then some d.emitted else none

/-- The order indices of what was emitted on a channel. -/
def orderedIndices (ch : ℕ) (emitted : List Emitted) : List ℕ :=
  emitted.filterMap fun e =>
    match e.order with
    | some (c, i) => if c = ch then some i else none
    | none => none

/-- The indices whose payloads were dispatched, in the order of dispatch. -/
def dispatchedIndices (peer : Str) (ch : ℕ) (s : ServerState) : List ℕ :=
  orderedIndices ch (s.dispatchedTo peer)

/-- An unsplit frame with a 24-bit index of the channel. -/
structure OrderedOn (ch idx : ℕ) (frame : RakNetFrame) : Prop where
  unsplit : frame.isSplit = false
  index : frame.orderIndex = some idx
  channel : frame.orderChannel = some ch
  bound : idx < 2 ^ 24

/-- The dispatched indices increase, and the record of the channel is ahead of them. -/
structure InOrder (peer : Str) (ch : ℕ) (s : ServerState) : Prop where
  increasing : (dispatchedIndices peer ch s).Pairwise (· < ·)
  inBounds : ∀ channel, (s.channels peer).lookup ch = some channel → channel.InBounds
  begun : ∀ channel, (s.channels peer).lookup ch = some channel → 0 < channel.nextIndex
  ahead : ∀ channel, (s.channels peer).lookup ch = some channel →
    ∀ i ∈ dispatchedIndices peer ch s, i < channel.nextIndex

/-- A frame that finds no record of its channel is ahead of what was dispatched. -/
def Ahead (peer : Str) (ch : ℕ) (s : ServerState) (frame : RakNetFrame) : Prop :=
  (s.channels peer).lookup ch = none → ∀ i ∈ dispatchedIndices peer ch s,
    i < frame.orderIndex.getD 0

@[simp] theorem orderedIndices_append (ch : ℕ) (a b : List Emitted) :
    orderedIndices ch (a ++ b) = orderedIndices ch a ++ orderedIndices ch b :=
  List.filterMap_append

theorem dispatchedTo_eq {s s' : ServerState} (h : s'.dispatched = s.dispatched) (peer : Str) :
    s'.dispatchedTo peer = s.dispatchedTo peer := by
  unfold ServerState.dispatchedTo
  rw [h]

theorem dispatchedTo_append {s s' : ServerState} {peer : Str} {done : List Emitted}
    (h : s'.dispatched = s.dispatched ++ done.map fun e => ⟨peer, e⟩) :
    s'.dispatchedTo peer = s.dispatchedTo peer ++ done := by
  unfold ServerState.dispatchedTo
  rw [h, List.filterMap_append, List.filterMap_map]
  have hall : (fun d : Dispatch => if d.peer = peer then some d.emitted else none) ∘
      (fun e => (⟨peer, e⟩ : Dispatch)) = some := by
    funext e
    simp
  rw [hall, List.filterMap_some]

theorem orderedIndices_of_orders {ch : ℕ} {emitted : List Emitted} {is : List ℕ}
    (h : emitted.map (·.order) = is.map fun i => some (ch, i)) :
    orderedIndices ch emitted = is := by
  induction emitted generalizing is with
  | nil =>
    cases is with
    | nil => rfl
    | cons i is => simp at h
  | cons e emitted ih =>
    cases is with
    | nil => simp at h
    | cons i is =>
      rw [List.map_cons, List.map_cons, List.cons.injEq] at h
      unfold orderedIndices
      rw [List.filterMap_cons, h.1]
      dsimp only
      rw [if_pos rfl]
      exact congrArg (i :: ·) (ih h.2)

theorem orderedIndices_beginning {ch start n : ℕ} {emitted done : List Emitted}
    (h : emitted.map (·.order) = (List.range' start n).map fun i => some (ch, i))
    (hdone : done <+: emitted) : ∃ k, k ≤ n ∧ orderedIndices ch done = List.range' start k := by
  obtain ⟨rest, rfl⟩ := hdone
  have hall := orderedIndices_of_orders h
  rw [orderedIndices_append] at hall
  obtain ⟨k, hk, hdone, -⟩ := List.range'_eq_append_iff.mp hall.symm
  exact ⟨k, hk, hdone⟩

theorem receiveFrame_unsplit {frame : RakNetFrame} (h : frame.isSplit = false) (env : ServerEnv)
    (s : ServerState) (addr : SocketAddr) : receiveFrame env s addr frame =
      deliver env (s.ensureSession addr true 0) addr frame.payload frame.orderIndex
        frame.orderChannel := by
  unfold receiveFrame
  rw [h]
  rfl

theorem deliver_channels (env : ServerEnv) (s : ServerState) (addr : SocketAddr) (payload : Bytes)
    (orderIndex orderChannel : Option ℕ) :
    (deliver env s addr payload orderIndex orderChannel).1.channels addr.display =
      (bufferOrderedPayload (s.sessionOf addr) payload orderIndex orderChannel
        (env.instant s.tick)).1.orderedChannels :=
  ServerState.channels_eq (AList.lookup_insert _)

theorem receiveFrame_arrival {ch idx : ℕ} {frame : RakNetFrame} (hf : OrderedOn ch idx frame)
    (env : ServerEnv) {s : ServerState} {addr : SocketAddr} (hs : InOrder addr.display ch s) :
    ∃ after start n,
      ((receiveFrame env s addr frame).1.channels addr.display).lookup ch = some after ∧
      Arrival ((s.channels addr.display).lookup ch) ch idx (receiveFrame env s addr frame).2
        after start n := by
  have hchannels : ((s.ensureSession addr true 0).sessionOf addr).orderedChannels =
      s.channels addr.display := by
    rw [ServerState.channels_sessionOf, ServerState.channels_ensureSession]
  rw [receiveFrame_unsplit hf.unsplit, hf.index, hf.channel, deliver_channels, ← hchannels]
  apply bufferOrderedPayload_arrival hf.bound
  intro record hrecord
  rw [hchannels] at hrecord
  exact ⟨hs.inBounds record hrecord, hs.begun record hrecord⟩

/-- What a frame dispatches is the beginning of what it released. -/
theorem handleFrame_dispatchedTo (env : ServerEnv) (s : ServerState) (addr : SocketAddr)
    (frame : RakNetFrame) (hunsplit : frame.isSplit = false) :
    ∃ done, done <+: (receiveFrame env s addr frame).2 ∧
      (s.stuck = false → (receiveFrame env s addr frame).2 ≠ [] → done ≠ []) ∧
      (handleFrame env addr s frame).dispatchedTo addr.display =
        s.dispatchedTo addr.display ++ done := by
  have hreleases := forEach_dispatchEmitted env addr (receiveFrame env s addr frame).1
    (receiveFrame env s addr frame).2
  obtain ⟨done, hdone, hstarted, hlog⟩ := hreleases.dispatched
  rw [receiveFrame_unsplit hunsplit] at hdone hstarted hlog ⊢
  refine ⟨done, hdone, hstarted, ?_⟩
  unfold handleFrame
  dsimp only
  rw [receiveFrame_unsplit hunsplit]
  exact dispatchedTo_append hlog

/-- The dispatch of what a frame released leaves its record, or none at all. -/
theorem handleFrame_record {env : ServerEnv} {s : ServerState} {addr : SocketAddr}
    {frame : RakNetFrame} {ch : ℕ} {channel : OrderedChannel}
    (h : ((handleFrame env addr s frame).channels addr.display).lookup ch = some channel) :
    ((receiveFrame env s addr frame).1.channels addr.display).lookup ch = some channel := by
  have hreleases := forEach_dispatchEmitted env addr (receiveFrame env s addr frame).1
    (receiveFrame env s addr frame).2
  unfold handleFrame at h
  dsimp only at h
  rcases hreleases.queues with ⟨-, hsame⟩ | ⟨-, hempty⟩
  · rwa [hsame] at h
  · rw [hempty] at h
    cases h

/-- What a frame that is ahead releases begins behind everything that was dispatched. -/
theorem Arrival.ahead {ch idx : ℕ} {frame : RakNetFrame} (hf : OrderedOn ch idx frame)
    {s : ServerState} {peer : Str} (hs : InOrder peer ch s) (hahead : Ahead peer ch s frame)
    {emitted : List Emitted} {after : OrderedChannel} {start n : ℕ}
    (harrival : Arrival ((s.channels peer).lookup ch) ch idx emitted after start n) :
    ∀ i ∈ dispatchedIndices peer ch s, i < start := by
  intro i hi
  cases hrecord : (s.channels peer).lookup ch with
  | none =>
    have hlt := hahead hrecord i hi
    rw [hf.index, Option.getD_some] at hlt
    rwa [(harrival.adopted hrecord).1]
  | some record =>
    rw [harrival.resumed record hrecord]
    exact hs.ahead record hrecord i hi

/-- The step of the invariant. -/
theorem handleFrame_inOrder {ch idx : ℕ} {frame : RakNetFrame} (hf : OrderedOn ch idx frame)
    (env : ServerEnv) {s : ServerState} {addr : SocketAddr} (hs : InOrder addr.display ch s)
    (hahead : Ahead addr.display ch s frame) :
    InOrder addr.display ch (handleFrame env addr s frame) := by
  obtain ⟨after, start, n, hafter, harrival⟩ := receiveFrame_arrival hf env hs
  obtain ⟨done, hdone, -, hlog⟩ := handleFrame_dispatchedTo env s addr frame hf.unsplit
  obtain ⟨k, hk, hindices⟩ := orderedIndices_beginning harrival.orders hdone
  have hbefore := harrival.ahead hf hs hahead
  have hnow : dispatchedIndices addr.display ch (handleFrame env addr s frame) =
      dispatchedIndices addr.display ch s ++ List.range' start k := by
    unfold dispatchedIndices
    rw [hlog, orderedIndices_append, hindices]
  have hrecords : ∀ channel,
      ((handleFrame env addr s frame).channels addr.display).lookup ch = some channel →
        channel = after := by
    intro channel hchannel
    have hsame := (handleFrame_record hchannel).symm.trans hafter
    exact Option.some.inj hsame
  constructor
  · rw [hnow, List.pairwise_append]
    refine ⟨hs.increasing, List.pairwise_lt_range', fun i hi j hj => ?_⟩
    have := hbefore i hi
    have := (List.mem_range'_1.mp hj).1
    omega
  · intro channel hchannel
    rw [hrecords channel hchannel]
    exact harrival.inBounds
  · intro channel hchannel
    rw [hrecords channel hchannel]
    exact harrival.begun
  · intro channel hchannel i hi
    rw [hrecords channel hchannel, harrival.nextIndex]
    rw [hnow, List.mem_append] at hi
    rcases hi with hi | hi
    · have := hbefore i hi
      omega
    · have := (List.mem_range'_1.mp hi).2
      omega

/-- A frame that is not ahead breaks the order at once. -/
theorem ahead_of_increasing {ch idx : ℕ} {frame : RakNetFrame} (hf : OrderedOn ch idx frame)
    (env : ServerEnv) {s : ServerState} {addr : SocketAddr} (hs : InOrder addr.display ch s)
    (hrun : s.stuck = false)
    (h : (dispatchedIndices addr.display ch (handleFrame env addr s frame)).Pairwise (· < ·)) :
    Ahead addr.display ch s frame := by
  intro hrecord i hi
  obtain ⟨after, start, n, -, harrival⟩ := receiveFrame_arrival hf env hs
  obtain ⟨rfl, rfl⟩ := harrival.adopted hrecord
  obtain ⟨done, hdone, hstarted, hlog⟩ := handleFrame_dispatchedTo env s addr frame hf.unsplit
  obtain ⟨e, he⟩ : ∃ e, (receiveFrame env s addr frame).2 = [e] :=
    List.length_eq_one_iff.mp (by simpa using congrArg List.length harrival.orders)
  have hall : done = (receiveFrame env s addr frame).2 := by
    have hne := hstarted hrun (by rw [he]; exact List.cons_ne_nil _ _)
    rw [he] at hdone ⊢
    exact hdone.eq_of_length_le (List.length_pos_iff.mpr hne)
  unfold dispatchedIndices at h
  rw [hlog, hall, orderedIndices_append, orderedIndices_of_orders harrival.orders,
    List.pairwise_append] at h
  rw [hf.index, Option.getD_some]
  exact h.2.2 i hi _ (by simp)

theorem dispatchedIndices_of_keeps {peer : Str} {s s' : ServerState} (h : Keeps peer s s')
    (ch : ℕ) : dispatchedIndices peer ch s' = dispatchedIndices peer ch s := by
  unfold dispatchedIndices
  rw [dispatchedTo_eq h.dispatched]

theorem inOrder_of_keeps {peer : Str} {ch : ℕ} {s s' : ServerState} (hs : InOrder peer ch s)
    (h : Keeps peer s s') : InOrder peer ch s' := by
  have hindices := dispatchedIndices_of_keeps h ch
  constructor
  · rw [hindices]
    exact hs.increasing
  · rw [h.channels]
    exact hs.inBounds
  · rw [h.channels]
    exact hs.begun
  · rw [h.channels, hindices]
    exact hs.ahead

/-- Pruning forgets records, and keeps the next index of those that stay. -/
theorem inOrder_pruneQueues {ch : ℕ} {s : ServerState} {addr : SocketAddr}
    (hs : InOrder addr.display ch s) (env : ServerEnv) :
    InOrder addr.display ch (pruneQueues env s addr) := by
  obtain ⟨now, hchannels⟩ := pruneQueues_channels env s addr
  have hrecord : ∀ kept, ((pruneQueues env s addr).channels addr.display).lookup ch = some kept →
      ∃ record, (s.channels addr.display).lookup ch = some record ∧
        pruneChannel now record = some kept := by
    intro kept hkept
    rw [hchannels, lookup_filterMap] at hkept
    exact Option.bind_eq_some_iff.mp hkept
  constructor
  · exact hs.increasing
  · intro kept hkept k hk
    obtain ⟨record, hbefore, hprune⟩ := hrecord kept hkept
    rw [(pruneChannel_eq_some hprune).2, lookup_retain] at hk
    apply hs.inBounds record hbefore
    cases hlookup : record.buffer.lookup k with
    | none =>
      rw [hlookup] at hk
      cases hk
    | some entry => rfl
  · intro kept hkept
    obtain ⟨record, hbefore, hprune⟩ := hrecord kept hkept
    rw [(pruneChannel_eq_some hprune).1]
    exact hs.begun record hbefore
  · intro kept hkept
    obtain ⟨record, hbefore, hprune⟩ := hrecord kept hkept
    rw [(pruneChannel_eq_some hprune).1]
    exact hs.ahead record hbefore

/-- Each frame is ahead when its turn comes. -/
def FramesAhead (env : ServerEnv) (addr : SocketAddr) (ch : ℕ) :
    ServerState → List RakNetFrame → Prop
  | _, [] => True
  | s, frame :: frames => s.stuck = false → Ahead addr.display ch s frame ∧
      FramesAhead env addr ch (handleFrame env addr s frame) frames

/-- Each frame of each datagram that is not ignored is ahead when its turn comes. -/
def DatagramsAhead (env : ServerEnv) (addr : SocketAddr) (ch : ℕ) :
    ServerState → List Bytes → Prop
  | _, [] => True
  | s, data :: datagrams => s.stuck = false →
      (s.isActiveConnection addr = true → FramesAhead env addr ch
        (markConnected (pruneQueues env s addr) addr) (framesOf data)) ∧
      DatagramsAhead env addr ch (handleGamePacket env addr s data) datagrams

section ForEach

variable {α : Type} {f : ServerState → α → ServerState} {allowed : α → Prop}
  {indices : ServerState → List ℕ}

theorem forEach_grows (hgrows : ∀ s x, allowed x → indices s <+: indices (f s x)) {xs : List α}
    (hxs : ∀ x ∈ xs, allowed x) (s : ServerState) : indices s <+: indices (forEach f s xs) := by
  induction xs generalizing s with
  | nil => exact List.prefix_rfl
  | cons x xs ih =>
    unfold forEach
    by_cases hstuck : s.stuck
    · rw [if_pos hstuck]
    · rw [if_neg hstuck]
      exact (hgrows s x (hxs x List.mem_cons_self)).trans
        (ih (fun y hy => hxs y (List.mem_cons_of_mem _ hy)) _)

/-- An invariant that each step keeps under a condition, which follows from the order of the
indices behind the step: a run keeps the invariant under the conditions of its steps, and these
follow from the order at its end. -/
theorem forEach_inOrder {inv : ServerState → Prop} {ahead : ServerState → α → Prop}
    {aheads : ServerState → List α → Prop} (hnil : ∀ s, aheads s [])
    (hcons : ∀ s x xs, aheads s (x :: xs) ↔
      (s.stuck = false → ahead s x ∧ aheads (f s x) xs))
    (hgrows : ∀ s x, allowed x → indices s <+: indices (f s x))
    (hforward : ∀ s x, allowed x → inv s → ahead s x → inv (f s x))
    (hbackward : ∀ s x, allowed x → inv s → s.stuck = false →
      (indices (f s x)).Pairwise (· < ·) → ahead s x)
    {xs : List α} (hxs : ∀ x ∈ xs, allowed x) {s : ServerState} (hs : inv s) :
    (aheads s xs → inv (forEach f s xs)) ∧
      ((indices (forEach f s xs)).Pairwise (· < ·) → aheads s xs) := by
  induction xs generalizing s with
  | nil => exact ⟨fun _ => hs, fun _ => hnil s⟩
  | cons x xs ih =>
    have hx := hxs x List.mem_cons_self
    have hrest : ∀ y ∈ xs, allowed y := fun y hy => hxs y (List.mem_cons_of_mem _ hy)
    rw [hcons]
    unfold forEach
    by_cases hstuck : s.stuck
    · rw [if_pos hstuck]
      exact ⟨fun _ => hs, fun _ h => by rw [hstuck] at h; cases h⟩
    · have hrun : s.stuck = false := by simpa using hstuck
      rw [if_neg hstuck]
      constructor
      · intro h
        obtain ⟨hahead, hnext⟩ := h hrun
        exact (ih hrest (hforward s x hx hs hahead)).1 hnext
      · intro hinc _
        have hfirst := List.Pairwise.sublist (forEach_grows hgrows hrest (f s x)).sublist hinc
        have hahead := hbackward s x hx hs hrun hfirst
        exact ⟨hahead, (ih hrest (hforward s x hx hs hahead)).2 hinc⟩

end ForEach

/-- The log of a peer only grows. -/
theorem handleFrame_grows {ch : ℕ} (env : ServerEnv) (addr : SocketAddr) (s : ServerState)
    (f : RakNetFrame) (hf : ∃ idx, OrderedOn ch idx f) : dispatchedIndices addr.display ch s <+:
      dispatchedIndices addr.display ch (handleFrame env addr s f) := by
  obtain ⟨idx, hf⟩ := hf
  obtain ⟨done, -, -, hlog⟩ := handleFrame_dispatchedTo env s addr f hf.unsplit
  unfold dispatchedIndices
  rw [hlog, orderedIndices_append]
  exact List.prefix_append _ _

theorem forEach_handleFrame_inOrder {ch : ℕ} {frames : List RakNetFrame}
    (hframes : ∀ f ∈ frames, ∃ idx, OrderedOn ch idx f) (env : ServerEnv) (addr : SocketAddr)
    {s : ServerState} (hs : InOrder addr.display ch s) :
    (FramesAhead env addr ch s frames →
      InOrder addr.display ch (forEach (handleFrame env addr) s frames)) ∧
    ((dispatchedIndices addr.display ch (forEach (handleFrame env addr) s frames)).Pairwise
      (· < ·) → FramesAhead env addr ch s frames) := by
  refine forEach_inOrder (fun _ => trivial) (fun _ _ _ => Iff.rfl) (handleFrame_grows env addr)
    ?_ ?_ hframes hs
  · rintro s f ⟨idx, hf⟩ hs hahead
    exact handleFrame_inOrder hf env hs hahead
  · rintro s f ⟨idx, hf⟩ hs hrun hinc
    exact ahead_of_increasing hf env hs hrun hinc

theorem handleGamePacket_grows {ch : ℕ} {data : Bytes}
    (hframes : ∀ f ∈ framesOf data, ∃ idx, OrderedOn ch idx f) (env : ServerEnv)
    (addr : SocketAddr) (s : ServerState) : dispatchedIndices addr.display ch s <+:
      dispatchedIndices addr.display ch (handleGamePacket env addr s data) := by
  rcases handleGamePacket_cases env addr s data with
    ⟨-, heq⟩ | ⟨-, -, hsame⟩ | ⟨-, hsame⟩
  · rw [heq]
  · rw [dispatchedIndices_of_keeps (keeps_of_same hsame)]
    exact List.prefix_rfl
  · rw [dispatchedIndices_of_keeps (keeps_of_same hsame)]
    exact forEach_grows (handleFrame_grows env addr) hframes
      (markConnected (pruneQueues env s addr) addr)

/-- One datagram: what it needs for the order, and that the order needs it. -/
theorem handleGamePacket_inOrder {ch : ℕ} {data : Bytes}
    (hframes : ∀ f ∈ framesOf data, ∃ idx, OrderedOn ch idx f) (env : ServerEnv)
    (addr : SocketAddr) {s : ServerState} (hs : InOrder addr.display ch s) :
    ((s.isActiveConnection addr = true → FramesAhead env addr ch
        (markConnected (pruneQueues env s addr) addr) (framesOf data)) →
      InOrder addr.display ch (handleGamePacket env addr s data)) ∧
    ((dispatchedIndices addr.display ch (handleGamePacket env addr s data)).Pairwise (· < ·) →
      s.isActiveConnection addr = true → FramesAhead env addr ch
        (markConnected (pruneQueues env s addr) addr) (framesOf data)) := by
  have hpruned := inOrder_pruneQueues hs env
  have hstart := inOrder_of_keeps hpruned (keeps_markConnected _ addr)
  obtain ⟨hforward, hbackward⟩ := forEach_handleFrame_inOrder hframes env addr hstart
  rcases handleGamePacket_cases env addr s data with
    ⟨hinactive, heq⟩ | ⟨-, hnil, hsame⟩ | ⟨hactive, hsame⟩
  · rw [heq, hinactive]
    exact ⟨fun _ => hs, fun _ h => absurd h (by decide)⟩
  · rw [hnil]
    exact ⟨fun _ => inOrder_of_keeps hpruned (keeps_of_same hsame), fun _ _ => trivial⟩
  · have hkeeps : Keeps addr.display _ _ := keeps_of_same hsame
    rw [dispatchedIndices_of_keeps hkeeps]
    exact ⟨fun h => inOrder_of_keeps (hforward (h hactive)) hkeeps, fun h _ => hbackward h⟩

/-- The invariant over a run, and the condition on its steps that the order needs. -/
theorem handleGamePackets_inOrder {ch : ℕ} {datagrams : List Bytes}
    (hframes : ∀ data ∈ datagrams, ∀ f ∈ framesOf data, ∃ idx, OrderedOn ch idx f)
    (env : ServerEnv) (addr : SocketAddr) {s : ServerState} (hs : InOrder addr.display ch s) :
    (DatagramsAhead env addr ch s datagrams →
      InOrder addr.display ch (handleGamePackets env addr s datagrams)) ∧
    ((dispatchedIndices addr.display ch (handleGamePackets env addr s datagrams)).Pairwise
      (· < ·) → DatagramsAhead env addr ch s datagrams) := by
  refine forEach_inOrder (fun _ => trivial) (fun _ _ _ => Iff.rfl)
    (fun s _ hdata => handleGamePacket_grows hdata env addr s) ?_ ?_ hframes hs
  · intro s data hdata hs hahead
    exact (handleGamePacket_inOrder hdata env addr hs).1 hahead
  · intro s data hdata hs _ hinc
    exact (handleGamePacket_inOrder hdata env addr hs).2 hinc

/-- From a state in which nothing was received on the channel, the dispatched indices of a run
increase exactly when each frame that finds no record is ahead of what was dispatched. -/
theorem dispatched_in_order_iff (env : ServerEnv) (addr : SocketAddr) (ch : ℕ) (s : ServerState)
    (datagrams : List Bytes)
    (hframes : ∀ data ∈ datagrams, ∀ f ∈ framesOf data, ∃ idx, OrderedOn ch idx f)
    (hfresh : (s.channels addr.display).lookup ch = none)
    (hnone : dispatchedIndices addr.display ch s = []) :
    (dispatchedIndices addr.display ch (handleGamePackets env addr s datagrams)).Pairwise
        (· < ·) ↔
      DatagramsAhead env addr ch s datagrams := by
  have hs : InOrder addr.display ch s := by
    constructor
    · rw [hnone]
      exact List.Pairwise.nil
    all_goals
      intro channel hchannel
      rw [hfresh] at hchannel
      cases hchannel
  obtain ⟨hforward, hbackward⟩ := handleGamePackets_inOrder hframes env addr hs
  exact ⟨hbackward, fun h => (hforward h).increasing⟩

/-- A server that has just met one peer. -/
def freshServer (mtuSize : ℕ) (addr : SocketAddr) : ServerState :=
  (ServerState.new (ServerEnv.quiet mtuSize).config .empty).ensureSession addr true 0

/-- A reliable ordered frame on channel zero that confirms the connection. -/
def orderedFrame (seq idx : ℕ) : OutFrame := ⟨⟨seq, seq, idx⟩, none, [0x13]⟩

theorem framesOf_orderedFrame {seq idx : ℕ} (hseq : seq < 2 ^ 24) (hidx : idx < 2 ^ 24) :
    framesOf ((orderedFrame seq idx).datagram 3) = [(orderedFrame seq idx).frame 3] :=
  framesOf_eq (parseFrameSet_single (by decide) ⟨hseq, hseq, hidx⟩ (by simp))

theorem orderedFrame_orderedOn {seq idx : ℕ} (hidx : idx < 2 ^ 24) :
    OrderedOn 0 idx ((orderedFrame seq idx).frame 3) :=
  ⟨rfl, rfl, rfl, hidx⟩

/-- Two frames in order meet the condition. -/
theorem dispatched_in_order_two : DatagramsAhead (.quiet 1492) loopback 0
    (freshServer 1492 loopback)
    [(orderedFrame 0 0).datagram 3, (orderedFrame 1 1).datagram 3] := by
  refine (dispatched_in_order_iff (.quiet 1492) loopback 0 _ _ ?_ rfl rfl).mp (by decide +kernel)
  intro data hdata f hf
  rcases List.mem_pair.mp hdata with rfl | rfl
  · rw [framesOf_orderedFrame (by decide) (by decide), List.mem_singleton] at hf
    exact ⟨0, hf ▸ orderedFrame_orderedOn (by decide)⟩
  · rw [framesOf_orderedFrame (by decide) (by decide), List.mem_singleton] at hf
    exact ⟨1, hf ▸ orderedFrame_orderedOn (by decide)⟩

/-- A datagram that is repeated is dispatched again. -/
theorem dispatched_in_order_repeated : ¬ (dispatchedIndices loopback.display 0
    (handleGamePackets (.quiet 1492) loopback (freshServer 1492 loopback)
      [(orderedFrame 0 5).datagram 3, (orderedFrame 0 5).datagram 3])).Pairwise (· < ·) := by
  decide +kernel

end SkinGetBE.RakNet
