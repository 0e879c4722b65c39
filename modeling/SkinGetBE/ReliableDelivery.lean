import SkinGetBE.OrderedDelivery
import SkinGetBE.SplitBuffers

/-!
# What is dispatched was received

The receiver keeps no record of reliable indices, so a repeated datagram is
dispatched again. It makes nothing up either: every dispatch uses up an arrival
of an unsplit frame, or one arrival of each fragment of a split message.
-/
namespace SkinGetBE.RakNet
open Octets Text Tables

section Weights

variable (f : Bytes → ℕ)

/-- The messages of the peer that were put together. -/
def ServerState.assembledOf (s : ServerState) (peer : Str) : List Assembly :=
  s.assembled.filter fun a => a.peer = peer

def emittedWeight (emitted : List Emitted) : ℕ := (emitted.map fun e => f e.payload).sum

def assembledWeight (peer : Str) (s : ServerState) : ℕ :=
  ((s.assembledOf peer).map fun a => f a.payload).sum

/-- The weight of what is buffered on the channels. -/
def channelsWeight (channels : Table ℕ OrderedChannel) : ℕ :=
  weight (fun channel => weight (fun e => f e.1) channel.buffer) channels

def unsplitWeight (frames : List RakNetFrame) : ℕ :=
  ((frames.filter fun g => !g.isSplit).map fun g => f g.payload).sum

variable {f}

@[simp] theorem emittedWeight_append (a b : List Emitted) :
    emittedWeight f (a ++ b) = emittedWeight f a + emittedWeight f b := by
  simp [emittedWeight]

@[simp] theorem unsplitWeight_append (a b : List RakNetFrame) :
    unsplitWeight f (a ++ b) = unsplitWeight f a + unsplitWeight f b := by
  simp [unsplitWeight]

/-- A payload is released once or stays in the buffer; one that it displaces is lost. -/
theorem bufferOrderedPayload_weight (session : ClientSession) (payload : Bytes)
    (orderIndex orderChannel : Option ℕ) (now : ℕ) :
    let out := bufferOrderedPayload session payload orderIndex orderChannel now
    channelsWeight f out.1.orderedChannels + emittedWeight f out.2 ≤
      channelsWeight f session.orderedChannels + f payload := by
  cases orderIndex with
  | none => simp [bufferOrderedPayload, emittedWeight]
  | some idx =>
    unfold bufferOrderedPayload channelsWeight emittedWeight
    dsimp only
    generalize hbefore : getOr (orderChannel.getD 0) ⟨0, ∅⟩ session.orderedChannels = before
    have hflush := flushChannel_weight f (size (insertOrdered before idx payload now).buffer)
      (insertOrdered before idx payload now)
    have hinsert := weight_insert (fun e : Bytes × ℕ => f e.1) idx (payload, now) before.buffer
    have hrecord := weight_insert
      (fun channel : OrderedChannel => weight (fun e => f e.1) channel.buffer)
      (orderChannel.getD 0) (flushChannel (size (insertOrdered before idx payload now).buffer)
        (insertOrdered before idx payload now)).1 session.orderedChannels
    have hold : (session.orderedChannels.lookup (orderChannel.getD 0)).elim 0
        (fun channel => weight (fun e => f e.1) channel.buffer) =
          weight (fun e => f e.1) before.buffer := by
      rw [← hbefore]
      unfold getOr
      cases session.orderedChannels.lookup (orderChannel.getD 0) with
      | some channel => rfl
      | none => rfl
    have hbuffer : (insertOrdered before idx payload now).buffer =
        before.buffer.insert idx (payload, now) := rfl
    rw [hold] at hrecord
    rw [hbuffer] at hflush
    dsimp only at hinsert hrecord
    rw [List.map_map]
    simp only [Function.comp_def]
    rw [hbuffer] at hrecord ⊢
    omega

theorem pruneChannels_weight (now : ℕ) (channels : Table ℕ OrderedChannel) :
    channelsWeight f (filterMap (fun _ channel => pruneChannel now channel) channels) ≤
      channelsWeight f channels := by
  apply weight_filterMap_le
  intro _ channel kept hkept
  rw [(pruneChannel_eq_some hkept).2]
  apply weight_filterMap_le
  intro _ entry entry' hentry
  by_cases h : isFresh now entry.2
  · rw [if_pos h] at hentry
    rw [Option.some.inj hentry]
  · rw [if_neg h] at hentry
    cases hentry

end Weights

/-- The frame carries the fragment `i` of a message under `sid`. -/
def CarriesFragment (sid i : ℕ) (frame : RakNetFrame) : Prop :=
  frame.isSplit = true ∧ frame.splitId = some sid ∧ frame.splitIndex.getD 0 = i

instance (sid i : ℕ) (frame : RakNetFrame) : Decidable (CarriesFragment sid i frame) :=
  inferInstanceAs (Decidable (_ ∧ _ ∧ _))

/-- A fragment that is flagged after the frame came with it, or was flagged before. -/
def Grew (before : Option SplitBuffer) (frame : RakNetFrame) (after : SplitBuffer) : Prop :=
  ∀ i, after.received[i]? = some true →
    (frame.splitIndex.getD 0 = i ∧ after.fragments[i]? = some frame.payload) ∨
    ∃ entry, before = some entry ∧ entry.received[i]? = some true ∧
      after.fragments[i]? = entry.fragments[i]?

theorem grew_new (count createdAt : ℕ) (frame : RakNetFrame) :
    Grew none frame (.new count createdAt frame) := by
  intro i hi
  have := List.mem_of_getElem? hi
  simp [SplitBuffer.new] at this

theorem grew_same (frame : RakNetFrame) (entry : SplitBuffer) : Grew (some entry) frame entry :=
  fun _ hi => .inr ⟨entry, rfl, hi, rfl⟩

theorem Grew.store {before : Option SplitBuffer} {frame : RakNetFrame} {entry : SplitBuffer}
    (hentry : Grew before frame entry)
    (h : entry.received[frame.splitIndex.getD 0]? = some false) :
    Grew before frame (entry.store (frame.splitIndex.getD 0) frame.payload h) := by
  intro i hi
  rw [SplitBuffer.store_flag] at hi
  rw [SplitBuffer.store_fragments]
  by_cases hidx : i = frame.splitIndex.getD 0
  · subst hidx
    have hlt : frame.splitIndex.getD 0 < entry.fragments.length := by
      rw [entry.fragments_length, ← entry.received_length]
      exact (List.getElem?_eq_some_iff.mp h).1
    exact .inl ⟨rfl, List.getElem?_set_self hlt⟩
  · rw [List.getElem?_set_ne (Ne.symm hidx)]
    exact hentry i (hi.resolve_right hidx)

/-- The outcome of a frame that leaves the payload to deliver, if any, to the ordered buffer. -/
inductive Received (env : ServerEnv) (s : ServerState) (addr : SocketAddr) (frame : RakNetFrame) :
    ServerState × List Emitted → Prop
  | unsplit (h : frame.isSplit = false) : Received env s addr frame
      (deliver env s addr frame.payload frame.orderIndex frame.orderChannel)
  | ignored : Received env s addr frame (s, [])
  | kept (sid : ℕ) (entry : SplitBuffer) (s' : ServerState) (h : frame.isSplit = true)
      (hsid : frame.splitId = some sid)
      (hgrew : Grew (s.splitBuffers.lookup (addr.display, sid)) frame entry)
      (hstep : SplitStep (addr.display, sid) (some entry) s s')
      (hassembled : s'.assembled = s.assembled) : Received env s addr frame (s', [])
  | completed (sid : ℕ) (entry : SplitBuffer) (s' : ServerState) (h : frame.isSplit = true)
      (hsid : frame.splitId = some sid)
      (hgrew : Grew (s.splitBuffers.lookup (addr.display, sid)) frame entry)
      (hcomplete : entry.receivedCount = entry.count)
      (hstep : SplitStep (addr.display, sid) none s s')
      (hassembled : s'.assembled =
        s.assembled ++ [⟨addr.display, sid, entry.count, entry.fragments.flatten⟩]) :
      Received env s addr frame
        (deliver env s' addr entry.fragments.flatten entry.orderIndex entry.orderChannel)

theorem stored_received {env : ServerEnv} {s : ServerState} {addr : SocketAddr}
    {frame : RakNetFrame} {sid : ℕ} (h : frame.isSplit = true) (hsid : frame.splitId = some sid)
    {entry : SplitBuffer} (hgrew : Grew (s.splitBuffers.lookup (addr.display, sid)) frame entry)
    {out : ServerState × List Emitted} (hout : Stored env s.advance addr sid entry
      (frame.splitIndex.getD 0) frame.payload out) : Received env s addr frame out := by
  cases hout with
  | repeated s' hset hstep hassembled =>
    exact .kept sid entry s' h hsid hgrew hstep.of_advance hassembled
  | kept s' hclear hmore hstep hassembled =>
    exact .kept sid _ s' h hsid (hgrew.store hclear) hstep.of_advance hassembled
  | completed s' stored hclear heq hcomplete hstep hassembled =>
    have hstored := hgrew.store hclear
    rw [← heq] at hstored
    exact .completed sid stored s' h hsid hstored hcomplete hstep.of_advance hassembled

theorem receiveFrame_received (env : ServerEnv) (s : ServerState) (addr : SocketAddr)
    (frame : RakNetFrame) :
    Received env (s.ensureSession addr true 0) addr frame (receiveFrame env s addr frame) := by
  generalize hs : s.ensureSession addr true 0 = s₀
  unfold receiveFrame
  dsimp only
  rw [hs]
  cases hsplit : frame.isSplit with
  | false => exact .unsplit hsplit
  | true =>
    rw [if_pos rfl]
    unfold receiveSplit
    cases hsid : frame.splitId with
    | none => exact .ignored
    | some sid =>
      dsimp only
      by_cases hzero : frame.splitCount.getD 0 = 0
      · rw [if_pos hzero]
        exact .ignored
      · rw [if_neg hzero]
        by_cases hmany : frame.splitCount.getD 0 > maxSplitParts
        · rw [if_pos hmany]
          exact .ignored
        · rw [if_neg hmany]
          refine stored_received hsplit hsid ?_ (storeFragment_stored env s₀.advance addr sid _ _ _)
          unfold getOr
          cases hlookup : s₀.splitBuffers.lookup (addr.display, sid) with
          | none => exact grew_new _ _ frame
          | some entry => exact grew_same frame entry

/-- How often a message under `sid` with an index `i` was put together. -/
def completedCount (peer : Str) (sid i : ℕ) (s : ServerState) : ℕ :=
  (s.assembledOf peer).countP fun a => a.splitId = sid ∧ i < a.count

def fragmentArrivals (sid i : ℕ) (frames : List RakNetFrame) : ℕ :=
  frames.countP fun frame => CarriesFragment sid i frame

def flagged (entry : Option SplitBuffer) (i : ℕ) : ℕ :=
  if entry.any fun e => e.received[i]? = some true then 1 else 0

/-- One of the frames carries `part` as the fragment `i` of a message under `sid`. -/
def Carried (frames : List RakNetFrame) (sid i : ℕ) (part : Option Bytes) : Prop :=
  ∃ frame ∈ frames, CarriesFragment sid i frame ∧ part = some frame.payload

/-- What was dispatched, is about to be or is buffered has arrived unsplit or was put together;
each fragment that is stored or was used has arrived. -/
structure Accounted (peer : Str) (frames : List RakNetFrame) (pending : List Emitted)
    (s : ServerState) : Prop where
  payloads : ∀ f : Bytes → ℕ, emittedWeight f (s.dispatchedTo peer) + emittedWeight f pending +
    channelsWeight f (s.channels peer) ≤ unsplitWeight f frames + assembledWeight f peer s
  fragments : ∀ sid i, completedCount peer sid i s +
    flagged (s.splitBuffers.lookup (peer, sid)) i ≤ fragmentArrivals sid i frames
  stored : ∀ sid entry, s.splitBuffers.lookup (peer, sid) = some entry →
    ∀ i, entry.received[i]? = some true → Carried frames sid i entry.fragments[i]?
  assembled : ∀ a ∈ s.assembledOf peer, ∃ parts : List Bytes, a.payload = parts.flatten ∧
    parts.length = a.count ∧ ∀ i < a.count, Carried frames a.splitId i parts[i]?

theorem Carried.append {frames : List RakNetFrame} {sid i : ℕ} {part : Option Bytes}
    (h : Carried frames sid i part) (more : List RakNetFrame) :
    Carried (frames ++ more) sid i part := by
  obtain ⟨frame, hmem, hframe⟩ := h
  exact ⟨frame, List.mem_append_left _ hmem, hframe⟩

theorem fragmentArrivals_snoc (sid i : ℕ) (frames : List RakNetFrame) (frame : RakNetFrame) :
    fragmentArrivals sid i (frames ++ [frame]) = fragmentArrivals sid i frames +
      if CarriesFragment sid i frame then 1 else 0 := by
  simp [fragmentArrivals, List.countP_append, List.countP_singleton]

theorem assembledOf_eq {s s' : ServerState} (h : s'.assembled = s.assembled) (peer : Str) :
    s'.assembledOf peer = s.assembledOf peer := by
  unfold ServerState.assembledOf
  rw [h]

variable {peer : Str} {frames : List RakNetFrame} {pending pending' : List Emitted}
  {s s' : ServerState}

/-- A step that puts nothing together and adds no payload. -/
theorem Accounted.of_le (h : Accounted peer frames pending s)
    (hweight : ∀ f, emittedWeight f (s'.dispatchedTo peer) + emittedWeight f pending' +
        channelsWeight f (s'.channels peer) ≤
      emittedWeight f (s.dispatchedTo peer) + emittedWeight f pending +
        channelsWeight f (s.channels peer))
    (hassembled : s'.assembled = s.assembled)
    (hsplits : ∀ sid, s'.splitBuffers.lookup (peer, sid) = s.splitBuffers.lookup (peer, sid) ∨
      s'.splitBuffers.lookup (peer, sid) = none) : Accounted peer frames pending' s' where
  payloads f := by
    unfold assembledWeight
    rw [assembledOf_eq hassembled]
    exact (hweight f).trans (h.payloads f)
  fragments sid i := by
    have hbefore := h.fragments sid i
    unfold completedCount at hbefore ⊢
    rw [assembledOf_eq hassembled]
    rcases hsplits sid with hsame | hnone
    · rwa [hsame]
    · rw [hnone]
      exact (Nat.le_add_right _ _).trans hbefore
  stored sid entry hentry := by
    rcases hsplits sid with hsame | hnone
    · rw [hsame] at hentry
      exact h.stored sid entry hentry
    · rw [hnone] at hentry
      cases hentry
  assembled := by
    rw [assembledOf_eq hassembled]
    exact h.assembled

theorem Accounted.keeps (h : Accounted peer frames pending s) (hkeeps : Keeps peer s s') :
    Accounted peer frames pending s' := by
  refine h.of_le (fun f => ?_) hkeeps.assembled fun sid => .inl (by rw [hkeeps.splits])
  rw [dispatchedTo_eq hkeeps.dispatched, hkeeps.channels]

/-- Arrivals that are of no use. -/
theorem Accounted.arrive (h : Accounted peer frames pending s) (more : List RakNetFrame) :
    Accounted peer (frames ++ more) pending s where
  payloads f := by
    rw [unsplitWeight_append]
    have := h.payloads f
    omega
  fragments sid i := by
    have := h.fragments sid i
    unfold fragmentArrivals at this ⊢
    rw [List.countP_append]
    omega
  stored sid entry hentry i hi := (h.stored sid entry hentry i hi).append _
  assembled a ha := by
    obtain ⟨parts, hpayload, hlength, hparts⟩ := h.assembled a ha
    exact ⟨parts, hpayload, hlength, fun i hi => (hparts i hi).append _⟩

/-- The ordered buffer takes a payload that is due. -/
theorem deliver_accounted {env : ServerEnv} {addr : SocketAddr} {payload : Bytes}
    (h : Accounted addr.display frames [⟨none, payload⟩] s) (orderIndex orderChannel : Option ℕ) :
    Accounted addr.display frames (deliver env s addr payload orderIndex orderChannel).2
      (deliver env s addr payload orderIndex orderChannel).1 := by
  refine h.of_le (fun f => ?_) rfl fun _ => .inl rfl
  have hweight := bufferOrderedPayload_weight (f := f) (s.sessionOf addr) payload orderIndex
    orderChannel (env.instant s.tick)
  rw [ServerState.channels_sessionOf] at hweight
  have hsingle : emittedWeight f [⟨none, payload⟩] = f payload := Nat.add_zero _
  have hlog : (deliver env s addr payload orderIndex orderChannel).1.dispatchedTo addr.display =
      s.dispatchedTo addr.display := rfl
  rw [deliver_channels, hlog, hsingle]
  unfold deliver
  dsimp only at hweight ⊢
  omega

/-- What was released is dispatched as far as the handling gets. -/
theorem forEach_dispatchEmitted_accounted {addr : SocketAddr} (env : ServerEnv)
    (h : Accounted addr.display frames pending s) :
    Accounted addr.display frames [] (forEach (dispatchEmitted env addr) s pending) := by
  have hreleases := forEach_dispatchEmitted env addr s pending
  obtain ⟨done, ⟨rest, rfl⟩, -, hlog⟩ := hreleases.dispatched
  refine h.of_le (fun f => ?_) hreleases.assembled fun sid => ?_
  · rw [dispatchedTo_append hlog, emittedWeight_append, emittedWeight_append]
    rcases hreleases.queues with ⟨-, hchannels⟩ | ⟨-, hchannels⟩
    · rw [hchannels]
      simp only [emittedWeight, List.map_nil, List.sum_nil]
      omega
    · rw [hchannels]
      simp only [emittedWeight, channelsWeight, weight_empty, List.map_nil, List.sum_nil]
      omega
  · rcases hreleases.queues with ⟨hsplits, -⟩ | ⟨hsplits, -⟩
    · exact .inl (by rw [hsplits])
    · exact .inr (by rw [hsplits, if_pos rfl])

/-- The flags that a frame adds are accounted for by its arrival. -/
theorem flagged_grew {frame : RakNetFrame} {sid : ℕ} (h : frame.isSplit = true)
    (hsid : frame.splitId = some sid) {before : Option SplitBuffer} {after : SplitBuffer}
    (hgrew : Grew before frame after) {i : ℕ} (hi : after.received[i]? = some true) :
    1 ≤ flagged before i + if CarriesFragment sid i frame then 1 else 0 := by
  rcases hgrew i hi with ⟨hidx, -⟩ | ⟨entry, hbefore, hflag, -⟩
  · rw [if_pos ⟨h, hsid, hidx⟩]
    exact Nat.le_add_left _ _
  · rw [hbefore]
    simp [flagged, hflag]

theorem flagged_le (entry : Option SplitBuffer) (i : ℕ) : flagged entry i ≤ 1 := by
  unfold flagged
  split_ifs <;> omega

/-- What is stored after a frame has arrived, with it at the latest. -/
theorem Accounted.carried (hs : Accounted peer frames pending s) {frame : RakNetFrame} {sid : ℕ}
    (h : frame.isSplit = true) (hsid : frame.splitId = some sid) {after : SplitBuffer}
    (hgrew : Grew (s.splitBuffers.lookup (peer, sid)) frame after) {i : ℕ}
    (hi : after.received[i]? = some true) :
    Carried (frames ++ [frame]) sid i after.fragments[i]? := by
  rcases hgrew i hi with ⟨hidx, hpart⟩ | ⟨entry, hbefore, hflag, hpart⟩
  · exact ⟨frame, List.mem_append_right _ (List.mem_singleton.mpr rfl), ⟨h, hsid, hidx⟩, hpart⟩
  · rw [hpart]
    exact (hs.stored sid entry hbefore i hflag).append _

/-- The other messages are accounted for as before. -/
theorem Accounted.fragments_other (hs : Accounted peer frames pending s) (frame : RakNetFrame)
    (sid i : ℕ) : completedCount peer sid i s + flagged (s.splitBuffers.lookup (peer, sid)) i ≤
      fragmentArrivals sid i (frames ++ [frame]) :=
  (hs.arrive [frame]).fragments sid i

/-- A fragment is stored, or had been. -/
theorem Accounted.kept {addr : SocketAddr} {frame : RakNetFrame} {sid : ℕ} {entry : SplitBuffer}
    (hs : Accounted addr.display frames [] s) (h : frame.isSplit = true)
    (hsid : frame.splitId = some sid)
    (hgrew : Grew (s.splitBuffers.lookup (addr.display, sid)) frame entry)
    (hstep : SplitStep (addr.display, sid) (some entry) s s')
    (hassembled : s'.assembled = s.assembled) :
    Accounted addr.display (frames ++ [frame]) [] s' where
  payloads f := by
    have hlog := dispatchedTo_eq hstep.dispatched addr.display
    have hchannels := hstep.channels addr.display
    have hmore := (hs.arrive [frame]).payloads f
    unfold assembledWeight at hmore ⊢
    rwa [hlog, hchannels, assembledOf_eq hassembled]
  fragments sid' i := by
    have hcount : completedCount addr.display sid' i s' = completedCount addr.display sid' i s := by
      unfold completedCount
      rw [assembledOf_eq hassembled]
    rw [hcount, hstep.splits]
    by_cases hkey : (addr.display, sid') = (addr.display, sid)
    · obtain rfl : sid' = sid := congrArg Prod.snd hkey
      rw [if_pos rfl]
      by_cases hi : entry.received[i]? = some true
      · have hgrown := flagged_grew h hsid hgrew hi
        have hbefore := hs.fragments sid' i
        have hone := flagged_le (some entry) i
        rw [fragmentArrivals_snoc]
        omega
      · have hnone : flagged (some entry) i = 0 := if_neg (by simpa using hi)
        have hbefore := hs.fragments_other frame sid' i
        omega
    · rw [if_neg hkey]
      exact hs.fragments_other frame sid' i
  stored sid' entry' hentry i hi := by
    rw [hstep.splits] at hentry
    by_cases hkey : (addr.display, sid') = (addr.display, sid)
    · obtain rfl : sid' = sid := congrArg Prod.snd hkey
      rw [if_pos rfl] at hentry
      obtain rfl : entry = entry' := Option.some.inj hentry
      exact hs.carried h hsid hgrew hi
    · rw [if_neg hkey] at hentry
      exact (hs.stored sid' entry' hentry i hi).append _
  assembled := by
    rw [assembledOf_eq hassembled]
    exact (hs.arrive [frame]).assembled

/-- The fragments of a message that is put together are used up. -/
theorem Accounted.completed_fragments {addr : SocketAddr} {frame : RakNetFrame} {sid : ℕ}
    {entry : SplitBuffer} (hs : Accounted addr.display frames [] s) (h : frame.isSplit = true)
    (hsid : frame.splitId = some sid)
    (hgrew : Grew (s.splitBuffers.lookup (addr.display, sid)) frame entry)
    (hall : ∀ i < entry.count, entry.received[i]? = some true)
    (hstep : SplitStep (addr.display, sid) none s s')
    (hof : s'.assembledOf addr.display = s.assembledOf addr.display ++
      [⟨addr.display, sid, entry.count, entry.fragments.flatten⟩]) (sid' i : ℕ) :
    completedCount addr.display sid' i s' +
        flagged (s'.splitBuffers.lookup (addr.display, sid')) i ≤
      fragmentArrivals sid' i (frames ++ [frame]) := by
  have hcount : completedCount addr.display sid' i s' = completedCount addr.display sid' i s +
      if sid = sid' ∧ i < entry.count then 1 else 0 := by
    unfold completedCount
    rw [hof, List.countP_append, List.countP_singleton]
    simp
  rw [hcount, hstep.splits]
  by_cases hkey : (addr.display, sid') = (addr.display, sid)
  · obtain rfl : sid' = sid := congrArg Prod.snd hkey
    have hnone : flagged none i = 0 := rfl
    rw [if_pos rfl, hnone]
    by_cases hi : i < entry.count
    · have hgrown := flagged_grew h hsid hgrew (hall i hi)
      have hbefore := hs.fragments sid' i
      rw [fragmentArrivals_snoc, if_pos ⟨rfl, hi⟩]
      omega
    · rw [if_neg fun hand => hi hand.2]
      exact (Nat.le_add_right _ _).trans (hs.fragments_other frame sid' i)
  · have hne : sid ≠ sid' := fun he => hkey (by rw [he])
    rw [if_neg hkey, if_neg fun hand => hne hand.1]
    exact hs.fragments_other frame sid' i

/-- A message is put together, and each of its fragments is used up. -/
theorem Accounted.completed {addr : SocketAddr} {frame : RakNetFrame} {sid : ℕ}
    {entry : SplitBuffer} (hs : Accounted addr.display frames [] s) (h : frame.isSplit = true)
    (hsid : frame.splitId = some sid)
    (hgrew : Grew (s.splitBuffers.lookup (addr.display, sid)) frame entry)
    (hcomplete : entry.receivedCount = entry.count)
    (hstep : SplitStep (addr.display, sid) none s s')
    (hassembled : s'.assembled =
      s.assembled ++ [⟨addr.display, sid, entry.count, entry.fragments.flatten⟩]) :
    Accounted addr.display (frames ++ [frame]) [⟨none, entry.fragments.flatten⟩] s' := by
  have hall := entry.complete_iff.mp hcomplete
  have hof : s'.assembledOf addr.display = s.assembledOf addr.display ++
      [⟨addr.display, sid, entry.count, entry.fragments.flatten⟩] := by
    unfold ServerState.assembledOf
    rw [hassembled, List.filter_append]
    simp
  constructor
  · intro f
    have hlog := dispatchedTo_eq hstep.dispatched addr.display
    have hchannels := hstep.channels addr.display
    have hbefore := (hs.arrive [frame]).payloads f
    unfold assembledWeight at hbefore ⊢
    rw [hlog, hchannels, hof, List.map_append, List.sum_append]
    simp only [emittedWeight, List.map_nil, List.map_cons, List.sum_nil, List.sum_cons] at hbefore ⊢
    omega
  · exact hs.completed_fragments h hsid hgrew hall hstep hof
  · intro sid' entry' hentry i hi
    rw [hstep.splits] at hentry
    by_cases hkey : (addr.display, sid') = (addr.display, sid)
    · rw [if_pos hkey] at hentry
      cases hentry
    · rw [if_neg hkey] at hentry
      exact (hs.stored sid' entry' hentry i hi).append _
  · intro a ha
    rw [hof] at ha
    rcases List.mem_append.mp ha with hold | hnew
    · exact (hs.arrive [frame]).assembled a hold
    · obtain rfl := List.mem_singleton.mp hnew
      exact ⟨entry.fragments, rfl, entry.fragments_length,
        fun i hi => hs.carried h hsid hgrew (hall i hi)⟩

/-- An unsplit frame brings a payload that is due. -/
theorem Accounted.unsplit {frame : RakNetFrame} (hs : Accounted peer frames [] s)
    (h : frame.isSplit = false) :
    Accounted peer (frames ++ [frame]) [⟨none, frame.payload⟩] s where
  payloads f := by
    have hbefore := hs.payloads f
    rw [unsplitWeight_append]
    simp only [unsplitWeight, emittedWeight, h, List.filter_cons, List.filter_nil, List.map_nil,
      List.map_cons, List.sum_nil, List.sum_cons, Bool.not_false, if_true] at hbefore ⊢
    omega
  fragments := hs.fragments_other frame
  stored := (hs.arrive [frame]).stored
  assembled := (hs.arrive [frame]).assembled

theorem received_accounted {env : ServerEnv} {addr : SocketAddr} {frame : RakNetFrame}
    {out : ServerState × List Emitted} (hs : Accounted addr.display frames [] s)
    (h : Received env s addr frame out) :
    Accounted addr.display (frames ++ [frame]) out.2 out.1 := by
  cases h with
  | unsplit h => exact deliver_accounted (hs.unsplit h) _ _
  | ignored => exact hs.arrive [frame]
  | kept sid entry s' h hsid hgrew hstep hassembled =>
    exact hs.kept h hsid hgrew hstep hassembled
  | completed sid entry s' h hsid hgrew hcomplete hstep hassembled =>
    exact deliver_accounted (hs.completed h hsid hgrew hcomplete hstep hassembled) _ _

theorem handleFrame_accounted {addr : SocketAddr} (env : ServerEnv)
    (hs : Accounted addr.display frames [] s) (frame : RakNetFrame) :
    Accounted addr.display (frames ++ [frame]) [] (handleFrame env addr s frame) := by
  have hensured := hs.keeps (keeps_ensureSession s addr true 0)
  have hreceived := received_accounted hensured (receiveFrame_received env s addr frame)
  exact forEach_dispatchEmitted_accounted env hreceived

theorem forEach_handleFrame_accounted {addr : SocketAddr} (env : ServerEnv)
    (hs : Accounted addr.display frames [] s) (arriving : List RakNetFrame) :
    Accounted addr.display (frames ++ arriving) [] (forEach (handleFrame env addr) s arriving) := by
  induction arriving generalizing frames s with
  | nil =>
    rw [List.append_nil]
    exact hs
  | cons frame arriving ih =>
    unfold forEach
    by_cases hstuck : s.stuck
    · rw [if_pos hstuck]
      exact hs.arrive _
    · rw [if_neg hstuck, List.append_cons]
      exact ih (handleFrame_accounted env hs frame)

theorem pruneQueues_accounted {addr : SocketAddr} (env : ServerEnv)
    (hs : Accounted addr.display frames [] s) :
    Accounted addr.display frames [] (pruneQueues env s addr) := by
  obtain ⟨now, hchannels⟩ := pruneQueues_channels env s addr
  refine hs.of_le (fun f => ?_) rfl fun sid => ?_
  · have hlog : (pruneQueues env s addr).dispatchedTo addr.display =
        s.dispatchedTo addr.display := rfl
    have hpruned := pruneChannels_weight (f := f) now (s.channels addr.display)
    rw [hlog, hchannels]
    omega
  · have hsplits : (pruneQueues env s addr).splitBuffers = retain (fun key split =>
        key.1 != addr.display || isFresh (env.instant s.tick) split.createdAt) s.splitBuffers := rfl
    rw [hsplits, lookup_retain]
    cases s.splitBuffers.lookup (addr.display, sid) with
    | none => exact .inl rfl
    | some entry =>
      rw [Option.filter_some]
      split_ifs
      · exact .inl rfl
      · exact .inr rfl

theorem handleGamePacket_accounted {addr : SocketAddr} (env : ServerEnv)
    (hs : Accounted addr.display frames [] s) (data : Bytes) :
    Accounted addr.display (frames ++ framesOf data) [] (handleGamePacket env addr s data) := by
  have hpruned := pruneQueues_accounted env hs
  rcases handleGamePacket_cases env addr s data with
    ⟨-, heq⟩ | ⟨-, hnil, hsame⟩ | ⟨-, hsame⟩
  · rw [heq]
    exact hs.arrive _
  · rw [hnil, List.append_nil]
    exact hpruned.keeps (keeps_of_same hsame)
  · have hmarked := hpruned.keeps (keeps_markConnected _ addr)
    exact (forEach_handleFrame_accounted env hmarked (framesOf data)).keeps (keeps_of_same hsame)

theorem handleGamePackets_accounted {addr : SocketAddr} (env : ServerEnv)
    (hs : Accounted addr.display frames [] s) (datagrams : List Bytes) :
    Accounted addr.display (frames ++ datagrams.flatMap framesOf) []
      (handleGamePackets env addr s datagrams) := by
  induction datagrams generalizing frames s with
  | nil =>
    rw [List.flatMap_nil, List.append_nil]
    exact hs
  | cons data datagrams ih =>
    unfold handleGamePackets forEach
    by_cases hstuck : s.stuck
    · rw [if_pos hstuck]
      exact hs.arrive _
    · rw [if_neg hstuck, List.flatMap_cons, ← List.append_assoc]
      exact ih (handleGamePacket_accounted env hs data)

/-- How often a payload was dispatched for the peer. -/
def dispatchedCount (peer : Str) (payload : Bytes) (s : ServerState) : ℕ :=
  (s.dispatchedTo peer).countP fun e => e.payload = payload

/-- How often a message of the peer with this payload was put together. -/
def assembledCount (peer : Str) (payload : Bytes) (s : ServerState) : ℕ :=
  (s.assembledOf peer).countP fun a => a.payload = payload

def unsplitArrivals (payload : Bytes) (frames : List RakNetFrame) : ℕ :=
  frames.countP fun frame => frame.isSplit = false ∧ frame.payload = payload

/-- The sum of an indicator is a count. -/
theorem sum_indicator {α : Type*} (p : α → Prop) [DecidablePred p] (xs : List α) :
    (xs.map fun x => if p x then 1 else 0).sum = xs.countP p := by
  induction xs with
  | nil => rfl
  | cons x xs ih =>
    rw [List.map_cons, List.sum_cons, ih, List.countP_cons]
    simp [Nat.add_comm]

/-- A run of one peer that begins with nothing: a payload is dispatched at most once for each
arrival of an unsplit frame with it and each message that was put together to it. Such a message
consists of fragments that have arrived under its split id, and is put together at most once for
each arrival of any one of them. -/
theorem dispatched_le_arrivals (env : ServerEnv) (addr : SocketAddr) (s : ServerState)
    (datagrams : List Bytes) (hdispatched : s.dispatchedTo addr.display = [])
    (hassembled : s.assembledOf addr.display = [])
    (hchannels : s.channels addr.display = ∅)
    (hsplits : ∀ sid, s.splitBuffers.lookup (addr.display, sid) = none) :
    (∀ payload, dispatchedCount addr.display payload (handleGamePackets env addr s datagrams) ≤
      unsplitArrivals payload (datagrams.flatMap framesOf) +
        assembledCount addr.display payload (handleGamePackets env addr s datagrams)) ∧
    (∀ a ∈ (handleGamePackets env addr s datagrams).assembledOf addr.display,
      ∃ parts : List Bytes, a.payload = parts.flatten ∧ parts.length = a.count ∧
        ∀ i < a.count, Carried (datagrams.flatMap framesOf) a.splitId i parts[i]?) ∧
    ∀ sid i, completedCount addr.display sid i (handleGamePackets env addr s datagrams) ≤
      fragmentArrivals sid i (datagrams.flatMap framesOf) := by
  have hstart : Accounted addr.display [] [] s := by
    constructor
    · intro f
      rw [hdispatched, hchannels]
      exact Nat.zero_le _
    · intro sid i
      unfold completedCount
      rw [hassembled, hsplits]
      exact Nat.zero_le _
    · intro sid entry hentry
      rw [hsplits] at hentry
      cases hentry
    · intro a ha
      rw [hassembled] at ha
      cases ha
  have hend := handleGamePackets_accounted env hstart datagrams
  rw [List.nil_append] at hend
  refine ⟨fun payload => ?_, hend.assembled, fun sid i => ?_⟩
  · have hweight := hend.payloads fun p => if p = payload then 1 else 0
    unfold emittedWeight assembledWeight unsplitWeight at hweight
    rw [sum_indicator, sum_indicator, sum_indicator, sum_indicator, List.countP_filter] at hweight
    unfold dispatchedCount assembledCount unsplitArrivals
    have hunsplit : (fun frame : RakNetFrame =>
        decide (frame.payload = payload) && !frame.isSplit) =
        fun frame => decide (frame.isSplit = false ∧ frame.payload = payload) := by
      ext frame
      simp [Bool.and_comm]
    rw [hunsplit] at hweight
    omega
  · exact (Nat.le_add_right _ _).trans (hend.fragments sid i)

/-- A reliable frame that is not ordered. -/
def reliableFrame (seq : ℕ) : OutFrame := ⟨⟨seq, seq, 0⟩, none, [0x13]⟩

/-- Two messages with the same payload. -/
theorem dispatched_le_arrivals_two :
    dispatchedCount loopback.display [0x13] (handleGamePackets (.quiet 1492) loopback
      (freshServer 1492 loopback)
      [(reliableFrame 0).datagram 2, (reliableFrame 1).datagram 2]) ≤ 2 :=
  ((dispatched_le_arrivals (.quiet 1492) loopback (freshServer 1492 loopback)
    [(reliableFrame 0).datagram 2, (reliableFrame 1).datagram 2] rfl rfl rfl fun _ => rfl).1
      [0x13]).trans (by decide +kernel)

/-- A datagram that is repeated is dispatched again, whatever its reliable index. -/
theorem dispatched_again :
    framesOf ((reliableFrame 0).datagram 2) = [(reliableFrame 0).frame 2] ∧
      dispatchedCount loopback.display [0x13] (handleGamePackets (.quiet 1492) loopback
        (freshServer 1492 loopback)
        [(reliableFrame 0).datagram 2, (reliableFrame 0).datagram 2]) = 2 := by
  decide +kernel

end SkinGetBE.RakNet
