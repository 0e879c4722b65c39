import SkinGetBE.InFlight
import SkinGetBE.OrderedStream
import SkinGetBE.PeerIsolation
import SkinGetBE.ServerRuns
import SkinGetBE.SplitBuffers

/-!
# The tables of a running server

Two tables grow with what peers send: the messages that are being put together, and
the payloads that wait for their turn. In every state a message belongs to a session
and still lacks a part, and what waits on a channel waits for something: the payload
that is next in turn is never kept back.
-/
namespace SkinGetBE.RakNet
open Octets Text Tables Relation

/-- A message that still lacks a part, with an order that a frame can carry. -/
structure SplitBuffer.Unfinished (entry : SplitBuffer) : Prop where
  parts : 1 ≤ entry.count ∧ entry.count ≤ maxSplitParts
  missing : entry.receivedCount < entry.count
  order : ∀ idx ∈ entry.orderIndex, idx < 2 ^ 24
  channel : ∀ ch ∈ entry.orderChannel, ch ≤ 31

/-- What is buffered waits for the next index. -/
structure OrderedChannel.Waiting (channel : OrderedChannel) : Prop where
  inBounds : channel.InBounds
  gap : channel.buffer.lookup channel.nextIndex = none

def ChannelsSound (channels : Table ℕ OrderedChannel) : Prop :=
  ∀ ch channel, channels.lookup ch = some channel → ch ≤ 31 ∧ channel.Waiting

structure TablesSound (s : ServerState) : Prop where
  owned : ∀ key, (s.splitBuffers.lookup key).isSome → (s.connections.lookup key.1).isSome
  splits : ∀ key entry, s.splitBuffers.lookup key = some entry →
    key.2 < 2 ^ 16 ∧ entry.Unfinished
  channels : ∀ peer, ChannelsSound (s.channels peer)

variable {env : ServerEnv} {parse : Str → Option SocketAddr} {addr : SocketAddr}
  {datagram : Bytes} {peer : Str}
  {s s' : ServerState}

/-- No session is lost, and the messages and the channels are as before. -/
structure SameTables (s s' : ServerState) : Prop where
  splits : s'.splitBuffers = s.splitBuffers
  channels : ∀ peer, s'.channels peer = s.channels peer
  present : ∀ peer, (s.connections.lookup peer).isSome → (s'.connections.lookup peer).isSome

theorem sameTables_of_connections (hsplits : s'.splitBuffers = s.splitBuffers)
    (h : s'.connections = s.connections) : SameTables s s' where
  splits := hsplits
  channels peer := by
    unfold ServerState.channels
    rw [h]
  present peer hp := by rwa [h]

theorem Keeps.sameTables (h : Keeps peer s s') : SameTables s s' where
  splits := h.splits
  channels b := by
    by_cases hb : b = peer
    · rw [hb]
      exact h.channels
    · unfold ServerState.channels
      rw [h.others b hb]
  present b hp := by
    by_cases hb : b = peer
    · rw [hb] at hp ⊢
      exact h.present hp
    · rwa [h.others b hb]

theorem TablesSound.same (h : TablesSound s) (hsame : SameTables s s') : TablesSound s' where
  owned key hkey := by
    rw [hsame.splits] at hkey
    exact hsame.present key.1 (h.owned key hkey)
  splits key entry hentry := by
    rw [hsame.splits] at hentry
    exact h.splits key entry hentry
  channels peer := by
    rw [hsame.channels peer]
    exact h.channels peer

theorem ChannelsSound.prune {channels : Table ℕ OrderedChannel} (h : ChannelsSound channels)
    (now : ℕ) : ChannelsSound (filterMap (fun _ channel => pruneChannel now channel) channels) := by
  intro ch kept hkept
  rw [lookup_filterMap, Option.bind_eq_some_iff] at hkept
  obtain ⟨channel, hchannel, hprune⟩ := hkept
  obtain ⟨hch, hwaiting⟩ := h ch channel hchannel
  obtain ⟨hnext, hbuffer⟩ := pruneChannel_eq_some hprune
  refine ⟨hch, fun k hk => ?_, ?_⟩
  · rw [hbuffer, lookup_retain] at hk
    obtain ⟨entry, hentry⟩ := Option.isSome_iff_exists.mp hk
    exact hwaiting.inBounds k (Option.isSome_of_eq_some (Option.filter_eq_some_iff.mp hentry).1)
  · rw [hbuffer, hnext, lookup_retain, hwaiting.gap]
    rfl

theorem TablesSound.pruneQueues (h : TablesSound s) (env : ServerEnv) (addr : SocketAddr) :
    TablesSound (pruneQueues env s addr) := by
  have hsplit : ∀ key entry, (RakNet.pruneQueues env s addr).splitBuffers.lookup key = some entry →
      s.splitBuffers.lookup key = some entry := by
    intro key entry hentry
    have hlookup : (RakNet.pruneQueues env s addr).splitBuffers.lookup key =
        (s.splitBuffers.lookup key).filter fun split =>
          key.1 != addr.display || isFresh (env.instant s.tick) split.createdAt :=
      lookup_retain _ key s.splitBuffers
    rw [hlookup] at hentry
    exact (Option.filter_eq_some_iff.mp hentry).1
  refine ⟨fun key hkey => ?_, fun key entry hentry => ?_, fun peer => ?_⟩
  · obtain ⟨entry, hentry⟩ := Option.isSome_iff_exists.mp hkey
    have hpresent := h.owned key (Option.isSome_of_eq_some (hsplit key entry hentry))
    have hlookup := ServerState.lookup_modifySession (pruneSplitBuffersForPeer env s addr) addr
      (fun c => pruneSessionQueues c
        (env.instant (pruneSplitBuffersForPeer env s addr).tick)) key.1
    have hsome : ((RakNet.pruneQueues env s addr).connections.lookup key.1).isSome := by
      refine (congrArg Option.isSome hlookup).trans ?_
      by_cases hpeer : key.1 = addr.display
      · rw [if_pos hpeer, Option.isSome_map, ← hpeer]
        exact hpresent
      · rw [if_neg hpeer]
        exact hpresent
    exact hsome
  · exact h.splits key entry (hsplit key entry hentry)
  · by_cases hpeer : peer = addr.display
    · obtain ⟨now, hchannels⟩ := pruneQueues_channels env s addr
      rw [hpeer, hchannels]
      exact (h.channels addr.display).prune now
    · unfold ServerState.channels
      rw [(untouched_pruneQueues hpeer s).session]
      exact h.channels peer

theorem TablesSound.drop (h : TablesSound s) (addr : SocketAddr) :
    TablesSound (s.dropConnectionState addr) := by
  have hdrops := drops_dropConnectionState s addr
  refine ⟨fun key hkey => ?_, fun key entry hentry => ?_, fun peer => ?_⟩
  · rw [hdrops.splits] at hkey
    by_cases hpeer : key.1 = addr.display
    · rw [if_pos hpeer] at hkey
      cases hkey
    · rw [if_neg hpeer] at hkey
      rw [hdrops.others key.1 hpeer]
      exact h.owned key hkey
  · rw [hdrops.splits] at hentry
    by_cases hpeer : key.1 = addr.display
    · rw [if_pos hpeer] at hentry
      cases hentry
    · rw [if_neg hpeer] at hentry
      exact h.splits key entry hentry
  · by_cases hpeer : peer = addr.display
    · rw [hpeer, ServerState.channels_eq_empty hdrops.absent]
      intro ch channel hchannel
      cases hchannel
    · unfold ServerState.channels
      rw [hdrops.others peer hpeer]
      exact h.channels peer

/-- A flush ends at a gap, whatever the channel was like before. -/
theorem bufferOrderedPayload_channels {session : ClientSession}
    (h : ChannelsSound session.orderedChannels) (payload : Bytes)
    {orderIndex orderChannel : Option ℕ}
    (horder : ∀ idx ∈ orderIndex, idx < 2 ^ 24) (hchannel : ∀ ch ∈ orderChannel, ch ≤ 31)
    (now : ℕ) :
    ChannelsSound
      (bufferOrderedPayload session payload orderIndex orderChannel now).1.orderedChannels := by
  unfold bufferOrderedPayload
  cases orderIndex with
  | none => exact h
  | some idx =>
    have hch : orderChannel.getD 0 ≤ 31 := by
      cases orderChannel with
      | none => exact Nat.zero_le _
      | some ch => exact hchannel ch rfl
    have hbefore : (getOr (orderChannel.getD 0) ⟨0, ∅⟩ session.orderedChannels).InBounds := by
      unfold getOr
      cases hlookup : session.orderedChannels.lookup (orderChannel.getD 0) with
      | none => exact fun k hk => absurd hk (by simp)
      | some channel => exact (h _ channel hlookup).2.inBounds
    have hinserted := insertOrdered_inBounds hbefore (horder idx rfl) payload now
    dsimp only
    generalize insertOrdered (getOr (orderChannel.getD 0) ⟨0, ∅⟩ session.orderedChannels) idx
      payload now = channel at hinserted
    intro ch after hafter
    rw [lookup_insert_eq] at hafter
    by_cases heq : ch = orderChannel.getD 0
    · rw [if_pos heq] at hafter
      obtain rfl := Option.some.inj hafter
      exact ⟨heq ▸ hch, (flushChannel_indices _ hinserted).2.2, flushChannel_done le_rfl⟩
    · rw [if_neg heq] at hafter
      exact h ch after hafter

theorem TablesSound.deliver (h : TablesSound s) (env : ServerEnv) (addr : SocketAddr)
    (payload : Bytes) {orderIndex orderChannel : Option ℕ}
    (horder : ∀ idx ∈ orderIndex, idx < 2 ^ 24) (hchannel : ∀ ch ∈ orderChannel, ch ≤ 31) :
    TablesSound (deliver env s addr payload orderIndex orderChannel).1 := by
  have hlookup : ∀ b,
      (RakNet.deliver env s addr payload orderIndex orderChannel).1.connections.lookup
      b = if b = addr.display then some (bufferOrderedPayload (s.sessionOf addr) payload orderIndex
        orderChannel (env.instant s.tick)).1 else s.connections.lookup b :=
    fun b => lookup_insert_eq _ _ _ _
  refine ⟨fun key hkey => ?_, h.splits, fun peer => ?_⟩
  · rw [hlookup]
    by_cases hpeer : key.1 = addr.display
    · rw [if_pos hpeer]
      rfl
    · rw [if_neg hpeer]
      exact h.owned key hkey
  · by_cases hpeer : peer = addr.display
    · rw [hpeer, deliver_channels]
      refine bufferOrderedPayload_channels ?_ payload horder hchannel _
      rw [ServerState.channels_sessionOf]
      exact h.channels addr.display
    · unfold ServerState.channels
      rw [hlookup, if_neg hpeer]
      exact h.channels peer

/-- A step that changes one message of the peer at most, to one that is unfinished. -/
theorem TablesSound.split (h : TablesSound s) {key : Str × ℕ} {value : Option SplitBuffer}
    (hstep : SplitStep key value s s') (hpresent : (s.connections.lookup key.1).isSome)
    (hvalue : ∀ entry ∈ value, key.2 < 2 ^ 16 ∧ entry.Unfinished) : TablesSound s' where
  owned k hk := by
    rw [hstep.connections]
    rw [hstep.splits] at hk
    by_cases heq : k = key
    · rw [heq]
      exact hpresent
    · rw [if_neg heq] at hk
      exact h.owned k hk
  splits k entry hentry := by
    rw [hstep.splits] at hentry
    by_cases heq : k = key
    · rw [if_pos heq] at hentry
      rw [heq]
      exact hvalue entry hentry
    · rw [if_neg heq] at hentry
      exact h.splits k entry hentry
  channels peer := by
    rw [hstep.channels peer]
    exact h.channels peer

/-- The entry that a fragment finds, made when it is missing. -/
theorem unfinished_entry (h : TablesSound s) {frame : RakNetFrame} (hframe : frame.InRange)
    (key : Str × ℕ) {count : ℕ} (hzero : count ≠ 0) (hmax : count ≤ maxSplitParts) (now : ℕ) :
    (getOr key (.new count now frame) s.splitBuffers).Unfinished := by
  unfold getOr
  cases hlookup : s.splitBuffers.lookup key with
  | none =>
    exact ⟨⟨Nat.pos_of_ne_zero hzero, hmax⟩, Nat.pos_of_ne_zero hzero, hframe.order,
      hframe.channel⟩
  | some entry => exact (h.splits key entry hlookup).2

theorem TablesSound.storeFragment (h : TablesSound s) (hactive : s.isActiveConnection addr)
    {sid : ℕ} (hsid : sid < 2 ^ 16) {entry : SplitBuffer} (hentry : entry.Unfinished) (idx : ℕ)
    (payload : Bytes) : TablesSound (storeFragment env s addr sid entry idx payload).1 := by
  have hstored := storeFragment_stored env s addr sid entry idx payload
  generalize RakNet.storeFragment env s addr sid entry idx payload = out at hstored
  cases hstored with
  | repeated s' hflag hstep hassembled =>
    refine h.split hstep hactive ?_
    rintro kept ⟨⟩
    exact ⟨hsid, hentry⟩
  | kept s' hflag hmore hstep hassembled =>
    refine h.split hstep hactive ?_
    rintro kept ⟨⟩
    have hcount : (entry.store idx payload hflag).receivedCount = entry.receivedCount + 1 := rfl
    have hmissing := hentry.missing
    rw [hcount, SplitBuffer.store_count] at hmore
    refine ⟨hsid, hentry.parts, ?_, hentry.order, hentry.channel⟩
    rw [hcount, SplitBuffer.store_count]
    omega
  | completed s' stored hflag heq hcomplete hstep hassembled =>
    have hdone : TablesSound s' := h.split hstep hactive fun _ hnone => by cases hnone
    subst heq
    exact hdone.deliver env addr _ hentry.order hentry.channel

theorem isActiveConnection_ensureSession (s : ServerState) (addr : SocketAddr) :
    (s.ensureSession addr true 0).isActiveConnection addr := by
  rw [ServerState.isActiveConnection_iff, ServerState.lookup_ensureSession, if_pos rfl]
  rfl

theorem TablesSound.receiveFrame (h : TablesSound s) (env : ServerEnv) (addr : SocketAddr)
    {frame : RakNetFrame} (hframe : frame.InRange) :
    TablesSound (receiveFrame env s addr frame).1 := by
  have hensured : TablesSound (s.ensureSession addr true 0) :=
    h.same (keeps_ensureSession s addr true 0).sameTables
  have hactive := isActiveConnection_ensureSession s addr
  unfold RakNet.receiveFrame
  dsimp only
  generalize s.ensureSession addr true 0 = s at hensured hactive
  by_cases hsplit : frame.isSplit
  · rw [if_pos hsplit]
    unfold receiveSplit
    cases hid : frame.splitId with
    | none => exact hensured
    | some sid =>
      dsimp only
      by_cases hzero : frame.splitCount.getD 0 = 0
      · rw [if_pos hzero]
        exact hensured
      rw [if_neg hzero]
      by_cases hmax : frame.splitCount.getD 0 > maxSplitParts
      · rw [if_pos hmax]
        exact hensured
      rw [if_neg hmax]
      have hadvanced : TablesSound s.advance :=
        hensured.same (keeps_advance addr.display s).sameTables
      exact hadvanced.storeFragment hactive (hframe.splitId sid hid)
        (unfinished_entry hensured hframe _ hzero (Nat.le_of_not_lt hmax) _) _ _
  · rw [if_neg hsplit]
    exact hensured.deliver env addr frame.payload hframe.order hframe.channel

theorem inRange_of_mem_framesOf {frame : RakNetFrame} (h : frame ∈ framesOf datagram) :
    frame.InRange := by
  unfold framesOf at h
  split at h
  · next frameset hparse => exact parseFrameSet_inRange hparse frame h
  · exact absurd h List.not_mem_nil
  · exact absurd h List.not_mem_nil

theorem Effect.tablesSound (heffect : Effect env addr datagram s s') (h : TablesSound s) :
    TablesSound s' := by
  cases heffect with
  | clock => exact h.same (keeps_advance addr.display s).sameTables
  | answer id fields _ _ => exact h.same (keeps_sendTo env s addr (id :: fields)).sameTables
  | transmit reliability flags body =>
    exact h.same (keeps_transmit env s addr reliability flags body).sameTables
  | again seq msg _ => exact h.same (keeps_sendTo env s addr msg.frame).sameTables
  | ensure connected protocol =>
    exact h.same (keeps_ensureSession s addr connected protocol).sameTables
  | update f hf =>
    exact h.same (keeps_modifySession s addr fun c => (hf c).orderedChannels).sameTables
  | acknowledge now seqs _ _ =>
    exact h.same (keeps_modifySession s addr fun c =>
      (foldl_acknowledge_course now c seqs).orderedChannels).sameTables
  | resend now seq msg _ =>
    have hkeeps := keeps_modifySession s addr (f := fun c => c.resend now seq msg) fun _ => rfl
    exact h.same hkeeps.sameTables
  | prune => exact h.pruneQueues env addr
  | receive frame hframe => exact h.receiveFrame env addr (inRange_of_mem_framesOf hframe)
  | dispatch e => exact h.same (sameTables_of_connections rfl rfl)
  | sync protocol => exact h.same (sameTables_of_connections rfl rfl)
  | save parsed skin result fs _ _ => exact h.same (sameTables_of_connections rfl rfl)
  | halt parsed skin _ _ => exact h.same (sameTables_of_connections rfl rfl)
  | drop => exact h.drop addr

theorem lookup_resendRound (env : ServerEnv) (parse : Str → Option SocketAddr) (s : ServerState)
    (peer : Str) : (resendRound env parse s).connections.lookup peer =
      (s.connections.lookup peer).map fun c =>
        if (parse peer).isSome then (resendDue (env.instant s.tick) c).1 else c := by
  unfold resendRound
  dsimp only
  rw [sendAll_connections, lookup_filterMap]
  cases s.connections.lookup peer with
  | none => rfl
  | some c =>
    cases parse peer with
    | none => rfl
    | some dest => rfl

theorem sendAll_splitBuffers (env : ServerEnv) (s : ServerState)
    (frames : List (SocketAddr × Bytes)) :
    (s.sendAll env frames).splitBuffers = s.splitBuffers := by
  induction frames generalizing s with
  | nil => rfl
  | cons frame frames ih => exact ih _

theorem sameTables_resendRound (env : ServerEnv) (parse : Str → Option SocketAddr)
    (s : ServerState) : SameTables s (resendRound env parse s) where
  splits := sendAll_splitBuffers env _ _
  channels peer := by
    have hlookup := lookup_resendRound env parse s peer
    cases hc : s.connections.lookup peer with
    | none =>
      rw [hc] at hlookup
      rw [ServerState.channels_eq_empty hc, ServerState.channels_eq_empty hlookup]
    | some c =>
      rw [hc] at hlookup
      rw [ServerState.channels_eq hc, ServerState.channels_eq hlookup]
      split_ifs
      · exact (resendDue_course _ c).orderedChannels
      · rfl
  present peer hp := by
    rw [lookup_resendRound, Option.isSome_map]
    exact hp

theorem Turn.tablesSound {x y : Serving} (hturn : Turn env parse x y) (h : TablesSound x.state) :
    TablesSound y.state := by
  cases hturn with
  | hear addr datagram => exact h
  | effect addr datagram s hheard heffect => exact heffect.tablesSound h
  | acknowledge addr datagram frameset hheard hparse =>
    exact h.same (keeps_sendTo env x.state addr _).sameTables
  | worker => exact h.same (sameTables_resendRound env parse x.state)

theorem tablesSound_new (config : RakNetConfig) (fs : FileSystem) :
    TablesSound (.new config fs) where
  owned key hkey := by cases hkey
  splits key entry hentry := by cases hentry
  channels peer ch channel hchannel := by cases hchannel

/-- Whatever peers send, and whenever the worker takes its turn, in every state that comes about
each message under reassembly belongs to a session and lacks a part, and no channel keeps back the
payload that is next in turn. -/
theorem serving_tablesSound (env : ServerEnv) (parse : Str → Option SocketAddr) (fs : FileSystem)
    (x : Serving) (h : Turns env parse ⟨[], .new env.config fs⟩ x) : TablesSound x.state := by
  induction h with
  | refl => exact tablesSound_new env.config fs
  | tail _ hturn ih => exact hturn.tablesSound ih

/-- A peer opens a session and sends the second of two fragments. -/
def openWithFragment : List ServerEvent :=
  [.datagram loopback (0x05 :: (magic ++ [11])),
    .datagram loopback [0x84, 0, 0, 0, 0x10, 0, 8, 0, 0, 0, 2, 0, 7, 0, 0, 0, 1, 9],
    .worker]

theorem serving_tablesSound_fragment :
    let s := (quietServing (fun _ => none) openWithFragment).state
    TablesSound s ∧ (s.splitBuffers.lookup (loopback.display, 7)).map
      (fun entry => (entry.count, entry.receivedCount)) = some (2, 1) :=
  ⟨serving_tablesSound (.quiet 1492) (fun _ => none) .empty
    (quietServing (fun _ => none) openWithFragment)
    (quietServing_turns (fun _ => none) openWithFragment), by decide +kernel⟩

end SkinGetBE.RakNet
