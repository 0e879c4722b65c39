import SkinGetBE.RakNetServer

/-!
# What handling a packet can touch

Dispatching a payload sends datagrams and changes the session of its peer. It
leaves the reassembly and the ordered channels alone, or drops them together
with the session. Sessions of other peers are never touched.
-/
namespace SkinGetBE.RakNet
open Octets Text Tables

/-- The part of the state that is not the peer's own is as before. -/
structure Local (peer : Str) (s s' : ServerState) : Prop where
  others : ∀ b, b ≠ peer → s'.connections.lookup b = s.connections.lookup b
  assembled : s'.assembled = s.assembled
  dispatched : s'.dispatched = s.dispatched

/-- The queues of the peer are as before, and a session is not lost. -/
structure Keeps (peer : Str) (s s' : ServerState) : Prop extends Local peer s s' where
  splits : s'.splitBuffers = s.splitBuffers
  channels : s'.channels peer = s.channels peer
  present : (s.connections.lookup peer).isSome → (s'.connections.lookup peer).isSome

/-- The session of the peer is gone, and with it everything that was buffered. -/
structure Drops (peer : Str) (s s' : ServerState) : Prop extends Local peer s s' where
  splits : ∀ key, s'.splitBuffers.lookup key =
    if key.1 = peer then none else s.splitBuffers.lookup key
  absent : s'.connections.lookup peer = none

def Outcome (peer : Str) (s s' : ServerState) : Prop := Keeps peer s s' ∨ Drops peer s s'

variable {peer : Str} {s s' s'' : ServerState}

theorem Local.trans (h₁ : Local peer s s') (h₂ : Local peer s' s'') : Local peer s s'' where
  others b hb := (h₂.others b hb).trans (h₁.others b hb)
  assembled := h₂.assembled.trans h₁.assembled
  dispatched := h₂.dispatched.trans h₁.dispatched

theorem Keeps.refl (peer : Str) (s : ServerState) : Keeps peer s s :=
  ⟨⟨fun _ _ => rfl, rfl, rfl⟩, rfl, rfl, id⟩

theorem Keeps.trans (h₁ : Keeps peer s s') (h₂ : Keeps peer s' s'') : Keeps peer s s'' where
  toLocal := h₁.toLocal.trans h₂.toLocal
  splits := h₂.splits.trans h₁.splits
  channels := h₂.channels.trans h₁.channels
  present h := h₂.present (h₁.present h)

theorem Keeps.drops (h₁ : Keeps peer s s') (h₂ : Drops peer s' s'') : Drops peer s s'' where
  toLocal := h₁.toLocal.trans h₂.toLocal
  splits key := by rw [h₂.splits key, h₁.splits]
  absent := h₂.absent

theorem Keeps.outcome (h₁ : Keeps peer s s') (h₂ : Outcome peer s' s'') : Outcome peer s s'' :=
  h₂.imp h₁.trans h₁.drops

/-- The tables and what was reassembled and dispatched are as before. -/
structure Same (s s' : ServerState) : Prop where
  connections : s'.connections = s.connections
  splits : s'.splitBuffers = s.splitBuffers
  assembled : s'.assembled = s.assembled
  dispatched : s'.dispatched = s.dispatched

theorem Same.refl (s : ServerState) : Same s s := ⟨rfl, rfl, rfl, rfl⟩

theorem keeps_of_same (h : Same s s') : Keeps peer s s' where
  others b _ := by rw [h.connections]
  assembled := h.assembled
  dispatched := h.dispatched
  splits := h.splits
  channels := by
    unfold ServerState.channels
    rw [h.connections]
  present hp := by rwa [h.connections]

theorem keeps_advance (peer : Str) (s : ServerState) : Keeps peer s s.advance :=
  keeps_of_same ⟨rfl, rfl, rfl, rfl⟩

theorem keeps_modifySession (s : ServerState) (addr : SocketAddr)
    {f : ClientSession → ClientSession} (hf : ∀ c, (f c).orderedChannels = c.orderedChannels) :
    Keeps addr.display s (s.modifySession addr f) where
  others b hb := by rw [ServerState.lookup_modifySession, if_neg hb]
  assembled := rfl
  dispatched := rfl
  splits := rfl
  channels := ServerState.channels_modifySession s addr hf _
  present h := by
    rw [ServerState.lookup_modifySession, if_pos rfl]
    simpa using h

theorem keeps_ensureSession (s : ServerState) (addr : SocketAddr) (connected : Bool)
    (proto : ℕ) : Keeps addr.display s (s.ensureSession addr connected proto) where
  others b hb := by rw [ServerState.lookup_ensureSession, if_neg hb]
  assembled := rfl
  dispatched := rfl
  splits := rfl
  channels := ServerState.channels_ensureSession s addr connected proto _
  present _ := by
    rw [ServerState.lookup_ensureSession, if_pos rfl]
    rfl

theorem keeps_sendTo (env : ServerEnv) (s : ServerState) (addr : SocketAddr) (datagram : Bytes) :
    Keeps addr.display s (s.sendTo env addr datagram).2 :=
  keeps_of_same ⟨rfl, rfl, rfl, rfl⟩

theorem keeps_allocate (s : ServerState) (addr : SocketAddr) (reliability : ℕ) :
    Keeps addr.display s (s.allocate addr reliability).2 where
  others _ hb := AList.lookup_insert_ne hb
  assembled := rfl
  dispatched := rfl
  splits := rfl
  channels := by
    rw [ServerState.channels_eq (lookup_allocate s addr reliability)]
    exact ServerState.channels_sessionOf s addr
  present _ := by
    rw [lookup_allocate]
    rfl

theorem keeps_rememberReliable (env : ServerEnv) (s : ServerState) (addr : SocketAddr)
    (reliability seq : ℕ) (frame : Bytes) :
    Keeps addr.display s (rememberReliable env s addr reliability seq frame) := by
  unfold rememberReliable
  by_cases h : hasReliable reliability
  · rw [if_pos h]
    have hpending : Keeps addr.display s
        (s.modifySession addr (registerPending seq frame (env.instant s.tick))) :=
      keeps_modifySession s addr fun _ => rfl
    exact hpending.trans (keeps_advance _ _)
  · rw [if_neg h]
    exact Keeps.refl _ _

theorem keeps_transmit (env : ServerEnv) (s : ServerState) (addr : SocketAddr) (reliability : ℕ)
    (flags : UInt8) (body : Bytes) :
    Keeps addr.display s (transmit env s addr reliability flags body).2 :=
  ((keeps_allocate s addr reliability).trans (keeps_rememberReliable env _ addr _ _ _)).trans
    (keeps_sendTo env _ addr _)

theorem keeps_sendFrame (env : ServerEnv) (s : ServerState) (payload : Bytes) (reliability : ℕ)
    (addr : SocketAddr) : Keeps addr.display s (sendFrame env s payload reliability addr).2 :=
  sendFrame_related (Keeps.refl _) Keeps.trans
    (fun s reliability flags body _ => keeps_transmit env s addr reliability flags body)
    (keeps_advance _) s payload reliability

theorem Keeps.modifySession {addr : SocketAddr} (h : Keeps addr.display s s')
    (f : ClientSession → ClientSession) (hf : ∀ c, (f c).orderedChannels = c.orderedChannels) :
    Keeps addr.display s (s'.modifySession addr f) :=
  h.trans (keeps_modifySession s' addr hf)

theorem Keeps.sendFrame {addr : SocketAddr} (h : Keeps addr.display s s') (env : ServerEnv)
    (payload : Bytes) (reliability : ℕ) :
    Keeps addr.display s (sendFrame env s' payload reliability addr).2 :=
  h.trans (keeps_sendFrame env s' payload reliability addr)

theorem drops_dropConnectionState (s : ServerState) (addr : SocketAddr) :
    Drops addr.display s (s.dropConnectionState addr) where
  others _ hb := AList.lookup_erase_ne hb
  assembled := rfl
  dispatched := rfl
  splits key := by
    unfold ServerState.dropConnectionState
    dsimp only
    rw [lookup_retain]
    by_cases h : key.1 = addr.display
    · rw [if_pos h]
      cases s.splitBuffers.lookup key with
      | none => rfl
      | some entry => simp [h]
    · rw [if_neg h]
      cases s.splitBuffers.lookup key with
      | none => rfl
      | some entry => simp [h]
  absent := AList.lookup_erase _ _

theorem finishCapture_drops (env : ServerEnv) (s : ServerState) (parsed : ParsedLoginPacket)
    (path : Option Str) (addr : SocketAddr) :
    Drops addr.display s (finishCapture env s parsed path addr) := by
  unfold finishCapture sendLoginSuccessBundle sendBedrockBundle sendDisconnectResponse
    sendBedrockResponse sendRaknetDisconnectNotification
  dsimp only
  refine Keeps.drops ?_ (drops_dropConnectionState _ addr)
  refine Keeps.modifySession ?_ _ fun _ => rfl
  apply Keeps.sendFrame
  apply Keeps.sendFrame
  apply Keeps.sendFrame
  exact keeps_modifySession s addr fun _ => rfl

theorem handleLoginPacket_outcome (env : ServerEnv) (s : ServerState) (remaining : Bytes)
    (addr : SocketAddr) : Outcome addr.display s (handleLoginPacket env s remaining addr) := by
  unfold handleLoginPacket
  cases parseLoginPacket env.engines remaining with
  | none => exact .inl (keeps_of_same ⟨rfl, rfl, rfl, rfl⟩)
  | some result =>
    cases result with
    | error e => exact .inl (Keeps.refl _ _)
    | ok found =>
      cases found with
      | none => exact .inl (Keeps.refl _ _)
      | some parsed =>
        dsimp only
        unfold captureLogin
        have hsync : Keeps addr.display s (syncClientVersion env s (parsed.protocol % 2 ^ 16)) :=
          keeps_of_same ⟨rfl, rfl, rfl, rfl⟩
        cases ExtractedSkin.new parsed.skinWidth parsed.skinHeight parsed.skinData with
        | error e => exact .inl hsync
        | ok skin =>
          dsimp only
          cases saveLoginCapture env.tools (syncClientVersion env s (parsed.protocol % 2 ^ 16)).fs
              env.baseDir ⟨parsed.playerName, parsed.skinId, parsed.metadata, skin⟩
              env.config.savemode with
          | none => exact .inl (keeps_of_same ⟨rfl, rfl, rfl, rfl⟩)
          | some saved =>
            obtain ⟨result, fs⟩ := saved
            cases result with
            | error e => exact .inl (keeps_of_same ⟨rfl, rfl, rfl, rfl⟩)
            | ok path =>
              have hfs : Keeps addr.display s { syncClientVersion env s
                  (parsed.protocol % 2 ^ 16) with fs := fs } := keeps_of_same ⟨rfl, rfl, rfl, rfl⟩
              exact .inr (hfs.drops (finishCapture_drops env _ parsed path addr))

theorem handleRequestNetworkSettings_keeps (env : ServerEnv) (s : ServerState) (buf : Buffer)
    (addr : SocketAddr) :
    Keeps addr.display s (handleRequestNetworkSettings env s buf addr) := by
  unfold handleRequestNetworkSettings sendNetworkSettingsResponse sendBedrockResponse
  dsimp only
  apply Keeps.sendFrame
  exact keeps_modifySession s addr fun _ => rfl

/-- A packet is ignored without a session. -/
theorem processSingleBedrockPacket_absent {env : ServerEnv} {addr : SocketAddr} {s : ServerState}
    (h : s.connections.lookup addr.display = none) (data : Bytes) :
    processSingleBedrockPacket env addr s data = s := by
  unfold processSingleBedrockPacket
  cases data with
  | nil => rfl
  | cons first tl =>
    have hinactive : s.isActiveConnection addr = false := by
      unfold ServerState.isActiveConnection ServerState.session
      rw [h]
      rfl
    exact if_pos hinactive

theorem processSingleBedrockPacket_outcome (env : ServerEnv) (addr : SocketAddr) (s : ServerState)
    (data : Bytes) : Outcome addr.display s (processSingleBedrockPacket env addr s data) := by
  unfold processSingleBedrockPacket
  cases data with
  | nil => exact .inl (Keeps.refl _ _)
  | cons first tl =>
    dsimp only
    by_cases hactive : s.isActiveConnection addr = false
    · rw [if_pos hactive]
      exact .inl (Keeps.refl _ _)
    · rw [if_neg hactive]
      generalize NetherSession.readPacketId first (first :: tl) = read
      by_cases hlogin : read.1 = 0x01
      · rw [if_pos hlogin]
        exact handleLoginPacket_outcome env s _ addr
      · rw [if_neg hlogin]
        by_cases hsettings : read.1 = 0xc1
        · rw [if_pos hsettings]
          exact .inl (handleRequestNetworkSettings_keeps env s _ addr)
        · rw [if_neg hsettings]
          exact .inl (Keeps.refl _ _)

theorem forEach_processSingleBedrockPacket_absent {env : ServerEnv} {addr : SocketAddr}
    {s : ServerState} (h : s.connections.lookup addr.display = none) (packets : List Bytes) :
    forEach (processSingleBedrockPacket env addr) s packets = s := by
  induction packets with
  | nil => rfl
  | cons packet packets ih =>
    unfold forEach
    rw [processSingleBedrockPacket_absent h]
    by_cases hs : s.stuck
    · rw [if_pos hs]
    · rw [if_neg hs]
      exact ih

theorem forEach_processSingleBedrockPacket_outcome (env : ServerEnv) (addr : SocketAddr)
    (s : ServerState) (packets : List Bytes) :
    Outcome addr.display s (forEach (processSingleBedrockPacket env addr) s packets) := by
  induction packets generalizing s with
  | nil => exact .inl (Keeps.refl _ _)
  | cons packet packets ih =>
    unfold forEach
    by_cases hs : s.stuck
    · rw [if_pos hs]
      exact .inl (Keeps.refl _ _)
    · rw [if_neg hs]
      rcases processSingleBedrockPacket_outcome env addr s packet with hkeeps | hdrops
      · exact hkeeps.outcome (ih _)
      · rw [forEach_processSingleBedrockPacket_absent hdrops.absent]
        exact .inr hdrops

theorem keeps_markConnected (s : ServerState) (addr : SocketAddr) :
    Keeps addr.display s (markConnected s addr) :=
  Keeps.modifySession (keeps_ensureSession s addr true 0) _ fun _ => rfl

theorem dispatchConnectionRequest_keeps (env : ServerEnv) (s : ServerState) (data : Bytes)
    (addr : SocketAddr) : Keeps addr.display s (dispatchConnectionRequest env s data addr) := by
  unfold dispatchConnectionRequest
  dsimp only
  apply Keeps.sendFrame
  exact (keeps_advance _ s).trans (keeps_markConnected _ addr)

theorem dispatchConnectedPing_outcome (env : ServerEnv) (s : ServerState) (data : Bytes)
    (addr : SocketAddr) : Outcome addr.display s (dispatchConnectedPing env s data addr) := by
  unfold dispatchConnectedPing
  by_cases hlen : data.length = 9
  · rw [if_pos hlen]
    exact .inl (keeps_sendFrame env s _ 0 addr)
  · rw [if_neg hlen]
    by_cases hc : s.compressionEnabled addr
    · rw [if_pos hc]
      cases decompressBatch env.tools.flate data true with
      | error e => exact .inl (Keeps.refl _ _)
      | ok decompressed =>
        dsimp only
        cases parseBatch decompressed with
        | error e => exact .inl (Keeps.refl _ _)
        | ok packets => exact forEach_processSingleBedrockPacket_outcome env addr s packets
    · rw [if_neg hc]
      exact .inl (Keeps.refl _ _)

theorem dispatchBatch_outcome (env : ServerEnv) (s : ServerState) (data : Bytes)
    (addr : SocketAddr) : Outcome addr.display s (dispatchBatch env s data addr) := by
  unfold dispatchBatch
  by_cases hlen : data.length ≤ 1
  · rw [if_pos hlen]
    exact .inl (Keeps.refl _ _)
  · rw [if_neg hlen]
    cases decompressBatch env.tools.flate (data.drop 1) (s.compressionEnabled addr) with
    | error e => exact .inl (Keeps.refl _ _)
    | ok decompressed =>
      exact forEach_processSingleBedrockPacket_outcome env addr s (batchPackets decompressed)

theorem dispatchRaknetPacket_outcome (env : ServerEnv) (s : ServerState) (data : Bytes)
    (addr : SocketAddr) : Outcome addr.display s (dispatchRaknetPacket env s data addr) := by
  unfold dispatchRaknetPacket
  cases data with
  | nil => exact .inl (Keeps.refl _ _)
  | cons packetId tl =>
    dsimp only
    by_cases h09 : packetId = 0x09
    · rw [if_pos h09]
      exact .inl (dispatchConnectionRequest_keeps env s _ addr)
    rw [if_neg h09]
    by_cases h13 : packetId = 0x13
    · rw [if_pos h13]
      exact .inl (keeps_modifySession s addr fun _ => rfl)
    rw [if_neg h13]
    by_cases h15 : packetId = 0x15
    · rw [if_pos h15]
      exact .inr (drops_dropConnectionState s addr)
    rw [if_neg h15]
    by_cases h00 : packetId = 0x00
    · rw [if_pos h00]
      exact dispatchConnectedPing_outcome env s _ addr
    rw [if_neg h00]
    by_cases hfe : packetId = 0xfe
    · rw [if_pos hfe]
      exact dispatchBatch_outcome env s _ addr
    · rw [if_neg hfe]
      exact .inl (Keeps.refl _ _)

/-- After the dispatch of a list the queues of the peer are as before, or empty. What was
dispatched is the beginning of the list. -/
structure Releases (peer : Str) (emitted : List Emitted) (s s' : ServerState) : Prop where
  others : ∀ b, b ≠ peer → s'.connections.lookup b = s.connections.lookup b
  assembled : s'.assembled = s.assembled
  dispatched : ∃ done, done <+: emitted ∧ (s.stuck = false → emitted ≠ [] → done ≠ []) ∧
    s'.dispatched = s.dispatched ++ done.map fun e => ⟨peer, e⟩
  queues : (s'.splitBuffers = s.splitBuffers ∧ s'.channels peer = s.channels peer) ∨
    ((∀ key, s'.splitBuffers.lookup key =
      if key.1 = peer then none else s.splitBuffers.lookup key) ∧ s'.channels peer = ∅)

theorem dispatchEmitted_outcome (env : ServerEnv) (addr : SocketAddr) (s : ServerState)
    (e : Emitted) : Outcome addr.display
      { s with dispatched := s.dispatched ++ [⟨addr.display, e⟩] } (dispatchEmitted env addr s e) :=
  dispatchRaknetPacket_outcome env _ e.payload addr

theorem releases_none {emitted : List Emitted} (h : s.stuck = true ∨ emitted = []) :
    Releases peer emitted s s where
  others _ _ := rfl
  assembled := rfl
  dispatched := by
    refine ⟨[], List.nil_prefix, fun hs he => ?_, by simp⟩
    rcases h with h | h
    · rw [hs] at h
      cases h
    · exact absurd h he
  queues := .inl ⟨rfl, rfl⟩

theorem releases_cons {e : Emitted} {emitted : List Emitted}
    (h₁ : Outcome peer { s with dispatched := s.dispatched ++ [⟨peer, e⟩] } s')
    (h₂ : Releases peer emitted s' s'') : Releases peer (e :: emitted) s s'' := by
  obtain ⟨done, hdone, -, hlog⟩ := h₂.dispatched
  have hlocal : Local peer { s with dispatched := s.dispatched ++ [⟨peer, e⟩] } s' :=
    h₁.elim Keeps.toLocal Drops.toLocal
  refine ⟨fun b hb => (h₂.others b hb).trans (hlocal.others b hb),
    h₂.assembled.trans hlocal.assembled,
    ⟨e :: done, (List.prefix_cons_inj e).mpr hdone, fun _ _ => List.cons_ne_nil _ _, ?_⟩, ?_⟩
  · rw [hlog, hlocal.dispatched, List.append_assoc]
    rfl
  · rcases h₁ with hkeeps | hdrops
    · rcases h₂.queues with ⟨hsplits, hchannels⟩ | ⟨hsplits, hchannels⟩
      · exact .inl ⟨hsplits.trans hkeeps.splits, hchannels.trans hkeeps.channels⟩
      · refine .inr ⟨fun key => ?_, hchannels⟩
        rw [hsplits key, hkeeps.splits]
    · refine .inr ⟨fun key => ?_, ?_⟩
      · rcases h₂.queues with ⟨hsplits, -⟩ | ⟨hsplits, -⟩
        · rw [hsplits, hdrops.splits key]
        · rw [hsplits key, hdrops.splits key]
          by_cases h : key.1 = peer
          · rw [if_pos h, if_pos h]
          · rw [if_neg h]
      · rcases h₂.queues with ⟨-, hchannels⟩ | ⟨-, hchannels⟩
        · rw [hchannels, ServerState.channels_eq_empty hdrops.absent]
        · exact hchannels

theorem forEach_dispatchEmitted (env : ServerEnv) (addr : SocketAddr) (s : ServerState)
    (emitted : List Emitted) :
    Releases addr.display emitted s (forEach (dispatchEmitted env addr) s emitted) := by
  induction emitted generalizing s with
  | nil => exact releases_none (.inr rfl)
  | cons e emitted ih =>
    unfold forEach
    by_cases hs : s.stuck
    · rw [if_pos hs]
      exact releases_none (.inl hs)
    · rw [if_neg hs]
      exact releases_cons (dispatchEmitted_outcome env addr s e) (ih _)

/-- Pruning drops records of the peer, and nothing of other peers. -/
theorem pruneQueues_channels (env : ServerEnv) (s : ServerState) (addr : SocketAddr) :
    ∃ now, (pruneQueues env s addr).channels addr.display =
      filterMap (fun _ channel => pruneChannel now channel) (s.channels addr.display) := by
  refine ⟨env.instant (pruneSplitBuffersForPeer env s addr).tick, ?_⟩
  have hlookup : (pruneQueues env s addr).connections.lookup addr.display =
      (s.connections.lookup addr.display).map fun c =>
        pruneSessionQueues c (env.instant (pruneSplitBuffersForPeer env s addr).tick) :=
    (ServerState.lookup_modifySession _ addr _ _).trans (if_pos rfl)
  cases h : s.connections.lookup addr.display with
  | some session =>
    rw [h] at hlookup
    rw [ServerState.channels_eq hlookup, ServerState.channels_eq h]
    rfl
  | none =>
    rw [h] at hlookup
    rw [ServerState.channels_eq_empty hlookup, ServerState.channels_eq_empty h]
    rfl

theorem pruneChannel_eq_some {now : ℕ} {channel kept : OrderedChannel}
    (h : pruneChannel now channel = some kept) : kept.nextIndex = channel.nextIndex ∧
      kept.buffer = retain (fun _ entry => isFresh now entry.2) channel.buffer := by
  unfold pruneChannel at h
  dsimp only at h
  by_cases hsize : size (retain (fun _ entry => isFresh now entry.2) channel.buffer) = 0
  · rw [if_pos hsize] at h
    cases h
  · rw [if_neg hsize] at h
    cases h
    exact ⟨rfl, rfl⟩

theorem framesOf_eq {data : Bytes} {frameset : FrameSet}
    (h : parseFrameSet data = some (.ok frameset)) : framesOf data = frameset.frames := by
  unfold framesOf
  rw [h]

theorem parseFrameSet_short {data : Bytes} (h : data.length < 4) :
    ∃ e, parseFrameSet data = some (.error e) := by
  match data, h with
  | [], _ => exact ⟨_, rfl⟩
  | [_], _ => exact ⟨_, rfl⟩
  | [_, _], _ => exact ⟨_, rfl⟩
  | [_, _, _], _ => exact ⟨_, rfl⟩

/-- A short datagram has no frames. -/
theorem framesOf_short {data : Bytes} (h : data.length < 4) : framesOf data = [] := by
  obtain ⟨e, he⟩ := parseFrameSet_short h
  unfold framesOf
  rw [he]

/-- Behind the pruning, a datagram that can be read is handled as its frame set. -/
theorem handleGamePacket_read {env : ServerEnv} {addr : SocketAddr} {s : ServerState}
    (hactive : s.isActiveConnection addr = true) {data : Bytes} {frameset : FrameSet}
    (hparse : parseFrameSet data = some (.ok frameset)) :
    handleGamePacket env addr s data =
      handleFrameSet env (pruneQueues env s addr) frameset addr := by
  have hlen : ¬ data.length < 4 := by
    intro hlen
    obtain ⟨e, he⟩ := parseFrameSet_short hlen
    rw [hparse] at he
    cases he
  unfold handleGamePacket
  rw [if_neg (by simp [hactive]), if_neg hlen, hparse]

/-- A datagram is ignored, or the queues are pruned and its frames are handled. -/
theorem handleGamePacket_cases (env : ServerEnv) (addr : SocketAddr) (s : ServerState)
    (data : Bytes) :
    (s.isActiveConnection addr = false ∧ handleGamePacket env addr s data = s) ∨
    (s.isActiveConnection addr = true ∧ framesOf data = [] ∧
      Same (pruneQueues env s addr) (handleGamePacket env addr s data)) ∨
    (s.isActiveConnection addr = true ∧
      Same (forEach (handleFrame env addr) (markConnected (pruneQueues env s addr) addr)
        (framesOf data)) (handleGamePacket env addr s data)) := by
  unfold handleGamePacket
  cases hactive : s.isActiveConnection addr with
  | false => exact .inl ⟨rfl, rfl⟩
  | true =>
    right
    rw [if_neg (by simp)]
    dsimp only
    by_cases hlen : data.length < 4
    · rw [if_pos hlen]
      exact .inl ⟨rfl, framesOf_short hlen, Same.refl _⟩
    · rw [if_neg hlen]
      cases hparse : parseFrameSet data with
      | none =>
        refine .inl ⟨rfl, ?_, ⟨rfl, rfl, rfl, rfl⟩⟩
        unfold framesOf
        rw [hparse]
      | some result =>
        cases result with
        | error e =>
          refine .inl ⟨rfl, ?_, Same.refl _⟩
          unfold framesOf
          rw [hparse]
        | ok frameset =>
          rw [framesOf_eq hparse]
          dsimp only
          unfold handleFrameSet
          dsimp only
          generalize forEach (handleFrame env addr)
            (markConnected (pruneQueues env s addr) addr) frameset.frames = s'
          cases hstuck : s'.stuck with
          | true =>
            rw [if_pos rfl]
            exact .inr ⟨rfl, Same.refl _⟩
          | false =>
            rw [if_neg (by simp)]
            exact .inr ⟨rfl, ⟨rfl, rfl, rfl, rfl⟩⟩

end SkinGetBE.RakNet
