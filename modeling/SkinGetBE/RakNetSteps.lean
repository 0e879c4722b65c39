import SkinGetBE.RakNetHandshake
import SkinGetBE.RakNetEffects
import Mathlib.Logic.Relation

/-!
# What the handling of a datagram is made of

Every handler is a sequence of a few steps, each of which touches the session of
the sender, its fragments, or nothing of the tables. A property of the server is
checked once for each step. Pruning stands apart, at the start of a datagram.
-/
namespace SkinGetBE.RakNet
open Octets Text Tables Relation

/-- The accounts of the session and the version that its client was told are as before. -/
structure SameBooks (c c' : ClientSession) : Prop where
  packetSeq : c'.packetSeq = c.packetSeq
  inFlightBytes : c'.inFlightBytes = c.inFlightBytes
  pendingMessages : c'.pendingMessages = c.pendingMessages
  bedrockProtocol : c'.bedrockProtocol = c.bedrockProtocol
  bedrockVersion : c'.bedrockVersion = c.bedrockVersion

/-- The sessions and the versions are as before, datagrams are only added to those sent, and
of the fragments only those of the peer change. -/
structure Aside (peer : Str) (s s' : ServerState) : Prop where
  connections : s'.connections = s.connections
  runtimeProtocolVersion : s'.runtimeProtocolVersion = s.runtimeProtocolVersion
  runtimeVersion : s'.runtimeVersion = s.runtimeVersion
  sent : s.sent <+: s'.sent
  splits : ∀ key, key.1 ≠ peer → s'.splitBuffers.lookup key = s.splitBuffers.lookup key

/-- A request for the settings, as it is stored. -/
def ClientSession.negotiated (env : ServerEnv) (proto : ℕ) (session : ClientSession) :
    ClientSession :=
  { session with
    bedrockProtocol := proto % 2 ^ 16
    bedrockVersion := resolveVersion env.fallbackVersion proto
    compressionEnabled := true
    compressionAlgo := none }

/-- One step of a handler. `stored` says which protocol numbers of clients are stored. -/
inductive Step (env : ServerEnv) (addr : SocketAddr) (stored : ℕ → Prop) :
    ServerState → ServerState → Prop
  | aside {s s' : ServerState} (h : Aside addr.display s s') : Step env addr stored s s'
  | sync (s : ServerState) (protocol : ℕ) (h : protocol < 2 ^ 16) :
      Step env addr stored s (syncClientVersion env s protocol)
  | ensure (s : ServerState) (connected : Bool) (protocol : ℕ) :
      Step env addr stored s (s.ensureSession addr connected protocol)
  | update (s : ServerState) (f : ClientSession → ClientSession) (hf : ∀ c, SameBooks c (f c)) :
      Step env addr stored s (s.modifySession addr f)
  | replace (s : ServerState) (c : ClientSession) (hc : SameBooks (s.sessionOf addr) c) :
      Step env addr stored s { s with connections := s.connections.insert addr.display c }
  | transmit (s : ServerState) (reliability : ℕ) (flags : UInt8) (body : Bytes)
      (hbody : body.length ≤ env.config.mtuSize + 11) :
      Step env addr stored s (transmit env s addr reliability flags body).2
  | negotiate (s : ServerState) (proto : ℕ) (h : stored proto) :
      Step env addr stored s (s.modifySession addr (ClientSession.negotiated env proto))
  | capture (s : ServerState) (name : Str) (path : Option Str) (protocol : ℕ)
      (h : stored protocol) :
      Step env addr stored s (s.modifySession addr fun c => c.captured name path
        (protocol % 2 ^ 16) (resolveVersion env.fallbackVersion protocol))
  | acknowledge (s : ServerState) (now : ℕ) (seqs : List ℕ) :
      Step env addr stored s
        (s.modifySession addr fun c => seqs.foldl (ClientSession.acknowledge now) c)
  | resend (s : ServerState) (now seq : ℕ) (msg : PendingMessage)
      (h : s.pendingOf addr seq = some msg) :
      Step env addr stored s (s.modifySession addr fun c => c.resend now seq msg)
  | drop (s : ServerState) : Step env addr stored s (s.dropConnectionState addr)

abbrev Steps (env : ServerEnv) (addr : SocketAddr) (stored : ℕ → Prop) :
    ServerState → ServerState → Prop := ReflTransGen (Step env addr stored)

variable {env : ServerEnv} {addr : SocketAddr} {stored : ℕ → Prop} {s s' : ServerState}

theorem Aside.steps (h : Aside addr.display s s') : Steps env addr stored s s' :=
  .single (.aside h)

theorem aside_advance (peer : Str) (s : ServerState) : Aside peer s s.advance :=
  ⟨rfl, rfl, rfl, List.prefix_refl _, fun _ _ => rfl⟩

theorem aside_sendTo (peer : Str) (env : ServerEnv) (s : ServerState) (dest : SocketAddr)
    (datagram : Bytes) : Aside peer s (s.sendTo env dest datagram).2 :=
  ⟨rfl, rfl, rfl, List.prefix_append _ _, fun _ _ => rfl⟩

theorem steps_update (s : ServerState) {f : ClientSession → ClientSession}
    (hf : ∀ c, SameBooks c (f c)) : Steps env addr stored s (s.modifySession addr f) :=
  .single (.update s f hf)

theorem forEach_steps {α : Type} {f : ServerState → α → ServerState}
    (hf : ∀ s x, Steps env addr stored s (f s x)) (s : ServerState) (xs : List α) :
    Steps env addr stored s (forEach f s xs) := by
  induction xs generalizing s with
  | nil => exact .refl
  | cons x xs ih =>
    unfold forEach
    by_cases hs : s.stuck
    · rw [if_pos hs]
    · rw [if_neg hs]
      exact (hf s x).trans (ih (f s x))

theorem sendFrame_steps (s : ServerState) (payload : Bytes) (reliability : ℕ) :
    Steps env addr stored s (sendFrame env s payload reliability addr).2 := by
  have hadvance : ∀ s, Steps env addr stored s s.advance := fun s => (aside_advance _ s).steps
  have htransmit : ∀ s reliability flags body, body.length ≤ env.config.mtuSize + 11 →
      Steps env addr stored s (transmit env s addr reliability flags body).2 :=
    fun s reliability flags body hbody => .single (.transmit s reliability flags body hbody)
  exact sendFrame_related (fun _ => .refl) ReflTransGen.trans htransmit hadvance s payload
    reliability

theorem finishCapture_steps (s : ServerState) (parsed : ParsedLoginPacket) (path : Option Str)
    (h : stored parsed.protocol) :
    Steps env addr stored s (finishCapture env s parsed path addr) := by
  unfold finishCapture sendLoginSuccessBundle sendBedrockBundle sendDisconnectResponse
    sendBedrockResponse sendRaknetDisconnectNotification
  dsimp only
  refine .trans ?_ (.single (.drop _))
  refine .trans ?_ (steps_update _ fun _ => ⟨rfl, rfl, rfl, rfl, rfl⟩)
  refine .trans ?_ (sendFrame_steps _ _ _)
  refine .trans ?_ (sendFrame_steps _ _ _)
  refine .trans ?_ (sendFrame_steps _ _ _)
  exact .single (.capture s parsed.playerName path parsed.protocol h)

theorem captureLogin_steps (s : ServerState) (parsed : ParsedLoginPacket)
    (h : stored parsed.protocol) : Steps env addr stored s (captureLogin env s parsed addr) := by
  unfold captureLogin
  dsimp only
  refine .head (.sync s (parsed.protocol % 2 ^ 16) (Nat.mod_lt _ (Nat.two_pow_pos 16))) ?_
  generalize syncClientVersion env s (parsed.protocol % 2 ^ 16) = s
  cases ExtractedSkin.new parsed.skinWidth parsed.skinHeight parsed.skinData with
  | error e => exact .refl
  | ok skin =>
    dsimp only
    have haside : ∀ (fs : FileSystem) (stuck : Bool),
        Aside addr.display s { s with fs := fs, stuck := stuck } := fun _ _ =>
      ⟨rfl, rfl, rfl, List.prefix_refl _, fun _ _ => rfl⟩
    cases saveLoginCapture env.tools s.fs env.baseDir
        ⟨parsed.playerName, parsed.skinId, parsed.metadata, skin⟩ env.config.savemode with
    | none => exact (haside s.fs true).steps
    | some saved =>
      obtain ⟨result, fs⟩ := saved
      cases result with
      | error e => exact (haside fs s.stuck).steps
      | ok path => exact (haside fs s.stuck).steps.trans (finishCapture_steps _ parsed path h)

theorem handleLoginPacket_steps (s : ServerState) (remaining : Bytes)
    (h : ∀ parsed, parseLoginPacket env.engines remaining = some (.ok (some parsed)) →
      stored parsed.protocol) :
    Steps env addr stored s (handleLoginPacket env s remaining addr) := by
  unfold handleLoginPacket
  cases hparse : parseLoginPacket env.engines remaining with
  | none => exact Aside.steps ⟨rfl, rfl, rfl, List.prefix_refl _, fun _ _ => rfl⟩
  | some result =>
    cases result with
    | error e => exact .refl
    | ok found =>
      cases found with
      | none => exact .refl
      | some parsed => exact captureLogin_steps s parsed (h parsed hparse)

/-- The number that a request for the settings carries; the server's own when it is cut short. -/
def requestedProtocol (s : ServerState) (buf : Buffer) : ℕ :=
  match buf.readU32.1 with
  | .ok proto => proto
  | .error _ => s.runtimeProtocolVersion

theorem handleRequestNetworkSettings_steps (s : ServerState) (buf : Buffer)
    (h : stored (requestedProtocol s buf)) :
    Steps env addr stored s (handleRequestNetworkSettings env s buf addr) := by
  unfold handleRequestNetworkSettings sendNetworkSettingsResponse sendBedrockResponse
  dsimp only
  exact .head (.negotiate s (requestedProtocol s buf) h) (sendFrame_steps _ _ _)

theorem processSingleBedrockPacket_steps (s : ServerState) (data : Bytes) :
    Steps env addr (fun _ => True) s (processSingleBedrockPacket env addr s data) := by
  unfold processSingleBedrockPacket
  cases data with
  | nil => exact .refl
  | cons first tl =>
    dsimp only
    by_cases hactive : s.isActiveConnection addr = false
    · rw [if_pos hactive]
    · rw [if_neg hactive]
      generalize NetherSession.readPacketId first (first :: tl) = read
      by_cases hlogin : read.1 = 0x01
      · rw [if_pos hlogin]
        exact handleLoginPacket_steps s _ fun _ _ => trivial
      · rw [if_neg hlogin]
        by_cases hsettings : read.1 = 0xc1
        · rw [if_pos hsettings]
          exact handleRequestNetworkSettings_steps s _ trivial
        · rw [if_neg hsettings]

theorem markConnected_steps (s : ServerState) :
    Steps env addr stored s (markConnected s addr) :=
  .head (.ensure s true 0) (steps_update _ fun _ => ⟨rfl, rfl, rfl, rfl, rfl⟩)

theorem dispatchConnectedPing_steps (s : ServerState) (data : Bytes) :
    Steps env addr (fun _ => True) s (dispatchConnectedPing env s data addr) := by
  unfold dispatchConnectedPing
  by_cases hlen : data.length = 9
  · rw [if_pos hlen]
    exact sendFrame_steps s _ 0
  · rw [if_neg hlen]
    by_cases hc : s.compressionEnabled addr
    · rw [if_pos hc]
      cases decompressBatch env.tools.flate data true with
      | error e => exact .refl
      | ok decompressed =>
        dsimp only
        cases parseBatch decompressed with
        | error e => exact .refl
        | ok packets => exact forEach_steps processSingleBedrockPacket_steps s packets
    · rw [if_neg hc]

theorem dispatchBatch_steps (s : ServerState) (data : Bytes) :
    Steps env addr (fun _ => True) s (dispatchBatch env s data addr) := by
  unfold dispatchBatch
  by_cases hlen : data.length ≤ 1
  · rw [if_pos hlen]
  · rw [if_neg hlen]
    cases decompressBatch env.tools.flate (data.drop 1) (s.compressionEnabled addr) with
    | error e => exact .refl
    | ok decompressed => exact forEach_steps processSingleBedrockPacket_steps s _

theorem dispatchRaknetPacket_steps (s : ServerState) (data : Bytes) :
    Steps env addr (fun _ => True) s (dispatchRaknetPacket env s data addr) := by
  unfold dispatchRaknetPacket
  cases data with
  | nil => exact .refl
  | cons packetId tl =>
    dsimp only
    by_cases h09 : packetId = 0x09
    · rw [if_pos h09]
      exact (aside_advance _ s).steps.trans
        ((markConnected_steps _).trans (sendFrame_steps _ _ 3))
    rw [if_neg h09]
    by_cases h13 : packetId = 0x13
    · rw [if_pos h13]
      exact steps_update s fun _ => ⟨rfl, rfl, rfl, rfl, rfl⟩
    rw [if_neg h13]
    by_cases h15 : packetId = 0x15
    · rw [if_pos h15]
      exact .single (.drop s)
    rw [if_neg h15]
    by_cases h00 : packetId = 0x00
    · rw [if_pos h00]
      exact dispatchConnectedPing_steps s _
    rw [if_neg h00]
    by_cases hfe : packetId = 0xfe
    · rw [if_pos hfe]
      exact dispatchBatch_steps s _
    · rw [if_neg hfe]

theorem dispatchEmitted_steps (s : ServerState) (e : Emitted) :
    Steps env addr (fun _ => True) s (dispatchEmitted env addr s e) := by
  have hlog : Aside addr.display s
      { s with dispatched := s.dispatched ++ [⟨addr.display, e⟩] } :=
    ⟨rfl, rfl, rfl, List.prefix_refl _, fun _ _ => rfl⟩
  exact hlog.steps.trans (dispatchRaknetPacket_steps _ e.payload)

theorem bufferOrderedPayload_books (session : ClientSession) (payload : Bytes)
    (orderIndex orderChannel : Option ℕ) (now : ℕ) :
    SameBooks session (bufferOrderedPayload session payload orderIndex orderChannel now).1 := by
  unfold bufferOrderedPayload
  cases orderIndex with
  | none => exact ⟨rfl, rfl, rfl, rfl, rfl⟩
  | some idx => exact ⟨rfl, rfl, rfl, rfl, rfl⟩

theorem deliver_steps (s : ServerState) (payload : Bytes) (orderIndex orderChannel : Option ℕ) :
    Steps env addr stored s (deliver env s addr payload orderIndex orderChannel).1 :=
  .head (.replace s _ (bufferOrderedPayload_books _ payload orderIndex orderChannel _))
    (aside_advance _ _).steps

/-- A change of one entry of the peer. -/
theorem aside_splits {splits : Table (Str × ℕ) SplitBuffer} {assembled : List Assembly}
    (h : ∀ key, key.1 ≠ addr.display → splits.lookup key = s.splitBuffers.lookup key) :
    Steps env addr stored s { s with splitBuffers := splits, assembled := assembled } :=
  Aside.steps ⟨rfl, rfl, rfl, List.prefix_refl _, h⟩

theorem storeFragment_steps (s : ServerState) (sid : ℕ) (entry : SplitBuffer) (idx : ℕ)
    (payload : Bytes) :
    Steps env addr stored s (storeFragment env s addr sid entry idx payload).1 := by
  have hne : ∀ key : Str × ℕ, key.1 ≠ addr.display → key ≠ (addr.display, sid) := by
    rintro key hkey rfl
    exact hkey rfl
  unfold storeFragment
  by_cases h : entry.received[idx]? = some false
  · rw [dif_pos h]
    dsimp only
    by_cases hcount : (entry.store idx payload h).receivedCount = (entry.store idx payload h).count
    · rw [if_pos hcount]
      unfold completeSplit
      dsimp only
      refine .trans (aside_splits fun key hkey => ?_) (deliver_steps _ _ _ _)
      exact AList.lookup_erase_ne (hne key hkey)
    · rw [if_neg hcount]
      exact aside_splits fun key hkey => AList.lookup_insert_ne (hne key hkey)
  · rw [dif_neg h]
    exact aside_splits fun key hkey => AList.lookup_insert_ne (hne key hkey)

theorem receiveSplit_steps (s : ServerState) (frame : RakNetFrame) :
    Steps env addr stored s (receiveSplit env s addr frame).1 := by
  unfold receiveSplit
  cases frame.splitId with
  | none => exact .refl
  | some sid =>
    dsimp only
    by_cases hzero : frame.splitCount.getD 0 = 0
    · rw [if_pos hzero]
    · rw [if_neg hzero]
      by_cases hmax : frame.splitCount.getD 0 > maxSplitParts
      · rw [if_pos hmax]
      · rw [if_neg hmax]
        exact (aside_advance _ s).steps.trans (storeFragment_steps _ sid _ _ _)

theorem receiveFrame_steps (s : ServerState) (frame : RakNetFrame) :
    Steps env addr stored s (receiveFrame env s addr frame).1 := by
  unfold receiveFrame
  refine .head (.ensure s true 0) ?_
  dsimp only
  by_cases hsplit : frame.isSplit
  · rw [if_pos hsplit]
    exact receiveSplit_steps _ frame
  · rw [if_neg hsplit]
    exact deliver_steps _ _ _ _

theorem handleFrame_steps (s : ServerState) (frame : RakNetFrame) :
    Steps env addr (fun _ => True) s (handleFrame env addr s frame) :=
  (receiveFrame_steps s frame).trans (forEach_steps dispatchEmitted_steps _ _)

theorem handleFrameSet_steps (s : ServerState) (frameset : FrameSet) :
    Steps env addr (fun _ => True) s (handleFrameSet env s frameset addr) := by
  have hframes : Steps env addr (fun _ => True) s
      (forEach (handleFrame env addr) (markConnected s addr) frameset.frames) :=
    (markConnected_steps s).trans (forEach_steps handleFrame_steps _ _)
  unfold handleFrameSet
  dsimp only
  generalize forEach (handleFrame env addr) (markConnected s addr) frameset.frames = s' at hframes
  by_cases hs : s'.stuck
  · rw [if_pos hs]
    exact hframes
  · rw [if_neg hs]
    exact hframes.trans (aside_sendTo _ env s' addr _).steps

theorem handleGamePacket_inactive (hactive : s.isActiveConnection addr = false) (data : Bytes) :
    handleGamePacket env addr s data = s := by
  unfold handleGamePacket
  exact if_pos hactive

theorem handleGamePacket_steps (hactive : s.isActiveConnection addr = true) (data : Bytes) :
    Steps env addr (fun _ => True) (pruneQueues env s addr)
      (handleGamePacket env addr s data) := by
  unfold handleGamePacket
  rw [if_neg (by simp [hactive])]
  dsimp only
  by_cases hlen : data.length < 4
  · rw [if_pos hlen]
  · rw [if_neg hlen]
    cases parseFrameSet data with
    | none => exact Aside.steps ⟨rfl, rfl, rfl, List.prefix_refl _, fun _ _ => rfl⟩
    | some result =>
      cases result with
      | error e => exact .refl
      | ok frameset => exact handleFrameSet_steps _ frameset

theorem acknowledgeSegments_steps (now left : ℕ) (buf : Buffer) (s : ServerState) :
    Steps env addr stored s (acknowledgeSegments now addr left buf s) := by
  induction left generalizing buf s with
  | zero => exact .refl
  | succ left ih => exact .head (.acknowledge s now _) (ih _ _)

theorem handleAckPacket_steps (s : ServerState) (data : Bytes) :
    Steps env addr stored s (handleAckPacket env addr s data) :=
  (aside_advance _ s).steps.trans (acknowledgeSegments_steps _ _ _ _)

theorem sendAll_steps (s : ServerState) (frames : List (SocketAddr × Bytes)) :
    Steps env addr stored s (s.sendAll env frames) := by
  induction frames generalizing s with
  | nil => exact .refl
  | cons frame frames ih => exact (aside_sendTo _ env s frame.1 frame.2).steps.trans (ih _)

theorem nackSequence_steps (collected : ServerState × List (SocketAddr × Bytes)) (seq : ℕ) :
    Steps env addr stored collected.1 (nackSequence env addr collected seq).1 := by
  unfold nackSequence
  cases h : collected.1.pendingOf addr seq with
  | none => exact .refl
  | some msg => exact .head (.resend _ _ seq msg h) (aside_advance _ _).steps

theorem nackRange_steps (collected : ServerState × List (SocketAddr × Bytes)) (seqs : List ℕ) :
    Steps env addr stored collected.1 (seqs.foldl (nackSequence env addr) collected).1 := by
  induction seqs generalizing collected with
  | nil => exact .refl
  | cons seq seqs ih => exact (nackSequence_steps collected seq).trans (ih _)

theorem nackSegments_steps (left : ℕ) (buf : Buffer)
    (collected : ServerState × List (SocketAddr × Bytes)) :
    Steps env addr stored collected.1 (nackSegments env addr left buf collected).1 := by
  induction left generalizing buf collected with
  | zero => exact .refl
  | succ left ih => exact (nackRange_steps collected _).trans (ih _ _)

theorem handleNackPacket_steps (s : ServerState) (data : Bytes) :
    Steps env addr stored s (handleNackPacket env addr s data) :=
  (nackSegments_steps _ _ (s, [])).trans (sendAll_steps _ _)

theorem handleUnconnectedPing_steps (s : ServerState) (data : Bytes) :
    Steps env addr stored s (handleUnconnectedPing env addr s data).2 := by
  unfold handleUnconnectedPing
  by_cases hlen : data.length < 25
  · rw [if_pos hlen]
  · rw [if_neg hlen]
    exact (aside_advance _ s).steps.trans (aside_sendTo _ env _ addr _).steps

theorem handleOpenConnectionRequest1_steps (s : ServerState) (data : Bytes) :
    Steps env addr stored s (handleOpenConnectionRequest1 env addr s data).2 := by
  unfold handleOpenConnectionRequest1
  by_cases hlen : data.length < 17
  · rw [if_pos hlen]
  · rw [if_neg hlen]
    refine .trans ?_ (aside_sendTo _ env _ addr _).steps
    cases extractOpenConnectionProtocol data with
    | none => exact .refl
    | some protocol =>
      exact .head (.ensure s false protocol) (steps_update _ fun _ => ⟨rfl, rfl, rfl, rfl, rfl⟩)

theorem handleOpenConnectionRequest2_steps (s : ServerState) (data : Bytes) :
    Steps env addr stored s (handleOpenConnectionRequest2 env addr s data).2 := by
  unfold handleOpenConnectionRequest2
  by_cases hlen : data.length < 19
  · rw [if_pos hlen]
  · rw [if_neg hlen]
    exact (aside_sendTo _ env s addr _).steps

theorem handleConnectionRequest_steps (s : ServerState) (data : Bytes) :
    Steps env addr stored s (handleConnectionRequest env addr s data).2 :=
  (aside_advance _ s).steps.trans
    (.head (.ensure _ true 0) (aside_sendTo _ env _ addr _).steps)

/-- A datagram of frames whose sender has a session is pruned for first. -/
def prunes (s : ServerState) (addr : SocketAddr) (data : Bytes) : Bool :=
  (data.head?.map isFrameSetId).getD false && s.isActiveConnection addr

/-- The state that the steps of a datagram begin in. -/
def startOf (env : ServerEnv) (s : ServerState) (addr : SocketAddr) (data : Bytes) : ServerState :=
  if prunes s addr data then pruneQueues env s addr else s

theorem isFrameSetId_ne {id : UInt8} (h : isFrameSetId id = true) {b : UInt8} (hb : b < 0x80) :
    id ≠ b := by
  rintro rfl
  unfold isFrameSetId at h
  simp only [Bool.and_eq_true, decide_eq_true_eq] at h
  exact absurd h.1 (UInt8.not_le.mpr hb)

theorem handlePacket_frameSet {id : UInt8} (h : isFrameSetId id = true) (tl : Bytes) :
    handlePacket env addr s (id :: tl) = (.ok (), handleGamePacket env addr s (id :: tl)) := by
  unfold handlePacket
  dsimp only
  rw [if_neg (isFrameSetId_ne h (by decide)), if_neg (isFrameSetId_ne h (by decide)),
    if_neg (isFrameSetId_ne h (by decide)), if_neg (isFrameSetId_ne h (by decide)), if_pos h]

theorem handlePacket_other {id : UInt8} (h : isFrameSetId id = false) (s : ServerState)
    (tl : Bytes) : Steps env addr stored s (handlePacket env addr s (id :: tl)).2 := by
  unfold handlePacket
  dsimp only
  by_cases h01 : id = 0x01
  · rw [if_pos h01]
    exact handleUnconnectedPing_steps s _
  rw [if_neg h01]
  by_cases h05 : id = 0x05
  · rw [if_pos h05]
    exact handleOpenConnectionRequest1_steps s _
  rw [if_neg h05]
  by_cases h07 : id = 0x07
  · rw [if_pos h07]
    exact handleOpenConnectionRequest2_steps s _
  rw [if_neg h07]
  by_cases h09 : id = 0x09
  · rw [if_pos h09]
    exact handleConnectionRequest_steps s _
  rw [if_neg h09, if_neg (by simp [h])]
  by_cases hack : id = 0xC0
  · rw [if_pos hack]
    exact handleAckPacket_steps s _
  rw [if_neg hack]
  by_cases hnack : id = 0xA0
  · rw [if_pos hnack]
    exact handleNackPacket_steps s _
  · rw [if_neg hnack]

theorem handlePacket_steps (s : ServerState) (data : Bytes) :
    Steps env addr (fun _ => True) (startOf env s addr data) (handlePacket env addr s data).2 := by
  unfold startOf
  cases data with
  | nil => exact .refl
  | cons id tl =>
    cases hset : isFrameSetId id with
    | false =>
      have hstart : prunes s addr (id :: tl) = false := by simp [prunes, hset]
      rw [if_neg (by simp [hstart])]
      exact handlePacket_other hset s tl
    | true =>
      rw [handlePacket_frameSet hset]
      have hstart : prunes s addr (id :: tl) = s.isActiveConnection addr := by simp [prunes, hset]
      rw [hstart]
      cases hactive : s.isActiveConnection addr with
      | false =>
        rw [if_neg (by simp), handleGamePacket_inactive hactive]
      | true =>
        rw [if_pos rfl]
        exact handleGamePacket_steps hactive _

end SkinGetBE.RakNet
