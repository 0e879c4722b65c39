import SkinGetBE.FrameRanges
import SkinGetBE.FrameSafety
import SkinGetBE.SequenceRanges
import SkinGetBE.SavedCaptures

/-!
# The effects of a datagram

What a handler does is a sequence of effects. Each is one operation of the server
on the state, with what the handler has found out when it comes to it, so that an
invariant of the server is checked against the operations and not against the
handlers. The acknowledgement of an accepted datagram is the last thing that is sent
for it, and stands apart.
-/
namespace SkinGetBE.RakNet
open Octets Text Tables Relation

/-- The queues of the session and the number of its next datagram are as before. -/
structure SameQueues (c c' : ClientSession) : Prop where
  packetSeq : c'.packetSeq = c.packetSeq
  orderedChannels : c'.orderedChannels = c.orderedChannels
  pendingMessages : c'.pendingMessages = c.pendingMessages

/-- The session numbers what it sends, and reads what it receives, as before. -/
structure SameCourse (c c' : ClientSession) : Prop where
  packetSeq : c'.packetSeq = c.packetSeq
  orderedChannels : c'.orderedChannels = c.orderedChannels
  compressionEnabled : c'.compressionEnabled = c.compressionEnabled

/-- The identifiers of the requests outside of a frame set. -/
def requestIds : List UInt8 := [0x01, 0x05, 0x07, 0x09]

/-- The identifiers of the datagrams that answer them. -/
def answerIds : List UInt8 := [0x06, 0x08, 0x10, 0x1C]

/-- One operation on the state while a datagram from `addr` is handled. -/
inductive Effect (env : ServerEnv) (addr : SocketAddr) (datagram : Bytes) :
    ServerState → ServerState → Prop
  | clock (s : ServerState) : Effect env addr datagram s s.advance
  | answer (s : ServerState) (id : UInt8) (fields : Bytes) (h : id ∈ answerIds)
      (hasked : ∃ asked ∈ requestIds, datagram.head? = some asked) :
      Effect env addr datagram s (s.sendTo env addr (id :: fields)).2
  | transmit (s : ServerState) (reliability : ℕ) (flags : UInt8) (body : Bytes)
      (hbody : body.length ≤ env.config.mtuSize + 11) :
      Effect env addr datagram s (transmit env s addr reliability flags body).2
  | again (s : ServerState) (seq : ℕ) (msg : PendingMessage)
      (h : s.pendingOf addr seq = some msg) :
      Effect env addr datagram s (s.sendTo env addr msg.frame).2
  | ensure (s : ServerState) (connected : Bool) (protocol : ℕ) :
      Effect env addr datagram s (s.ensureSession addr connected protocol)
  | update (s : ServerState) (f : ClientSession → ClientSession) (hf : ∀ c, SameQueues c (f c))
      (hmode : framesOf datagram = [] → ∀ c, (f c).compressionEnabled = c.compressionEnabled) :
      Effect env addr datagram s (s.modifySession addr f)
  | acknowledge (s : ServerState) (now : ℕ) (seqs : List ℕ) (hid : datagram.head? = some 0xC0)
      (h : ∀ seq ∈ seqs, seq ∈ requestedNumbers datagram) :
      Effect env addr datagram s
        (s.modifySession addr fun c => seqs.foldl (ClientSession.acknowledge now) c)
  | resend (s : ServerState) (now seq : ℕ) (msg : PendingMessage)
      (h : s.pendingOf addr seq = some msg) :
      Effect env addr datagram s (s.modifySession addr fun c => c.resend now seq msg)
  | prune (s : ServerState) : Effect env addr datagram s (pruneQueues env s addr)
  | receive (s : ServerState) (frame : RakNetFrame) (h : frame ∈ framesOf datagram) :
      Effect env addr datagram s (receiveFrame env s addr frame).1
  | dispatch (s : ServerState) (e : Emitted) :
      Effect env addr datagram s { s with dispatched := s.dispatched ++ [⟨addr.display, e⟩] }
  | sync (s : ServerState) (protocol : ℕ) :
      Effect env addr datagram s (syncClientVersion env s protocol)
  | save (s : ServerState) (parsed : ParsedLoginPacket) (skin : ExtractedSkin)
      (result : Except Error (Option Str)) (fs : FileSystem)
      (hskin : ParsedSkin env.engines parsed skin)
      (hsave : saveLoginCapture env.tools s.fs env.baseDir (captureOf parsed skin)
        env.config.savemode = some (result, fs)) : Effect env addr datagram s { s with fs := fs }
  | halt (s : ServerState) (parsed : ParsedLoginPacket) (skin : ExtractedSkin)
      (hskin : ParsedSkin env.engines parsed skin)
      (hsave : saveLoginCapture env.tools s.fs env.baseDir (captureOf parsed skin)
        env.config.savemode = none) : Effect env addr datagram s { s with stuck := true }
  | drop (s : ServerState) (h : framesOf datagram ≠ []) :
      Effect env addr datagram s (s.dropConnectionState addr)

abbrev Effects (env : ServerEnv) (addr : SocketAddr) (datagram : Bytes) :
    ServerState → ServerState → Prop := ReflTransGen (Effect env addr datagram)

variable {env : ServerEnv} {addr : SocketAddr} {datagram : Bytes} {s s' : ServerState}

theorem SameCourse.refl (c : ClientSession) : SameCourse c c := ⟨rfl, rfl, rfl⟩

theorem SameCourse.trans {c₁ c₂ c₃ : ClientSession} (h : SameCourse c₁ c₂)
    (h' : SameCourse c₂ c₃) : SameCourse c₁ c₃ where
  packetSeq := h'.packetSeq.trans h.packetSeq
  orderedChannels := h'.orderedChannels.trans h.orderedChannels
  compressionEnabled := h'.compressionEnabled.trans h.compressionEnabled

theorem foldl_acknowledge_course (now : ℕ) (c : ClientSession) (seqs : List ℕ) :
    SameCourse c (seqs.foldl (ClientSession.acknowledge now) c) := by
  induction seqs generalizing c with
  | nil => exact .refl c
  | cons seq seqs ih =>
    refine SameCourse.trans ?_ (ih _)
    unfold ClientSession.acknowledge
    cases c.pendingMessages.lookup seq with
    | none => exact .refl c
    | some msg => exact ⟨rfl, rfl, rfl⟩

theorem foldl_resendKey_course (now : ℕ) (collected : ClientSession × List Bytes)
    (keys : List ℕ) : SameCourse collected.1 (keys.foldl (resendKey now) collected).1 := by
  induction keys generalizing collected with
  | nil => exact .refl _
  | cons seq keys ih =>
    refine SameCourse.trans ?_ (ih _)
    unfold resendKey
    cases collected.1.pendingMessages.lookup seq with
    | none => exact .refl _
    | some msg => exact ⟨rfl, rfl, rfl⟩

theorem resendDue_course (now : ℕ) (c : ClientSession) : SameCourse c (resendDue now c).1 :=
  foldl_resendKey_course now (c, []) (dueKeys now c)

theorem clock_effects (s : ServerState) : Effects env addr datagram s s.advance :=
  .single (.clock s)

theorem update_effects (s : ServerState) {f : ClientSession → ClientSession}
    (hf : ∀ c, SameQueues c (f c))
    (hmode : ∀ c, (f c).compressionEnabled = c.compressionEnabled) :
    Effects env addr datagram s (s.modifySession addr f) :=
  .single (.update s f hf fun _ => hmode)

theorem forEach_effects {α : Type} {f : ServerState → α → ServerState} {xs : List α}
    (hf : ∀ s, ∀ x ∈ xs, Effects env addr datagram s (f s x)) (s : ServerState) :
    Effects env addr datagram s (forEach f s xs) := by
  induction xs generalizing s with
  | nil => exact .refl
  | cons x xs ih =>
    unfold forEach
    by_cases hs : s.stuck
    · rw [if_pos hs]
    · rw [if_neg hs]
      refine (hf s x List.mem_cons_self).trans ?_
      exact ih (fun s y hy => hf s y (List.mem_cons_of_mem x hy)) (f s x)

theorem sendFrame_effects (s : ServerState) (payload : Bytes) (reliability : ℕ) :
    Effects env addr datagram s (sendFrame env s payload reliability addr).2 := by
  have htransmit : ∀ s reliability flags body, body.length ≤ env.config.mtuSize + 11 →
      Effects env addr datagram s (transmit env s addr reliability flags body).2 :=
    fun s reliability flags body hbody => .single (.transmit s reliability flags body hbody)
  exact sendFrame_related (fun _ => .refl) ReflTransGen.trans htransmit clock_effects s payload
    reliability

theorem finishCapture_effects (h : framesOf datagram ≠ []) (s : ServerState)
    (parsed : ParsedLoginPacket) (path : Option Str) :
    Effects env addr datagram s (finishCapture env s parsed path addr) := by
  unfold finishCapture sendLoginSuccessBundle sendBedrockBundle sendDisconnectResponse
    sendBedrockResponse sendRaknetDisconnectNotification
  dsimp only
  refine .trans ?_ (.single (.drop _ h))
  refine .trans ?_ (update_effects _ (fun _ => ⟨rfl, rfl, rfl⟩) fun _ => rfl)
  refine .trans ?_ (sendFrame_effects _ _ _)
  refine .trans ?_ (sendFrame_effects _ _ _)
  refine .trans ?_ (sendFrame_effects _ _ _)
  exact update_effects s (fun _ => ⟨rfl, rfl, rfl⟩) fun _ => rfl

theorem captureLogin_effects (hframes : framesOf datagram ≠ []) (s : ServerState) {data : Bytes}
    {parsed : ParsedLoginPacket}
    (h : parseLoginPacket env.engines data = some (.ok (some parsed))) :
    Effects env addr datagram s (captureLogin env s parsed addr) := by
  unfold captureLogin
  dsimp only
  refine .head (.sync s (parsed.protocol % 2 ^ 16)) ?_
  generalize syncClientVersion env s (parsed.protocol % 2 ^ 16) = s
  cases hskin : ExtractedSkin.new parsed.skinWidth parsed.skinHeight parsed.skinData with
  | error e => exact .refl
  | ok skin =>
    dsimp only
    have hparsed : ParsedSkin env.engines parsed skin := ⟨⟨data, h⟩, hskin⟩
    cases hsave : saveLoginCapture env.tools s.fs env.baseDir
        ⟨parsed.playerName, parsed.skinId, parsed.metadata, skin⟩ env.config.savemode with
    | none => exact .single (.halt s parsed skin hparsed hsave)
    | some saved =>
      obtain ⟨result, fs⟩ := saved
      have hsaved : Effect env addr datagram s { s with fs := fs } :=
        .save s parsed skin result fs hparsed hsave
      cases result with
      | error e => exact .single hsaved
      | ok path => exact .head hsaved (finishCapture_effects hframes _ parsed path)

theorem handleLoginPacket_effects (h : framesOf datagram ≠ []) (s : ServerState)
    (remaining : Bytes) :
    Effects env addr datagram s (handleLoginPacket env s remaining addr) := by
  unfold handleLoginPacket
  obtain ⟨found, hparse⟩ := parseLoginPacket_ok env.engines remaining
  rw [hparse]
  cases found with
  | none => exact .refl
  | some parsed => exact captureLogin_effects h s hparse

theorem handleRequestNetworkSettings_effects (h : framesOf datagram ≠ []) (s : ServerState)
    (buf : Buffer) :
    Effects env addr datagram s (handleRequestNetworkSettings env s buf addr) := by
  unfold handleRequestNetworkSettings sendNetworkSettingsResponse sendBedrockResponse
  dsimp only
  refine .trans ?_ (sendFrame_effects _ _ _)
  exact .single (.update s _ (fun _ => ⟨rfl, rfl, rfl⟩) fun hnone => absurd hnone h)

theorem processSingleBedrockPacket_effects (h : framesOf datagram ≠ []) (s : ServerState)
    (data : Bytes) :
    Effects env addr datagram s (processSingleBedrockPacket env addr s data) := by
  unfold processSingleBedrockPacket
  cases data with
  | nil => exact .refl
  | cons first tl =>
    dsimp only
    by_cases hactive : s.isActiveConnection addr = false
    · rw [if_pos hactive]
    · rw [if_neg hactive]
      generalize NetherSession.readPacketId first (first :: tl) = read
      by_cases hlogin : read.1 = 0x01
      · rw [if_pos hlogin]
        exact handleLoginPacket_effects h s _
      · rw [if_neg hlogin]
        by_cases hsettings : read.1 = 0xc1
        · rw [if_pos hsettings]
          exact handleRequestNetworkSettings_effects h s _
        · rw [if_neg hsettings]

theorem processPackets_effects (h : framesOf datagram ≠ []) (s : ServerState)
    (packets : List Bytes) :
    Effects env addr datagram s (forEach (processSingleBedrockPacket env addr) s packets) :=
  forEach_effects (fun s packet _ => processSingleBedrockPacket_effects h s packet) s

theorem markConnected_effects (s : ServerState) :
    Effects env addr datagram s (markConnected s addr) :=
  .head (.ensure s true 0) (update_effects _ (fun _ => ⟨rfl, rfl, rfl⟩) fun _ => rfl)

theorem dispatchConnectedPing_effects (h : framesOf datagram ≠ []) (s : ServerState)
    (data : Bytes) :
    Effects env addr datagram s (dispatchConnectedPing env s data addr) := by
  unfold dispatchConnectedPing
  by_cases hlen : data.length = 9
  · rw [if_pos hlen]
    exact sendFrame_effects s _ 0
  · rw [if_neg hlen]
    by_cases hc : s.compressionEnabled addr
    · rw [if_pos hc]
      cases decompressBatch env.tools.flate data true with
      | error e => exact .refl
      | ok decompressed =>
        dsimp only
        cases parseBatch decompressed with
        | error e => exact .refl
        | ok packets => exact processPackets_effects h s packets
    · rw [if_neg hc]

theorem dispatchBatch_effects (h : framesOf datagram ≠ []) (s : ServerState) (data : Bytes) :
    Effects env addr datagram s (dispatchBatch env s data addr) := by
  unfold dispatchBatch
  by_cases hlen : data.length ≤ 1
  · rw [if_pos hlen]
  · rw [if_neg hlen]
    cases decompressBatch env.tools.flate (data.drop 1) (s.compressionEnabled addr) with
    | error e => exact .refl
    | ok decompressed => exact processPackets_effects h s _

theorem dispatchRaknetPacket_effects (h : framesOf datagram ≠ []) (s : ServerState)
    (data : Bytes) :
    Effects env addr datagram s (dispatchRaknetPacket env s data addr) := by
  unfold dispatchRaknetPacket
  cases data with
  | nil => exact .refl
  | cons packetId tl =>
    dsimp only
    by_cases h09 : packetId = 0x09
    · rw [if_pos h09]
      exact (clock_effects s).trans ((markConnected_effects _).trans (sendFrame_effects _ _ 3))
    rw [if_neg h09]
    by_cases h13 : packetId = 0x13
    · rw [if_pos h13]
      exact update_effects s (fun _ => ⟨rfl, rfl, rfl⟩) fun _ => rfl
    rw [if_neg h13]
    by_cases h15 : packetId = 0x15
    · rw [if_pos h15]
      exact .single (.drop s h)
    rw [if_neg h15]
    by_cases h00 : packetId = 0x00
    · rw [if_pos h00]
      exact dispatchConnectedPing_effects h s _
    rw [if_neg h00]
    by_cases hfe : packetId = 0xfe
    · rw [if_pos hfe]
      exact dispatchBatch_effects h s _
    · rw [if_neg hfe]

theorem dispatchEmitted_effects (h : framesOf datagram ≠ []) (s : ServerState) (e : Emitted) :
    Effects env addr datagram s (dispatchEmitted env addr s e) :=
  .head (.dispatch s e) (dispatchRaknetPacket_effects h _ e.payload)

theorem handleFrame_effects (s : ServerState) {frame : RakNetFrame}
    (h : frame ∈ framesOf datagram) :
    Effects env addr datagram s (handleFrame env addr s frame) := by
  unfold handleFrame
  refine .head (.receive s frame h) (forEach_effects (fun s e _ => ?_) _)
  exact dispatchEmitted_effects (List.ne_nil_of_mem h) s e

/-- The frame set that a datagram is accepted as, while its sender has a session. -/
def acceptedFrameSet (s : ServerState) (addr : SocketAddr) (data : Bytes) : Option FrameSet :=
  if s.isActiveConnection addr then
    match parseFrameSet data with
    | some (.ok frameset) => some frameset
    | some (.error _) => none
    | none => none
  else none

/-- A datagram that is accepted is acknowledged once its frames are handled. -/
inductive Handling (env : ServerEnv) (addr : SocketAddr) (datagram : Bytes) (s : ServerState) :
    Option FrameSet → ServerState → Prop
  | passed {s' : ServerState} (h : Effects env addr datagram s s') :
      Handling env addr datagram s none s'
  | interrupted {s' : ServerState} (frameset : FrameSet) (h : Effects env addr datagram s s')
      (hstuck : s'.stuck = true) : Handling env addr datagram s (some frameset) s'
  | acknowledged {s' : ServerState} (frameset : FrameSet)
      (hparse : parseFrameSet datagram = some (.ok frameset))
      (h : Effects env addr datagram s s') (hstuck : s'.stuck = false) :
      Handling env addr datagram s (some frameset)
        (s'.sendTo env addr (ackDatagram frameset.seq)).2

theorem Handling.before {s₀ : ServerState} {frameset : Option FrameSet}
    (h₀ : Effects env addr datagram s₀ s) (h : Handling env addr datagram s frameset s') :
    Handling env addr datagram s₀ frameset s' := by
  cases h with
  | passed h => exact .passed (h₀.trans h)
  | interrupted frameset h hstuck => exact .interrupted frameset (h₀.trans h) hstuck
  | acknowledged frameset hparse h hstuck => exact .acknowledged frameset hparse (h₀.trans h) hstuck

theorem handleFrameSet_handling (s : ServerState) {frameset : FrameSet}
    (hparse : parseFrameSet datagram = some (.ok frameset)) :
    Handling env addr datagram s (some frameset) (handleFrameSet env s frameset addr) := by
  have hof : framesOf datagram = frameset.frames := by
    unfold framesOf
    rw [hparse]
  have hframes : Effects env addr datagram s
      (forEach (handleFrame env addr) (markConnected s addr) frameset.frames) := by
    refine (markConnected_effects s).trans (forEach_effects (fun s f hf => ?_) _)
    exact handleFrame_effects s (hof ▸ hf)
  unfold handleFrameSet
  dsimp only
  generalize forEach (handleFrame env addr) (markConnected s addr) frameset.frames = s' at hframes
  by_cases hs : s'.stuck = true
  · rw [if_pos hs]
    exact .interrupted frameset hframes hs
  · rw [if_neg hs]
    exact .acknowledged frameset hparse hframes (Bool.eq_false_of_not_eq_true hs)

/-- A datagram that is long enough is read in bounds. -/
theorem parseFrameSet_returns (data : Bytes) : parseFrameSet data ≠ none := by
  intro h
  unfold parseFrameSet at h
  split at h
  · next id s0 s1 s2 tl =>
    by_cases hid : 0x80 ≤ id ∧ id ≤ 0x8d
    · rw [if_pos hid] at h
      obtain ⟨frames, hframes, -⟩ :=
        @selectFrames_pieces (id :: s0 :: s1 :: s2 :: tl) (by simp)
      rw [hframes] at h
      cases h
    · rw [if_neg hid] at h
      cases h
  · cases h

theorem handleGamePacket_handling (s : ServerState) (data : Bytes) :
    Handling env addr data s (acceptedFrameSet s addr data) (handleGamePacket env addr s data) := by
  unfold handleGamePacket acceptedFrameSet
  by_cases hactive : s.isActiveConnection addr = true
  · rw [if_pos hactive, if_neg (by simp [hactive])]
    have hprune : Effects env addr data s (pruneQueues env s addr) := .single (.prune s)
    dsimp only
    by_cases hlen : data.length < 4
    · obtain ⟨e, he⟩ := parseFrameSet_short hlen
      rw [if_pos hlen, he]
      exact .passed hprune
    · rw [if_neg hlen]
      cases hparse : parseFrameSet data with
      | none => exact absurd hparse (parseFrameSet_returns data)
      | some result =>
        cases result with
        | error e => exact .passed hprune
        | ok frameset =>
          exact (handleFrameSet_handling _ hparse).before hprune
  · rw [if_neg hactive, if_pos (Bool.eq_false_of_not_eq_true hactive)]
    exact .passed .refl

end SkinGetBE.RakNet
