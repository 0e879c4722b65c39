import SkinGetBE.Dialogues

/-!
# NetherNet and RakNet hold the same dialogue

A NetherNet session carries on a strict dialogue, the dispatcher of the RakNet server a
lenient one. As long as every message is clear, a player who sends the same messages
over either transport leaves the same files, finds compression in the same state and is
sent away at the same message.
-/
namespace SkinGetBE

namespace NetherSession
open Octets

/-- The dialogue that a session is in. -/
def SessionState.dialogue (s : SessionState) : Dialogue :=
  match s.status with
  | .running => .talking s.compressionEnabled s.fs
  | .ended => .closed s.fs
  | .failed _ => .closed s.fs
  | .captured => .closed s.fs
  | .stuck => .stuck

variable {env : SessionEnv} {s : SessionState}

theorem dialogue_running (h : s.status = .running) :
    s.dialogue = .talking s.compressionEnabled s.fs := by
  unfold SessionState.dialogue
  rw [h]

theorem dialogue_not_running (h : s.status ≠ .running) (c : Bool) (fs : FileSystem) :
    s.dialogue ≠ .talking c fs := by
  unfold SessionState.dialogue
  cases hstatus : s.status with
  | running => exact absurd hstatus h
  | ended => exact nofun
  | failed message => exact nofun
  | captured => exact nofun
  | stuck => exact nofun

theorem sendBundle_dialogue (hz : env.tools.flate.DeflateInverts) (s : SessionState) :
    (sendBundle env s).dialogue = .closed s.fs := by
  obtain ⟨bundle, hbundle, -⟩ :=
    buildBatch_decodes hz (by simp [closingPackets]) closingPackets_size s.compressionEnabled
  unfold sendBundle
  rw [hbundle]
  rfl

theorem captureLogin_dialogue (hz : env.tools.flate.DeflateInverts) (s : SessionState)
    (parsed : ParsedLoginPacket) :
    (captureLogin env s parsed).dialogue =
      Dialogue.save env false s.compressionEnabled s.fs parsed := by
  unfold captureLogin Dialogue.save
  dsimp only [SessionState.record, captureOf]
  cases ExtractedSkin.new parsed.skinWidth parsed.skinHeight parsed.skinData with
  | error e => exact sendBundle_dialogue hz _
  | ok skin =>
    dsimp only
    cases saveLoginCapture env.tools s.fs env.baseDir
        ⟨parsed.playerName, parsed.skinId, parsed.metadata, skin⟩ env.savemode with
    | none => rfl
    | some saved =>
      obtain ⟨result, fs⟩ := saved
      cases result with
      | error e => exact sendBundle_dialogue hz _
      | ok path => exact sendBundle_dialogue hz _

theorem handlePacket_hear (hz : env.tools.flate.DeflateInverts) (hrun : s.status = .running)
    (pkt : Bytes) :
    (handlePacket env s pkt).dialogue = s.dialogue.hear env false pkt := by
  rw [dialogue_running hrun]
  unfold Dialogue.hear requestOf handlePacket
  cases pkt with
  | nil => exact dialogue_running hrun
  | cons first rest =>
    dsimp only
    generalize readPacketId first (first :: rest) = read
    obtain ⟨packetId, buf⟩ := read
    dsimp only
    by_cases hsettings : packetId = 0xc1
    · rw [if_pos hsettings, if_pos hsettings]
      unfold handleNetworkSettings
      rw [buildSingleBatch_networkSettings]
      exact dialogue_running hrun
    · rw [if_neg hsettings, if_neg hsettings]
      by_cases hlogin : packetId = 0x01
      · rw [if_pos hlogin, if_pos hlogin]
        unfold handleLogin
        obtain ⟨found, hparse⟩ := parseLoginPacket_ok env.engines buf.readRemaining.1
        rw [hparse]
        cases found with
        | none => exact dialogue_running hrun
        | some parsed => exact captureLogin_dialogue hz _ parsed
      · rw [if_neg hlogin, if_neg hlogin]
        exact dialogue_running hrun

theorem handlePackets_hear (hz : env.tools.flate.DeflateInverts) (packets : List Bytes)
    (hrun : s.status = .running) :
    (handlePackets env s packets).dialogue =
      packets.foldl (Dialogue.hear env false) s.dialogue := by
  induction packets generalizing s with
  | nil => rfl
  | cons pkt packets ih =>
    unfold handlePackets
    dsimp only
    rw [List.foldl_cons, ← handlePacket_hear hz hrun]
    by_cases hnext : (handlePacket env s pkt).status = .running
    · rw [if_pos hnext]
      exact ih hnext
    · rw [if_neg hnext, Dialogue.foldl_hear_done (dialogue_not_running hnext)]

/-- A message behind the marker is read as its batch, and a batch that ends early as no packets. -/
theorem openMessage_marked (flate : Flate2) (c : Bool) (body : Bytes) :
    openMessage flate c (0xfe :: body) = readMessage flate c body ∨
      openMessage flate c (0xfe :: body) = some [] ∧ readMessage flate c body = none := by
  unfold openMessage readMessage
  rw [dropLegacyMarker_marked]
  dsimp only [List.isEmpty_cons]
  rw [if_neg Bool.false_ne_true]
  cases decompressBatch flate body c with
  | error e => exact .inl rfl
  | ok batch =>
    dsimp only
    cases parseBatch batch with
    | error e => exact .inr ⟨rfl, rfl⟩
    | ok packets => exact .inl rfl

theorem handleMessage_listen (hz : env.tools.flate.DeflateInverts) (hrun : s.status = .running)
    (body : Bytes) :
    (handleMessage env s (0xfe :: body)).dialogue = s.dialogue.listen env false body := by
  have hdialogue := dialogue_running hrun
  unfold handleMessage Dialogue.listen
  rw [hdialogue]
  dsimp only
  rcases openMessage_marked env.tools.flate s.compressionEnabled body with hopen | ⟨hopen, hread⟩
  · rw [hopen]
    cases readMessage env.tools.flate s.compressionEnabled body with
    | none => exact hdialogue
    | some packets =>
      dsimp only
      rw [handlePackets_hear hz packets hrun, hdialogue]
  · rw [hopen, hread]
    exact hdialogue

/-- A session that still runs has both of its channels. -/
def Listening (s : SessionState) : Prop :=
  s.status = .running → s.reliableOpen = true ∧ s.unreliableOpen = true

theorem handlePacket_listening (h : Listening s) (hrun : s.status = .running) (pkt : Bytes) :
    Listening (handlePacket env s pkt) := by
  have hopen := h hrun
  rcases handlePacket_cases env s pkt with hcase | ⟨parsed, hcase⟩
  · generalize handlePacket env s pkt = s' at hcase
    cases hcase with
    | empty => exact h
    | ignored packetId hne => exact fun _ => hopen
    | settings => exact fun _ => hopen
  · rw [hcase]
    exact fun hstill => absurd hstill (captureLogin_status _ parsed)

theorem handlePackets_listening (packets : List Bytes) (h : Listening s)
    (hrun : s.status = .running) : Listening (handlePackets env s packets) := by
  induction packets generalizing s with
  | nil => exact h
  | cons pkt packets ih =>
    have hfirst : Listening (handlePacket env s pkt) := handlePacket_listening h hrun pkt
    unfold handlePackets
    dsimp only
    by_cases hnext : (handlePacket env s pkt).status = .running
    · rw [if_pos hnext]
      exact ih hfirst hnext
    · rw [if_neg hnext]
      exact hfirst

theorem step_listen (hz : env.tools.flate.DeflateInverts) (h : Listening s) (channel : Channel)
    (body : Bytes) :
    Listening (step env s (channel, .data (0xfe :: body))) ∧
      (step env s (channel, .data (0xfe :: body))).dialogue = s.dialogue.listen env false body := by
  by_cases hrun : s.status = .running
  · have hopen : s.isOpen channel = true := by
      cases channel with
      | reliable => exact (h hrun).1
      | unreliable => exact (h hrun).2
    have hstep :
        step env s (channel, .data (0xfe :: body)) = handleMessage env s (0xfe :: body) := by
      unfold step
      exact if_neg (by simp [hrun, hopen])
    rw [hstep]
    refine ⟨?_, handleMessage_listen hz hrun body⟩
    unfold handleMessage
    cases openMessage env.tools.flate s.compressionEnabled (0xfe :: body) with
    | none => exact h
    | some packets => exact handlePackets_listening packets h hrun
  · have hstep : step env s (channel, .data (0xfe :: body)) = s :=
      handleSession_finished hrun [(channel, .data (0xfe :: body))]
    rw [hstep, Dialogue.listen_done (dialogue_not_running hrun)]
    exact ⟨h, rfl⟩

/-- A session carries on the strict dialogue of the bodies it receives. -/
theorem handleSession_listen (hz : env.tools.flate.DeflateInverts)
    (messages : List (Channel × Bytes)) (h : Listening s) :
    (handleSession env s (messages.map fun m => (m.1, .data (0xfe :: m.2)))).dialogue =
      (messages.map Prod.snd).foldl (Dialogue.listen env false) s.dialogue := by
  induction messages generalizing s with
  | nil => rfl
  | cons message messages ih =>
    obtain ⟨hnext, hlisten⟩ := step_listen hz h message.1 message.2
    rw [List.map_cons, List.map_cons, List.foldl_cons, ← hlisten]
    exact ih hnext

end NetherSession

namespace RakNet
open Octets Text Tables NetherSession

/-- What a dialogue needs of the environment of the server. -/
def ServerEnv.sessionEnv (env : ServerEnv) : SessionEnv :=
  ⟨env.engines, env.tools, env.baseDir, env.config.savemode⟩

/-- The dialogue with a peer; without a session it is over. -/
def ServerState.dialogue (s : ServerState) (addr : SocketAddr) : Dialogue :=
  if s.stuck then .stuck
  else
    match s.session addr with
    | none => .closed s.fs
    | some session => .talking session.compressionEnabled s.fs

/-- The messages behind the marker reach the dispatcher one after the other. -/
def dispatchBatches (env : ServerEnv) (addr : SocketAddr) (s : ServerState) (bodies : List Bytes) :
    ServerState :=
  bodies.foldl (fun s body => dispatchRaknetPacket env s (0xfe :: body) addr) s

variable {env : ServerEnv} {addr : SocketAddr} {s s' : ServerState} {d : Dialogue}
  {compressionEnabled : Bool} {fs : FileSystem}

theorem talking_iff : s.dialogue addr = .talking compressionEnabled fs ↔
    s.stuck = false ∧ s.fs = fs ∧
      ∃ c, s.session addr = some c ∧ c.compressionEnabled = compressionEnabled := by
  unfold ServerState.dialogue
  cases s.stuck with
  | true => simp
  | false =>
    cases s.session addr with
    | none => simp
    | some c => simp [and_comm]

theorem dialogue_stuck (h : s.stuck = true) : s.dialogue addr = .stuck := by
  unfold ServerState.dialogue
  exact if_pos h

/-- A dialogue that goes on does so as before. -/
def GoesOn (addr : SocketAddr) (s s' : ServerState) : Prop :=
  ∀ c fs, s.dialogue addr = .talking c fs → s'.dialogue addr = .talking c fs

theorem transmit_goesOn (env : ServerEnv) (s : ServerState) (addr : SocketAddr) (reliability : ℕ)
    (flags : UInt8) (body : Bytes) :
    GoesOn addr s (transmit env s addr reliability flags body).2 := by
  intro compressionEnabled fs h
  obtain ⟨hstuck, hfs, c, hc, hflag⟩ := talking_iff.mp h
  have hsame := sameFiles_transmit env s addr reliability flags body
  obtain ⟨now, hsession⟩ := transmit_session env s addr reliability flags body
  rw [sessionOf_eq hc] at hsession
  refine talking_iff.mpr ⟨hsame.stuck.trans hstuck, hsame.fs.trans hfs, _, hsession, ?_⟩
  exact (course_transmitted ..).1.trans hflag

theorem sendFrame_goesOn (env : ServerEnv) (s : ServerState) (payload : Bytes) (reliability : ℕ)
    (addr : SocketAddr) : GoesOn addr s (sendFrame env s payload reliability addr).2 :=
  sendFrame_related (R := GoesOn addr) (fun _ _ _ h => h)
    (fun h h' c fs hd => h' c fs (h c fs hd))
    (fun s reliability flags body _ => transmit_goesOn env s addr reliability flags body)
    (fun _ _ _ h => h) s payload reliability

theorem sameFiles_sendFrame (env : ServerEnv) (s : ServerState) (payload : Bytes)
    (reliability : ℕ) (addr : SocketAddr) :
    SameFiles s (sendFrame env s payload reliability addr).2 :=
  sendFrame_related SameFiles.refl SameFiles.trans
    (fun s reliability flags body _ => sameFiles_transmit env s addr reliability flags body)
    (fun _ => ⟨rfl, rfl⟩) s payload reliability

theorem sameFiles_finishCapture (env : ServerEnv) (s : ServerState) (parsed : ParsedLoginPacket)
    (path : Option Str) (addr : SocketAddr) :
    SameFiles s (finishCapture env s parsed path addr) := by
  have hmodify : ∀ (s : ServerState) (f : ClientSession → ClientSession),
      SameFiles s (s.modifySession addr f) := fun s f => ⟨rfl, rfl⟩
  have hremove : ∀ s : ServerState, SameFiles s (s.removeConnection addr) := fun s => ⟨rfl, rfl⟩
  unfold finishCapture sendLoginSuccessBundle sendBedrockBundle sendDisconnectResponse
    sendBedrockResponse sendRaknetDisconnectNotification
  dsimp only
  refine SameFiles.trans ?_ (hremove _)
  refine SameFiles.trans ?_ (hmodify _ _)
  refine SameFiles.trans ?_ (sameFiles_sendFrame _ _ _ _ addr)
  refine SameFiles.trans ?_ (sameFiles_sendFrame _ _ _ _ addr)
  refine SameFiles.trans ?_ (sameFiles_sendFrame _ _ _ _ addr)
  exact hmodify s _

theorem finishCapture_dialogue (hstuck : s.stuck = false) (parsed : ParsedLoginPacket)
    (path : Option Str) : (finishCapture env s parsed path addr).dialogue addr = .closed s.fs := by
  have habsent : (finishCapture env s parsed path addr).session addr = none :=
    (finishCapture_drops env s parsed path addr).absent
  have hsame := sameFiles_finishCapture env s parsed path addr
  unfold ServerState.dialogue
  rw [hsame.stuck, hstuck, habsent, hsame.fs]
  rfl

theorem captureLogin_dialogue (h : s.dialogue addr = .talking compressionEnabled fs)
    (parsed : ParsedLoginPacket) :
    (captureLogin env s parsed addr).dialogue addr =
      Dialogue.save env.sessionEnv true compressionEnabled fs parsed := by
  obtain ⟨hstuck, rfl, c, hc, hflag⟩ := talking_iff.mp h
  unfold captureLogin Dialogue.save
  dsimp only [ServerEnv.sessionEnv, captureOf]
  cases ExtractedSkin.new parsed.skinWidth parsed.skinHeight parsed.skinData with
  | error e => exact h
  | ok skin =>
    have hsync : (syncClientVersion env s (parsed.protocol % 2 ^ 16)).fs = s.fs := rfl
    dsimp only
    rw [hsync]
    cases saveLoginCapture env.tools s.fs env.baseDir
        ⟨parsed.playerName, parsed.skinId, parsed.metadata, skin⟩ env.config.savemode with
    | none => exact dialogue_stuck rfl
    | some saved =>
      obtain ⟨result, fs⟩ := saved
      cases result with
      | error e => exact talking_iff.mpr ⟨hstuck, rfl, c, hc, hflag⟩
      | ok path =>
        refine finishCapture_dialogue ?_ parsed path
        exact hstuck

theorem handleRequestNetworkSettings_dialogue
    (h : s.dialogue addr = .talking compressionEnabled fs) (buf : Buffer) :
    (handleRequestNetworkSettings env s buf addr).dialogue addr = .talking true fs := by
  obtain ⟨hstuck, rfl, c, hc, hflag⟩ := talking_iff.mp h
  unfold handleRequestNetworkSettings sendNetworkSettingsResponse sendBedrockResponse
  dsimp only
  refine sendFrame_goesOn env _ _ 3 addr true s.fs ?_
  have hmodified : ∀ f : ClientSession → ClientSession,
      (s.modifySession addr f).session addr = some (f c) := by
    intro f
    unfold ServerState.session
    rw [ServerState.lookup_modifySession, if_pos rfl]
    exact congrArg (Option.map f) hc
  exact talking_iff.mpr ⟨hstuck, rfl, _, hmodified _, rfl⟩

theorem handleLoginPacket_dialogue (h : s.dialogue addr = .talking compressionEnabled fs)
    {payload : Bytes} {found : Option ParsedLoginPacket}
    (hparse : parseLoginPacket env.engines payload = some (.ok found)) :
    (handleLoginPacket env s payload addr).dialogue addr =
      found.elim (.talking compressionEnabled fs)
        (Dialogue.save env.sessionEnv true compressionEnabled fs) := by
  unfold handleLoginPacket
  rw [hparse]
  cases found with
  | none => exact h
  | some parsed => exact captureLogin_dialogue h parsed

theorem dialogue_of_absent (hstuck : s.stuck = false) (hsession : s.session addr = none) :
    s.dialogue addr = .closed s.fs := by
  unfold ServerState.dialogue
  rw [hstuck, hsession]
  rfl

theorem processSingleBedrockPacket_hear (hstuck : s.stuck = false) (pkt : Bytes) :
    (processSingleBedrockPacket env addr s pkt).dialogue addr =
      (s.dialogue addr).hear env.sessionEnv true pkt := by
  cases hsession : s.session addr with
  | none =>
    rw [processSingleBedrockPacket_absent hsession, dialogue_of_absent hstuck hsession]
    rfl
  | some c =>
    have htalking : s.dialogue addr = .talking c.compressionEnabled s.fs :=
      talking_iff.mpr ⟨hstuck, rfl, c, hsession, rfl⟩
    have hactive : ¬ s.isActiveConnection addr = false := by
      simp [ServerState.isActiveConnection, hsession]
    rw [htalking]
    unfold Dialogue.hear requestOf processSingleBedrockPacket
    cases pkt with
    | nil => exact htalking
    | cons first rest =>
      dsimp only
      rw [if_neg hactive]
      generalize readPacketId first (first :: rest) = read
      obtain ⟨packetId, buf⟩ := read
      dsimp only
      by_cases hlogin : packetId = 0x01
      · have hother : ¬ packetId = 0xc1 := by omega
        rw [if_pos hlogin, if_neg hother, if_pos hlogin]
        obtain ⟨found, hparse⟩ := parseLoginPacket_ok env.engines buf.readRemaining.1
        have hparse' : parseLoginPacket env.sessionEnv.engines buf.readRemaining.1 =
            some (.ok found) := hparse
        rw [hparse', handleLoginPacket_dialogue htalking hparse]
        cases found with
        | none => rfl
        | some parsed => rfl
      · rw [if_neg hlogin, if_neg hlogin]
        by_cases hsettings : packetId = 0xc1
        · rw [if_pos hsettings, if_pos hsettings]
          exact handleRequestNetworkSettings_dialogue htalking buf
        · rw [if_neg hsettings, if_neg hsettings]
          exact htalking

theorem processPackets_hear (packets : List Bytes) :
    (forEach (processSingleBedrockPacket env addr) s packets).dialogue addr =
      packets.foldl (Dialogue.hear env.sessionEnv true) (s.dialogue addr) := by
  induction packets generalizing s with
  | nil => rfl
  | cons pkt packets ih =>
    unfold forEach
    cases hstuck : s.stuck with
    | true =>
      rw [if_pos rfl, dialogue_stuck hstuck]
      have hdone : ∀ c fs, Dialogue.stuck ≠ .talking c fs := by
        intro c fs hd
        cases hd
      exact (Dialogue.foldl_hear_done hdone (pkt :: packets)).symm
    | false =>
      rw [if_neg Bool.false_ne_true, List.foldl_cons, ← processSingleBedrockPacket_hear hstuck]
      exact ih

/-- While a peer is talked with, a clear message is read as its batch; the search for a batch a few
octets further on is not begun. -/
theorem dispatchBatch_clear {body : Bytes} (h : s.dialogue addr = .talking compressionEnabled fs)
    (hclear : Clear env.sessionEnv compressionEnabled fs body) :
    (dispatchBatch env s (0xfe :: body) addr).dialogue addr =
      (Dialogue.talking compressionEnabled fs).listen env.sessionEnv true body := by
  obtain ⟨hstuck, rfl, c, hc, hflag⟩ := talking_iff.mp h
  have hmode : s.compressionEnabled addr = compressionEnabled := by
    unfold ServerState.compressionEnabled
    rw [hc, ← hflag]
  have hdrop : List.drop 1 (0xfe :: body) = body := rfl
  unfold dispatchBatch Dialogue.listen readMessage
  dsimp only [ServerEnv.sessionEnv]
  rw [hmode, hdrop]
  cases hopen : decompressBatch env.tools.flate body compressionEnabled with
  | error e =>
    dsimp only
    rw [ite_self]
    exact h
  | ok batch =>
    have hlength : ¬ (0xfe :: body).length ≤ 1 := by
      cases body with
      | nil => cases hopen
      | cons value body => simp
    obtain ⟨first, rest, hparse⟩ := hclear.packets batch hopen
    dsimp only
    rw [if_neg hlength, batchPackets_of_parse hparse, hparse, processPackets_hear, h]
    rfl

/-- A dialogue that is over stays as it is, whatever comes in. -/
theorem dispatchBatch_done {body : Bytes} (h : ∀ c fs, s.dialogue addr ≠ .talking c fs) :
    (dispatchBatch env s (0xfe :: body) addr).dialogue addr = s.dialogue addr := by
  unfold dispatchBatch
  split_ifs
  · rfl
  · cases decompressBatch env.tools.flate (List.drop 1 (0xfe :: body))
        (s.compressionEnabled addr) with
    | error e => rfl
    | ok batch => exact (processPackets_hear _).trans (Dialogue.foldl_hear_done h _)

theorem dispatchRaknetPacket_listen {body : Bytes}
    (h : ∀ compressionEnabled fs, s.dialogue addr = .talking compressionEnabled fs →
      Clear env.sessionEnv compressionEnabled fs body) :
    (dispatchRaknetPacket env s (0xfe :: body) addr).dialogue addr =
      (s.dialogue addr).listen env.sessionEnv true body := by
  have hdispatch : dispatchRaknetPacket env s (0xfe :: body) addr =
      dispatchBatch env s (0xfe :: body) addr := rfl
  rw [hdispatch]
  by_cases htalking : ∃ c fs, s.dialogue addr = .talking c fs
  · obtain ⟨compressionEnabled, fs, htalking⟩ := htalking
    rw [htalking]
    exact dispatchBatch_clear htalking (h compressionEnabled fs htalking)
  · have hdone : ∀ c fs, s.dialogue addr ≠ .talking c fs := fun c fs hd => htalking ⟨c, fs, hd⟩
    rw [Dialogue.listen_done hdone]
    exact dispatchBatch_done hdone

/-- The dispatcher carries on the lenient dialogue of clear messages. -/
theorem dispatchBatches_listen (env : ServerEnv) (addr : SocketAddr) (s : ServerState)
    (bodies : List Bytes) (h : ClearFrom env.sessionEnv (s.dialogue addr) bodies) :
    (dispatchBatches env addr s bodies).dialogue addr =
      bodies.foldl (Dialogue.listen env.sessionEnv true) (s.dialogue addr) := by
  induction bodies generalizing s with
  | nil => rfl
  | cons body bodies ih =>
    obtain ⟨hclear, hrest⟩ := h
    rw [← dispatchRaknetPacket_listen hclear] at hrest
    rw [List.foldl_cons, ← dispatchRaknetPacket_listen hclear]
    exact ih _ hrest

/-- Whether a player speaks with a NetherNet session or with the RakNet server, the same clear
messages leave the same dialogue: the files, the state of compression, and whether it is over. -/
theorem transports_agree (env : ServerEnv) (addr : SocketAddr) (s : ServerState)
    (messages : List (Channel × Bytes)) (hz : env.tools.flate.DeflateInverts)
    (hs : s.dialogue addr = .talking false s.fs)
    (hclear : ClearFrom env.sessionEnv (.talking false s.fs) (messages.map Prod.snd)) :
    (handleSession env.sessionEnv (.start s.fs)
        (messages.map fun m => (m.1, .data (0xfe :: m.2)))).dialogue =
      (dispatchBatches env addr s (messages.map Prod.snd)).dialogue addr := by
  have hlistening : Listening (.start s.fs) := fun _ => ⟨rfl, rfl⟩
  calc (handleSession env.sessionEnv (.start s.fs)
        (messages.map fun m => (m.1, .data (0xfe :: m.2)))).dialogue
      = (messages.map Prod.snd).foldl (Dialogue.listen env.sessionEnv false)
          (.talking false s.fs) := handleSession_listen hz messages hlistening
    _ = (messages.map Prod.snd).foldl (Dialogue.listen env.sessionEnv true)
          (.talking false s.fs) := Dialogue.foldl_listen_clear hclear
    _ = (dispatchBatches env addr s (messages.map Prod.snd)).dialogue addr := by
        rw [dispatchBatches_listen env addr s _ (hs.symm ▸ hclear), hs]

/-- The packet of a login is taken for what is parsed from its payload. -/
theorem requestOf_login {env : SessionEnv} {l : SkinLogin} {p : ParsedLoginPacket}
    (hlogin : parseLoginPacket env.engines l.payload = some (.ok (some p))) :
    requestOf env l.packet = .login p := by
  obtain ⟨buf, hid, hpayload⟩ := readPacketId_login l
  unfold requestOf SkinLogin.packet
  unfold SkinLogin.packet at hid
  dsimp only
  rw [hid]
  dsimp only
  rw [if_neg (by decide), if_pos rfl, hpayload, hlogin]

/-- A message with a login that can be saved is clear. -/
theorem clear_login {env : SessionEnv} {l : SkinLogin} {body : Bytes} (he : env.engines.Invert)
    (hs : env.engines.Shrink) (hz : env.tools.flate.DeflateInverts)
    (htools : env.tools.Writes l.skin) (hmode : env.savemode ≠ 0) (hroom : Roomy fs)
    (hbody : buildBatch env.tools.flate [l.packet] compressionEnabled = some body)
    (hsize : (packetFrame l.packet).length ≤ maxDecompressedSize) :
    Clear env compressionEnabled fs body := by
  have hwhole : ([l.packet].flatMap packetFrame).length ≤ maxDecompressedSize := by
    rwa [List.flatMap_singleton]
  obtain ⟨built, hbuilt, hd, -⟩ :=
    buildBatch_decodes hz (List.cons_ne_nil _ _) hwhole compressionEnabled
  obtain rfl : body = built := Option.some.inj (hbody.symm.trans hbuilt)
  have hparse := parseBatch_frames (length_lt_of_size hwhole)
  refine ⟨fun batch hbatch => ?_, fun packets hpackets pkt hpkt parsed hrequest => ?_⟩
  · rw [hd, Except.ok.injEq] at hbatch
    exact ⟨l.packet, [], hbatch ▸ hparse⟩
  · have hread : readMessage env.tools.flate compressionEnabled body = some [l.packet] := by
      unfold readMessage
      rw [hd]
      dsimp only
      rw [hparse]
      rfl
    rw [hread, Option.some.injEq] at hpackets
    subst hpackets
    obtain rfl := List.mem_singleton.mp hpkt
    obtain ⟨p, hlogin, hskin, -⟩ := l.parsed he hs
    obtain ⟨stem, fs', hsave, -⟩ := hskin.savedAs hs htools hroom env.baseDir hmode
    rw [requestOf_login hlogin, Request.login.injEq] at hrequest
    exact hrequest ▸ ⟨l.skin, _, fs', hskin.skin, hsave⟩

theorem clear_stranger (env : SessionEnv) (fs : FileSystem) :
    Clear env false fs (strangerMessage.drop 1) := by
  have hread (flate : Flate2) :
      readMessage flate false (strangerMessage.drop 1) = some [[0x81, 0x01]] := rfl
  refine ⟨fun batch hbatch => ?_, fun packets hpackets pkt hpkt parsed hrequest => ?_⟩
  · obtain rfl : strangerMessage.drop 1 = batch := Except.ok.inj hbatch
    exact ⟨[0x81, 0x01], [], rfl⟩
  · rw [hread, Option.some.injEq] at hpackets
    subst hpackets
    obtain rfl := List.mem_singleton.mp hpkt
    cases hrequest

theorem transports_agree_white :
    (handleSession whiteServer.sessionEnv (.start pairedServer.fs)
        ([(.reliable, strangerMessage.drop 1), (.unreliable, whiteMessage.drop 1)].map
          fun m => (m.1, .data (0xfe :: m.2)))).dialogue =
      (dispatchBatches whiteServer loopback pairedServer
        ([(Channel.reliable, strangerMessage.drop 1), (.unreliable, whiteMessage.drop 1)].map
          Prod.snd)).dialogue loopback := by
  have hstill : (Dialogue.talking false pairedServer.fs).listen whiteServer.sessionEnv false
      (strangerMessage.drop 1) = .talking false pairedServer.fs := rfl
  refine transports_agree whiteServer loopback pairedServer _ sampleFlate_inverts
    (talking_iff.mpr ⟨rfl, rfl, _, rfl, rfl⟩) ⟨?_, ?_, trivial⟩
  · rintro compressionEnabled fs ⟨⟩
    exact clear_stranger _ _
  · rintro compressionEnabled fs htalking
    obtain ⟨⟩ := hstill.symm.trans htalking
    exact clear_login (l := whiteLogin) strictEngines_invert strictEngines_shrink
      sampleFlate_inverts (sampleTools_writes _) (by decide) roomy_empty (by decide +kernel)
      (by decide +kernel)

end RakNet
end SkinGetBE
