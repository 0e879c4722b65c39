import SkinGetBE.LabelledTraces
import SkinGetBE.Transports

/-!
# The conversations of a run

Seen from outside of its tables, the server holds a conversation with each peer that it
has a session for. A conversation begins without compression, may go over to it, and
ends when the peer leaves or when its skin is saved. Every run of the server is a trace
of such steps, whatever the peers send.
-/
namespace SkinGetBE.RakNet
open Octets Text Tables LabelledTraces

namespace Conversation

/-- Which peers are talked with, whether with compression, and the files. -/
@[ext] structure World where
  talks : Str → Option Bool
  fs : FileSystem

inductive Event
  | opens
  | negotiates
  | saves (capture : LoginCapture) (path : Option Str)
  | fails (capture : LoginCapture) (error : Error)
  | leaves

def Event.isStart : Event → Bool
  | opens => true
  | _ => false

/-- The conversation is over. -/
def Event.isEnd : Event → Bool
  | saves _ _ => true
  | leaves => true
  | _ => false

def World.put (w : World) (peer : Str) (mode : Option Bool) (fs : FileSystem) : World :=
  ⟨Function.update w.talks peer mode, fs⟩

def OfLogin (env : ServerEnv) (capture : LoginCapture) : Prop :=
  ∃ parsed skin, ParsedSkin env.engines parsed skin ∧ capture = captureOf parsed skin

/-- A save that fails may have written a file, and the conversation goes on. -/
inductive Step (env : ServerEnv) : World → Str × Event → World → Prop
  | opens {w : World} {peer : Str} (h : w.talks peer = none) :
      Step env w (peer, .opens) (w.put peer (some false) w.fs)
  | negotiates {w : World} {peer : Str} {mode : Bool} (h : w.talks peer = some mode) :
      Step env w (peer, .negotiates) (w.put peer (some true) w.fs)
  | saves {w : World} {peer : Str} {mode : Bool} {capture : LoginCapture} {path : Option Str}
      {fs : FileSystem} (h : w.talks peer = some mode) (hlogin : OfLogin env capture)
      (hsave : saveLoginCapture env.tools w.fs env.baseDir capture env.config.savemode =
        some (.ok path, fs)) : Step env w (peer, .saves capture path) (w.put peer none fs)
  | fails {w : World} {peer : Str} {mode : Bool} {capture : LoginCapture} {error : Error}
      {fs : FileSystem} (h : w.talks peer = some mode) (hlogin : OfLogin env capture)
      (hsave : saveLoginCapture env.tools w.fs env.baseDir capture env.config.savemode =
        some (.error error, fs)) :
      Step env w (peer, .fails capture error) (w.put peer (some mode) fs)
  | leaves {w : World} {peer : Str} {mode : Bool} (h : w.talks peer = some mode) :
      Step env w (peer, .leaves) (w.put peer none w.fs)

/-- What a state of the server looks like from outside. -/
def World.of (s : ServerState) : World :=
  ⟨fun peer => (s.connections.lookup peer).map ClientSession.compressionEnabled, s.fs⟩

/-- The state is reached by steps of the peer. -/
def Converses (env : ServerEnv) (addr : SocketAddr) (s s' : ServerState) : Prop :=
  ∃ labels, Trace (Step env) (.of s) labels (.of s') ∧ ∀ label ∈ labels, label.1 = addr.display

variable {env : ServerEnv} {addr : SocketAddr} {s s' s'' : ServerState} {peer : Str}

theorem World.of_put {mode : Option Bool}
    (hpeer : (s'.connections.lookup peer).map ClientSession.compressionEnabled = mode)
    (hothers : ∀ b, b ≠ peer → s'.connections.lookup b = s.connections.lookup b) :
    World.of s' = (World.of s).put peer mode s'.fs := by
  refine World.ext (funext fun b => ?_) rfl
  unfold World.of World.put
  dsimp only
  by_cases hb : b = peer
  · subst hb
    rw [Function.update_self]
    exact hpeer
  · rw [Function.update_of_ne hb, hothers b hb]

theorem World.put_self {w : World} {mode : Option Bool} (h : w.talks peer = mode) :
    w.put peer mode w.fs = w := by
  subst h
  exact World.ext (Function.update_eq_self peer w.talks) rfl

theorem Converses.of_eq (h : World.of s' = World.of s) : Converses env addr s s' :=
  ⟨[], h ▸ .nil _, fun _ hlabel => absurd hlabel List.not_mem_nil⟩

theorem Converses.refl (s : ServerState) : Converses env addr s s := .of_eq rfl

theorem Converses.trans (h : Converses env addr s s') (h' : Converses env addr s' s'') :
    Converses env addr s s'' := by
  obtain ⟨labels, htrace, hpeer⟩ := h
  obtain ⟨more, htrace', hpeer'⟩ := h'
  refine ⟨labels ++ more, htrace.append htrace', fun label hlabel => ?_⟩
  rcases List.mem_append.mp hlabel with hfirst | hlater
  · exact hpeer label hfirst
  · exact hpeer' label hlater

theorem Converses.single {event : Event} {w : World}
    (h : Step env (.of s) (addr.display, event) w) (hw : World.of s' = w) :
    Converses env addr s s' :=
  ⟨[(addr.display, event)], hw ▸ .single h, fun label hlabel => by
    rw [List.mem_singleton.mp hlabel]⟩

theorem talks_of_session {c : ClientSession} (h : s.session addr = some c) :
    (World.of s).talks addr.display = some c.compressionEnabled :=
  congrArg (Option.map ClientSession.compressionEnabled) h

theorem talks_of_absent (h : s.session addr = none) : (World.of s).talks addr.display = none :=
  congrArg (Option.map ClientSession.compressionEnabled) h

theorem mode_getOr (s : ServerState) (addr : SocketAddr) (connected : Bool) (protocol : ℕ) :
    (getOr addr.display (s.createSession connected protocol) s.connections).compressionEnabled =
      s.compressionEnabled addr := by
  unfold getOr ServerState.compressionEnabled ServerState.session
  cases s.connections.lookup addr.display with
  | none => rfl
  | some c => rfl

/-- The session is there afterwards, with the compression that the peer had. -/
theorem converses_put {c : ClientSession} (hfs : s'.fs = s.fs)
    (hpeer : s'.connections.lookup addr.display = some c)
    (hmode : c.compressionEnabled = s.compressionEnabled addr)
    (hothers : ∀ b, b ≠ addr.display → s'.connections.lookup b = s.connections.lookup b) :
    Converses env addr s s' := by
  have hput : World.of s' =
      (World.of s).put addr.display (some (s.compressionEnabled addr)) s.fs := by
    rw [← hfs]
    refine World.of_put ?_ hothers
    rw [hpeer, Option.map_some, hmode]
  unfold ServerState.compressionEnabled at hput
  cases hsession : s.session addr with
  | none =>
    rw [hsession] at hput
    exact .single (.opens (talks_of_absent hsession)) hput
  | some c₀ =>
    rw [hsession] at hput
    exact .of_eq (hput.trans (World.put_self (talks_of_session hsession)))

theorem converses_ensure (s : ServerState) (connected : Bool) (protocol : ℕ) :
    Converses env addr s (s.ensureSession addr connected protocol) := by
  refine converses_put rfl ?_ (mode_getOr s addr connected protocol) fun b hb => ?_
  · rw [ServerState.lookup_ensureSession, if_pos rfl]
  · rw [ServerState.lookup_ensureSession, if_neg hb]

theorem world_modify (s : ServerState) (addr : SocketAddr) {f : ClientSession → ClientSession}
    (hf : ∀ c, (f c).compressionEnabled = c.compressionEnabled) :
    World.of (s.modifySession addr f) = World.of s := by
  refine World.ext (funext fun b => ?_) rfl
  unfold World.of
  dsimp only
  rw [ServerState.lookup_modifySession]
  by_cases hb : b = addr.display
  · subst hb
    rw [if_pos rfl, Option.map_map]
    exact congrArg (fun g => Option.map g _) (funext hf)
  · rw [if_neg hb]

theorem converses_modify (s : ServerState) {f : ClientSession → ClientSession}
    (hf : ∀ c, (f c).compressionEnabled = c.compressionEnabled) :
    Converses env addr s (s.modifySession addr f) := .of_eq (world_modify s addr hf)

theorem converses_drop (s : ServerState) : Converses env addr s (s.dropConnectionState addr) := by
  have hdrops := drops_dropConnectionState s addr
  have hput : World.of (s.dropConnectionState addr) =
      (World.of s).put addr.display none s.fs :=
    World.of_put (congrArg (Option.map ClientSession.compressionEnabled) hdrops.absent)
      hdrops.others
  cases hsession : s.session addr with
  | none => exact .of_eq (hput.trans (World.put_self (talks_of_absent hsession)))
  | some c => exact .single (.leaves (talks_of_session hsession)) hput

theorem converses_transmit (s : ServerState) (reliability : ℕ) (flags : UInt8) (body : Bytes) :
    Converses env addr s (transmit env s addr reliability flags body).2 := by
  obtain ⟨now, hsession⟩ := transmit_session env s addr reliability flags body
  refine converses_put (sameFiles_transmit env s addr reliability flags body).fs hsession ?_
    (keeps_transmit env s addr reliability flags body).others
  exact (course_transmitted ..).1.trans (mode_getOr s addr true 0)

theorem converses_sendFrame (s : ServerState) (payload : Bytes) (reliability : ℕ) :
    Converses env addr s (sendFrame env s payload reliability addr).2 :=
  sendFrame_related .refl .trans
    (fun s reliability flags body _ => converses_transmit s reliability flags body)
    (fun _ => .of_eq rfl) s payload reliability

theorem forEach_converses {α : Type} {f : ServerState → α → ServerState}
    (hf : ∀ s x, Converses env addr s (f s x)) (s : ServerState) (xs : List α) :
    Converses env addr s (forEach f s xs) := by
  induction xs generalizing s with
  | nil => exact .refl s
  | cons x xs ih =>
    unfold forEach
    by_cases hs : s.stuck
    · rw [if_pos hs]
      exact .refl s
    · rw [if_neg hs]
      exact (hf s x).trans (ih (f s x))

theorem handleRequestNetworkSettings_converses {c : ClientSession} (hc : s.session addr = some c)
    (buf : Buffer) : Converses env addr s (handleRequestNetworkSettings env s buf addr) := by
  unfold handleRequestNetworkSettings sendNetworkSettingsResponse sendBedrockResponse
  dsimp only
  refine .trans ?_ (converses_sendFrame _ _ _)
  refine .single (.negotiates (talks_of_session hc)) (World.of_put ?_ fun b hb => ?_)
  · rw [ServerState.lookup_modifySession, if_pos rfl]
    unfold ServerState.session at hc
    rw [hc]
    rfl
  · rw [ServerState.lookup_modifySession, if_neg hb]

/-- A login that can be read is saved and the conversation over, or the save fails. -/
theorem captureLogin_converses {c : ClientSession} (hc : s.session addr = some c)
    {payload : Bytes} {parsed : ParsedLoginPacket}
    (hparse : parseLoginPacket env.engines payload = some (.ok (some parsed))) :
    Converses env addr s (captureLogin env s parsed addr) := by
  have htalks := talks_of_session hc
  unfold captureLogin
  cases hskin : ExtractedSkin.new parsed.skinWidth parsed.skinHeight parsed.skinData with
  | error e => exact .of_eq rfl
  | ok skin =>
    have hlogin : OfLogin env (captureOf parsed skin) :=
      ⟨parsed, skin, ⟨⟨payload, hparse⟩, hskin⟩, rfl⟩
    have hsync : (syncClientVersion env s (parsed.protocol % 2 ^ 16)).fs = s.fs := rfl
    dsimp only
    rw [hsync]
    cases hsave : saveLoginCapture env.tools s.fs env.baseDir
        ⟨parsed.playerName, parsed.skinId, parsed.metadata, skin⟩ env.config.savemode with
    | none => exact .of_eq rfl
    | some saved =>
      obtain ⟨result, fs⟩ := saved
      cases result with
      | error e =>
        refine .single (.fails htalks hlogin hsave) (World.of_put ?_ fun b hb => rfl)
        exact htalks
      | ok path =>
        have hdrops := finishCapture_drops env
          { syncClientVersion env s (parsed.protocol % 2 ^ 16) with fs := fs } parsed path addr
        have hfiles := sameFiles_finishCapture env
          { syncClientVersion env s (parsed.protocol % 2 ^ 16) with fs := fs } parsed path addr
        have hput := World.of_put (s := s)
          (congrArg (Option.map ClientSession.compressionEnabled) hdrops.absent) hdrops.others
        rw [hfiles.fs] at hput
        exact .single (.saves htalks hlogin hsave) hput

theorem processSingleBedrockPacket_converses (s : ServerState) (data : Bytes) :
    Converses env addr s (processSingleBedrockPacket env addr s data) := by
  unfold processSingleBedrockPacket
  cases data with
  | nil => exact .refl s
  | cons first tl =>
    dsimp only
    cases hsession : s.session addr with
    | none =>
      have hinactive : s.isActiveConnection addr = false := by
        unfold ServerState.isActiveConnection
        rw [hsession]
        rfl
      rw [if_pos hinactive]
      exact .refl s
    | some c =>
      have hactive : ¬ s.isActiveConnection addr = false := by
        simp [ServerState.isActiveConnection, hsession]
      rw [if_neg hactive]
      generalize NetherSession.readPacketId first (first :: tl) = read
      by_cases hlogin : read.1 = 0x01
      · rw [if_pos hlogin]
        unfold handleLoginPacket
        obtain ⟨found, hparse⟩ := parseLoginPacket_ok env.engines read.2.readRemaining.1
        rw [hparse]
        cases found with
        | none => exact .refl s
        | some parsed => exact captureLogin_converses hsession hparse
      · rw [if_neg hlogin]
        by_cases hsettings : read.1 = 0xc1
        · rw [if_pos hsettings]
          exact handleRequestNetworkSettings_converses hsession read.2
        · rw [if_neg hsettings]
          exact .refl s

theorem markConnected_converses (s : ServerState) : Converses env addr s (markConnected s addr) :=
  (converses_ensure s true 0).trans (converses_modify _ fun _ => rfl)

theorem dispatchConnectedPing_converses (s : ServerState) (data : Bytes) :
    Converses env addr s (dispatchConnectedPing env s data addr) := by
  unfold dispatchConnectedPing
  by_cases hlen : data.length = 9
  · rw [if_pos hlen]
    exact converses_sendFrame s _ 0
  · rw [if_neg hlen]
    by_cases hc : s.compressionEnabled addr
    · rw [if_pos hc]
      cases decompressBatch env.tools.flate data true with
      | error e => exact .refl s
      | ok decompressed =>
        dsimp only
        cases parseBatch decompressed with
        | error e => exact .refl s
        | ok packets => exact forEach_converses processSingleBedrockPacket_converses s packets
    · rw [if_neg hc]
      exact .refl s

theorem dispatchBatch_converses (s : ServerState) (data : Bytes) :
    Converses env addr s (dispatchBatch env s data addr) := by
  unfold dispatchBatch
  by_cases hlen : data.length ≤ 1
  · rw [if_pos hlen]
    exact .refl s
  · rw [if_neg hlen]
    cases decompressBatch env.tools.flate (data.drop 1) (s.compressionEnabled addr) with
    | error e => exact .refl s
    | ok decompressed => exact forEach_converses processSingleBedrockPacket_converses s _

theorem dispatchRaknetPacket_converses (s : ServerState) (data : Bytes) :
    Converses env addr s (dispatchRaknetPacket env s data addr) := by
  unfold dispatchRaknetPacket
  cases data with
  | nil => exact .refl s
  | cons packetId tl =>
    dsimp only
    by_cases h09 : packetId = 0x09
    · rw [if_pos h09]
      have hadvance : Converses env addr s s.advance := .of_eq rfl
      exact hadvance.trans ((markConnected_converses _).trans (converses_sendFrame _ _ 3))
    rw [if_neg h09]
    by_cases h13 : packetId = 0x13
    · rw [if_pos h13]
      exact converses_modify s fun _ => rfl
    rw [if_neg h13]
    by_cases h15 : packetId = 0x15
    · rw [if_pos h15]
      exact converses_drop s
    rw [if_neg h15]
    by_cases h00 : packetId = 0x00
    · rw [if_pos h00]
      exact dispatchConnectedPing_converses s _
    rw [if_neg h00]
    by_cases hfe : packetId = 0xfe
    · rw [if_pos hfe]
      exact dispatchBatch_converses s _
    · rw [if_neg hfe]
      exact .refl s

theorem dispatchEmitted_converses (s : ServerState) (e : Emitted) :
    Converses env addr s (dispatchEmitted env addr s e) := by
  have hlog : Converses env addr s
      { s with dispatched := s.dispatched ++ [⟨addr.display, e⟩] } := .of_eq rfl
  exact hlog.trans (dispatchRaknetPacket_converses _ e.payload)

theorem deliver_converses (s : ServerState) (payload : Bytes)
    (orderIndex orderChannel : Option ℕ) :
    Converses env addr s (deliver env s addr payload orderIndex orderChannel).1 := by
  refine converses_put rfl (AList.lookup_insert _) ?_ fun b hb => AList.lookup_insert_ne hb
  refine Eq.trans ?_ (mode_getOr s addr true 0)
  unfold bufferOrderedPayload
  cases orderIndex with
  | none => rfl
  | some idx => rfl

theorem storeFragment_converses (s : ServerState) (sid : ℕ) (entry : SplitBuffer) (idx : ℕ)
    (payload : Bytes) :
    Converses env addr s (storeFragment env s addr sid entry idx payload).1 := by
  unfold storeFragment
  by_cases h : entry.received[idx]? = some false
  · rw [dif_pos h]
    dsimp only
    by_cases hcount : (entry.store idx payload h).receivedCount = (entry.store idx payload h).count
    · rw [if_pos hcount]
      unfold completeSplit
      exact .trans (.of_eq rfl) (deliver_converses _ _ _ _)
    · rw [if_neg hcount]
      exact .of_eq rfl
  · rw [dif_neg h]
    exact .of_eq rfl

theorem receiveSplit_converses (s : ServerState) (frame : RakNetFrame) :
    Converses env addr s (receiveSplit env s addr frame).1 := by
  have hadvance : Converses env addr s s.advance := .of_eq rfl
  unfold receiveSplit
  cases frame.splitId with
  | none => exact .refl s
  | some sid =>
    dsimp only
    by_cases hzero : frame.splitCount.getD 0 = 0
    · rw [if_pos hzero]
      exact .refl s
    · rw [if_neg hzero]
      by_cases hmax : frame.splitCount.getD 0 > maxSplitParts
      · rw [if_pos hmax]
        exact .refl s
      · rw [if_neg hmax]
        exact hadvance.trans (storeFragment_converses _ sid _ _ _)

theorem receiveFrame_converses (s : ServerState) (frame : RakNetFrame) :
    Converses env addr s (receiveFrame env s addr frame).1 := by
  unfold receiveFrame
  refine (converses_ensure s true 0).trans ?_
  dsimp only
  by_cases hsplit : frame.isSplit
  · rw [if_pos hsplit]
    exact receiveSplit_converses _ frame
  · rw [if_neg hsplit]
    exact deliver_converses _ _ _ _

theorem handleFrame_converses (s : ServerState) (frame : RakNetFrame) :
    Converses env addr s (handleFrame env addr s frame) :=
  (receiveFrame_converses s frame).trans (forEach_converses dispatchEmitted_converses _ _)

theorem handleFrameSet_converses (s : ServerState) (frameset : FrameSet) :
    Converses env addr s (handleFrameSet env s frameset addr) := by
  have hframes : Converses env addr s
      (forEach (handleFrame env addr) (markConnected s addr) frameset.frames) :=
    (markConnected_converses s).trans (forEach_converses handleFrame_converses _ _)
  unfold handleFrameSet
  dsimp only
  generalize forEach (handleFrame env addr) (markConnected s addr) frameset.frames = s' at hframes
  by_cases hs : s'.stuck
  · rw [if_pos hs]
    exact hframes
  · rw [if_neg hs]
    exact hframes.trans (.of_eq rfl)

theorem pruneQueues_converses (s : ServerState) : Converses env addr s (pruneQueues env s addr) :=
  .of_eq (world_modify (pruneSplitBuffersForPeer env s addr) addr fun _ => rfl)

theorem handleGamePacket_converses (s : ServerState) (data : Bytes) :
    Converses env addr s (handleGamePacket env addr s data) := by
  unfold handleGamePacket
  by_cases hactive : s.isActiveConnection addr = false
  · rw [if_pos hactive]
    exact .refl s
  · rw [if_neg hactive]
    refine (pruneQueues_converses s).trans ?_
    dsimp only
    by_cases hlen : data.length < 4
    · rw [if_pos hlen]
      exact .refl _
    · rw [if_neg hlen]
      cases parseFrameSet data with
      | none => exact .of_eq rfl
      | some result =>
        cases result with
        | error e => exact .refl _
        | ok frameset => exact handleFrameSet_converses _ frameset

theorem acknowledgeSegments_world (now left : ℕ) (buf : Buffer) (s : ServerState) :
    World.of (acknowledgeSegments now addr left buf s) = World.of s := by
  induction left generalizing buf s with
  | zero => rfl
  | succ left ih =>
    refine (ih _ _).trans (world_modify s addr fun c => ?_)
    exact (foldl_acknowledge_course now c _).compressionEnabled

theorem sendAll_world (env : ServerEnv) (s : ServerState) (frames : List (SocketAddr × Bytes)) :
    World.of (s.sendAll env frames) = World.of s := by
  induction frames generalizing s with
  | nil => rfl
  | cons frame frames ih => exact ih _

theorem nackRange_world (collected : ServerState × List (SocketAddr × Bytes)) (seqs : List ℕ) :
    World.of (seqs.foldl (nackSequence env addr) collected).1 = World.of collected.1 := by
  induction seqs generalizing collected with
  | nil => rfl
  | cons seq seqs ih =>
    refine (ih _).trans ?_
    unfold nackSequence
    cases collected.1.pendingOf addr seq with
    | none => rfl
    | some msg => exact world_modify collected.1 addr fun c => rfl

theorem nackSegments_world (left : ℕ) (buf : Buffer)
    (collected : ServerState × List (SocketAddr × Bytes)) :
    World.of (nackSegments env addr left buf collected).1 = World.of collected.1 := by
  induction left generalizing buf collected with
  | zero => rfl
  | succ left ih => exact (ih _ _).trans (nackRange_world collected _)

theorem handleUnconnectedPing_world (s : ServerState) (data : Bytes) :
    World.of (handleUnconnectedPing env addr s data).2 = World.of s := by
  unfold handleUnconnectedPing
  by_cases hlen : data.length < 25
  · rw [if_pos hlen]
  · rw [if_neg hlen]
    rfl

theorem handleOpenConnectionRequest2_world (s : ServerState) (data : Bytes) :
    World.of (handleOpenConnectionRequest2 env addr s data).2 = World.of s := by
  unfold handleOpenConnectionRequest2
  by_cases hlen : data.length < 19
  · rw [if_pos hlen]
  · rw [if_neg hlen]
    rfl

theorem handleOpenConnectionRequest1_converses (s : ServerState) (data : Bytes) :
    Converses env addr s (handleOpenConnectionRequest1 env addr s data).2 := by
  unfold handleOpenConnectionRequest1
  by_cases hlen : data.length < 17
  · rw [if_pos hlen]
    exact .refl s
  · rw [if_neg hlen]
    refine .trans ?_ (.of_eq rfl)
    cases extractOpenConnectionProtocol data with
    | none => exact .refl s
    | some protocol =>
      exact (converses_ensure s false protocol).trans (converses_modify _ fun _ => rfl)

theorem handleConnectionRequest_converses (s : ServerState) (data : Bytes) :
    Converses env addr s (handleConnectionRequest env addr s data).2 := by
  have hadvance : Converses env addr s s.advance := .of_eq rfl
  exact hadvance.trans ((converses_ensure _ true 0).trans (.of_eq rfl))

theorem handlePacket_converses (s : ServerState) (data : Bytes) :
    Converses env addr s (handlePacket env addr s data).2 := by
  unfold handlePacket
  cases data with
  | nil => exact .refl s
  | cons packetId tl =>
    dsimp only
    by_cases h01 : packetId = 0x01
    · rw [if_pos h01]
      exact .of_eq (handleUnconnectedPing_world s _)
    rw [if_neg h01]
    by_cases h05 : packetId = 0x05
    · rw [if_pos h05]
      exact handleOpenConnectionRequest1_converses s _
    rw [if_neg h05]
    by_cases h07 : packetId = 0x07
    · rw [if_pos h07]
      exact .of_eq (handleOpenConnectionRequest2_world s _)
    rw [if_neg h07]
    by_cases h09 : packetId = 0x09
    · rw [if_pos h09]
      exact handleConnectionRequest_converses s _
    rw [if_neg h09]
    by_cases hframes : isFrameSetId packetId
    · rw [if_pos hframes]
      exact handleGamePacket_converses s _
    rw [if_neg hframes]
    by_cases hack : packetId = 0xC0
    · rw [if_pos hack]
      exact .of_eq (acknowledgeSegments_world _ _ _ _)
    rw [if_neg hack]
    by_cases hnack : packetId = 0xA0
    · rw [if_pos hnack]
      exact .of_eq ((sendAll_world env _ _).trans (nackSegments_world _ _ (s, [])))
    · rw [if_neg hnack]
      exact .refl s

theorem resendRound_world (parse : Str → Option SocketAddr) (s : ServerState) :
    World.of (resendRound env parse s) = World.of s := by
  unfold resendRound
  dsimp only
  refine (sendAll_world env _ _).trans ?_
  refine World.ext (funext fun b => ?_) rfl
  unfold World.of
  dsimp only
  rw [lookup_filterMap]
  cases s.connections.lookup b with
  | none => rfl
  | some c =>
    rw [Option.bind_some, Option.map_some, Option.map_some]
    cases parse b with
    | none => rfl
    | some dest => exact congrArg some (resendDue_course _ c).compressionEnabled

/-- The step is made for the sender of the datagram; the worker makes none. -/
def Makes : ServerEvent → Str × Event → Prop
  | .datagram addr _, label => label.1 = addr.display
  | .worker, _ => False

theorem apply_makes (env : ServerEnv) (parse : Str → Option SocketAddr) (s : ServerState)
    (event : ServerEvent) :
    ∃ labels, Trace (Step env) (.of s) labels (.of (event.apply env parse s)) ∧
      ∀ label ∈ labels, Makes event label := by
  cases event with
  | datagram addr data =>
    unfold ServerEvent.apply
    dsimp only
    by_cases hs : s.stuck
    · rw [if_pos hs]
      exact Converses.refl s
    · rw [if_neg hs]
      exact handlePacket_converses s data
  | worker =>
    have hworld : World.of (ServerEvent.apply env parse s .worker) = World.of s :=
      resendRound_world parse s
    exact ⟨[], hworld ▸ .nil _, fun _ hlabel => absurd hlabel List.not_mem_nil⟩

theorem runServer_makes (env : ServerEnv) (parse : Str → Option SocketAddr) (s : ServerState)
    (events : List ServerEvent) : ∃ parts : List (List (Str × Event)),
      List.Forall₂ (fun event labels => ∀ label ∈ labels, Makes event label) events parts ∧
        Trace (Step env) (.of s) parts.flatten (.of (runServer env parse s events)) := by
  induction events generalizing s with
  | nil => exact ⟨[], .nil, .nil _⟩
  | cons event events ih =>
    obtain ⟨labels, hfirst, hmakes⟩ := apply_makes env parse s event
    obtain ⟨parts, hparts, hrest⟩ := ih (event.apply env parse s)
    exact ⟨labels :: parts, .cons hmakes hparts, hfirst.append hrest⟩

def startsOf (peer : Str) (labels : List (Str × Event)) : ℕ :=
  labels.countP fun label => label.1 = peer && label.2.isStart

def endsOf (peer : Str) (labels : List (Str × Event)) : ℕ :=
  labels.countP fun label => label.1 = peer && label.2.isEnd

/-- How many conversations are held with the peer. -/
def World.held (w : World) (peer : Str) : ℕ := (w.talks peer).isSome.toNat

theorem held_put {w : World} {b : Str} {mode : Option Bool} {fs : FileSystem} :
    (w.put b mode fs).held peer = if b = peer then mode.isSome.toNat else w.held peer := by
  unfold World.held World.put
  dsimp only
  by_cases hb : b = peer
  · subst hb
    rw [if_pos rfl, Function.update_self]
  · rw [if_neg hb, Function.update_of_ne (Ne.symm hb)]

/-- A step for another peer leaves the account of this one alone. -/
theorem Step.held {w w' : World} {label : Str × Event} (h : Step env w label w') (peer : Str) :
    w'.held peer + (decide (label.1 = peer) && label.2.isEnd).toNat =
      w.held peer + (decide (label.1 = peer) && label.2.isStart).toNat := by
  have hheld : ∀ {w : World} {b : Str} {mode : Option Bool}, w.talks b = mode →
      w.held b = mode.isSome.toNat := fun htalks => by rw [World.held, htalks]
  by_cases hp : label.1 = peer
  · subst hp
    cases h with
    | opens h => simp [held_put, hheld h, Event.isEnd, Event.isStart]
    | negotiates h => simp [held_put, hheld h, Event.isEnd, Event.isStart]
    | saves h _ _ => simp [held_put, hheld h, Event.isEnd, Event.isStart]
    | fails h _ _ => simp [held_put, hheld h, Event.isEnd, Event.isStart]
    | leaves h => simp [held_put, hheld h, Event.isEnd, Event.isStart]
  · cases h with
    | opens h => simp [held_put, hp]
    | negotiates h => simp [held_put, hp]
    | saves h => simp [held_put, hp]
    | fails h => simp [held_put, hp]
    | leaves h => simp [held_put, hp]

/-- Every run is a trace of conversations, to which each datagram adds steps of its sender only and
the worker none. Of the conversations that a peer has begun all are over, by its leaving or by a
save of its skin, but the one that may still be held. -/
theorem run_conversations (env : ServerEnv) (parse : Str → Option SocketAddr) (fs : FileSystem)
    (events : List ServerEvent) : ∃ parts : List (List (Str × Event)),
      List.Forall₂ (fun event labels => ∀ label ∈ labels, Makes event label) events parts ∧
        Trace (Step env) ⟨fun _ => none, fs⟩ parts.flatten
          (.of (runServer env parse (.new env.config fs) events)) ∧
        ∀ peer, endsOf peer parts.flatten +
            (World.of (runServer env parse (.new env.config fs) events)).held peer =
          startsOf peer parts.flatten := by
  obtain ⟨parts, hparts, htrace⟩ := runServer_makes env parse (.new env.config fs) events
  have hstart : World.of (.new env.config fs) = ⟨fun _ => none, fs⟩ := rfl
  rw [hstart] at htrace
  refine ⟨parts, hparts, htrace, fun peer => ?_⟩
  have hbalance := htrace.balance (fun w => w.held peer) _ _ fun w label w' h => h.held peer
  have hnone : World.held ⟨fun _ => none, fs⟩ peer = 0 := rfl
  rw [hnone, Nat.zero_add, Nat.add_comm] at hbalance
  exact hbalance

end Conversation

end SkinGetBE.RakNet
