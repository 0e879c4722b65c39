import SkinGetBE.SessionProtocol
import SkinGetBE.SkinLogin

/-!
# A session captures the skin of its player

Whatever a session has received, as long as it still runs it has written no file, and
the next message that carries a login ends it: with the image of the skin and its
sidecar on the disk, the closing packets on their way, and nothing that arrives later
heard.
-/
namespace SkinGetBE.NetherSession
open Octets Text

/-- A batch of the packets, with the marker of RakNet or such that nothing is taken for it. -/
inductive BatchMessage (flate : Flate2) (compressionEnabled : Bool) (packets : List Bytes) :
    Bytes → Prop
  | marked (m : Bytes) (h : buildBatch flate packets compressionEnabled = some m) :
      BatchMessage flate compressionEnabled packets (0xfe :: m)
  | plain (m : Bytes) (h : buildBatch flate packets compressionEnabled = some m)
      (hhead : m.head? ≠ some 0xfe) : BatchMessage flate compressionEnabled packets m

/-- The whole of what a session that has received the login of a player leaves. -/
structure SkinCaptured (env : SessionEnv) (l : SkinLogin) (fs : FileSystem) (s : SessionState) :
    Prop where
  status : s.status = .captured
  saved : ∃ p stem front bundle, parseLoginPacket env.engines l.payload = some (.ok (some p)) ∧
    p.playerName = playerNameOf env.engines l.chainJson ∧
    p.skinId = sanitizeComponent l.skinId ∧
    SavedAs env.tools env.baseDir env.savemode (captureOf p l.skin) fs s.fs stem ∧
    s.trace = front ++ [.capture p, .saved (.ok (some (pngPath (skinsDirOf env.baseDir) stem))),
      .send bundle, .sleep 500, .close] ∧
    captures front = [] ∧
    ∃ d, decompressBatch env.tools.flate bundle s.compressionEnabled = .ok d ∧
      parseBatch d = .ok [buildPlayStatus 0, buildDisconnect 0 captureMessage]

variable {env : SessionEnv} {s : SessionState} {l : SkinLogin}

theorem captureLogin_status (s : SessionState) (parsed : ParsedLoginPacket) :
    (captureLogin env s parsed).status ≠ .running := by
  cases captureLogin_cases env s parsed with
  | stuck mid hstatus => simp [hstatus]
  | captured mid bundle hstatus => simp [hstatus]

theorem handlePacket_running (pkt : Bytes) (h : (handlePacket env s pkt).status = .running) :
    (handlePacket env s pkt).fs = s.fs := by
  rcases handlePacket_cases env s pkt with hcase | ⟨parsed, hcase⟩
  · generalize handlePacket env s pkt = s' at hcase
    cases hcase with
    | empty => rfl
    | ignored packetId hne => rfl
    | settings => rfl
  · rw [hcase] at h
    exact absurd h (captureLogin_status _ parsed)

theorem handlePackets_running (packets : List Bytes)
    (h : (handlePackets env s packets).status = .running) :
    (handlePackets env s packets).fs = s.fs := by
  induction packets generalizing s with
  | nil => rfl
  | cons pkt packets ih =>
    unfold handlePackets at h ⊢
    dsimp only at h ⊢
    by_cases hrun : (handlePacket env s pkt).status = .running
    · rw [if_pos hrun] at h ⊢
      exact (ih h).trans (handlePacket_running pkt hrun)
    · rw [if_neg hrun] at h
      exact absurd h hrun

theorem step_running (event : Channel × Received) (h : (step env s event).status = .running) :
    (step env s event).fs = s.fs ∧ s.status = .running := by
  obtain ⟨channel, received⟩ := event
  unfold step at h ⊢
  by_cases hdone : s.status ≠ .running ∨ s.isOpen channel = false
  · rw [if_pos hdone] at h ⊢
    exact ⟨rfl, h⟩
  · have hrun : s.status = .running := by
      by_contra hne
      exact hdone (.inl hne)
    rw [if_neg hdone] at h ⊢
    refine ⟨?_, hrun⟩
    cases received with
    | failed message => cases h
    | closed =>
      dsimp only at h ⊢
      split_ifs
      · cases channel <;> rfl
      · cases channel <;> rfl
    | data bytes =>
      dsimp only at h ⊢
      unfold handleMessage at h ⊢
      cases hopen : openMessage env.tools.flate s.compressionEnabled bytes with
      | none => rfl
      | some packets =>
        rw [hopen] at h
        exact handlePackets_running packets h

/-- No file is written before the session ends. -/
theorem handleSession_running (events : List (Channel × Received))
    (h : (handleSession env s events).status = .running) :
    (handleSession env s events).fs = s.fs := by
  induction events using List.reverseRecOn with
  | nil => rfl
  | append_singleton events event ih =>
    have hlast : handleSession env s (events ++ [event]) =
        step env (handleSession env s events) event := by
      unfold handleSession
      rw [List.foldl_append]
      rfl
    rw [hlast] at h ⊢
    obtain ⟨hfs, hrun⟩ := step_running event h
    exact hfs.trans (ih hrun)

/-- The identifier of a login is one octet, and all that is left is its payload. -/
theorem readPacketId_login (l : SkinLogin) :
    ∃ buf, readPacketId 0x01 l.packet = (0x01, buf) ∧ buf.readRemaining.1 = l.payload := by
  have hrest : (Buffer.ofBytes l.packet).rest = leb128 1 ++ l.payload := by
    rw [Buffer.rest_ofBytes, leb128_of_lt (by decide)]
    rfl
  refine ⟨(Buffer.ofBytes l.packet).advance 1, ?_, rfl⟩
  unfold readPacketId
  rw [Buffer.readVarInt_leb128 (by decide) hrest, leb128_of_lt (by decide)]
  rfl

theorem handlePacket_login {p : ParsedLoginPacket} (s : SessionState)
    (hparse : parseLoginPacket env.engines l.payload = some (.ok (some p))) :
    handlePacket env s l.packet = captureLogin env (s.record [.handle 0x01]) p := by
  obtain ⟨buf, hread, hbody⟩ := readPacketId_login l
  have hother : (1 : ℕ) ≠ 0xc1 := by decide
  unfold handlePacket SkinLogin.packet
  dsimp only
  unfold SkinLogin.packet at hread
  rw [hread, hbody, if_neg hother, if_pos rfl]
  unfold handleLogin
  rw [hparse]

theorem handlePackets_login {p : ParsedLoginPacket} {others : List Bytes}
    (hothers : ∀ q ∈ others, IgnoredPacket env q) (hrun : s.status = .running)
    (hparse : parseLoginPacket env.engines l.payload = some (.ok (some p))) (rest : List Bytes) :
    ∃ s', OnlyRecords s s' ∧
      handlePackets env s (others ++ l.packet :: rest) = captureLogin env s' p := by
  induction others generalizing s with
  | nil =>
    refine ⟨s.record [.handle 0x01], ⟨[0x01], rfl⟩, ?_⟩
    rw [List.nil_append]
    unfold handlePackets
    dsimp only
    rw [handlePacket_login s hparse, if_neg (captureLogin_status _ p)]
  | cons q others ih =>
    have hfirst : OnlyRecords s (handlePacket env s q) :=
      handlePacket_ignored s (hothers q List.mem_cons_self)
    have hstill : (handlePacket env s q).status = .running := by
      obtain ⟨ids, hids⟩ := hfirst
      rw [hids]
      exact hrun
    obtain ⟨s', hrecords, hcapture⟩ :=
      ih (fun q' hq' => hothers q' (List.mem_cons_of_mem _ hq')) hstill
    refine ⟨s', hfirst.trans hrecords, ?_⟩
    rw [List.cons_append]
    unfold handlePackets
    dsimp only
    rw [if_pos hstill]
    exact hcapture

theorem BatchMessage.opens {flate : Flate2} (hz : flate.DeflateInverts) {c : Bool}
    {packets : List Bytes} {message : Bytes} (h : BatchMessage flate c packets message)
    (hne : packets ≠ []) (hsize : (packets.flatMap packetFrame).length ≤ maxDecompressedSize) :
    openMessage flate c message = some packets := by
  have hframes := parseBatch_frames (length_lt_of_size hsize)
  obtain ⟨built, hbuilt, hd, hshape⟩ := buildBatch_decodes hz hne hsize c
  cases h with
  | marked m hm =>
    rw [hbuilt, Option.some.injEq] at hm
    subst hm
    exact openMessage_eq (List.cons_ne_nil _ _) (by rw [dropLegacyMarker_marked, hd]) hframes
  | plain m hm hhead =>
    rw [hbuilt, Option.some.injEq] at hm
    subst hm
    have hfull : built ≠ [] := by
      rintro rfl
      cases c with
      | true => cases hshape
      | false =>
        have hall := List.flatMap_eq_nil_iff.mp hshape.symm
        obtain ⟨p, hp⟩ := List.exists_mem_of_ne_nil _ hne
        exact packetFrame_ne_nil p (hall p hp)
    exact openMessage_eq hfull (by rw [dropLegacyMarker_of_head hhead, hd]) hframes

theorem captures_handled (ids : List ℕ) : captures (ids.map .handle) = [] := by
  induction ids with
  | nil => rfl
  | cons id ids ih => exact ih

/-- A login ends the session with its skin on the disk. -/
theorem captureLogin_savedAs (he : env.engines.Invert) (hs : env.engines.Shrink)
    (hz : env.tools.flate.DeflateInverts) (htools : env.tools.Writes l.skin)
    (hmode : env.savemode ≠ 0) (hroom : Roomy s.fs)
    (hcaps : captures s.trace = []) {p : ParsedLoginPacket}
    (hparse : parseLoginPacket env.engines l.payload = some (.ok (some p))) :
    SkinCaptured env l s.fs (captureLogin env s p) := by
  obtain ⟨p', hparse', hskin, hname, hid⟩ := l.parsed he hs
  obtain rfl : p = p' := by
    rw [hparse, Option.some.injEq, Except.ok.injEq, Option.some.injEq] at hparse'
    exact hparse'
  obtain ⟨stem, fs', hsave, hsaved⟩ := hskin.savedAs hs htools hroom env.baseDir hmode
  obtain ⟨bundle, hbundle, hd, -⟩ :=
    buildBatch_decodes hz (by simp [closingPackets]) closingPackets_size s.compressionEnabled
  have hcapture : captureLogin env s p =
      { s.record ([.capture p] ++ [.saved (.ok (some (pngPath (skinsDirOf env.baseDir) stem)))] ++
          [.send bundle, .sleep 500, .close]) with fs := fs', status := .captured } := by
    unfold captureOf at hsave
    unfold captureLogin
    dsimp only
    rw [hskin.skin]
    dsimp only [SessionState.record]
    rw [hsave]
    dsimp only [sendBundle, SessionState.record]
    rw [hbundle]
    simp only [List.append_assoc]
  rw [hcapture]
  refine ⟨rfl, p, stem, s.trace, bundle, hparse, hname, hid, hsaved, rfl, hcaps, ?_⟩
  exact ⟨_, hd, parseBatch_frames (length_lt_of_size closingPackets_size)⟩

/-- A session that still runs when a message with the login of a player arrives ends with the skin
of the player on the disk and the closing packets as its last message, whatever came before it and
whatever comes after. -/
theorem handleSession_captures (env : SessionEnv) (l : SkinLogin) (fs : FileSystem)
    (before after : List (Channel × Received)) (channel : Channel) (message : Bytes)
    (others rest : List Bytes) (he : env.engines.Invert) (hs : env.engines.Shrink)
    (hz : env.tools.flate.DeflateInverts) (htools : env.tools.Writes l.skin)
    (hmode : env.savemode ≠ 0) (hroom : Roomy fs)
    (hrun : (handleSession env (.start fs) before).status = .running)
    (hopen : (handleSession env (.start fs) before).isOpen channel = true)
    (hmessage : BatchMessage env.tools.flate
      (handleSession env (.start fs) before).compressionEnabled
      (others ++ l.packet :: rest) message)
    (hsize : ((others ++ l.packet :: rest).flatMap packetFrame).length ≤ maxDecompressedSize)
    (hothers : ∀ q ∈ others, IgnoredPacket env q) :
    SkinCaptured env l fs
      (handleSession env (.start fs) (before ++ (channel, .data message) :: after)) := by
  have hfs : (handleSession env (.start fs) before).fs = fs := handleSession_running before hrun
  have hcaps := ((handleSession_consistent (start_consistent env fs) before).outcome.of_running
    hrun).2
  have hsplit : handleSession env (.start fs) (before ++ (channel, .data message) :: after) =
      handleSession env (step env (handleSession env (.start fs) before)
        (channel, .data message)) after := by
    unfold handleSession
    rw [List.foldl_append]
    rfl
  rw [hsplit]
  generalize handleSession env (.start fs) before = s at *
  subst hfs
  obtain ⟨p, hparse, -⟩ := l.parsed he hs
  obtain ⟨s', ⟨ids, rfl⟩, hcapture⟩ := handlePackets_login hothers hrun hparse rest
  have hstep : step env s (channel, .data message) =
      captureLogin env (s.record (ids.map .handle)) p := by
    unfold step
    rw [if_neg (by simp [hrun, hopen])]
    dsimp only
    unfold handleMessage
    rw [hmessage.opens hz (by simp) hsize]
    exact hcapture
  have hsaved : SkinCaptured env l s.fs (captureLogin env (s.record (ids.map .handle)) p) := by
    refine captureLogin_savedAs (s := s.record (ids.map .handle)) he hs hz htools hmode hroom ?_
      hparse
    rw [SessionState.record, captures_append, hcaps, captures_handled]
    rfl
  rw [hstep, handleSession_finished (by simp [hsaved.status])]
  exact hsaved

def whiteEnv : SessionEnv := ⟨strictEngines, sampleTools, ".".toList, 2⟩

/-- A request for the network settings. -/
def settingsMessage : Bytes := [6, 0xc1, 0x01, 0, 0, 0x03, 0xcf]

/-- A packet that is not handled. -/
def strangerMessage : Bytes := [0xfe, 2, 0x81, 0x01]

/-- The login before compression is agreed on. -/
def whiteMessage : Bytes := 0xfe :: (writePackets [whiteLogin.packet]).data

theorem handleSession_captures_white : SkinCaptured whiteEnv whiteLogin .empty
    (handleSession whiteEnv (.start .empty) ([(.reliable, .data strangerMessage)] ++
      (.unreliable, .data whiteMessage) :: [(.reliable, .data settingsMessage)])) := by
  have hflag : (handleSession whiteEnv (.start .empty)
      [(.reliable, .data strangerMessage)]).compressionEnabled = false := by decide +kernel
  refine handleSession_captures whiteEnv whiteLogin .empty [(.reliable, .data strangerMessage)]
    [(.reliable, .data settingsMessage)] .unreliable whiteMessage [] [] strictEngines_invert
    strictEngines_shrink sampleFlate_inverts (sampleTools_writes _) (by decide) roomy_empty
    (by decide +kernel) (by decide +kernel) ?_ (by decide +kernel) (by simp)
  rw [hflag]
  exact .marked _ (by decide +kernel)

end SkinGetBE.NetherSession
