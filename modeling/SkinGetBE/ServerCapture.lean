import SkinGetBE.AwaitedLogin
import SkinGetBE.CaptureSession
import SkinGetBE.ServerAcks
import SkinGetBE.ServerFiles

/-!
# The server captures a login that arrives in parts

The parts of a login come in any order, some of them again, between whatever other peers
send and the rounds of the worker. The last of them makes the server save the skin, and
while captures are numbered no later file takes its place.
-/
namespace SkinGetBE.RakNet
open Octets Text Tables Relation NetherSession

/-- Since the files `fs` the skin of a login has been saved under a name of its own, and while
captures are numbered nothing else has been written there. -/
structure SkinSaved (env : ServerEnv) (l : SkinLogin) (fs fs' : FileSystem) : Prop where
  saved : ∃ p stem earlier later before after,
    parseLoginPacket env.engines l.payload = some (.ok (some p)) ∧
    p.playerName = playerNameOf env.engines l.chainJson ∧ p.skinId = sanitizeComponent l.skinId ∧
    Adds fs before earlier ∧
    SavedAs env.tools env.baseDir env.config.savemode (captureOf p l.skin) before after stem ∧
    Adds after fs' later ∧
    (env.config.savemode ≠ 1 → ∀ e ∈ later, e.1 ≠ pngPath (skinsDirOf env.baseDir) stem ∧
      e.1 ≠ jsonPath (skinsDirOf env.baseDir) stem)

/-- The packages are what they should be, and captures are saved. -/
structure Capturing (env : ServerEnv) (l : SkinLogin) : Prop where
  invert : env.engines.Invert
  shrink : env.engines.Shrink
  deflate : env.tools.flate.DeflateInverts
  writes : env.tools.Writes l.skin
  savemode : env.config.savemode ≠ 0

/-- The parts make up the batch of the login. -/
structure LoginParts.Carries (parts : LoginParts) (flate : Flate2) (compressed : Bool)
    (batch : Bytes) : Prop where
  built : buildBatch flate [parts.login.packet] compressed = some batch
  body : parts.chunks.flatten = 0xfe :: batch
  size : (packetFrame parts.login.packet).length ≤ maxDecompressedSize

variable {env : ServerEnv} {parse : Str → Option SocketAddr} {addr : SocketAddr}
  {datagram : Bytes} {parts : LoginParts} {compressed : Bool} {since limit : ℕ}
  {arrived : ℕ → Prop} {s s' : ServerState} {x y : Serving} {l : SkinLogin}
  {fs fs₀ : FileSystem}

/-- New files are added, and while captures are numbered none of them was there. -/
def Grows (env : ServerEnv) (fs fs' : FileSystem) : Prop :=
  ∃ files, Adds fs fs' files ∧
    (env.config.savemode ≠ 1 → ∀ e ∈ files, fs.pathExists e.1 = false)

theorem Grows.refl (env : ServerEnv) (fs : FileSystem) : Grows env fs fs :=
  ⟨[], .refl fs, fun _ _ he => absurd he List.not_mem_nil⟩

theorem Grows.trans {fs₁ fs₂ : FileSystem} (h : Grows env fs fs₁) (h' : Grows env fs₁ fs₂) :
    Grows env fs fs₂ := by
  obtain ⟨files, hadds, hnew⟩ := h
  obtain ⟨files', hadds', hnew'⟩ := h'
  refine ⟨files ++ files', hadds.trans hadds', fun hmode e he => ?_⟩
  rcases List.mem_append.mp he with he | he
  · exact hnew hmode e he
  · have hmissing := hnew' hmode e he
    rw [Bool.eq_false_iff] at hmissing ⊢
    exact fun hpath => hmissing ((hadds.pathExists e.1).mpr (.inl hpath))

theorem Filing.grows (h : Filing env s s') (he : env.engines.Shrink)
    (htools : env.tools.Standard) : Grows env s.fs s'.fs := by
  cases h with
  | kept h =>
    rw [h.fs]
    exact .refl env s.fs
  | saved parsed skin result fs hskin hsave =>
    cases saveLoginCapture_cases hsave with
    | refused => exact .refl env s.fs
    | written stem hstem hmode hfree hwrite =>
      rcases writeCapture_saved hskin he htools hstem hwrite with rfl | ⟨files, hadds, -, hunder⟩
      · exact .refl env s.fs
      · exact ⟨files, hadds, fun hone => hunder.missing (hfree hone)⟩
  | halted parsed skin hskin hsave => exact .refl env s.fs

theorem Effects.grows (h : Effects env addr datagram s s') (he : env.engines.Shrink)
    (htools : env.tools.Standard) : Grows env s.fs s'.fs := by
  induction h with
  | refl => exact .refl env s.fs
  | tail _ heffect ih => exact ih.trans (heffect.filing.grows he htools)

theorem Turns.grows (h : Turns env parse x y) (he : env.engines.Shrink)
    (htools : env.tools.Standard) : Grows env x.state.fs y.state.fs := by
  induction h with
  | refl => exact .refl env x.state.fs
  | tail _ hturn ih => exact ih.trans (hturn.filing.grows he htools)

/-- Where there is room for more files, there was. -/
theorem Grows.roomy {fs' : FileSystem} (h : Grows env fs fs') (hroom : Roomy fs') : Roomy fs := by
  obtain ⟨files, hadds, -⟩ := h
  obtain ⟨paths, hpaths, hfew⟩ := hroom.few
  refine ⟨fun request => ?_, paths, fun path hpath => ?_, hfew⟩
  · rw [← hadds.denied]
    exact hroom.writes request
  · exact hpaths path ((hadds.pathExists path).mpr (.inl hpath))

theorem SkinSaved.grows {fs' : FileSystem} (h : SkinSaved env l fs₀ fs)
    (hgrows : Grows env fs fs') :
    SkinSaved env l fs₀ fs' := by
  obtain ⟨p, stem, earlier, later, before, after, hparse, hname, hid, hearlier, hsaved, hlater,
    hapart⟩ := h.saved
  obtain ⟨files, hadds, hnew⟩ := hgrows
  refine ⟨p, stem, earlier, later ++ files, before, after, hparse, hname, hid, hearlier, hsaved,
    hlater.trans hadds, fun hmode e he => ?_⟩
  rcases List.mem_append.mp he with he | he
  · exact hapart hmode e he
  · -- the files of the capture are there already
    have hmissing := hnew hmode e he
    obtain ⟨png, text, hfiles, -⟩ := hsaved.files
    have hthere : ∀ path, path = pngPath (skinsDirOf env.baseDir) stem ∨
        path = jsonPath (skinsDirOf env.baseDir) stem → fs.pathExists path = true := by
      intro path hpath
      refine (hlater.pathExists path).mpr (.inl ((hfiles.pathExists path).mpr (.inr ?_)))
      simpa using hpath
    constructor
    · intro hpath
      rw [hthere _ (.inl hpath)] at hmissing
      cases hmissing
    · intro hpath
      rw [hthere _ (.inr hpath)] at hmissing
      cases hmissing

theorem SkinSaved.earlier (h : SkinSaved env l fs fs₀) {fs' : FileSystem}
    {files : List (Str × Bytes)}
    (hadds : Adds fs' fs files) : SkinSaved env l fs' fs₀ := by
  obtain ⟨p, stem, earlier, later, before, after, hparse, hname, hid, hearlier, hrest⟩ := h.saved
  exact ⟨p, stem, files ++ earlier, later, before, after, hparse, hname, hid,
    hadds.trans hearlier, hrest⟩

theorem course_transmitted (c : ClientSession) (reliability : ℕ) (datagram : Bytes) (now : ℕ) :
    (c.transmitted reliability datagram now).compressionEnabled = c.compressionEnabled ∧
      (c.transmitted reliability datagram now).orderedChannels = c.orderedChannels := by
  unfold ClientSession.transmitted registerPending allocateSequence
  split_ifs
  · exact ⟨rfl, rfl⟩
  · exact ⟨rfl, rfl⟩

theorem Awaiting.sendTo (h : Awaiting env parts compressed since arrived s) (addr : SocketAddr)
    (datagram : Bytes) :
    Awaiting env parts compressed since arrived (s.sendTo env addr datagram).2 :=
  h.calm (fun c hc => ⟨c, hc, rfl, rfl⟩) rfl (Nat.le_succ _)

/-- An effect of a datagram of the peer that carries no frame. -/
theorem Effect.awaiting (h : Effect env parts.peer datagram s s') (hnone : framesOf datagram = [])
    (hs : Awaiting env parts compressed since arrived s) (htimed : Timed env since limit)
    (hlimit : s'.tick ≤ limit) : Awaiting env parts compressed since arrived s' := by
  have htick := h.tick_le
  cases h with
  | transmit reliability flags body =>
    obtain ⟨now, hsession⟩ := transmit_session env s parts.peer reliability flags body
    refine hs.calm (fun c hc => ?_) ?_ htick
    · rw [sessionOf_eq hc] at hsession
      exact ⟨_, hsession, course_transmitted c _ _ now⟩
    · rw [(keeps_transmit env s parts.peer reliability flags body).splits]
  | ensure connected protocol => rwa [ServerState.ensureSession_eq_self hs.active]
  | update f hf hmode => exact hs.modify (hmode hnone) fun c => (hf c).orderedChannels
  | acknowledge now seqs _ _ =>
    exact hs.modify (fun c => (foldl_acknowledge_course now c seqs).compressionEnabled)
      fun c => (foldl_acknowledge_course now c seqs).orderedChannels
  | resend now seq msg hm => exact hs.modify (fun _ => rfl) fun _ => rfl
  | prune => exact hs.prune htimed (htick.trans hlimit)
  | receive frame hframe =>
    rw [hnone] at hframe
    cases hframe
  | drop hframes => exact absurd hnone hframes
  | _ => exact hs.calm (fun c hc => ⟨c, hc, rfl, rfl⟩) rfl htick

theorem Effects.awaiting (h : Effects env parts.peer datagram s s') (hnone : framesOf datagram = [])
    (hs : Awaiting env parts compressed since arrived s) (htimed : Timed env since limit)
    (hlimit : s'.tick ≤ limit) : Awaiting env parts compressed since arrived s' := by
  induction h with
  | refl => exact hs
  | tail _ heffect ih =>
    exact heffect.awaiting hnone (ih (heffect.tick_le.trans hlimit)) htimed hlimit

theorem Effects.awaiting_other (h : Effects env addr datagram s s')
    (hother : parts.peer.display ≠ addr.display)
    (hs : Awaiting env parts compressed since arrived s) :
    Awaiting env parts compressed since arrived s' := by
  induction h with
  | refl => exact hs
  | tail _ heffect ih => exact ih.untouched (heffect.untouched hother) heffect.tick_le

theorem Handling.awaiting {frameset : Option FrameSet}
    (h : Handling env addr datagram s frameset s') (hlimit : s'.tick ≤ limit)
    (heffects : ∀ s', Effects env addr datagram s s' → s'.tick ≤ limit →
      Awaiting env parts compressed since arrived s') :
    Awaiting env parts compressed since arrived s' := by
  cases h with
  | passed h => exact heffects _ h hlimit
  | interrupted frameset h hstuck => exact heffects _ h hlimit
  | acknowledged frameset hparse h hstuck =>
    exact (heffects _ h ((Nat.le_succ _).trans hlimit)).sendTo _ _

theorem Awaiting.worker (h : Awaiting env parts compressed since arrived s)
    (parse : Str → Option SocketAddr) :
    Awaiting env parts compressed since arrived (resendRound env parse s) := by
  have hturn : Turn env parse ⟨[], s⟩ ⟨[], resendRound env parse s⟩ := .worker ⟨[], s⟩
  refine h.calm (fun c hc => ?_) ?_ hturn.tick_le
  · unfold ServerState.session at hc ⊢
    rw [lookup_resendRound, hc]
    refine ⟨_, rfl, ?_⟩
    split_ifs
    · exact ⟨(resendDue_course _ c).compressionEnabled, (resendDue_course _ c).orderedChannels⟩
    · exact ⟨rfl, rfl⟩
  · rw [(sameTables_resendRound env parse s).splits]

/-- An index that is due is released first. -/
theorem Due.emits {c : ClientSession} {orderIndex orderChannel : Option ℕ}
    (h : Due c orderIndex orderChannel) (payload : Bytes) (now : ℕ) : ∃ c' order rest,
      bufferOrderedPayload c payload orderIndex orderChannel now = (c', ⟨order, payload⟩ :: rest) ∧
      c'.compressionEnabled = c.compressionEnabled := by
  cases orderIndex with
  | none => exact ⟨c, none, [], rfl, rfl⟩
  | some idx =>
    have hnext : (insertOrdered (getOr (orderChannel.getD 0) ⟨0, ∅⟩ c.orderedChannels) idx payload
        now).nextIndex = idx := by
      unfold getOr
      cases hchannel : c.orderedChannels.lookup (orderChannel.getD 0) with
      | none => rw [Option.getD_none, insertOrdered_empty (.inr rfl)]
      | some channel =>
        have hdue := h idx rfl channel hchannel
        unfold insertOrdered
        dsimp only [Option.getD_some]
        split_ifs
        · rfl
        · exact hdue
    have hlookup : (insertOrdered (getOr (orderChannel.getD 0) ⟨0, ∅⟩ c.orderedChannels) idx payload
        now).buffer.lookup idx = some (payload, now) := AList.lookup_insert _
    unfold bufferOrderedPayload
    dsimp only
    generalize insertOrdered (getOr (orderChannel.getD 0) ⟨0, ∅⟩ c.orderedChannels) idx payload
      now = channel at hnext hlookup
    subst hnext
    obtain ⟨fuel, hfuel⟩ : ∃ fuel, size channel.buffer = fuel + 1 := by
      refine Nat.exists_eq_succ_of_ne_zero fun hempty => ?_
      have hmem := AList.mem_lookup_iff.mp hlookup
      rw [List.length_eq_zero_iff.mp hempty] at hmem
      cases hmem
    rw [hfuel, flushChannel_some hlookup]
    exact ⟨_, _, _, rfl, rfl⟩

/-- A part is stored, or it is the last one and the whole body comes out. -/
theorem Awaiting.part (hs : Awaiting env parts compressed since arrived s)
    (hmore : ¬ ∀ i < parts.chunks.length, arrived i) {i : ℕ} {frame : RakNetFrame}
    (hpart : parts.Has i frame) :
    ((¬ ∀ j < parts.chunks.length, arrived j ∨ j = i) ∧ ∃ s',
      receiveFrame env s parts.peer frame = (s', []) ∧ SameFiles s s' ∧
      Awaiting env parts compressed since (fun j => arrived j ∨ j = i) s') ∨
    ∃ s' order rest, receiveFrame env s parts.peer frame =
        (s', ⟨order, parts.chunks.flatten⟩ :: rest) ∧ SameFiles s s' ∧
      ∃ c, s'.session parts.peer = some c ∧ c.compressionEnabled = compressed := by
  obtain ⟨c, hc, hmode, hdue⟩ := hs.session
  have hreceived := receiveFrame_fragment hpart.fragment parts.few env s parts.peer hs.progress
    (fun _ => ⟨hpart.orderIndex, hpart.orderChannel⟩) hmore
  have hfiles := sameFiles_receiveFrame env s parts.peer frame
  have htick := receiveFrame_tick env s parts.peer frame
  have hentry := receiveFrame_entry env s parts.peer frame parts.key
  rw [ServerState.ensureSession_eq_self hs.active] at hreceived
  rcases hreceived with ⟨hstill, s₁, stored, heq, hholds, hstep⟩ |
    ⟨-, s₁, orderIndex, orderChannel, heq, ⟨rfl, rfl⟩, hstep⟩
  · left
    have hstored : s₁.splitBuffers.lookup parts.key = some stored :=
      (hstep.splits parts.key).trans (if_pos rfl)
    rw [heq] at hfiles htick hentry
    refine ⟨hstill, s₁, heq, hfiles, ⟨c, ?_, hmode, hdue⟩, ?_, fun entry hfound => ?_,
      hs.since.trans htick⟩
    · unfold ServerState.session at hc ⊢
      rw [hstep.connections]
      exact hc
    · rw [hstored]
      exact hholds
    · rcases hentry with hsame | ⟨-, hdates⟩
      · rw [hsame] at hfound
        obtain ⟨t, hsince, ht, hdate⟩ := hs.made entry hfound
        exact ⟨t, hsince, ht.trans htick, hdate⟩
      · rcases hdates entry hfound with hnow | ⟨old, hold, hdate⟩
        · exact ⟨s.tick, hs.since, htick, hnow⟩
        · obtain ⟨t, hsince, ht, hmade⟩ := hs.made old hold
          exact ⟨t, hsince, ht.trans htick, hdate.trans hmade⟩
  · right
    have hsession : s₁.session parts.peer = some c := by
      unfold ServerState.session at hc ⊢
      rw [hstep.connections]
      exact hc
    obtain ⟨c', order, rest, hemits, hmode'⟩ :=
      hdue.emits parts.chunks.flatten (env.instant s₁.tick)
    have hdeliver : deliver env s₁ parts.peer parts.chunks.flatten parts.orderIndex
        parts.orderChannel = ({ s₁.advance with
          connections := s₁.connections.insert parts.peer.display c' },
          ⟨order, parts.chunks.flatten⟩ :: rest) := by
      unfold deliver
      rw [sessionOf_eq hsession, hemits]
    rw [heq, hdeliver] at hfiles ⊢
    exact ⟨_, order, rest, rfl, hfiles, c', AList.lookup_insert _, hmode'.trans hmode⟩

theorem captureLogin_saved (hcap : Capturing env l) (addr : SocketAddr) (hroom : Roomy s.fs)
    {p : ParsedLoginPacket}
    (hparse : parseLoginPacket env.engines l.payload = some (.ok (some p))) :
    SkinSaved env l s.fs (captureLogin env s p addr).fs := by
  obtain ⟨p', hparse', hskin, hname, hid⟩ := l.parsed hcap.invert hcap.shrink
  obtain rfl : p = p' := by
    rw [hparse, Option.some.injEq, Except.ok.injEq, Option.some.injEq] at hparse'
    exact hparse'
  obtain ⟨stem, fs', hsave, hsaved⟩ :=
    hskin.savedAs hcap.shrink hcap.writes hroom env.baseDir hcap.savemode
  have hfs : (captureLogin env s p addr).fs = fs' := by
    unfold captureOf at hsave
    unfold captureLogin
    dsimp only
    have hsync : (syncClientVersion env s (p.protocol % 2 ^ 16)).fs = s.fs := rfl
    rw [hskin.skin]
    dsimp only
    rw [hsync, hsave]
    dsimp only
    rw [finishCapture_fs]
  rw [hfs]
  exact ⟨p, stem, [], [], s.fs, fs', hparse, hname, hid, .refl _, hsaved, .refl _,
    fun _ e he => absurd he List.not_mem_nil⟩

theorem batchPackets_of_parse {d : Bytes} {first : Bytes} {packets : List Bytes}
    (h : parseBatch d = .ok (first :: packets)) : batchPackets d = first :: packets := by
  unfold batchPackets
  rw [h]

theorem processSingleBedrockPacket_login {p : ParsedLoginPacket}
    (hactive : s.isActiveConnection addr = true)
    (hparse : parseLoginPacket env.engines l.payload = some (.ok (some p))) :
    processSingleBedrockPacket env addr s l.packet = captureLogin env s p addr := by
  obtain ⟨buf, hread, hbody⟩ := readPacketId_login l
  unfold processSingleBedrockPacket SkinLogin.packet
  dsimp only
  unfold SkinLogin.packet at hread
  rw [if_neg (by simp [hactive]), hread, if_pos rfl, hbody]
  unfold handleLoginPacket
  rw [hparse]

/-- The batch of a login is opened as its one packet. -/
theorem dispatchBatch_login (hz : env.tools.flate.DeflateInverts) {c : ClientSession}
    (hc : s.session addr = some c) {batch : Bytes}
    (hbatch : buildBatch env.tools.flate [l.packet] c.compressionEnabled = some batch)
    (hsize : (packetFrame l.packet).length ≤ maxDecompressedSize) (hstuck : s.stuck = false)
    {p : ParsedLoginPacket}
    (hparse : parseLoginPacket env.engines l.payload = some (.ok (some p))) :
    dispatchBatch env s (0xfe :: batch) addr = captureLogin env s p addr := by
  have hwhole : ([l.packet].flatMap packetFrame).length ≤ maxDecompressedSize := by
    rwa [List.flatMap_singleton]
  obtain ⟨built, hbuilt, hd, hshape⟩ :=
    buildBatch_decodes hz (List.cons_ne_nil _ _) hwhole c.compressionEnabled
  rw [hbatch, Option.some.injEq] at hbuilt
  subst hbuilt
  have hfull : batch ≠ [] := by
    rintro rfl
    cases hmode : c.compressionEnabled with
    | true =>
      rw [hmode] at hshape
      cases hshape
    | false =>
      rw [hmode, if_neg Bool.false_ne_true, List.flatMap_singleton] at hshape
      exact packetFrame_ne_nil l.packet hshape.symm
  have hflag : s.compressionEnabled addr = c.compressionEnabled := by
    unfold ServerState.compressionEnabled
    rw [hc]
  have hpos := List.length_pos_iff.mpr hfull
  unfold dispatchBatch
  rw [if_neg (by rw [List.length_cons]; omega), hflag, List.drop_succ_cons, List.drop_zero, hd]
  dsimp only
  rw [batchPackets_of_parse (parseBatch_frames (length_lt_of_size hwhole)),
    forEach_singleton hstuck,
    processSingleBedrockPacket_login (Option.isSome_of_eq_some hc) hparse]

theorem dispatchEmitted_saved (hcap : Capturing env l) {c : ClientSession}
    (hc : s.session addr = some c) {batch : Bytes}
    (hbatch : buildBatch env.tools.flate [l.packet] c.compressionEnabled = some batch)
    (hsize : (packetFrame l.packet).length ≤ maxDecompressedSize) (hstuck : s.stuck = false)
    (hroom : Roomy s.fs) (order : Option (ℕ × ℕ)) :
    SkinSaved env l s.fs (dispatchEmitted env addr s ⟨order, 0xfe :: batch⟩).fs := by
  obtain ⟨p, hparse, -⟩ := l.parsed hcap.invert hcap.shrink
  have hdispatch : ∀ s : ServerState, dispatchRaknetPacket env s (0xfe :: batch) addr =
      dispatchBatch env s (0xfe :: batch) addr := fun s => rfl
  obtain ⟨s₁, hs₁, hc₁, hstuck₁, hfs₁⟩ : ∃ s₁ : ServerState,
      { s with dispatched := s.dispatched ++ [⟨addr.display, ⟨order, 0xfe :: batch⟩⟩] } = s₁ ∧
        s₁.session addr = some c ∧ s₁.stuck = false ∧ s₁.fs = s.fs := ⟨_, rfl, hc, hstuck, rfl⟩
  unfold dispatchEmitted
  dsimp only
  rw [hs₁, hdispatch, dispatchBatch_login hcap.deflate hc₁ hbatch hsize hstuck₁ hparse, ← hfs₁]
  exact captureLogin_saved hcap addr (hfs₁ ▸ hroom) hparse

/-- The indices that have arrived once the frames have, too. -/
def ArrivedWith (arrived : ℕ → Prop) (frames : List RakNetFrame) : ℕ → Prop :=
  fun i => arrived i ∨ ∃ f ∈ frames, f.splitIndex = some i

theorem arrivedWith_nil (arrived : ℕ → Prop) : ArrivedWith arrived [] = arrived := by
  ext i
  simp [ArrivedWith]

theorem arrivedWith_cons {frame : RakNetFrame} {i : ℕ} (h : frame.splitIndex = some i)
    (arrived : ℕ → Prop) (frames : List RakNetFrame) :
    ArrivedWith (fun j => arrived j ∨ j = i) frames = ArrivedWith arrived (frame :: frames) := by
  ext j
  simp [ArrivedWith, h, or_assoc, eq_comm]

theorem SameFiles.trans {s'' : ServerState} (h : SameFiles s s') (h' : SameFiles s' s'') :
    SameFiles s s'' := ⟨h'.fs.trans h.fs, h'.stuck.trans h.stuck⟩

/-- The run goes on as before, with more parts in the table, or the login is saved. -/
def Proceeds (env : ServerEnv) (parts : LoginParts) (compressed : Bool) (since : ℕ)
    (arrived : ℕ → Prop) (s s' : ServerState) : Prop :=
  ((¬ ∀ i < parts.chunks.length, arrived i) ∧ SameFiles s s' ∧
      Awaiting env parts compressed since arrived s') ∨
    SkinSaved env parts.login s.fs s'.fs

/-- A datagram with frames is handled as a frame set. -/
theorem handlePacket_frames (env : ServerEnv) (hactive : s.isActiveConnection addr = true)
    (hframes : framesOf datagram ≠ []) : ∃ frameset, framesOf datagram = frameset.frames ∧
      (handlePacket env addr s datagram).2 =
        handleFrameSet env (pruneQueues env s addr) frameset addr := by
  obtain ⟨frameset, hparse⟩ : ∃ frameset, parseFrameSet datagram = some (.ok frameset) := by
    unfold framesOf at hframes
    cases hparse : parseFrameSet datagram with
    | none => rw [hparse] at hframes; exact absurd rfl hframes
    | some result =>
      cases result with
      | error e => rw [hparse] at hframes; exact absurd rfl hframes
      | ok frameset => exact ⟨frameset, rfl⟩
  have hof : framesOf datagram = frameset.frames := by
    unfold framesOf
    rw [hparse]
  refine ⟨frameset, hof, ?_⟩
  cases datagram with
  | nil => cases hparse
  | cons id tl =>
    have hset : isFrameSetId id = true := by
      refine Bool.eq_true_of_not_eq_false fun hset => ?_
      have hnone : acceptedFrameSet s addr (id :: tl) = none := acceptedFrameSet_other hset tl
      unfold acceptedFrameSet at hnone
      rw [if_pos hactive, hparse] at hnone
      cases hnone
    rw [handlePacket_frameSet hset, handleGamePacket_read hactive hparse]

/-- The frames that arrive from a peer. -/
def framesFrom (peer : SocketAddr) (events : List ServerEvent) : List RakNetFrame :=
  ((incoming events).filter fun d => d.1 = peer).flatMap fun d => framesOf d.2

theorem framesFrom_own (peer : SocketAddr) (data : Bytes) :
    framesFrom peer [.datagram peer data] = framesOf data := by
  simp [framesFrom, incoming, ServerEvent.incoming]

theorem framesFrom_other {peer : SocketAddr} (h : addr ≠ peer) (data : Bytes) :
    framesFrom peer [.datagram addr data] = [] := by
  simp [framesFrom, incoming, ServerEvent.incoming, h]

theorem framesFrom_cons (peer : SocketAddr) (event : ServerEvent) (events : List ServerEvent) :
    framesFrom peer (event :: events) = framesFrom peer [event] ++ framesFrom peer events := by
  have hincoming : incoming (event :: events) = incoming [event] ++ incoming events :=
    List.filterMap_append (l := [event])
  unfold framesFrom
  rw [hincoming, List.filter_append, List.flatMap_append]

theorem arrivedWith_append (arrived : ℕ → Prop) (frames frames' : List RakNetFrame) :
    ArrivedWith arrived (frames ++ frames') = ArrivedWith (ArrivedWith arrived frames) frames' := by
  ext i
  simp [ArrivedWith, or_and_right, exists_or, or_assoc]

theorem ServerEvent.turns (env : ServerEnv) (parse : Str → Option SocketAddr)
    (event : ServerEvent) (s : ServerState) :
    ∃ heard, Turns env parse ⟨[], s⟩ ⟨heard, event.apply env parse s⟩ :=
  ⟨_, runServer_turns env parse [] s [event]⟩

theorem Turns.tick_le (h : Turns env parse x y) : x.state.tick ≤ y.state.tick := by
  induction h with
  | refl => exact le_rfl
  | tail _ hturn ih => exact ih.trans hturn.tick_le

section Frames
variable {batch : Bytes} (hcap : Capturing env parts.login)
  (hbatch : parts.Carries env.tools.flate compressed batch)
include hcap hbatch

theorem Awaiting.frame (hs : Awaiting env parts compressed since arrived s)
    (hmore : ¬ ∀ i < parts.chunks.length, arrived i) (hstuck : s.stuck = false)
    (hroom : Roomy s.fs) {i : ℕ} {frame : RakNetFrame} (hpart : parts.Has i frame)
    (hframe : frame ∈ framesOf datagram) :
    Proceeds env parts compressed since (fun j => arrived j ∨ j = i) s
      (handleFrame env parts.peer s frame) := by
  unfold handleFrame
  rcases hs.part hmore hpart with ⟨hstill, s', heq, hfiles, hs'⟩ |
    ⟨s', order, rest, heq, hfiles, c, hc, hmode⟩
  · rw [heq]
    exact .inl ⟨hstill, hfiles, hs'⟩
  · rw [heq]
    right
    have hunstuck : s'.stuck = false := hfiles.stuck.trans hstuck
    have hfirst : SkinSaved env parts.login s.fs
        (dispatchEmitted env parts.peer s' ⟨order, parts.chunks.flatten⟩).fs := by
      rw [hbatch.body, ← hfiles.fs]
      exact dispatchEmitted_saved hcap hc (hmode ▸ hbatch.built) hbatch.size hunstuck
        (hfiles.fs ▸ hroom) order
    have hrest : Effects env parts.peer datagram
        (dispatchEmitted env parts.peer s' ⟨order, parts.chunks.flatten⟩)
        (forEach (dispatchEmitted env parts.peer)
          (dispatchEmitted env parts.peer s' ⟨order, parts.chunks.flatten⟩) rest) :=
      forEach_effects (fun s e _ => dispatchEmitted_effects (List.ne_nil_of_mem hframe) s e) _
    dsimp only
    unfold forEach
    rw [if_neg (by simp [hunstuck])]
    exact hfirst.grows (hrest.grows hcap.shrink hcap.writes.toStandard)

theorem Awaiting.frames {frames : List RakNetFrame}
    (hframes : ∀ f ∈ frames, f ∈ framesOf datagram ∧ ∃ i, parts.Has i f)
    (hs : Awaiting env parts compressed since arrived s)
    (hmore : ¬ ∀ i < parts.chunks.length, arrived i) (hstuck : s.stuck = false)
    (hroom : Roomy s.fs) : Proceeds env parts compressed since (ArrivedWith arrived frames) s
      (forEach (handleFrame env parts.peer) s frames) := by
  induction frames generalizing arrived s with
  | nil =>
    rw [arrivedWith_nil]
    exact .inl ⟨hmore, .refl s, hs⟩
  | cons frame frames ih =>
    obtain ⟨hframe, i, hpart⟩ := hframes frame List.mem_cons_self
    have hothers := fun f hf => hframes f (List.mem_cons_of_mem frame hf)
    rw [← arrivedWith_cons hpart.fragment.index]
    unfold forEach
    rw [if_neg (by simp [hstuck])]
    rcases hs.frame hcap hbatch hmore hstuck hroom hpart hframe with ⟨hstill, hfiles, hs'⟩ | hsaved
    · rcases ih hothers hs' hstill (hfiles.stuck.trans hstuck) (hfiles.fs ▸ hroom) with
        ⟨hstill', hfiles', hs''⟩ | hsaved
      · exact .inl ⟨hstill', hfiles.trans hfiles', hs''⟩
      · exact .inr (hfiles.fs ▸ hsaved)
    · have hrest : Effects env parts.peer datagram (handleFrame env parts.peer s frame)
          (forEach (handleFrame env parts.peer) (handleFrame env parts.peer s frame) frames) :=
        forEach_effects (fun s f hf => handleFrame_effects s (hothers f hf).1) _
      exact .inr (hsaved.grows (hrest.grows hcap.shrink hcap.writes.toStandard))

/-- A datagram of the peer takes the login a step further. -/
theorem Awaiting.handled (hs : Awaiting env parts compressed since arrived s)
    (hmore : ¬ ∀ i < parts.chunks.length, arrived i) (hstuck : s.stuck = false)
    (hroom : Roomy s.fs) (hframes : ∀ f ∈ framesOf datagram, ∃ i, parts.Has i f)
    (htimed : Timed env since limit) (hstart : s.tick ≤ limit)
    (hlimit : (handlePacket env parts.peer s datagram).2.tick ≤ limit) :
    ((¬ ∀ i < parts.chunks.length, ArrivedWith arrived (framesOf datagram) i) ∧
      Awaiting env parts compressed since (ArrivedWith arrived (framesOf datagram))
        (handlePacket env parts.peer s datagram).2) ∨
      SkinSaved env parts.login s.fs (handlePacket env parts.peer s datagram).2.fs := by
  by_cases hnone : framesOf datagram = []
  · left
    rw [hnone, arrivedWith_nil]
    refine ⟨hmore, ?_⟩
    exact (handlePacket_handling s datagram).awaiting hlimit fun s' h hlimit =>
      h.awaiting hnone hs htimed hlimit
  · obtain ⟨frameset, hof, heq⟩ := handlePacket_frames env hs.active hnone
    rw [heq]
    have hpruned : Awaiting env parts compressed since arrived
        (markConnected (pruneQueues env s parts.peer) parts.peer) := by
      have hprune := hs.prune htimed hstart
      unfold markConnected
      rw [ServerState.ensureSession_eq_self hprune.active]
      exact hprune.modify (fun _ => rfl) fun _ => rfl
    have hmembers : ∀ f ∈ frameset.frames, f ∈ framesOf datagram ∧ ∃ i, parts.Has i f :=
      fun f hf => ⟨hof ▸ hf, hframes f (hof ▸ hf)⟩
    have hstep := hpruned.frames hcap hbatch hmembers hmore hstuck hroom
    rw [hof]
    unfold handleFrameSet
    dsimp only
    generalize forEach (handleFrame env parts.peer) _ frameset.frames = s' at hstep
    have hsent : ∀ s' : ServerState, (if s'.stuck then s' else
        (s'.sendTo env parts.peer (ackDatagram frameset.seq)).2).fs = s'.fs := by
      intro s'
      split_ifs <;> rfl
    rcases hstep with ⟨hstill, -, hs'⟩ | hsaved
    · left
      refine ⟨hstill, ?_⟩
      split_ifs
      · exact hs'
      · exact hs'.sendTo _ _
    · right
      rw [hsent]
      exact hsaved

/-- One event takes the login a step further. -/
theorem Awaiting.event (parse : Str → Option SocketAddr) {event : ServerEvent}
    (hpeers : ∀ d ∈ incoming [event], d.1.display ≠ parts.peer.display ∨ d.1 = parts.peer)
    (hparts : ∀ f ∈ framesFrom parts.peer [event], ∃ i, parts.Has i f)
    (htimed : Timed env since limit) (hs : Awaiting env parts compressed since arrived s)
    (hmore : ¬ ∀ i < parts.chunks.length, arrived i) (hstuck : s.stuck = false)
    (hroom : Roomy s.fs) (hlimit : (event.apply env parse s).tick ≤ limit) :
    ((¬ ∀ i < parts.chunks.length, ArrivedWith arrived (framesFrom parts.peer [event]) i) ∧
      Awaiting env parts compressed since (ArrivedWith arrived (framesFrom parts.peer [event]))
        (event.apply env parse s)) ∨
      SkinSaved env parts.login s.fs (event.apply env parse s).fs := by
  obtain ⟨heard, hturns⟩ := event.turns env parse s
  have hstart : s.tick ≤ limit := hturns.tick_le.trans hlimit
  cases event with
  | worker =>
    left
    have hnone : framesFrom parts.peer [.worker] = [] := rfl
    rw [hnone, arrivedWith_nil]
    exact ⟨hmore, hs.worker parse⟩
  | datagram addr data =>
    have happly : ServerEvent.apply env parse s (.datagram addr data) =
        (handlePacket env addr s data).2 := if_neg (by simp [hstuck])
    rw [happly] at hlimit ⊢
    by_cases haddr : addr = parts.peer
    · subst haddr
      rw [framesFrom_own] at hparts ⊢
      exact hs.handled hcap hbatch hmore hstuck hroom hparts htimed hstart hlimit
    · left
      have hother : parts.peer.display ≠ addr.display :=
        ((hpeers (addr, data) List.mem_cons_self).resolve_right haddr).symm
      rw [framesFrom_other haddr, arrivedWith_nil]
      refine ⟨hmore, ?_⟩
      exact (handlePacket_handling s data).awaiting hlimit fun s' h _ =>
        h.awaiting_other hother hs

theorem Awaiting.run {events : List ServerEvent}
    (hpeers : ∀ d ∈ incoming events, d.1.display ≠ parts.peer.display ∨ d.1 = parts.peer)
    (hparts : ∀ f ∈ framesFrom parts.peer events, ∃ i, parts.Has i f)
    (htimed : Timed env since limit) (hs : Awaiting env parts compressed since arrived s)
    (hmore : ¬ ∀ i < parts.chunks.length, arrived i)
    (hend : (runServer env parse s events).stuck = false)
    (hroom : Roomy (runServer env parse s events).fs)
    (hlimit : (runServer env parse s events).tick ≤ limit) :
    (¬ ∀ i < parts.chunks.length, ArrivedWith arrived (framesFrom parts.peer events) i) ∨
      SkinSaved env parts.login s.fs (runServer env parse s events).fs := by
  have hgrows := fun s events => (runServer_turns env parse [] s events).grows hcap.shrink
    hcap.writes.toStandard
  induction events generalizing arrived s with
  | nil =>
    left
    have hnone : framesFrom parts.peer [] = [] := rfl
    rwa [hnone, arrivedWith_nil]
  | cons event events ih =>
    have hrest := runServer_turns env parse [] (event.apply env parse s) events
    have hfirst : incoming (event :: events) = incoming [event] ++ incoming events :=
      List.filterMap_append (l := [event])
    rw [hfirst] at hpeers
    rw [framesFrom_cons] at hparts ⊢
    have hpeer := fun d hd => hpeers d (List.mem_append_left _ hd)
    have hpeers := fun d hd => hpeers d (List.mem_append_right _ hd)
    have hpart := fun f hf => hparts f (List.mem_append_left _ hf)
    have hparts := fun f hf => hparts f (List.mem_append_right _ hf)
    have hafter : Roomy (event.apply env parse s).fs := (hgrows _ events).roomy hroom
    have hstep := hs.event hcap hbatch parse hpeer hpart htimed hmore
      (unstuck_of_run (event :: events) hend)
      ((hgrows s [event]).roomy hafter) (hrest.tick_le.trans hlimit)
    rw [arrivedWith_append]
    rcases hstep with ⟨hstill, hs'⟩ | hsaved
    · refine (ih hpeers hparts hs' hstill hend hroom hlimit).imp_right fun hsaved => ?_
      obtain ⟨files, hadds, -⟩ := hgrows s [event]
      exact hsaved.earlier hadds
    · exact .inr (hsaved.grows (hgrows _ events))

end Frames

/-- While the parts of a login arrive in a server with room for files, in any order, some of them
again, between what other peers send and the rounds of the worker, nothing expires: once the last
part is there, the skin is on the disk, and while captures are numbered no later file of the run
takes its place. -/
theorem parts_captured (env : ServerEnv) (parse : Str → Option SocketAddr) (parts : LoginParts)
    (compressed : Bool) (batch : Bytes) (s : ServerState) (events : List ServerEvent)
    (hcap : Capturing env parts.login)
    (hbatch : parts.Carries env.tools.flate compressed batch) (hstuck : s.stuck = false)
    (hsession : ∃ c, s.session parts.peer = some c ∧ c.compressionEnabled = compressed ∧
      Due c parts.orderIndex parts.orderChannel)
    (hfree : s.splitBuffers.lookup parts.key = none)
    (hpeers : ∀ d ∈ incoming events, d.1.display ≠ parts.peer.display ∨ d.1 = parts.peer)
    (hparts : ∀ f ∈ framesFrom parts.peer events, ∃ i, parts.Has i f)
    (hall : ∀ i < parts.chunks.length, ∃ f ∈ framesFrom parts.peer events, f.splitIndex = some i)
    (hroom : Roomy (runServer env parse s events).fs)
    (htimed : Timed env s.tick (runServer env parse s events).tick) :
    SkinSaved env parts.login s.fs (runServer env parse s events).fs := by
  obtain ⟨paths, hpaths, hfew⟩ := hroom.few
  have hunstuck : Unstuck (runServer env parse s events) :=
    (runServer_turns env parse [] s events).unstuck hcap.shrink fun _ _ _ => hstuck
  have hwaiting : Awaiting env parts compressed s.tick (fun _ => False) s := by
    refine ⟨hsession, ?_, fun entry hentry => ?_, le_rfl⟩
    · rw [hfree]
      exact fun i _ => not_false
    · rw [hfree] at hentry
      cases hentry
  have hfull : 0 < parts.chunks.length := by
    refine List.length_pos_iff.mpr fun hnil => ?_
    have hbody := hbatch.body
    rw [hnil] at hbody
    cases hbody
  rcases hwaiting.run hcap hbatch hpeers hparts htimed (fun h => h 0 hfull)
    (hunstuck paths hpaths hfew) hroom le_rfl with hmore | hsaved
  · exact absurd (fun i hi => .inr (hall i hi)) hmore
  · exact hsaved

theorem roomy_of_adds {files : List (Str × Bytes)} (h : Adds .empty fs files)
    (hfew : fs.written.length < 2 ^ 32) : Roomy fs := by
  refine ⟨fun request => ?_, (fs.written.map Prod.fst).toFinset, fun path hpath => ?_, ?_⟩
  · rw [h.denied]
    rfl
  · exact List.mem_toFinset.mpr (h.listed hpath)
  · refine (List.toFinset_card_le _).trans_lt ?_
    rwa [List.length_map]

def whiteServer : ServerEnv :=
  { ServerEnv.quiet 1492 with
    tools := sampleTools
    baseDir := ".".toList }

def whiteBatch : Bytes := (writePackets [whiteLogin.packet]).data

def whiteParts : LoginParts where
  login := whiteLogin
  peer := loopback
  splitId := 7
  chunks := [(0xfe :: whiteBatch).take 100, (0xfe :: whiteBatch).drop 100]
  orderIndex := none
  orderChannel := none
  few := by decide

/-- The last part first, and once more after a round of the worker and a part of another peer. -/
def whiteEvents : List ServerEvent :=
  let last := fragmentDatagram ⟨2, 7, 1⟩ ((0xfe :: whiteBatch).drop 100)
  let first := fragmentDatagram ⟨2, 7, 0⟩ ((0xfe :: whiteBatch).take 100)
  [.datagram loopback last, .worker, .datagram neighbour first, .datagram loopback last,
    .datagram loopback first, .worker]

theorem whiteParts_arrive :
    ∀ f ∈ framesFrom whiteParts.peer whiteEvents, ∃ i, whiteParts.Has i f := by
  have hfields : ∀ f ∈ framesFrom loopback whiteEvents, f.isSplit = true ∧
      f.splitId = some 7 ∧ f.splitCount = some whiteParts.chunks.length ∧
      f.splitIndex = some (f.splitIndex.getD 0) ∧
      whiteParts.chunks[f.splitIndex.getD 0]? = some f.payload ∧
      f.orderIndex = none ∧ f.orderChannel = none := by decide +kernel
  intro f hf
  obtain ⟨h1, h2, h3, h4, h5, h6, h7⟩ := hfields f hf
  exact ⟨_, ⟨h1, h2, h3, h4, h5⟩, h6, h7⟩

theorem parts_captured_white : SkinSaved whiteServer whiteLogin .empty
    (runServer whiteServer (fun _ => none) pairedServer whiteEvents).fs := by
  refine parts_captured whiteServer (fun _ => none) whiteParts false whiteBatch pairedServer
    whiteEvents ?_ ?_ rfl ?_ rfl (by decide +kernel) whiteParts_arrive (by decide +kernel) ?_ ?_
  · exact ⟨strictEngines_invert, strictEngines_shrink, sampleFlate_inverts,
      sampleTools_writes _, by decide⟩
  · exact ⟨by decide +kernel, by decide +kernel, by decide +kernel⟩
  · exact ⟨_, rfl, rfl, fun idx hidx => by cases hidx⟩
  · obtain ⟨files, hadds, -⟩ := (runServer_turns whiteServer (fun _ => none) [] pairedServer
      whiteEvents).grows strictEngines_shrink sampleTools_standard
    exact roomy_of_adds hadds (by decide +kernel)
  · have htick : (runServer whiteServer (fun _ => none) pairedServer whiteEvents).tick ≤ 25 := by
      decide +kernel
    intro t now _ _ hnow
    have hfew : now - t ≤ sessionQueueTtl :=
      (Nat.sub_le now t).trans ((hnow.trans htick).trans (by decide))
    exact decide_eq_true hfew

end SkinGetBE.RakNet
