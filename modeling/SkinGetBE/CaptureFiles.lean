import SkinGetBE.LegacyLogin
import SkinGetBE.SessionProtocol

/-!
# Where captures are written

A name that comes from a client goes through the sanitizer before it is part of a
file name. Whatever a login holds, the files that are written lie directly in the
directory of the skins, an image and a sidecar of one stem.
-/
namespace SkinGetBE
open Octets Text

/-- The characters that the sanitizer replaces. -/
def reservedChars : Str := ['/', '\\', ':', '*', '?', '"', '<', '>', '|']

def Unreserved (name : Str) : Prop := ∀ c ∈ name, c ∉ reservedChars

instance (name : Str) : Decidable (Unreserved name) :=
  List.decidableBAll (· ∉ reservedChars) name

/-- A name that denotes a file of the directory it is joined to. -/
structure PlainName (name : Str) : Prop where
  unreserved : Unreserved name
  notSelf : name ≠ ".".toList
  notParent : name ≠ "..".toList

/-- The paths that one capture writes: none, that of the image, or those of the image and of the
sidecar. -/
inductive CaptureFiles (skinsDir : Str) : List Str → Prop
  | nothing : CaptureFiles skinsDir []
  | image (stem : Str) (hpng : PlainName (stem ++ ".png".toList)) :
      CaptureFiles skinsDir [skinsDir ++ '/' :: (stem ++ ".png".toList)]
  | pair (stem : Str) (hpng : PlainName (stem ++ ".png".toList))
      (hjson : PlainName (stem ++ ".json".toList)) :
      CaptureFiles skinsDir [skinsDir ++ '/' :: (stem ++ ".png".toList),
        skinsDir ++ '/' :: (stem ++ ".json".toList)]

/-- Only the files of captures are written between two states of the file system. -/
def OnlyCaptures (skinsDir : Str) (fs fs' : FileSystem) : Prop :=
  ∃ captures : List (List (Str × Bytes)), fs'.written = fs.written ++ captures.flatten ∧
    ∀ files ∈ captures, CaptureFiles skinsDir (files.map Prod.fst)

theorem OnlyCaptures.refl (skinsDir : Str) (fs : FileSystem) : OnlyCaptures skinsDir fs fs :=
  ⟨[], (List.append_nil _).symm, nofun⟩

theorem OnlyCaptures.trans {skinsDir : Str} {fs fs' fs'' : FileSystem}
    (h₁ : OnlyCaptures skinsDir fs fs') (h₂ : OnlyCaptures skinsDir fs' fs'') :
    OnlyCaptures skinsDir fs fs'' := by
  obtain ⟨first, hfirst, hfiles⟩ := h₁
  obtain ⟨second, hsecond, hfiles'⟩ := h₂
  refine ⟨first ++ second, ?_, fun files hmem => ?_⟩
  · rw [hsecond, hfirst, List.flatten_append, List.append_assoc]
  · exact (List.mem_append.mp hmem).elim (hfiles files) (hfiles' files)

theorem sanitizeChar_unreserved (c : Char) : sanitizeChar c ∉ reservedChars := by
  unfold sanitizeChar
  split
  case h_10 =>
    simp only [reservedChars, List.mem_cons, List.not_mem_nil, or_false, not_or]
    exact ⟨‹_›, ‹_›, ‹_›, ‹_›, ‹_›, ‹_›, ‹_›, ‹_›, ‹_›⟩
  all_goals decide

theorem sanitizeComponent_unreserved (value : Str) : Unreserved (sanitizeComponent value) := by
  intro c hc
  obtain ⟨x, -, rfl⟩ := List.mem_map.mp hc
  exact sanitizeChar_unreserved x

theorem Unreserved.append {a b : Str} (ha : Unreserved a) (hb : Unreserved b) :
    Unreserved (a ++ b) := fun c hc => (List.mem_append.mp hc).elim (ha c) (hb c)

theorem unreserved_underscore {s : Str} (h : Unreserved s) : Unreserved ('_' :: s) := by
  have hunderscore : Unreserved ['_'] := by decide
  exact hunderscore.append h

theorem captureBaseName_unreserved (playerName skinId : Str) :
    Unreserved (captureBaseName playerName skinId) :=
  (sanitizeComponent_unreserved playerName).append
    (unreserved_underscore (sanitizeComponent_unreserved skinId))

theorem toDigits_unreserved (n : ℕ) : Unreserved (Nat.toDigits 10 n) := by
  intro c hc hreserved
  have hdigit : c.isDigit := Nat.isDigit_of_mem_toDigits (by decide) (by decide) hc
  have hnone : reservedChars.all (!·.isDigit) = true := by decide
  have hnot := List.all_eq_true.mp hnone c hreserved
  rw [hdigit] at hnot
  cases hnot

theorem numberedStem_unreserved {baseName : Str} (h : Unreserved baseName) (count : ℕ) :
    Unreserved (numberedStem baseName count) :=
  h.append (unreserved_underscore (toDigits_unreserved count))

theorem numberedStemLoop_unreserved {fs : FileSystem} {skinsDir baseName stem : Str}
    (hbase : Unreserved baseName) {fuel count : ℕ}
    (h : numberedStemLoop fs skinsDir baseName fuel count = some stem) : Unreserved stem := by
  induction fuel generalizing count with
  | zero =>
    unfold numberedStemLoop at h
    split_ifs at h
    exact Option.some.inj h ▸ numberedStem_unreserved hbase count
  | succ fuel ih =>
    unfold numberedStemLoop at h
    split_ifs at h
    · exact Option.some.inj h ▸ numberedStem_unreserved hbase count
    · exact ih h

theorem nextAvailableStem_unreserved {fs : FileSystem} {skinsDir baseName stem : Str}
    (hbase : Unreserved baseName) (h : nextAvailableStem fs skinsDir baseName = some stem) :
    Unreserved stem := by
  unfold nextAvailableStem at h
  split_ifs at h
  · exact Option.some.inj h ▸ hbase
  · exact numberedStemLoop_unreserved hbase h

theorem plainName_of_unreserved {stem ext : Str} (hstem : Unreserved stem) (hext : Unreserved ext)
    (hlength : 2 < ext.length) : PlainName (stem ++ ext) where
  unreserved := hstem.append hext
  notSelf h := by
    have hlen := congrArg List.length h
    rw [List.length_append, show (".".toList).length = 1 from rfl] at hlen
    omega
  notParent h := by
    have hlen := congrArg List.length h
    rw [List.length_append, show ("..".toList).length = 2 from rfl] at hlen
    omega

theorem FileSystem.join_eq {dir name : Str} (hdir : dir ≠ []) (hlast : dir.getLast? ≠ some '/')
    (hname : Unreserved name) : FileSystem.join dir name = dir ++ '/' :: name := by
  have hhead : name.head? ≠ some '/' := by
    intro h
    exact hname '/' (List.mem_of_head? h) (by decide)
  unfold join
  rw [if_neg hhead, if_neg (by simp [hdir, hlast])]

theorem skinsDirOf_eq (baseDir : Str) :
    ∃ parent, skinsDirOf baseDir = parent ++ "skins".toList := by
  unfold skinsDirOf FileSystem.join
  rw [if_neg (by decide)]
  by_cases h : baseDir = [] ∨ baseDir.getLast? = some '/'
  · rw [if_pos h]
    exact ⟨baseDir, rfl⟩
  · rw [if_neg h]
    exact ⟨baseDir ++ ['/'], by rw [List.append_assoc, List.singleton_append]⟩

theorem join_skinsDirOf (baseDir : Str) {name : Str} (hname : Unreserved name) :
    FileSystem.join (skinsDirOf baseDir) name = skinsDirOf baseDir ++ '/' :: name := by
  obtain ⟨parent, hdir⟩ := skinsDirOf_eq baseDir
  apply FileSystem.join_eq _ _ hname
  · rw [hdir]
    exact List.append_ne_nil_of_right_ne_nil _ (by decide)
  · rw [hdir, List.getLast?_append, show "skins".toList.getLast? = some 's' from rfl]
    exact nofun

theorem pngPath_eq (baseDir : Str) {stem : Str} (hstem : Unreserved stem) :
    pngPath (skinsDirOf baseDir) stem = skinsDirOf baseDir ++ '/' :: (stem ++ ".png".toList) :=
  join_skinsDirOf baseDir (hstem.append (by decide))

theorem jsonPath_eq (baseDir : Str) {stem : Str} (hstem : Unreserved stem) :
    jsonPath (skinsDirOf baseDir) stem = skinsDirOf baseDir ++ '/' :: (stem ++ ".json".toList) :=
  join_skinsDirOf baseDir (hstem.append (by decide))

variable {tools : CaptureTools} {fs fs' : FileSystem} {baseDir : Str}

theorem FileSystem.written_write {path : Str} {contents : Bytes}
    (h : fs.write path contents = .ok fs') : fs'.written = fs.written ++ [(path, contents)] := by
  unfold write at h
  split at h
  · cases h
  · cases h
    rfl

theorem writeCapture_files {stem : Str} {capture : LoginCapture}
    {result : Except Error (Option Str)} (hstem : Unreserved stem)
    (h : writeCapture tools fs (skinsDirOf baseDir) stem capture = some (result, fs')) :
    OnlyCaptures (skinsDirOf baseDir) fs fs' := by
  have hpng : PlainName (stem ++ ".png".toList) :=
    plainName_of_unreserved hstem (by decide) (by decide)
  have hjson : PlainName (stem ++ ".json".toList) :=
    plainName_of_unreserved hstem (by decide) (by decide)
  have hone {png : Bytes} {fs₁ : FileSystem}
      (himage : fs.write (pngPath (skinsDirOf baseDir) stem) png = .ok fs₁) :
      OnlyCaptures (skinsDirOf baseDir) fs fs₁ := by
    have hwritten := FileSystem.written_write himage
    rw [pngPath_eq baseDir hstem] at hwritten
    refine ⟨[[_]], hwritten, fun files hfiles => ?_⟩
    rw [List.mem_singleton.mp hfiles]
    exact .image stem hpng
  cases writeCapture_outcome h with
  | unencoded e => exact OnlyCaptures.refl _ _
  | imageRefused png e => exact OnlyCaptures.refl _ _
  | untextual png fs₁ e hencode himage => exact hone himage
  | sidecarRefused png text fs₁ e hencode himage => exact hone himage
  | written png text fs₁ fs₂ hencode himage htext hsidecar =>
    have hfirst := FileSystem.written_write himage
    have hboth := FileSystem.written_write hsidecar
    rw [pngPath_eq baseDir hstem] at hfirst
    rw [jsonPath_eq baseDir hstem, hfirst, List.append_assoc] at hboth
    refine ⟨[[_, _]], hboth, fun files hfiles => ?_⟩
    rw [List.mem_singleton.mp hfiles]
    exact .pair stem hpng hjson

/-- A capture writes its own files, in every mode and into any directory. -/
theorem saveLoginCapture_files {capture : LoginCapture} {savemode : ℕ}
    {result : Except Error (Option Str)}
    (h : saveLoginCapture tools fs baseDir capture savemode = some (result, fs')) :
    OnlyCaptures (skinsDirOf baseDir) fs fs' := by
  have hbase := captureBaseName_unreserved capture.playerName capture.skinId
  unfold saveLoginCapture at h
  by_cases hmode : savemode = 0
  · rw [if_pos hmode] at h
    cases h
    exact OnlyCaptures.refl _ _
  · rw [if_neg hmode] at h
    dsimp only at h
    cases hdir : fs.createDirAll (skinsDirOf baseDir) with
    | error e =>
      rw [hdir] at h
      cases h
      exact OnlyCaptures.refl _ _
    | ok u =>
      rw [hdir] at h
      dsimp only at h
      by_cases hone : savemode = 1
      · rw [if_pos hone] at h
        exact writeCapture_files hbase h
      · rw [if_neg hone, Option.bind_eq_bind, Option.bind_eq_some_iff] at h
        obtain ⟨stem, hstem, hwrite⟩ := h
        exact writeCapture_files (nextAvailableStem_unreserved hbase hstem) hwrite

namespace NetherSession

theorem sendBundle_fs (env : SessionEnv) (s : SessionState) : (sendBundle env s).fs = s.fs := by
  unfold sendBundle
  cases buildBatch env.tools.flate closingPackets s.compressionEnabled with
  | none => rfl
  | some bundle => rfl

theorem captureLogin_files (env : SessionEnv) (s : SessionState) (parsed : ParsedLoginPacket) :
    OnlyCaptures (skinsDirOf env.baseDir) s.fs (captureLogin env s parsed).fs := by
  unfold captureLogin
  dsimp only
  cases ExtractedSkin.new parsed.skinWidth parsed.skinHeight parsed.skinData with
  | error e =>
    dsimp only
    rw [sendBundle_fs]
    exact OnlyCaptures.refl _ _
  | ok skin =>
    dsimp only
    cases hsave : saveLoginCapture env.tools (s.record [.capture parsed]).fs env.baseDir
        ⟨parsed.playerName, parsed.skinId, parsed.metadata, skin⟩ env.savemode with
    | none => exact OnlyCaptures.refl _ _
    | some saved =>
      obtain ⟨result, fs⟩ := saved
      dsimp only
      rw [sendBundle_fs]
      exact saveLoginCapture_files hsave

theorem handlePacket_files (env : SessionEnv) (s : SessionState) (pkt : Bytes) :
    OnlyCaptures (skinsDirOf env.baseDir) s.fs (handlePacket env s pkt).fs := by
  rcases handlePacket_cases env s pkt with h | ⟨parsed, h⟩
  · generalize handlePacket env s pkt = s' at h
    cases h with
    | empty => exact OnlyCaptures.refl _ _
    | ignored packetId hne => exact OnlyCaptures.refl _ _
    | settings => exact OnlyCaptures.refl _ _
  · rw [h]
    exact captureLogin_files env _ parsed

theorem handlePackets_files (env : SessionEnv) (s : SessionState) (packets : List Bytes) :
    OnlyCaptures (skinsDirOf env.baseDir) s.fs (handlePackets env s packets).fs := by
  induction packets generalizing s with
  | nil => exact OnlyCaptures.refl _ _
  | cons pkt packets ih =>
    have hone := handlePacket_files env s pkt
    unfold handlePackets
    dsimp only
    by_cases hr : (handlePacket env s pkt).status = .running
    · rw [if_pos hr]
      exact hone.trans (ih _)
    · rw [if_neg hr]
      exact hone

theorem step_files (env : SessionEnv) (s : SessionState) (event : Channel × Received) :
    OnlyCaptures (skinsDirOf env.baseDir) s.fs (step env s event).fs := by
  obtain ⟨channel, received⟩ := event
  unfold step
  split_ifs
  · exact OnlyCaptures.refl _ _
  · cases received with
    | failed message => exact OnlyCaptures.refl _ _
    | closed =>
      have hclosed : (s.closeChannel channel).fs = s.fs := by cases channel <;> rfl
      dsimp only
      split_ifs
      · rw [hclosed]
        exact OnlyCaptures.refl _ _
      · dsimp only
        rw [hclosed]
        exact OnlyCaptures.refl _ _
    | data bytes =>
      dsimp only
      unfold handleMessage
      cases openMessage env.tools.flate s.compressionEnabled bytes with
      | none => exact OnlyCaptures.refl _ _
      | some packets => exact handlePackets_files env s packets

theorem handleSession_files (env : SessionEnv) (s : SessionState)
    (events : List (Channel × Received)) :
    OnlyCaptures (skinsDirOf env.baseDir) s.fs (handleSession env s events).fs := by
  unfold handleSession
  induction events generalizing s with
  | nil => exact OnlyCaptures.refl _ _
  | cons event events ih => exact (step_files env s event).trans (ih _)

end NetherSession

namespace RakNet

theorem transmit_fs (env : ServerEnv) (s : ServerState) (dest : SocketAddr) (reliability : ℕ)
    (flags : UInt8) (body : Bytes) : (transmit env s dest reliability flags body).2.fs = s.fs := by
  unfold transmit rememberReliable
  dsimp only
  by_cases h : hasReliable reliability
  · rw [if_pos h]
    rfl
  · rw [if_neg h]
    rfl

@[simp] theorem sendFrame_fs (env : ServerEnv) (s : ServerState) (payload : Bytes)
    (reliability : ℕ) (dest : SocketAddr) :
    (sendFrame env s payload reliability dest).2.fs = s.fs := by
  have htrans : ∀ {s t u : ServerState}, t.fs = s.fs → u.fs = t.fs → u.fs = s.fs :=
    fun h h' => h'.trans h
  exact sendFrame_related (R := fun s s' => s'.fs = s.fs) (fun _ => rfl) htrans
    (fun s reliability flags body _ => transmit_fs env s dest reliability flags body)
    (fun _ => rfl) s payload reliability

@[simp] theorem modifySession_fs (s : ServerState) (addr : SocketAddr)
    (f : ClientSession → ClientSession) : (s.modifySession addr f).fs = s.fs := rfl

theorem finishCapture_fs (env : ServerEnv) (s : ServerState) (parsed : ParsedLoginPacket)
    (path : Option Str) (addr : SocketAddr) : (finishCapture env s parsed path addr).fs = s.fs := by
  have hremove : ∀ s : ServerState, (s.removeConnection addr).fs = s.fs := fun _ => rfl
  unfold finishCapture sendLoginSuccessBundle sendBedrockBundle sendDisconnectResponse
    sendBedrockResponse sendRaknetDisconnectNotification
  simp only [hremove, modifySession_fs, sendFrame_fs]

theorem captureLogin_files (env : ServerEnv) (s : ServerState) (parsed : ParsedLoginPacket)
    (addr : SocketAddr) :
    OnlyCaptures (skinsDirOf env.baseDir) s.fs (captureLogin env s parsed addr).fs := by
  unfold captureLogin
  dsimp only
  cases ExtractedSkin.new parsed.skinWidth parsed.skinHeight parsed.skinData with
  | error e => exact OnlyCaptures.refl _ _
  | ok skin =>
    dsimp only
    cases hsave : saveLoginCapture env.tools
        (syncClientVersion env s (parsed.protocol % 2 ^ 16)).fs env.baseDir
        ⟨parsed.playerName, parsed.skinId, parsed.metadata, skin⟩ env.config.savemode with
    | none => exact OnlyCaptures.refl _ _
    | some saved =>
      obtain ⟨result, fs⟩ := saved
      cases result with
      | error e => exact saveLoginCapture_files hsave
      | ok path =>
        dsimp only
        rw [finishCapture_fs]
        exact saveLoginCapture_files hsave

theorem handleLoginPacketOn_files (env : ServerEnv) (s : ServerState) (buf : Buffer)
    (addr : SocketAddr) :
    OnlyCaptures (skinsDirOf env.baseDir) s.fs (handleLoginPacketOn env s buf addr).fs := by
  rw [handleLoginPacketOn_eq]
  unfold handleLoginPacket
  obtain ⟨found, hparse⟩ := parseLoginPacket_ok env.engines buf.readRemaining.1
  rw [hparse]
  cases found with
  | none => exact OnlyCaptures.refl _ _
  | some parsed => exact captureLogin_files env s parsed addr

end RakNet

/-- Captures stay in the directory of the skins, and the older way to save one is not taken. -/
theorem captures_stay_inside :
    (∀ (env : NetherSession.SessionEnv) (s : NetherSession.SessionState)
      (events : List (NetherSession.Channel × NetherSession.Received)),
      OnlyCaptures (skinsDirOf env.baseDir) s.fs (NetherSession.handleSession env s events).fs) ∧
    (∀ (env : RakNet.ServerEnv) (s : RakNet.ServerState) (buf : Buffer) (addr : RakNet.SocketAddr),
      OnlyCaptures (skinsDirOf env.baseDir) s.fs (RakNet.handleLoginPacketOn env s buf addr).fs) ∧
    ∀ (engines : Base64Engines) (random : ℕ) (buf : Buffer),
      extractLegacyLoginFields engines random buf.readRemaining.2 = some none :=
  ⟨NetherSession.handleSession_files, RakNet.handleLoginPacketOn_files, fun engines random buf =>
    extractLegacyLoginFields_drained buf.rest_readRemaining engines random⟩

end SkinGetBE
