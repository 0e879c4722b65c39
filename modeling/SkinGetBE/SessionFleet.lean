import SkinGetBE.SessionTasks
import SkinGetBE.SavedCaptures

/-!
# The files of the sessions

Whatever the order in which the sessions take their steps, each of them writes nothing
before its login, and then the files of one capture at most. All that is in the
directory beyond what was there before comes from such captures.
-/
namespace SkinGetBE.NetherSession
open Octets Text

/-- One step of a call, to its next phase and the files after it. -/
inductive CallStep (tools : CaptureTools) (baseDir : Str) (fs : FileSystem) (call : SaveCall) :
    SavePhase → FileSystem → Prop
  | stay (result : Option (Except Error (Option Str))) (h : call.phase = .returned result) :
      CallStep tools baseDir fs call call.phase fs
  | refused (e : Error) (h : call.phase = .start) :
      CallStep tools baseDir fs call (.returned (some (.error e))) fs
  | opened (h : call.phase = .start) : CallStep tools baseDir fs call (.png none) fs
  | taken (c : Option ℕ) (h : call.phase = .png c ∨ call.phase = .json c)
      (htaken : stemIsFree fs (skinsDirOf baseDir) (call.stem c) = false) :
      CallStep tools baseDir fs call (.png (followingCandidate c)) fs
  | missing (c : Option ℕ) (h : call.phase = .png c) : CallStep tools baseDir fs call (.json c) fs
  | chosen (c : Option ℕ) (h : call.phase = .json c) : CallStep tools baseDir fs call (.image c) fs
  | panicked (c : Option ℕ) (h : call.phase = .image c)
      (hencode : encodePngRgba tools call.capture.skin.data call.capture.skin.width
        call.capture.skin.height = none) : CallStep tools baseDir fs call (.returned none) fs
  | failed (c : Option ℕ) (e : Error) (h : call.phase = .image c) :
      CallStep tools baseDir fs call (.returned (some (.error e))) fs
  | image (c : Option ℕ) (png : Bytes) (fs' : FileSystem) (h : call.phase = .image c)
      (hencode : encodePngRgba tools call.capture.skin.data call.capture.skin.width
        call.capture.skin.height = some (.ok png))
      (hwrite : fs.write (pngPath (skinsDirOf baseDir) (call.stem c)) png = .ok fs') :
      CallStep tools baseDir fs call (.sidecar c) fs'
  | bare (c : Option ℕ) (result : Except Error (Option Str)) (h : call.phase = .sidecar c) :
      CallStep tools baseDir fs call (.returned (some result)) fs
  | pair (c : Option ℕ) (result : Except Error (Option Str)) (text : Bytes) (fs' : FileSystem)
      (h : call.phase = .sidecar c)
      (htext : tools.toVecPretty ⟨call.capture.playerName, call.capture.skinId,
        call.capture.skin.width, call.capture.skin.height, call.capture.metadata⟩ = .ok text)
      (hwrite : fs.write (jsonPath (skinsDirOf baseDir) (call.stem c)) text = .ok fs') :
      CallStep tools baseDir fs call (.returned (some result)) fs'

variable {env : SessionEnv} {s : SessionState} {parsed : ParsedLoginPacket} {skins : SharedSkins}
  {f : Fleet} {i j : ℕ} {files : List (Str × Bytes)}

theorem stemIsFree_of_png {fs : FileSystem} {skinsDir stem : Str}
    (h : fs.pathExists (pngPath skinsDir stem) = true) : stemIsFree fs skinsDir stem = false := by
  unfold stemIsFree
  rw [h]
  rfl

theorem stemIsFree_of_json {fs : FileSystem} {skinsDir stem : Str}
    (h : fs.pathExists (jsonPath skinsDir stem) = true) : stemIsFree fs skinsDir stem = false := by
  unfold stemIsFree
  rw [h]
  exact Bool.and_false _

/-- The call is at the phase and the files are these. -/
structure Reaches (skins : SharedSkins) (i : ℕ) (call : SaveCall) (phase : SavePhase)
    (fs : FileSystem) : Prop where
  call : skins.calls i = { call with phase := phase }
  fs : skins.fs = fs

theorem reaches_moveTo (skins : SharedSkins) (i : ℕ) (phase : SavePhase) :
    Reaches (skins.moveTo i phase) i (skins.calls i) phase skins.fs :=
  ⟨SharedSkins.calls_moveTo skins i phase, rfl⟩

theorem step_callStep (tools : CaptureTools) (baseDir : Str) (skins : SharedSkins) (i : ℕ) :
    ∃ phase fs, CallStep tools baseDir skins.fs (skins.calls i) phase fs ∧
      Reaches (skins.step tools baseDir i) i (skins.calls i) phase fs := by
  have hmove := reaches_moveTo skins i
  have hwrote : ∀ path fs phase, Reaches ((skins.wrote i path fs).moveTo i phase) i
      (skins.calls i) phase fs :=
    fun path fs phase => reaches_moveTo (skins.wrote i path fs) i phase
  unfold SharedSkins.step
  dsimp only
  cases hphase : (skins.calls i).phase with
  | start =>
    dsimp only
    cases skins.fs.createDirAll (skinsDirOf baseDir) with
    | error e => exact ⟨_, _, .refused e hphase, hmove _⟩
    | ok u => exact ⟨_, _, .opened hphase, hmove _⟩
  | png c =>
    dsimp only
    split_ifs with h
    · exact ⟨_, _, .taken c (.inl hphase) (stemIsFree_of_png h), hmove _⟩
    · exact ⟨_, _, .missing c hphase, hmove _⟩
  | json c =>
    dsimp only
    split_ifs with h
    · exact ⟨_, _, .taken c (.inr hphase) (stemIsFree_of_json h), hmove _⟩
    · exact ⟨_, _, .chosen c hphase, hmove _⟩
  | image c =>
    dsimp only
    cases hencode : encodePngRgba tools (skins.calls i).capture.skin.data
        (skins.calls i).capture.skin.width (skins.calls i).capture.skin.height with
    | none => exact ⟨_, _, .panicked c hphase hencode, hmove _⟩
    | some encoded =>
      cases encoded with
      | error e => exact ⟨_, _, .failed c e hphase, hmove _⟩
      | ok png =>
        dsimp only
        cases hwrite :
            skins.fs.write (pngPath (skinsDirOf baseDir) ((skins.calls i).stem c)) png with
        | error e => exact ⟨_, _, .failed c e hphase, hmove _⟩
        | ok fs => exact ⟨_, _, .image c png fs hphase hencode hwrite, hwrote _ _ _⟩
  | sidecar c =>
    dsimp only
    cases htext : tools.toVecPretty ⟨(skins.calls i).capture.playerName,
        (skins.calls i).capture.skinId, (skins.calls i).capture.skin.width,
        (skins.calls i).capture.skin.height, (skins.calls i).capture.metadata⟩ with
    | error e => exact ⟨_, _, .bare c _ hphase, hmove _⟩
    | ok text =>
      dsimp only
      cases hwrite :
          skins.fs.write (jsonPath (skinsDirOf baseDir) ((skins.calls i).stem c)) text with
      | error e => exact ⟨_, _, .bare c _ hphase, hmove _⟩
      | ok fs => exact ⟨_, _, .pair c _ text fs hphase htext hwrite, hwrote _ _ _⟩
  | returned result => exact ⟨_, _, .stay result hphase, rfl, rfl⟩

/-- What the save of a capture has written so far: nothing yet, the image, or both files. -/
inductive BegunCapture (tools : CaptureTools) (skinsDir : Str) (capture : LoginCapture) :
    List (Str × Bytes) → Prop
  | nothing : BegunCapture tools skinsDir capture []
  | image (stem : Str) (png : Bytes) (h : Depicts png capture.skin) :
      BegunCapture tools skinsDir capture [(pngPath skinsDir stem, png)]
  | pair (stem : Str) (png text : Bytes) (h : Depicts png capture.skin)
      (htext : tools.toVecPretty ⟨capture.playerName, capture.skinId, capture.skin.width,
        capture.skin.height, capture.metadata⟩ = .ok text) :
      BegunCapture tools skinsDir capture
        [(pngPath skinsDir stem, png), (jsonPath skinsDir stem, text)]

/-- A name that the capture may take; a capture that overwrites has no numbered ones. -/
def NameOf (env : SessionEnv) (capture : LoginCapture) (stem : Str) : Prop :=
  stem = captureBaseName capture.playerName capture.skinId ∨ env.savemode ≠ 1 ∧
    ∃ count, stem = numberedStem (captureBaseName capture.playerName capture.skinId) count

/-- The files are those of the capture, under one of the names that it may take. -/
structure CaptureWritten (env : SessionEnv) (capture : LoginCapture)
    (files : List (Str × Bytes)) : Prop where
  begun : BegunCapture env.tools (skinsDirOf env.baseDir) capture files
  under : ∃ stem, NameOf env capture stem ∧ Under (skinsDirOf env.baseDir) stem files

/-- A call that does not search has no number, and is at no phase of the search. -/
def Unsearched : SavePhase → Prop
  | .start => True
  | .png _ => False
  | .json _ => False
  | .image c => c = none
  | .sidecar c => c = none
  | .returned _ => True

/-- What a call has written when it is at a phase. -/
def PhaseFiles (env : SessionEnv) (call : SaveCall) (files : List (Str × Bytes)) : Prop :=
  match call.phase with
  | .returned none => False
  | .returned (some _) => CaptureWritten env call.capture files
  | .sidecar c => ∃ png, files = [(pngPath (skinsDirOf env.baseDir) (call.stem c), png)] ∧
      Depicts png call.capture.skin
  | _ => files = []

/-- A session before its login, with its save under way, or after it, and what it has written. -/
inductive Standing (env : SessionEnv) (call : SaveCall) (task : Task)
    (files : List (Str × Bytes)) : Prop
  | before (hsaving : task.saving = false) (hcaptures : captures task.memory.trace = [])
      (hfiles : files = [])
  | underway (parsed : ParsedLoginPacket) (skin : ExtractedSkin) (hsaving : task.saving = true)
      (hstatus : task.memory.status = .running)
      (hcaptures : captures task.memory.trace = [parsed])
      (hskin : ParsedSkin env.engines parsed skin) (hcapture : call.capture = captureOf parsed skin)
      (hplain : env.savemode = 1 → Unsearched call.phase) (hphase : PhaseFiles env call files)
  | after (parsed : ParsedLoginPacket) (hsaving : task.saving = false)
      (hstatus : task.memory.status ≠ .running)
      (hcaptures : captures task.memory.trace = [parsed])
      (hfiles : files = [] ∨ ∃ skin, ParsedSkin env.engines parsed skin ∧
        CaptureWritten env (captureOf parsed skin) files)

theorem captureWritten_nothing (env : SessionEnv) (capture : LoginCapture) :
    CaptureWritten env capture [] :=
  ⟨.nothing, _, .inl rfl, fun _ he => absurd he List.not_mem_nil, List.nodup_nil⟩

theorem stem_named {call : SaveCall} {c : Option ℕ} (h : env.savemode = 1 → c = none) :
    NameOf env call.capture (call.stem c) := by
  cases c with
  | none => exact .inl rfl
  | some count =>
    refine .inr ⟨fun hone => ?_, count, rfl⟩
    cases h hone

theorem captureWritten_image {call : SaveCall} {png : Bytes} (h : Depicts png call.capture.skin)
    {c : Option ℕ} (hc : env.savemode = 1 → c = none) :
    CaptureWritten env call.capture [(pngPath (skinsDirOf env.baseDir) (call.stem c), png)] := by
  refine ⟨.image _ png h, _, stem_named hc, fun e he => ?_, List.nodup_singleton _⟩
  exact .inl (List.mem_singleton.mp he ▸ rfl)

theorem captureWritten_pair {call : SaveCall} {png text : Bytes} (h : Depicts png call.capture.skin)
    (htext : env.tools.toVecPretty ⟨call.capture.playerName, call.capture.skinId,
      call.capture.skin.width, call.capture.skin.height, call.capture.metadata⟩ = .ok text)
    {c : Option ℕ} (hc : env.savemode = 1 → c = none) :
    CaptureWritten env call.capture [(pngPath (skinsDirOf env.baseDir) (call.stem c), png),
      (jsonPath (skinsDirOf env.baseDir) (call.stem c), text)] := by
  refine ⟨.pair _ png text h htext, _, stem_named hc, fun e he => ?_, ?_⟩
  · rcases List.mem_cons.mp he with rfl | he
    · exact .inl rfl
    · exact .inr (List.mem_singleton.mp he ▸ rfl)
  · have hstem := SkinGetBE.SaveCall.stem_unreserved call c
    have hne := @pngPath_ne_jsonPath env.baseDir (call.stem c) (call.stem c) hstem hstem
    simpa using hne

theorem PhaseFiles.captureWritten {call : SaveCall} (h : PhaseFiles env call files)
    (hplain : env.savemode = 1 → Unsearched call.phase) :
    files = [] ∨ CaptureWritten env call.capture files := by
  unfold PhaseFiles at h
  cases hphase : call.phase with
  | returned result =>
    rw [hphase] at h
    cases result with
    | none => exact h.elim
    | some result => exact .inr h
  | sidecar c =>
    rw [hphase] at h hplain
    obtain ⟨png, rfl, hdepicts⟩ := h
    exact .inr (captureWritten_image hdepicts hplain)
  | _ =>
    rw [hphase] at h
    exact .inl h

theorem CallStep.writes {call : SaveCall} {phase : SavePhase} {fs fs' : FileSystem}
    {skin : ExtractedSkin}
    (h : CallStep env.tools env.baseDir fs call phase fs') (he : env.engines.Shrink)
    (htools : env.tools.Standard) (hskin : ParsedSkin env.engines parsed skin)
    (hcapture : call.capture = captureOf parsed skin)
    (hplain : env.savemode = 1 → Unsearched call.phase) (hphase : PhaseFiles env call files) :
    ∃ new, Adds fs fs' new ∧ PhaseFiles env { call with phase := phase } (files ++ new) := by
  have hencoder := hskin.encodes he env.tools
  unfold PhaseFiles at hphase
  have hnone : ∀ phase, PhaseFiles env { call with phase := phase } files →
      ∃ new, Adds fs fs new ∧ PhaseFiles env { call with phase := phase } (files ++ new) :=
    fun phase h => ⟨[], .refl fs, (List.append_nil files).symm ▸ h⟩
  cases h with
  | stay result h => exact hnone _ (by unfold PhaseFiles; exact hphase)
  | refused e h =>
    rw [h] at hphase
    subst hphase
    exact hnone _ (captureWritten_nothing env _)
  | opened h =>
    rw [h] at hphase
    exact hnone _ hphase
  | taken c h htaken =>
    rcases h with h | h
    · rw [h] at hphase
      exact hnone _ hphase
    · rw [h] at hphase
      exact hnone _ hphase
  | missing c h =>
    rw [h] at hphase
    exact hnone _ hphase
  | chosen c h =>
    rw [h] at hphase
    exact hnone _ hphase
  | panicked c h hencode =>
    rw [hcapture] at hencode
    exact absurd hencode hencoder
  | failed c e h =>
    rw [h] at hphase
    subst hphase
    exact hnone _ (captureWritten_nothing env _)
  | image c png fs' h hencode hwrite =>
    rw [h] at hphase
    subst hphase
    rw [hcapture] at hencode
    refine ⟨_, adds_write hwrite, png, rfl, ?_⟩
    dsimp only
    rw [hcapture]
    exact hskin.depicts he htools hencode
  | bare c result h =>
    rw [h] at hphase hplain
    obtain ⟨png, rfl, hdepicts⟩ := hphase
    exact hnone _ (captureWritten_image hdepicts hplain)
  | pair c result text fs' h htext hwrite =>
    rw [h] at hphase hplain
    obtain ⟨png, rfl, hdepicts⟩ := hphase
    exact ⟨_, adds_write hwrite, captureWritten_pair hdepicts htext hplain⟩

/-- One step leads a call that does not search to its end, or where the search would begin. -/
theorem CallStep.unsearched {tools : CaptureTools} {baseDir : Str} {call : SaveCall}
    {phase : SavePhase} {fs fs' : FileSystem} (h : CallStep tools baseDir fs call phase fs')
    (hplain : Unsearched call.phase) :
    Unsearched (if phase = .png none then .image none else phase) := by
  cases h with
  | stay result h =>
    rw [h]
    trivial
  | refused e h => trivial
  | opened h => rfl
  | taken c h =>
    rcases h with h | h
    · rw [h] at hplain
      exact hplain.elim
    · rw [h] at hplain
      exact hplain.elim
  | missing c h =>
    rw [h] at hplain
    exact hplain.elim
  | chosen c h =>
    rw [h] at hplain
    exact hplain.elim
  | panicked c h => trivial
  | failed c e h => trivial
  | image c png fs' h =>
    rw [h] at hplain
    exact hplain
  | bare c result h => trivial
  | pair c result text fs' h => trivial

theorem sendBundle_ends (env : SessionEnv) (s : SessionState) :
    (sendBundle env s).status ≠ .running ∧
      captures (sendBundle env s).trace = captures s.trace := by
  unfold sendBundle
  cases buildBatch env.tools.flate closingPackets s.compressionEnabled with
  | none => exact ⟨Status.noConfusion, rfl⟩
  | some bundle => exact ⟨Status.noConfusion, by simp [SessionState.record, captures]⟩

theorem carriedLogin_parsed {pkt : Bytes} (h : carriedLogin env pkt = some parsed) :
    ∃ data, parseLoginPacket env.engines data = some (.ok (some parsed)) := by
  unfold carriedLogin at h
  cases pkt with
  | nil => cases h
  | cons first rest =>
    dsimp only at h
    split_ifs at h
    obtain ⟨found, hparse⟩ := parseLoginPacket_ok env.engines
      (readPacketId first (first :: rest)).2.readRemaining.1
    rw [hparse] at h
    obtain rfl : found = some parsed := h
    exact ⟨_, hparse⟩

theorem untilLogin_parsed (packets : List Bytes) (h : (untilLogin env s packets).2 = some parsed) :
    ∃ data, parseLoginPacket env.engines data = some (.ok (some parsed)) := by
  induction packets generalizing s with
  | nil => cases h
  | cons pkt packets ih =>
    unfold untilLogin at h
    cases hlogin : carriedLogin env pkt with
    | some found =>
      rw [hlogin] at h
      obtain rfl : found = parsed := Option.some.inj h
      exact carriedLogin_parsed hlogin
    | none =>
      rw [hlogin] at h
      dsimp only at h
      split_ifs at h
      exact ih h

namespace Fleet

theorem setTask_self (f : Fleet) (i : ℕ) (task : Task) : (f.setTask i task).tasks i = task :=
  Function.update_self _ _ _

theorem beginSave_call (env : SessionEnv) (skins : SharedSkins) (i : ℕ) (capture : LoginCapture) :
    (beginSave env skins i capture).calls i =
      ⟨capture, if env.savemode = 0 then .returned (some (.ok none)) else .start⟩ :=
  Function.update_self _ _ _

theorem beginCapture_standing (hcaptures : captures s.trace = []) (hstatus : s.status = .running)
    (hparsed : ∃ data, parseLoginPacket env.engines data = some (.ok (some parsed))) :
    Standing env ((f.beginCapture env i s parsed).skins.calls i)
      ((f.beginCapture env i s parsed).tasks i) [] := by
  have hcapture : captures (s.record [.capture parsed]).trace = [parsed] := by
    rw [SessionState.record, captures_append, hcaptures]
    rfl
  unfold beginCapture
  dsimp only
  cases hskin : ExtractedSkin.new parsed.skinWidth parsed.skinHeight parsed.skinData with
  | error e =>
    dsimp only
    rw [setTask_self]
    obtain ⟨hends, hsame⟩ :=
      sendBundle_ends env ((s.record [.capture parsed]).record [.rejected e])
    refine .after parsed rfl hends (hsame.trans ?_) (.inl rfl)
    rw [SessionState.record, captures_append, hcapture]
    rfl
  | ok skin =>
    dsimp only
    rw [setTask_self]
    have hcall : ({ f with skins := beginSave env f.skins i (captureOf parsed skin) }.setTask i
        ⟨s.record [.capture parsed], true⟩).skins.calls i = _ := beginSave_call env f.skins i _
    rw [hcall]
    refine .underway parsed skin rfl hstatus hcapture ⟨hparsed, hskin⟩ rfl (fun _ => ?_) ?_
    · split_ifs <;> trivial
    unfold PhaseFiles
    by_cases hmode : env.savemode = 0
    · rw [if_pos hmode]
      exact captureWritten_nothing env _
    · rw [if_neg hmode]

/-- What is received changes nothing, or the memory of the session alone, or it brings the first
login. -/
inductive Reception (env : SessionEnv) (f : Fleet) (i : ℕ) : Fleet → Prop
  | ignored : Reception env f i f
  | handled (s : SessionState) (hidle : (f.tasks i).saving = false)
      (hrun : (f.tasks i).memory.status = .running)
      (hcaptures : captures s.trace = captures (f.tasks i).memory.trace) :
      Reception env f i (f.setTask i ⟨s, false⟩)
  | login (s : SessionState) (parsed : ParsedLoginPacket) (hidle : (f.tasks i).saving = false)
      (hrun : (f.tasks i).memory.status = .running) (hunsaved : Unsaved (f.tasks i).memory s)
      (hparsed : ∃ data, parseLoginPacket env.engines data = some (.ok (some parsed))) :
      Reception env f i (f.beginCapture env i s parsed)

theorem receive_reception (env : SessionEnv) (f : Fleet) (i : ℕ) (channel : Channel)
    (received : Received) : Reception env f i (f.receive env i channel received) := by
  unfold receive
  dsimp only
  by_cases hdone : (f.tasks i).saving ∨ (f.tasks i).memory.status ≠ .running ∨
      (f.tasks i).memory.isOpen channel = false
  · rw [if_pos hdone]
    exact .ignored
  rw [if_neg hdone]
  push Not at hdone
  obtain ⟨hsaving, hrun, hopen⟩ := hdone
  have hidle : (f.tasks i).saving = false := by simpa using hsaving
  have hguard : ¬ ((f.tasks i).memory.status ≠ .running ∨
      (f.tasks i).memory.isOpen channel = false) := by simp [hrun, hopen]
  cases received with
  | failed message =>
    refine .handled _ hidle hrun ?_
    unfold NetherSession.step
    rw [if_neg hguard]
  | closed =>
    refine .handled _ hidle hrun ?_
    unfold NetherSession.step
    rw [if_neg hguard]
    dsimp only
    split_ifs
    · cases channel <;> rfl
    · cases channel <;> rfl
  | data bytes =>
    dsimp only
    cases openMessage env.tools.flate (f.tasks i).memory.compressionEnabled bytes with
    | none => exact .ignored
    | some packets =>
      dsimp only
      unfold handlePackets
      have hunsaved := untilLogin_unsaved env (f.tasks i).memory packets
      cases hfound : untilLogin env (f.tasks i).memory packets with
      | mk s found =>
        rw [hfound] at hunsaved
        cases found with
        | none => exact .handled s hidle hrun hunsaved.captures
        | some parsed =>
          exact .login s parsed hidle hrun hunsaved
            (untilLogin_parsed packets (congrArg Prod.snd hfound))

theorem receive_standing (channel : Channel) (received : Received)
    (h : Standing env (f.skins.calls i) (f.tasks i) files) :
    Standing env ((f.receive env i channel received).skins.calls i)
      ((f.receive env i channel received).tasks i) files := by
  have hreception := receive_reception env f i channel received
  generalize f.receive env i channel received = f' at hreception
  cases hreception with
  | ignored => exact h
  | handled s hidle hrun hcaptures =>
    rw [setTask_self]
    cases h with
    | before hsaving hnone hfiles => exact .before rfl (hcaptures.trans hnone) hfiles
    | underway parsed skin hsaving => exact absurd hsaving (by simp [hidle])
    | after parsed hsaving hstatus => exact absurd hrun hstatus
  | login s parsed hidle hrun hunsaved hparsed =>
    cases h with
    | before hsaving hnone hfiles =>
      subst hfiles
      exact beginCapture_standing (hunsaved.captures.trans hnone) (hunsaved.status.trans hrun)
        hparsed
    | underway parsed skin hsaving => exact absurd hsaving (by simp [hidle])
    | after parsed hsaving hstatus => exact absurd hrun hstatus

theorem skipSearch_reaches {call : SaveCall} {phase : SavePhase} {fs : FileSystem}
    (h : Reaches skins i call phase fs) (savemode : ℕ) :
    Reaches (skipSearch savemode skins i) i call
      (if savemode = 1 ∧ phase = .png none then .image none else phase) fs := by
  have hphase : (skins.calls i).phase = phase := congrArg SaveCall.phase h.call
  unfold skipSearch
  rw [hphase]
  split_ifs with hskip
  · have hmoved := reaches_moveTo skins i (.image none)
    exact ⟨hmoved.call.trans (by rw [h.call]), hmoved.fs.trans h.fs⟩
  · exact h

theorem proceed_standing (he : env.engines.Shrink) (htools : env.tools.Standard)
    (h : Standing env (f.skins.calls i) (f.tasks i) files) :
    ∃ new, Adds f.skins.fs (f.proceed env i).skins.fs new ∧
      Standing env ((f.proceed env i).skins.calls i) ((f.proceed env i).tasks i)
        (files ++ new) := by
  have hstay : (f.tasks i).saving = false → ∃ new, Adds f.skins.fs (f.proceed env i).skins.fs new ∧
      Standing env ((f.proceed env i).skins.calls i) ((f.proceed env i).tasks i)
        (files ++ new) := by
    intro hsaving
    unfold proceed
    rw [if_neg (by simp [hsaving])]
    exact ⟨[], .refl _, (List.append_nil files).symm ▸ h⟩
  cases h with
  | before hsaving hcaptures hfiles => exact hstay hsaving
  | after parsed hsaving hstatus hcaptures hfiles => exact hstay hsaving
  | underway parsed skin hsaving hstatus hcaptures hskin hcapture hplain hphase =>
    obtain ⟨phase, fs, hstep, hreaches⟩ := step_callStep env.tools env.baseDir f.skins i
    obtain ⟨new, hadds, hfiles⟩ := hstep.writes he htools hskin hcapture hplain hphase
    have hskip := skipSearch_reaches hreaches env.savemode
    have hgoes : ∃ new, Adds f.skins.fs
        (skipSearch env.savemode (f.skins.step env.tools env.baseDir i) i).fs new ∧
        Standing env ((skipSearch env.savemode (f.skins.step env.tools env.baseDir i) i).calls i)
          (f.tasks i) (files ++ new) := by
      refine ⟨new, hskip.fs.symm ▸ hadds, ?_⟩
      rw [hskip.call]
      refine .underway parsed skin hsaving hstatus hcaptures hskin hcapture (fun hone => ?_) ?_
      · dsimp only
        simp only [hone, true_and]
        exact hstep.unsearched (hplain hone)
      split_ifs with hmode
      · rw [hmode.2] at hfiles
        exact hfiles
      · exact hfiles
    unfold proceed
    rw [if_pos hsaving]
    cases hreturned : (f.skins.calls i).phase with
    | returned result =>
      unfold PhaseFiles at hphase
      rw [hreturned] at hphase
      cases result with
      | none => exact hphase.elim
      | some result =>
        refine ⟨[], .refl _, ?_⟩
        dsimp only
        rw [setTask_self, List.append_nil]
        obtain ⟨hends, hsame⟩ := sendBundle_ends env ((f.tasks i).memory.record [.saved result])
        refine .after parsed rfl hends ?_ (.inr ⟨skin, hskin, hcapture ▸ hphase⟩)
        unfold finishSave
        rw [hsame, SessionState.record, captures_append, hcaptures]
        rfl
    | start => exact hgoes
    | png c => exact hgoes
    | json c => exact hgoes
    | image c => exact hgoes
    | sidecar c => exact hgoes

/-- Nothing of the session `j` changes. -/
structure LeavesAlone (j : ℕ) (f f' : Fleet) : Prop where
  task : f'.tasks j = f.tasks j
  call : f'.skins.calls j = f.skins.calls j

theorem leavesAlone_setTask (h : j ≠ i) (f : Fleet) (task : Task) :
    LeavesAlone j f (f.setTask i task) := ⟨Function.update_of_ne h _ _, rfl⟩

theorem receive_others (env : SessionEnv) (h : j ≠ i) (f : Fleet) (channel : Channel)
    (received : Received) : LeavesAlone j f (f.receive env i channel received) := by
  have hreception := receive_reception env f i channel received
  generalize f.receive env i channel received = f' at hreception
  cases hreception with
  | ignored => exact ⟨rfl, rfl⟩
  | handled s => exact leavesAlone_setTask h f _
  | login s parsed =>
    unfold beginCapture
    dsimp only
    cases ExtractedSkin.new parsed.skinWidth parsed.skinHeight parsed.skinData with
    | error e => exact leavesAlone_setTask h f _
    | ok skin => exact ⟨Function.update_of_ne h _ _, Function.update_of_ne h _ _⟩

theorem skipSearch_others (savemode : ℕ) (skins : SharedSkins) (h : j ≠ i) :
    (skipSearch savemode skins i).calls j = skins.calls j := by
  unfold skipSearch
  split_ifs
  · exact Function.update_of_ne h _ _
  · rfl

theorem proceed_others (env : SessionEnv) (h : j ≠ i) (f : Fleet) :
    LeavesAlone j f (f.proceed env i) := by
  have hgoes : (skipSearch env.savemode (f.skins.step env.tools env.baseDir i) i).calls j =
      f.skins.calls j :=
    (skipSearch_others _ _ h).trans (SharedSkins.step_calls_other _ _ _ h)
  unfold proceed
  split_ifs
  · cases (f.skins.calls i).phase with
    | returned result => exact leavesAlone_setTask h f _
    | start => exact ⟨rfl, hgoes⟩
    | png c => exact ⟨rfl, hgoes⟩
    | json c => exact ⟨rfl, hgoes⟩
    | image c => exact ⟨rfl, hgoes⟩
    | sidecar c => exact ⟨rfl, hgoes⟩
  · exact ⟨rfl, rfl⟩

theorem receive_fs (env : SessionEnv) (f : Fleet) (i : ℕ) (channel : Channel)
    (received : Received) : (f.receive env i channel received).skins.fs = f.skins.fs := by
  have hreception := receive_reception env f i channel received
  generalize f.receive env i channel received = f' at hreception
  cases hreception with
  | ignored => rfl
  | handled s => rfl
  | login s parsed =>
    unfold beginCapture
    dsimp only
    cases ExtractedSkin.new parsed.skinWidth parsed.skinHeight parsed.skinData with
    | error e => rfl
    | ok skin => rfl

/-- The files that a session has written. -/
def worksOf (i : ℕ) (works : List (ℕ × Str × Bytes)) : List (Str × Bytes) :=
  (works.filter fun work => work.1 = i).map Prod.snd

theorem worksOf_append (i j : ℕ) (works : List (ℕ × Str × Bytes)) (new : List (Str × Bytes)) :
    worksOf j (works ++ new.map (i, ·)) =
      if i = j then worksOf j works ++ new else worksOf j works := by
  unfold worksOf
  rw [List.filter_append, List.map_append, List.filter_map]
  split_ifs with h
  · simp [Function.comp_def, h]
  · simp [Function.comp_def, h]

/-- The files beyond those that there were, by the session that wrote them. -/
structure Attributed (env : SessionEnv) (fs : FileSystem) (f : Fleet)
    (works : List (ℕ × Str × Bytes)) : Prop where
  adds : Adds fs f.skins.fs (works.map Prod.snd)
  standing : ∀ i, Standing env (f.skins.calls i) (f.tasks i) (worksOf i works)

theorem Attributed.step {fs : FileSystem} {works : List (ℕ × Str × Bytes)}
    (he : env.engines.Shrink) (htools : env.tools.Standard) (h : Attributed env fs f works)
    (event : FleetEvent) : ∃ works', Attributed env fs (f.step env event) works' := by
  cases event with
  | receive i channel received =>
    refine ⟨works, ?_, fun j => ?_⟩
    · have hfs : (f.step env (.receive i channel received)).skins.fs = f.skins.fs :=
        receive_fs env f i channel received
      exact hfs.symm ▸ h.adds
    · by_cases hj : j = i
      · subst hj
        exact receive_standing channel received (h.standing j)
      · have hothers := receive_others env hj f channel received
        show Standing env ((f.receive env i channel received).skins.calls j)
          ((f.receive env i channel received).tasks j) (worksOf j works)
        rw [hothers.call, hothers.task]
        exact h.standing j
  | proceed i =>
    obtain ⟨new, hadds, hstanding⟩ := proceed_standing he htools (h.standing i)
    refine ⟨works ++ new.map (i, ·), ?_, fun j => ?_⟩
    · have hnew : (works ++ new.map (i, ·)).map Prod.snd = works.map Prod.snd ++ new := by
        simp [Function.comp_def]
      rw [hnew]
      exact h.adds.trans hadds
    · rw [worksOf_append]
      by_cases hj : j = i
      · subst hj
        rw [if_pos rfl]
        exact hstanding
      · have hothers := proceed_others env hj f
        rw [if_neg (Ne.symm hj)]
        show Standing env ((f.proceed env i).skins.calls j) ((f.proceed env i).tasks j)
          (worksOf j works)
        rw [hothers.call, hothers.task]
        exact h.standing j

theorem run_snoc (env : SessionEnv) (f : Fleet) (events : List FleetEvent) (event : FleetEvent) :
    run env f (events ++ [event]) = (run env f events).step env event := by
  unfold run
  rw [List.foldl_append]
  rfl

theorem run_attributed (he : env.engines.Shrink) (htools : env.tools.Standard) (fs : FileSystem)
    (events : List FleetEvent) :
    ∃ works, Attributed env fs (run env (start fs) events) works := by
  induction events using List.reverseRecOn with
  | nil => exact ⟨[], .refl fs, fun i => .before rfl rfl rfl⟩
  | append_singleton events event ih =>
    obtain ⟨works, hworks⟩ := ih
    rw [run_snoc]
    exact hworks.step he htools event

/-- However many sessions are served at the same time, and in whatever order they take their steps,
every file that is written belongs to a session whose login has been parsed, and is the image of the
player's skin or its sidecar, under a name of that player. A session leaves one capture at most. -/
theorem fleet_files (env : SessionEnv) (fs : FileSystem) (events : List FleetEvent)
    (he : env.engines.Shrink) (htools : env.tools.Standard) :
    ∃ works : List (ℕ × Str × Bytes),
      (run env (start fs) events).skins.fs.written = fs.written ++ works.map Prod.snd ∧
      ∀ i, worksOf i works = [] ∨ ∃ parsed skin,
        captures ((run env (start fs) events).tasks i).memory.trace = [parsed] ∧
        ParsedSkin env.engines parsed skin ∧
        CaptureWritten env (captureOf parsed skin) (worksOf i works) := by
  obtain ⟨works, hworks⟩ := run_attributed he htools fs events
  refine ⟨works, hworks.adds.written, fun i => ?_⟩
  cases hworks.standing i with
  | before hsaving hcaptures hfiles => exact .inl hfiles
  | underway parsed skin hsaving hstatus hcaptures hskin hcapture hplain hphase =>
    have hfiles := hphase.captureWritten hplain
    rw [hcapture] at hfiles
    exact hfiles.imp_right fun hfiles => ⟨parsed, skin, hcaptures, hskin, hfiles⟩
  | after parsed hsaving hstatus hcaptures hfiles =>
    refine hfiles.imp_right fun hfiles => ?_
    obtain ⟨skin, hskin, hfiles⟩ := hfiles
    exact ⟨parsed, skin, hcaptures, hskin, hfiles⟩

/-- Two sessions receive the same login, and the second one begins to save it first. -/
def bothLogins : List FleetEvent :=
  [.receive 0 .reliable (.data strangerMessage), .receive 1 .reliable (.data whiteMessage),
    .proceed 1, .receive 0 .unreliable (.data whiteMessage)]

/-- They take their steps in turns, and both find the plain name free. -/
def inTurns (rounds : ℕ) : List FleetEvent :=
  (List.replicate rounds [FleetEvent.proceed 0, .proceed 1]).flatten

theorem fleet_files_inTurns :
    let f := run whiteEnv (start .empty) (bothLogins ++ inTurns 6)
    (∃ works : List (ℕ × Str × Bytes),
      f.skins.fs.written = FileSystem.empty.written ++ works.map Prod.snd ∧
      ∀ i, worksOf i works = [] ∨ ∃ parsed skin, captures (f.tasks i).memory.trace = [parsed] ∧
        ParsedSkin whiteEnv.engines parsed skin ∧
        CaptureWritten whiteEnv (captureOf parsed skin) (worksOf i works)) ∧
      f.skins.log.map Prod.fst = [1, 0, 1, 0] :=
  ⟨fleet_files whiteEnv .empty (bothLogins ++ inTurns 6) strictEngines_shrink
    sampleTools_standard, by decide +kernel⟩

end Fleet

end SkinGetBE.NetherSession
