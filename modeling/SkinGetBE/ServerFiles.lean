import SkinGetBE.ServerRuns

/-!
# The files of the server

Every file that a run of the server writes belongs to the capture of a login. While
captures are numbered, each file holds the skin that was saved in it from then on,
and the server is only stuck in a directory of 2 ^ 32 files.
-/
namespace SkinGetBE.RakNet
open Octets Text Tables Relation

/-- The files are as before, and whether the server is stuck. -/
structure SameFiles (s s' : ServerState) : Prop where
  fs : s'.fs = s.fs
  stuck : s'.stuck = s.stuck

/-- An effect leaves the files alone, saves a capture, or does not return from saving one. -/
inductive Filing (env : ServerEnv) (s : ServerState) : ServerState → Prop
  | kept {s' : ServerState} (h : SameFiles s s') : Filing env s s'
  | saved (parsed : ParsedLoginPacket) (skin : ExtractedSkin)
      (result : Except Error (Option Str)) (fs : FileSystem)
      (hskin : ParsedSkin env.engines parsed skin)
      (hsave : saveLoginCapture env.tools s.fs env.baseDir (captureOf parsed skin)
        env.config.savemode = some (result, fs)) : Filing env s { s with fs := fs }
  | halted (parsed : ParsedLoginPacket) (skin : ExtractedSkin)
      (hskin : ParsedSkin env.engines parsed skin)
      (hsave : saveLoginCapture env.tools s.fs env.baseDir (captureOf parsed skin)
        env.config.savemode = none) : Filing env s { s with stuck := true }

variable {env : ServerEnv} {parse : Str → Option SocketAddr} {addr : SocketAddr}
  {datagram : Bytes} {s s' : ServerState} {x y : Serving}

theorem SameFiles.refl (s : ServerState) : SameFiles s s := ⟨rfl, rfl⟩

theorem sameFiles_transmit (env : ServerEnv) (s : ServerState) (addr : SocketAddr)
    (reliability : ℕ) (flags : UInt8) (body : Bytes) :
    SameFiles s (transmit env s addr reliability flags body).2 := by
  unfold transmit rememberReliable
  dsimp only
  by_cases h : hasReliable reliability
  · rw [if_pos h]
    exact ⟨rfl, rfl⟩
  · rw [if_neg h]
    exact ⟨rfl, rfl⟩

theorem sameFiles_storeFragment (env : ServerEnv) (s : ServerState) (addr : SocketAddr) (sid : ℕ)
    (entry : SplitBuffer) (idx : ℕ) (payload : Bytes) :
    SameFiles s (storeFragment env s addr sid entry idx payload).1 := by
  unfold storeFragment
  by_cases h : entry.received[idx]? = some false
  · rw [dif_pos h]
    dsimp only
    split_ifs
    · exact ⟨rfl, rfl⟩
    · exact ⟨rfl, rfl⟩
  · rw [dif_neg h]
    exact ⟨rfl, rfl⟩

theorem sameFiles_receiveFrame (env : ServerEnv) (s : ServerState) (addr : SocketAddr)
    (frame : RakNetFrame) : SameFiles s (receiveFrame env s addr frame).1 := by
  unfold receiveFrame
  dsimp only
  by_cases hsplit : frame.isSplit
  · rw [if_pos hsplit]
    unfold receiveSplit
    cases frame.splitId with
    | none => exact ⟨rfl, rfl⟩
    | some sid =>
      dsimp only
      split_ifs
      · exact ⟨rfl, rfl⟩
      · exact ⟨rfl, rfl⟩
      · have hstored := sameFiles_storeFragment env (s.ensureSession addr true 0).advance addr sid
          (getOr (addr.display, sid) (.new (frame.splitCount.getD 0)
            (env.instant (s.ensureSession addr true 0).tick) frame)
            (s.ensureSession addr true 0).splitBuffers) (frame.splitIndex.getD 0) frame.payload
        exact ⟨hstored.fs, hstored.stuck⟩
  · rw [if_neg hsplit]
    exact ⟨rfl, rfl⟩

theorem Effect.filing (h : Effect env addr datagram s s') : Filing env s s' := by
  cases h with
  | transmit reliability flags body =>
    exact .kept (sameFiles_transmit env s addr reliability flags body)
  | receive frame _ => exact .kept (sameFiles_receiveFrame env s addr frame)
  | save parsed skin result fs hskin hsave => exact .saved parsed skin result fs hskin hsave
  | halt parsed skin hskin hsave => exact .halted parsed skin hskin hsave
  | _ => exact .kept ⟨rfl, rfl⟩

theorem sameFiles_sendAll (env : ServerEnv) (s : ServerState)
    (frames : List (SocketAddr × Bytes)) : SameFiles s (s.sendAll env frames) := by
  induction frames generalizing s with
  | nil => exact .refl s
  | cons frame frames ih => exact ⟨(ih _).fs, (ih _).stuck⟩

theorem Turn.filing (h : Turn env parse x y) : Filing env x.state y.state := by
  cases h with
  | hear addr datagram => exact .kept (.refl x.state)
  | effect addr datagram s hheard heffect => exact heffect.filing
  | acknowledge addr datagram frameset hheard hparse => exact .kept ⟨rfl, rfl⟩
  | worker =>
    unfold resendRound
    dsimp only
    have hsent := sameFiles_sendAll env
    exact .kept ⟨(hsent _ _).fs, (hsent _ _).stuck⟩

theorem Filing.savedCaptures (h : Filing env s s') (he : env.engines.Shrink)
    (htools : env.tools.Standard) {fs₀ : FileSystem} {saves : List (List (Str × Bytes))}
    (hs : SavedCaptures env.engines env.tools env.baseDir env.config.savemode fs₀ s.fs saves) :
    ∃ saves', SavedCaptures env.engines env.tools env.baseDir env.config.savemode fs₀ s'.fs
      saves' := by
  cases h with
  | kept h => exact ⟨saves, h.fs ▸ hs⟩
  | saved parsed skin result fs hskin hsave => exact hs.save hskin he htools hsave
  | halted parsed skin hskin hsave => exact ⟨saves, hs⟩

theorem turns_savedCaptures (he : env.engines.Shrink) (htools : env.tools.Standard)
    {fs : FileSystem} (h : Turns env parse ⟨[], .new env.config fs⟩ x) : ∃ saves,
      SavedCaptures env.engines env.tools env.baseDir env.config.savemode fs x.state.fs saves := by
  induction h with
  | refl => exact ⟨[], .refl _ _ _ _ fs⟩
  | tail _ hturn ih =>
    obtain ⟨saves, hsaves⟩ := ih
    exact hturn.filing.savedCaptures he htools hsaves

/-- All files of a run of the server are those of captures: an image that is read back as the skin
of a login, and its sidecar unless that is refused. While captures are numbered, none takes the
place of a file, and each is found as it was written from then on. -/
theorem serving_files (env : ServerEnv) (parse : Str → Option SocketAddr) (fs : FileSystem)
    (x : Serving) (he : env.engines.Shrink) (htools : env.tools.Standard)
    (h : Turns env parse ⟨[], .new env.config fs⟩ x) : ∃ saves : List (List (Str × Bytes)),
      x.state.fs.written = fs.written ++ saves.flatten ∧
      (∀ files ∈ saves, ∃ parsed skin, ParsedSkin env.engines parsed skin ∧
        SavedCapture env.tools fs (skinsDirOf env.baseDir) (captureOf parsed skin) files) ∧
      (env.config.savemode = 0 → saves = []) ∧
      (env.config.savemode ≠ 0 → env.config.savemode ≠ 1 → ∀ e ∈ saves.flatten,
        fs.pathExists e.1 = false ∧ x.state.fs.lastWritten e.1 = some e.2) := by
  obtain ⟨saves, hsaves⟩ := turns_savedCaptures he htools h
  refine ⟨saves, hsaves.adds.written, hsaves.captured, hsaves.off, ?_⟩
  intro hmode hone e hmem
  exact ⟨(hsaves.apart hmode hone).2 e hmem, hsaves.lasts hmode hone hmem⟩

def pixelServer : ServerEnv :=
  { ServerEnv.quiet 1492 with
    tools := sampleTools
    baseDir := ".".toList }

/-- A frame set with a batch of one login. -/
def loginDatagram : Bytes :=
  let batch := (writePackets [0x01 :: NetherSession.onePixelLogin]).data
  [0x84, 0, 0, 0, 0] ++ (beBytes 2 (8 * (batch.length + 1)) ++ (0xfe :: batch))

def openAndLogin : List ServerEvent :=
  [.datagram loopback (0x05 :: (magic ++ [11])), .datagram loopback loginDatagram]

/-- The server of one pixel after a login. -/
def loggedInServing : Serving :=
  ⟨(incoming openAndLogin).reverse ++ [], runServer pixelServer (fun _ => none)
    (.new pixelServer.config .empty) openAndLogin⟩

theorem loggedIn_turns : Turns pixelServer (fun _ => none)
    ⟨[], .new pixelServer.config .empty⟩ loggedInServing :=
  runServer_turns pixelServer (fun _ => none) [] (.new pixelServer.config .empty) openAndLogin

theorem serving_files_login :
    (∃ saves : List (List (Str × Bytes)),
      loggedInServing.state.fs.written = FileSystem.empty.written ++ saves.flatten ∧
      (∀ files ∈ saves, ∃ parsed skin, ParsedSkin strictEngines parsed skin ∧
        SavedCapture sampleTools .empty (skinsDirOf ".".toList) (captureOf parsed skin) files) ∧
      ((2 : ℕ) = 0 → saves = []) ∧
      ((2 : ℕ) ≠ 0 → (2 : ℕ) ≠ 1 → ∀ e ∈ saves.flatten,
        FileSystem.empty.pathExists e.1 = false ∧
          loggedInServing.state.fs.lastWritten e.1 = some e.2)) ∧
      (loggedInServing.state.fs.lastWritten "./skins/UnknownPlayer_a.png".toList).map Png.read =
        some (some ⟨1, 1, [1, 2, 3, 4]⟩) :=
  ⟨serving_files pixelServer (fun _ => none) .empty loggedInServing strictEngines_shrink
    sampleTools_standard loggedIn_turns, by decide +kernel⟩

/-- The server is not stuck, unless there are too many files. -/
def Unstuck (s : ServerState) : Prop :=
  ∀ paths : Finset Str, (∀ path, s.fs.pathExists path = true → path ∈ paths) →
    paths.card < 2 ^ 32 → s.stuck = false

theorem Filing.unstuck (h : Filing env s s') (he : env.engines.Shrink) (hs : Unstuck s) :
    Unstuck s' := by
  intro paths hpaths hfew
  cases h with
  | kept h =>
    rw [h.stuck]
    exact hs paths (h.fs ▸ hpaths) hfew
  | saved parsed skin result fs hskin hsave =>
    obtain ⟨files, hadds⟩ := saveLoginCapture_adds hsave
    exact hs paths (fun path hpath => hpaths path ((hadds.pathExists path).mpr (.inl hpath))) hfew
  | halted parsed skin hskin hsave =>
    exact absurd hsave (hskin.saves he hpaths hfew env.tools env.baseDir env.config.savemode)

theorem Turns.unstuck (h : Turns env parse x y) (he : env.engines.Shrink) (hx : Unstuck x.state) :
    Unstuck y.state := by
  induction h with
  | refl => exact hx
  | tail _ hturn ih => exact hturn.filing.unstuck he ih

theorem turns_unstuck (he : env.engines.Shrink) {fs : FileSystem}
    (h : Turns env parse ⟨[], .new env.config fs⟩ x) : Unstuck x.state :=
  Turns.unstuck h he fun _ _ _ => rfl

/-- Whatever peers send, the server goes on handling datagrams as long as there are fewer than
`2 ^ 32` files. -/
theorem serving_unstuck (env : ServerEnv) (parse : Str → Option SocketAddr) (fs : FileSystem)
    (x : Serving) (he : env.engines.Shrink) (h : Turns env parse ⟨[], .new env.config fs⟩ x)
    (paths : Finset Str) (hpaths : ∀ path, x.state.fs.pathExists path = true → path ∈ paths)
    (hfew : paths.card < 2 ^ 32) : x.state.stuck = false :=
  turns_unstuck he h paths hpaths hfew

theorem loggedIn_paths (path : Str) (h : loggedInServing.state.fs.pathExists path = true) :
    path ∈ ["./skins/UnknownPlayer_a.png".toList,
      "./skins/UnknownPlayer_a.json".toList].toFinset := by
  have hwritten : loggedInServing.state.fs.written.map Prod.fst =
      ["./skins/UnknownPlayer_a.png".toList, "./skins/UnknownPlayer_a.json".toList] := by
    decide +kernel
  obtain ⟨saves, hsaves⟩ := turns_savedCaptures strictEngines_shrink sampleTools_standard
    loggedIn_turns
  exact List.mem_toFinset.mpr (hwritten ▸ hsaves.adds.listed h)

theorem serving_unstuck_login : loggedInServing.state.stuck = false :=
  serving_unstuck pixelServer (fun _ => none) .empty loggedInServing strictEngines_shrink
    loggedIn_turns _ loggedIn_paths (by decide)

end SkinGetBE.RakNet
