import SkinGetBE.CaptureFiles
import Mathlib.Logic.Function.Basic

/-!
# Numbered captures that are saved at the same time

Every session runs on its own, so the steps of several calls that save a capture
come in any order. A step is one question or one write to the file system. A call
that is left alone does what the function does in one piece.
-/
namespace SkinGetBE
open Octets Text

/-- Where a call stands. The candidate is the number that is tried, none for the plain name:
`png` and `json` are about to look for a file, `image` and `sidecar` to write one. The result is
`none` when the call does not return. -/
inductive SavePhase
  | start
  | png (candidate : Option ℕ)
  | json (candidate : Option ℕ)
  | image (candidate : Option ℕ)
  | sidecar (candidate : Option ℕ)
  | returned (result : Option (Except Error (Option Str)))
  deriving DecidableEq

structure SaveCall where
  capture : LoginCapture
  phase : SavePhase

def SaveCall.baseName (call : SaveCall) : Str :=
  captureBaseName call.capture.playerName call.capture.skinId

def SaveCall.stem (call : SaveCall) : Option ℕ → Str
  | none => call.baseName
  | some count => numberedStem call.baseName count

/-- The counter stays at its last value. -/
def followingCandidate : Option ℕ → Option ℕ
  | none => some 1
  | some count => some (min (count + 1) u32Max)

/-- The calls share one directory. The log says which call wrote which path, oldest first. -/
structure SharedSkins where
  fs : FileSystem
  calls : ℕ → SaveCall
  log : List (ℕ × Str)

namespace SharedSkins

def moveTo (s : SharedSkins) (i : ℕ) (phase : SavePhase) : SharedSkins :=
  { s with calls := Function.update s.calls i { s.calls i with phase := phase } }

def wrote (s : SharedSkins) (i : ℕ) (path : Str) (fs : FileSystem) : SharedSkins :=
  { s with
    fs := fs
    log := s.log ++ [(i, path)] }

/-- One step of the call `i` on the file system. -/
def step (tools : CaptureTools) (baseDir : Str) (s : SharedSkins) (i : ℕ) : SharedSkins :=
  let call := s.calls i
  let skinsDir := skinsDirOf baseDir
  match call.phase with
  | .start =>
    match s.fs.createDirAll skinsDir with
    | .error e => s.moveTo i (.returned (some (.error e)))
    | .ok () => s.moveTo i (.png none)
  | .png c =>
    if s.fs.pathExists (pngPath skinsDir (call.stem c)) then
      s.moveTo i (.png (followingCandidate c))
    else s.moveTo i (.json c)
  | .json c =>
    if s.fs.pathExists (jsonPath skinsDir (call.stem c)) then
      s.moveTo i (.png (followingCandidate c))
    else s.moveTo i (.image c)
  | .image c =>
    match encodePngRgba tools call.capture.skin.data call.capture.skin.width
        call.capture.skin.height with
    | none => s.moveTo i (.returned none)
    | some (.error e) => s.moveTo i (.returned (some (.error e)))
    | some (.ok pngBytes) =>
      match s.fs.write (pngPath skinsDir (call.stem c)) pngBytes with
      | .error e => s.moveTo i (.returned (some (.error e)))
      | .ok fs => (s.wrote i (pngPath skinsDir (call.stem c)) fs).moveTo i (.sidecar c)
  | .sidecar c =>
    let result := some (.ok (some (pngPath skinsDir (call.stem c))))
    match tools.toVecPretty ⟨call.capture.playerName, call.capture.skinId,
        call.capture.skin.width, call.capture.skin.height, call.capture.metadata⟩ with
    | .error e => s.moveTo i (.returned (some (.error (.jsonError e))))
    | .ok text =>
      match s.fs.write (jsonPath skinsDir (call.stem c)) text with
      | .error _ => s.moveTo i (.returned result)
      | .ok fs => (s.wrote i (jsonPath skinsDir (call.stem c)) fs).moveTo i (.returned result)
  | .returned _ => s

/-- The steps of the calls in the order of the schedule. -/
def run (tools : CaptureTools) (baseDir : Str) (s : SharedSkins) (schedule : List ℕ) :
    SharedSkins := schedule.foldl (step tools baseDir) s

/-- A directory before any of the calls, one for each capture. -/
def begin (fs : FileSystem) (captures : ℕ → LoginCapture) : SharedSkins :=
  ⟨fs, fun i => ⟨captures i, .start⟩, []⟩

/-- The call stands at a phase with the stem `t`. -/
def At (s : SharedSkins) (i : ℕ) (phase : Option ℕ → SavePhase) (t : Str) : Prop :=
  ∃ c, (s.calls i).phase = phase c ∧ (s.calls i).stem c = t

variable {tools : CaptureTools} {baseDir : Str} {s : SharedSkins} {i j : ℕ} {t u : Str}

/-- A phase in which nothing is known about a stem. -/
def Idle : SavePhase → Prop
  | .png _ => True
  | .returned (some (.ok (some _))) => False
  | .returned _ => True
  | _ => False

/-- A step of the call `i`: it goes on without a stem, finds a file missing, or writes. -/
inductive Moves (baseDir : Str) (s : SharedSkins) (i : ℕ) : SharedSkins → Prop
  | stay : Moves baseDir s i s
  | leave (phase : SavePhase) (h : Idle phase) : Moves baseDir s i (s.moveTo i phase)
  | look (c : Option ℕ) (hphase : (s.calls i).phase = .png c)
      (hmissing : s.fs.pathExists (pngPath (skinsDirOf baseDir) ((s.calls i).stem c)) = false) :
      Moves baseDir s i (s.moveTo i (.json c))
  | choose (c : Option ℕ) (hphase : (s.calls i).phase = .json c)
      (hmissing : s.fs.pathExists (jsonPath (skinsDirOf baseDir) ((s.calls i).stem c)) = false) :
      Moves baseDir s i (s.moveTo i (.image c))
  | writeImage (c : Option ℕ) (hphase : (s.calls i).phase = .image c) (fs : FileSystem)
      (contents : Bytes)
      (hwrite : s.fs.write (pngPath (skinsDirOf baseDir) ((s.calls i).stem c)) contents = .ok fs) :
      Moves baseDir s i ((s.wrote i (pngPath (skinsDirOf baseDir) ((s.calls i).stem c)) fs).moveTo i
        (.sidecar c))
  | finish (c : Option ℕ) (hphase : (s.calls i).phase = .sidecar c) :
      Moves baseDir s i (s.moveTo i
        (.returned (some (.ok (some (pngPath (skinsDirOf baseDir) ((s.calls i).stem c)))))))
  | writeSidecar (c : Option ℕ) (hphase : (s.calls i).phase = .sidecar c) (fs : FileSystem)
      (contents : Bytes)
      (hwrite : s.fs.write (jsonPath (skinsDirOf baseDir) ((s.calls i).stem c)) contents = .ok fs) :
      Moves baseDir s i ((s.wrote i (jsonPath (skinsDirOf baseDir) ((s.calls i).stem c)) fs).moveTo
        i (.returned (some (.ok (some (pngPath (skinsDirOf baseDir) ((s.calls i).stem c)))))))

theorem step_moves (tools : CaptureTools) (baseDir : Str) (s : SharedSkins) (i : ℕ) :
    Moves baseDir s i (step tools baseDir s i) := by
  unfold step
  dsimp only
  cases hphase : (s.calls i).phase with
  | start =>
    dsimp only
    cases s.fs.createDirAll (skinsDirOf baseDir) with
    | error e => exact .leave _ trivial
    | ok u => exact .leave _ trivial
  | png c =>
    dsimp only
    split_ifs with h
    · exact .leave _ trivial
    · exact .look c hphase (by simpa using h)
  | json c =>
    dsimp only
    split_ifs with h
    · exact .leave _ trivial
    · exact .choose c hphase (by simpa using h)
  | image c =>
    dsimp only
    cases encodePngRgba tools (s.calls i).capture.skin.data (s.calls i).capture.skin.width
        (s.calls i).capture.skin.height with
    | none => exact .leave _ trivial
    | some encoded =>
      cases encoded with
      | error e => exact .leave _ trivial
      | ok pngBytes =>
        dsimp only
        cases hwrite : s.fs.write (pngPath (skinsDirOf baseDir) ((s.calls i).stem c)) pngBytes with
        | error e => exact .leave _ trivial
        | ok fs => exact .writeImage c hphase fs pngBytes hwrite
  | sidecar c =>
    dsimp only
    cases tools.toVecPretty ⟨(s.calls i).capture.playerName, (s.calls i).capture.skinId,
        (s.calls i).capture.skin.width, (s.calls i).capture.skin.height,
        (s.calls i).capture.metadata⟩ with
    | error e => exact .leave _ trivial
    | ok text =>
      dsimp only
      cases hwrite : s.fs.write (jsonPath (skinsDirOf baseDir) ((s.calls i).stem c)) text with
      | error e => exact .finish c hphase
      | ok fs => exact .writeSidecar c hphase fs text hwrite
  | returned result => exact .stay

theorem step_calls_other (tools : CaptureTools) (baseDir : Str) (s : SharedSkins) (hne : j ≠ i) :
    (step tools baseDir s i).calls j = s.calls j := by
  have hmoves := step_moves tools baseDir s i
  generalize step tools baseDir s i = s' at hmoves
  cases hmoves with
  | stay => rfl
  | _ => exact Function.update_of_ne hne _ _

theorem step_look {c : Option ℕ} (hphase : (s.calls i).phase = .png c)
    (hmissing : s.fs.pathExists (pngPath (skinsDirOf baseDir) ((s.calls i).stem c)) = false) :
    step tools baseDir s i = s.moveTo i (.json c) := by
  unfold step
  simp only [hphase, hmissing, Bool.false_eq_true, if_false]

theorem step_choose {c : Option ℕ} (hphase : (s.calls i).phase = .json c)
    (hmissing : s.fs.pathExists (jsonPath (skinsDirOf baseDir) ((s.calls i).stem c)) = false) :
    step tools baseDir s i = s.moveTo i (.image c) := by
  unfold step
  simp only [hphase, hmissing, Bool.false_eq_true, if_false]

theorem run_append (s : SharedSkins) (a b : List ℕ) :
    run tools baseDir s (a ++ b) = run tools baseDir (run tools baseDir s a) b := List.foldl_append

@[simp] theorem moveTo_moveTo (s : SharedSkins) (i : ℕ) (p q : SavePhase) :
    (s.moveTo i p).moveTo i q = s.moveTo i q := by
  unfold moveTo
  simp

@[simp] theorem calls_moveTo (s : SharedSkins) (i : ℕ) (p : SavePhase) :
    (s.moveTo i p).calls i = { s.calls i with phase := p } := Function.update_self _ _ _

/-- A candidate is taken when both of its files are missing. -/
theorem run_candidate (tools : CaptureTools) (baseDir : Str) (s : SharedSkins) (i : ℕ)
    (c : Option ℕ) : ∃ n, run tools baseDir (s.moveTo i (.png c)) (List.replicate n i) =
      s.moveTo i (if stemIsFree s.fs (skinsDirOf baseDir) ((s.calls i).stem c) then .image c
        else .png (followingCandidate c)) := by
  have hstem : ∀ phase, SaveCall.stem { s.calls i with phase := phase } c = (s.calls i).stem c :=
    fun _ => rfl
  have hfs : ∀ phase, (s.moveTo i phase).fs = s.fs := fun _ => rfl
  have hfirst : step tools baseDir (s.moveTo i (.png c)) i =
      if s.fs.pathExists (pngPath (skinsDirOf baseDir) ((s.calls i).stem c)) then
        s.moveTo i (.png (followingCandidate c)) else s.moveTo i (.json c) := by
    unfold step
    simp only [calls_moveTo, hstem, hfs, moveTo_moveTo]
  have hsecond : step tools baseDir (s.moveTo i (.json c)) i =
      if s.fs.pathExists (jsonPath (skinsDirOf baseDir) ((s.calls i).stem c)) then
        s.moveTo i (.png (followingCandidate c)) else s.moveTo i (.image c) := by
    unfold step
    simp only [calls_moveTo, hstem, hfs, moveTo_moveTo]
  unfold stemIsFree
  cases hpng : s.fs.pathExists (pngPath (skinsDirOf baseDir) ((s.calls i).stem c)) with
  | true =>
    refine ⟨1, ?_⟩
    rw [hpng, if_pos rfl] at hfirst
    exact hfirst
  | false =>
    refine ⟨2, ?_⟩
    rw [hpng, if_neg Bool.false_ne_true] at hfirst
    show step tools baseDir (step tools baseDir (s.moveTo i (.png c)) i) i = _
    rw [hfirst, hsecond]
    cases s.fs.pathExists (jsonPath (skinsDirOf baseDir) ((s.calls i).stem c)) with
    | true => rfl
    | false => rfl

/-- The search of a call that is left alone is the search for the next stem. -/
theorem run_numberedStemLoop {fuel count : ℕ} (hcount : count + fuel = u32Max)
    (h : numberedStemLoop s.fs (skinsDirOf baseDir) (s.calls i).baseName fuel count = some t) :
    ∃ n c, run tools baseDir (s.moveTo i (.png (some count))) (List.replicate n i) =
      s.moveTo i (.image c) ∧ (s.calls i).stem c = t := by
  induction fuel generalizing count with
  | zero =>
    obtain ⟨n, hn⟩ := run_candidate tools baseDir s i (some count)
    unfold numberedStemLoop at h
    split_ifs at h with hfree
    exact ⟨n, some count, hn.trans (congrArg _ (if_pos hfree)), Option.some.inj h⟩
  | succ fuel ih =>
    obtain ⟨n, hn⟩ := run_candidate tools baseDir s i (some count)
    unfold numberedStemLoop at h
    split_ifs at h with hfree
    · exact ⟨n, some count, hn.trans (congrArg _ (if_pos hfree)), Option.some.inj h⟩
    · have hlast : min (count + 1) u32Max = count + 1 := Nat.min_eq_left (by omega)
      have hfollowing : followingCandidate (some count) = some (count + 1) := congrArg some hlast
      obtain ⟨k, c, hk, hc⟩ := ih (by omega) h
      refine ⟨n + k, c, ?_, hc⟩
      rw [List.replicate_add, run_append, hn, ← hk, ← hfollowing]
      exact congrArg (fun p => run tools baseDir (s.moveTo i p) (List.replicate k i)) (if_neg hfree)

theorem run_nextAvailableStem
    (h : nextAvailableStem s.fs (skinsDirOf baseDir) (s.calls i).baseName = some t) :
    ∃ n c, run tools baseDir (s.moveTo i (.png none)) (List.replicate n i) =
      s.moveTo i (.image c) ∧ (s.calls i).stem c = t := by
  obtain ⟨n, hn⟩ := run_candidate tools baseDir s i none
  unfold nextAvailableStem at h
  split_ifs at h with hfree
  · exact ⟨n, none, hn.trans (congrArg _ (if_pos hfree)), Option.some.inj h⟩
  · obtain ⟨k, c, hk, hc⟩ := run_numberedStemLoop (by decide) h
    refine ⟨n + k, c, ?_, hc⟩
    rw [List.replicate_add, run_append, hn, ← hk]
    exact congrArg (fun p => run tools baseDir (s.moveTo i p) (List.replicate k i)) (if_neg hfree)

/-- The write of the image is a step of its own. -/
theorem step_writesImage {c : Option ℕ} {png : Bytes} {fs : FileSystem}
    (hencode : encodePngRgba tools (s.calls i).capture.skin.data (s.calls i).capture.skin.width
      (s.calls i).capture.skin.height = some (.ok png))
    (himage : s.fs.write (pngPath (skinsDirOf baseDir) ((s.calls i).stem c)) png = .ok fs) :
    step tools baseDir (s.moveTo i (.image c)) i =
      (s.wrote i (pngPath (skinsDirOf baseDir) ((s.calls i).stem c)) fs).moveTo i
        (.sidecar c) := by
  have hstem : ∀ phase, SaveCall.stem { s.calls i with phase := phase } c = (s.calls i).stem c :=
    fun _ => rfl
  have hfs : ∀ phase, (s.moveTo i phase).fs = s.fs := fun _ => rfl
  unfold step
  simp only [calls_moveTo, hencode, hstem, hfs, himage]
  exact moveTo_moveTo (s.wrote i _ fs) i (.image c) (.sidecar c)

/-- The writes of a call that is left alone. -/
theorem run_writeCapture {c : Option ℕ} {result : Except Error (Option Str)} {fs : FileSystem}
    (h : writeCapture tools s.fs (skinsDirOf baseDir) ((s.calls i).stem c) (s.calls i).capture =
      some (result, fs)) :
    ∃ n, (run tools baseDir (s.moveTo i (.image c)) (List.replicate n i)).fs = fs ∧
      ((run tools baseDir (s.moveTo i (.image c)) (List.replicate n i)).calls i).phase =
        .returned (some result) := by
  have hone : ∀ s' : SharedSkins, run tools baseDir s' (List.replicate 1 i) =
      step tools baseDir s' i := fun _ => rfl
  have htwo : ∀ s' : SharedSkins, run tools baseDir s' (List.replicate 2 i) =
      step tools baseDir (step tools baseDir s' i) i := fun _ => rfl
  have hstem : ∀ phase, SaveCall.stem { s.calls i with phase := phase } c = (s.calls i).stem c :=
    fun _ => rfl
  have hfs : ∀ phase, (s.moveTo i phase).fs = s.fs := fun _ => rfl
  have hcall : ∀ path fs, (s.wrote i path fs).calls i = s.calls i := fun _ _ => rfl
  have hwrote : ∀ path fs phase, ((s.wrote i path fs).moveTo i phase).fs = fs := fun _ _ _ => rfl
  cases writeCapture_outcome h with
  | unencoded e hencode =>
    refine ⟨1, ?_⟩
    rw [hone]
    unfold step
    simp only [calls_moveTo, hencode, moveTo_moveTo, hfs, and_self]
  | imageRefused png e hencode himage =>
    refine ⟨1, ?_⟩
    rw [hone]
    unfold step
    simp only [calls_moveTo, hencode, hstem, hfs, himage, moveTo_moveTo, and_self]
  | untextual png fs₁ e hencode himage htext =>
    refine ⟨2, ?_⟩
    rw [htwo, step_writesImage hencode himage]
    unfold step
    simp only [calls_moveTo, hcall, htext, moveTo_moveTo, hwrote, and_self]
  | sidecarRefused png text fs₁ e hencode himage htext hsidecar =>
    refine ⟨2, ?_⟩
    rw [htwo, step_writesImage hencode himage]
    unfold step
    simp only [calls_moveTo, hcall, hstem, htext, hwrote, hsidecar, moveTo_moveTo, and_self]
  | written png text fs₁ fs₂ hencode himage htext hsidecar =>
    refine ⟨2, ?_⟩
    rw [htwo, step_writesImage hencode himage]
    unfold step
    simp only [calls_moveTo, hcall, hstem, htext, hwrote, hsidecar]
    exact ⟨rfl, trivial⟩

/-- A call that is left alone does what the function does in one piece. -/
theorem run_saveLoginCapture {savemode : ℕ} (hmode : 2 ≤ savemode)
    {result : Except Error (Option Str)} {fs : FileSystem}
    (hphase : (s.calls i).phase = .start)
    (h : saveLoginCapture tools s.fs baseDir (s.calls i).capture savemode = some (result, fs)) :
    ∃ n, (run tools baseDir s (List.replicate n i)).fs = fs ∧
      ((run tools baseDir s (List.replicate n i)).calls i).phase = .returned (some result) := by
  have hstart : run tools baseDir s (List.replicate 1 i) = step tools baseDir s i := rfl
  unfold saveLoginCapture at h
  rw [if_neg (by omega)] at h
  dsimp only at h
  cases hdir : s.fs.createDirAll (skinsDirOf baseDir) with
  | error e =>
    rw [hdir] at h
    cases h
    refine ⟨1, ?_⟩
    rw [hstart]
    unfold step
    simp only [hphase, hdir, calls_moveTo]
    exact ⟨rfl, trivial⟩
  | ok u =>
    rw [hdir] at h
    dsimp only at h
    rw [if_neg (by omega), Option.bind_eq_bind, Option.bind_eq_some_iff] at h
    obtain ⟨stem, hstem, hwrite⟩ := h
    have hfirst : step tools baseDir s i = s.moveTo i (.png none) := by
      unfold step
      simp only [hphase, hdir]
    obtain ⟨n, c, hsearch, rfl⟩ := @run_nextAvailableStem tools _ _ _ _ hstem
    obtain ⟨m, hm⟩ := run_writeCapture hwrite
    refine ⟨1 + (n + m), ?_⟩
    rw [List.replicate_add, run_append, hstart, hfirst, List.replicate_add, run_append, hsearch]
    exact hm

end SharedSkins
end SkinGetBE
