import SkinGetBE.FreeStems
import SkinGetBE.SessionShadows

/-!
# Every save ends

Other sessions may take the names that a save is about to try, but each name that it
finds taken is one more file in the directory. So a save ends within a number of its own
steps that depends on the number of files alone, whatever the others do.
-/
namespace SkinGetBE.NetherSession
open Octets Text

/-- The plain name has the number zero. -/
def candidateNo : ℕ → Option ℕ
  | 0 => none
  | k + 1 => some (k + 1)

/-- The candidate that a phase is about. -/
def candidateOf : SavePhase → Option (Option ℕ)
  | .start => some none
  | .png c => some c
  | .json c => some c
  | .image c => some c
  | .sidecar c => some c
  | .returned _ => none

/-- The steps that a call has taken at a phase beyond two for each candidate that was refused. -/
def phaseSteps : SavePhase → ℕ
  | .start => 0
  | .png _ => 1
  | .json _ => 2
  | .image _ => 3
  | .sidecar _ => 4
  | .returned _ => 5

/-- The call has refused the first `k` candidates, whose names are taken, in at least `n` steps. -/
structure Refused (env : SessionEnv) (fs : FileSystem) (call : SaveCall) (n k : ℕ) : Prop where
  taken : ∀ j < k,
    stemIsFree fs (skinsDirOf env.baseDir) (call.baseName ++ numberSuffix j) = false
  steps : n ≤ 2 * k + phaseSteps call.phase
  candidate : ∀ c ∈ candidateOf call.phase, c = candidateNo k

variable {env : SessionEnv} {fs fs' : FileSystem} {call : SaveCall} {n k i : ℕ} {f : Fleet}
  {new : List (Str × Bytes)} {paths : Finset Str}

theorem stem_candidateNo (call : SaveCall) (k : ℕ) :
    call.stem (candidateNo k) = call.baseName ++ numberSuffix k := by
  cases k with
  | zero => exact (List.append_nil _).symm
  | succ k => rfl

theorem followingCandidate_candidateNo (h : k < u32Max) :
    followingCandidate (candidateNo k) = candidateNo (k + 1) := by
  cases k with
  | zero => rfl
  | succ k =>
    unfold followingCandidate candidateNo
    exact congrArg some (Nat.min_eq_left h)

theorem stemIsFree_of_adds (h : Adds fs fs' new) {skinsDir stem : Str}
    (htaken : stemIsFree fs skinsDir stem = false) : stemIsFree fs' skinsDir stem = false := by
  have hgrows : ∀ path, fs.pathExists path = true → fs'.pathExists path = true :=
    fun path hpath => (h.pathExists path).mpr (.inl hpath)
  unfold stemIsFree at htaken
  rw [Bool.and_eq_false_iff, Bool.not_eq_false', Bool.not_eq_false'] at htaken
  rcases htaken with hpng | hjson
  · exact stemIsFree_of_png (hgrows _ hpng)
  · exact stemIsFree_of_json (hgrows _ hjson)

/-- The names that are taken are no more than there are files. -/
theorem card_of_taken {skinsDir baseName : Str}
    (hpaths : ∀ path, fs.pathExists path = true → path ∈ paths)
    (htaken : ∀ j < k, stemIsFree fs skinsDir (baseName ++ numberSuffix j) = false) :
    k ≤ paths.card := by
  have hmaps : Set.MapsTo (takenPath fs skinsDir baseName) (Finset.range k : Set ℕ)
      (paths : Set Str) := fun j hj =>
    hpaths _ (takenPath_exists (htaken j (Finset.mem_range.mp (Finset.mem_coe.mp hj))))
  have hcard := Finset.card_le_card_of_injOn (takenPath fs skinsDir baseName) hmaps
    fun i _ j _ h => takenPath_injective h
  rwa [Finset.card_range] at hcard

theorem Refused.adds (h : Refused env fs call n k) (hadds : Adds fs fs' new) :
    Refused env fs' call n k where
  taken j hj := stemIsFree_of_adds hadds (h.taken j hj)
  steps := h.steps
  candidate := h.candidate

theorem Refused.step (h : Refused env fs call n k) {phase : SavePhase}
    (hstep : CallStep env.tools env.baseDir fs call phase fs')
    (hreturned : ∀ result, call.phase ≠ .returned result)
    (hpaths : ∀ path, fs.pathExists path = true → path ∈ paths) (hfew : paths.card < 2 ^ 32) :
    ∃ k', Refused env fs { call with phase := phase } (n + 1) k' := by
  have hsteps := h.steps
  have hcandidate := h.candidate
  have hgoes : ∀ phase, phaseSteps call.phase < phaseSteps phase →
      (∀ c ∈ candidateOf phase, c = candidateNo k) →
      ∃ k', Refused env fs { call with phase := phase } (n + 1) k' :=
    fun phase hlt hc => ⟨k, h.taken, by dsimp only; omega, hc⟩
  have hends : ∀ result, phaseSteps call.phase < 5 →
      ∃ k', Refused env fs { call with phase := .returned result } (n + 1) k' :=
    fun result hlt => hgoes _ hlt fun c hc => by cases hc
  cases hstep with
  | stay result hphase => exact absurd hphase (hreturned result)
  | refused e hphase => exact hends _ (by simp [hphase, phaseSteps])
  | panicked c hphase hencode => exact hends _ (by simp [hphase, phaseSteps])
  | failed c e hphase => exact hends _ (by simp [hphase, phaseSteps])
  | bare c result hphase => exact hends _ (by simp [hphase, phaseSteps])
  | pair c result text fs' hphase htext hwrite => exact hends _ (by simp [hphase, phaseSteps])
  | opened hphase =>
    rw [hphase] at hcandidate
    exact hgoes _ (by simp [hphase, phaseSteps]) hcandidate
  | missing c hphase =>
    rw [hphase] at hcandidate
    exact hgoes _ (by simp [hphase, phaseSteps]) hcandidate
  | chosen c hphase =>
    rw [hphase] at hcandidate
    exact hgoes _ (by simp [hphase, phaseSteps]) hcandidate
  | image c png fs' hphase hencode hwrite =>
    rw [hphase] at hcandidate
    exact hgoes _ (by simp [hphase, phaseSteps]) hcandidate
  | taken c hphase htaken =>
    -- one more name is taken, which makes up for both steps
    have hc : c = candidateNo k := by
      rcases hphase with hphase | hphase
      · exact hcandidate c (by rw [hphase]; rfl)
      · exact hcandidate c (by rw [hphase]; rfl)
    have hlate : phaseSteps call.phase ≤ 2 := by
      rcases hphase with hphase | hphase
      · simp [hphase, phaseSteps]
      · simp [hphase, phaseSteps]
    rw [hc, stem_candidateNo] at htaken
    have hall : ∀ j < k + 1, stemIsFree fs (skinsDirOf env.baseDir)
        (call.baseName ++ numberSuffix j) = false := by
      intro j hj
      rcases Nat.lt_succ_iff_lt_or_eq.mp hj with hj | rfl
      · exact h.taken j hj
      · exact htaken
    have hmax : k < u32Max := by
      have hcard := card_of_taken hpaths hall
      unfold u32Max
      omega
    refine ⟨k + 1, hall, ?_, fun c' hc' => ?_⟩
    · simp only [phaseSteps]
      omega
    · obtain rfl := Option.some.inj hc'
      rw [hc, followingCandidate_candidateNo hmax]

/-- A call that overwrites has refused no name. -/
theorem Refused.skip (h : Refused env fs { call with phase := .png none } n k) :
    Refused env fs { call with phase := .image none } n k where
  taken := h.taken
  steps := by
    have hsteps := h.steps
    simp only [phaseSteps] at hsteps ⊢
    omega
  candidate := h.candidate

namespace Fleet

/-- The save of a session has taken at least `n` steps. -/
def Spent (env : SessionEnv) (f : Fleet) (i n : ℕ) : Prop :=
  (f.tasks i).saving = true ∧ ∃ k, Refused env f.skins.fs (f.skins.calls i) n k

theorem proceed_adds (env : SessionEnv) (f : Fleet) (i : ℕ) :
    ∃ new, Adds f.skins.fs (f.proceed env i).skins.fs new := by
  obtain ⟨phase, fs, hstep, hreaches⟩ := step_callStep env.tools env.baseDir f.skins i
  have hgoes : ∃ new, Adds f.skins.fs
      (skipSearch env.savemode (f.skins.step env.tools env.baseDir i) i).fs new := by
    rw [(skipSearch_reaches hreaches env.savemode).fs]
    cases hstep with
    | image c png fs' hphase hencode hwrite => exact ⟨_, adds_write hwrite⟩
    | pair c result text fs' hphase htext hwrite => exact ⟨_, adds_write hwrite⟩
    | _ => exact ⟨[], .refl _⟩
  unfold proceed
  split_ifs
  · cases (f.skins.calls i).phase with
    | returned result => exact ⟨[], .refl _⟩
    | start => exact hgoes
    | png c => exact hgoes
    | json c => exact hgoes
    | image c => exact hgoes
    | sidecar c => exact hgoes
  · exact ⟨[], .refl _⟩

theorem step_adds (env : SessionEnv) (f : Fleet) (event : FleetEvent) :
    ∃ new, Adds f.skins.fs (f.step env event).skins.fs new := by
  cases event with
  | receive i channel received =>
    have hfs : (f.step env (.receive i channel received)).skins.fs = f.skins.fs :=
      receive_fs env f i channel received
    exact ⟨[], hfs ▸ .refl _⟩
  | proceed i => exact proceed_adds env f i

theorem run_adds (env : SessionEnv) (f : Fleet) (events : List FleetEvent) :
    ∃ new, Adds f.skins.fs (run env f events).skins.fs new := by
  induction events generalizing f with
  | nil => exact ⟨[], .refl _⟩
  | cons event events ih =>
    obtain ⟨new, hnew⟩ := step_adds env f event
    obtain ⟨rest, hrest⟩ := ih (f.step env event)
    exact ⟨_, hnew.trans hrest⟩

theorem Spent.leaves {f' : Fleet} (h : Spent env f i n) (hleaves : LeavesAlone i f f')
    (hadds : Adds f.skins.fs f'.skins.fs new) : Spent env f' i n := by
  obtain ⟨hsaving, k, hk⟩ := h
  refine ⟨hleaves.task ▸ hsaving, k, ?_⟩
  rw [hleaves.call]
  exact hk.adds hadds

theorem Spent.weaken (h : Spent env f i n) : Spent env f i 0 := by
  obtain ⟨hsaving, k, hk⟩ := h
  exact ⟨hsaving, k, hk.taken, Nat.zero_le _, hk.candidate⟩

/-- A step that does not end the save. -/
theorem Spent.proceed (h : Spent env f i n)
    (hreturned : ∀ result, (f.skins.calls i).phase ≠ .returned result)
    (hpaths : ∀ path, f.skins.fs.pathExists path = true → path ∈ paths)
    (hfew : paths.card < 2 ^ 32) :
    Spent env (f.proceed env i) i (n + 1) ∧ (f.proceed env i).tasks i = f.tasks i := by
  obtain ⟨hsaving, k, hk⟩ := h
  have hgoes : f.proceed env i = { f with
      skins := skipSearch env.savemode (f.skins.step env.tools env.baseDir i) i } := by
    unfold Fleet.proceed
    rw [if_pos hsaving]
    cases hphase : (f.skins.calls i).phase with
    | returned result => exact absurd hphase (hreturned result)
    | _ => rfl
  rw [hgoes]
  obtain ⟨phase, fs, hstep, hreaches⟩ := step_callStep env.tools env.baseDir f.skins i
  obtain ⟨k', hk'⟩ := hk.step hstep hreturned hpaths hfew
  obtain ⟨new, hadds⟩ := proceed_adds env f i
  have hskip := skipSearch_reaches hreaches env.savemode
  rw [hgoes] at hadds
  refine ⟨⟨hsaving, k', ?_⟩, rfl⟩
  rw [hskip.call]
  refine Refused.adds ?_ hadds
  split_ifs with hmode
  · rw [hmode.2] at hk'
    exact hk'.skip
  · exact hk'

theorem receive_saving (hsaving : (f.tasks i).saving = true) (channel : Channel)
    (received : Received) : f.receive env i channel received = f := by
  unfold receive
  exact if_pos (.inl hsaving)

/-- A save begins with nothing refused. -/
theorem receive_spent (hidle : (f.tasks i).saving = false) (channel : Channel)
    (received : Received)
    (h : ((f.receive env i channel received).tasks i).saving = true) :
    Spent env (f.receive env i channel received) i 0 := by
  refine ⟨h, 0, fun j hj => absurd hj (Nat.not_lt_zero j), Nat.zero_le _, ?_⟩
  have hreception := receive_reception env f i channel received
  generalize f.receive env i channel received = f' at h hreception
  cases hreception with
  | ignored => exact absurd h (by simp [hidle])
  | handled s =>
    rw [setTask_self] at h
    cases h
  | login s parsed =>
    unfold beginCapture at h ⊢
    dsimp only at h ⊢
    cases hskin : ExtractedSkin.new parsed.skinWidth parsed.skinHeight parsed.skinData with
    | error e =>
      rw [hskin] at h
      dsimp only at h
      rw [setTask_self] at h
      cases h
    | ok skin =>
      have hcall : ({ f with skins := beginSave env f.skins i (captureOf parsed skin) }.setTask i
          ⟨s.record [.capture parsed], true⟩).skins.calls i = _ := beginSave_call env f.skins i _
      dsimp only
      rw [hcall]
      split_ifs
      · exact fun c hc => by cases hc
      · exact fun c hc => by cases hc; rfl

/-- The steps of a session among the events. -/
def stepsOf (i : ℕ) (events : List FleetEvent) : ℕ :=
  events.countP fun
    | .proceed j => j = i
    | .receive _ _ _ => false

/-- An event takes the save a step further, or ends it. -/
theorem Spent.step (h : Spent env f i n) (event : FleetEvent)
    (hpaths : ∀ path, f.skins.fs.pathExists path = true → path ∈ paths)
    (hfew : paths.card < 2 ^ 32) :
    (Spent env (f.step env event) i (n + stepsOf i [event]) ∧
        (f.step env event).tasks i = f.tasks i) ∨
      ∃ result, (f.skins.calls i).phase = .returned result ∧
        (f.step env event).tasks i = ⟨finishSave env (f.tasks i).memory result, false⟩ := by
  obtain ⟨new, hadds⟩ := step_adds env f event
  cases event with
  | receive j channel received =>
    left
    by_cases hj : j = i
    · subst hj
      have hsame : f.step env (.receive j channel received) = f :=
        receive_saving h.1 channel received
      rw [hsame]
      exact ⟨h, rfl⟩
    · have hothers := receive_others env (Ne.symm hj) f channel received
      exact ⟨h.leaves hothers hadds, hothers.task⟩
  | proceed j =>
    by_cases hj : j = i
    · subst hj
      by_cases hreturned : ∃ result, (f.skins.calls j).phase = .returned result
      · obtain ⟨result, hphase⟩ := hreturned
        refine .inr ⟨result, hphase, ?_⟩
        unfold Fleet.step Fleet.proceed
        dsimp only
        rw [if_pos h.1, hphase]
        exact setTask_self f j _
      · left
        push Not at hreturned
        have hone : stepsOf j [.proceed j] = 1 := by simp [stepsOf]
        rw [hone]
        exact h.proceed hreturned hpaths hfew
    · left
      have hothers := proceed_others env (Ne.symm hj) f
      have hnone : stepsOf i [.proceed j] = 0 := by simp [stepsOf, hj]
      rw [hnone]
      exact ⟨h.leaves hothers hadds, hothers.task⟩

theorem run_append (env : SessionEnv) (f : Fleet) (events events' : List FleetEvent) :
    run env f (events ++ events') = run env (run env f events) events' := List.foldl_append

theorem paths_before (events : List FleetEvent)
    (hpaths : ∀ path, (run env f events).skins.fs.pathExists path = true → path ∈ paths) :
    ∀ path, f.skins.fs.pathExists path = true → path ∈ paths := by
  obtain ⟨new, hadds⟩ := run_adds env f events
  exact fun path hpath => hpaths path ((hadds.pathExists path).mpr (.inl hpath))

theorem run_spent (events : List FleetEvent)
    (hpaths : ∀ path, (run env (start fs) events).skins.fs.pathExists path = true → path ∈ paths)
    (hfew : paths.card < 2 ^ 32)
    (hsaving : ((run env (start fs) events).tasks i).saving = true) :
    Spent env (run env (start fs) events) i 0 := by
  induction events using List.reverseRecOn with
  | nil => cases hsaving
  | append_singleton events event ih =>
    rw [run_append] at hpaths
    have hbefore := paths_before [event] hpaths
    rw [run_snoc] at hsaving ⊢
    by_cases hold : ((run env (start fs) events).tasks i).saving = true
    · rcases (ih hbefore hold).step event hbefore hfew with ⟨hspent, -⟩ | ⟨result, -, htask⟩
      · exact hspent.weaken
      · rw [htask] at hsaving
        cases hsaving
    · have hidle := Bool.eq_false_of_not_eq_true hold
      cases event with
      | receive j channel received =>
        by_cases hj : j = i
        · subst hj
          exact receive_spent hidle channel received hsaving
        · have htask := (receive_others env (Ne.symm hj) (run env (start fs) events) channel
            received).task
          exact absurd ((congrArg Task.saving htask).symm.trans hsaving) hold
      | proceed j =>
        by_cases hj : j = i
        · subst hj
          have hsame : (run env (start fs) events).proceed env j = run env (start fs) events :=
            if_neg hold
          have hstill := (congrArg (fun f => (Fleet.tasks f j).saving) hsame).symm.trans hsaving
          exact absurd hstill hold
        · have htask := (proceed_others env (Ne.symm hj) (run env (start fs) events)).task
          exact absurd ((congrArg Task.saving htask).symm.trans hsaving) hold

/-- A session that has sent its bundle stays as it is. -/
theorem step_ended (hsaving : (f.tasks i).saving = false)
    (hstatus : (f.tasks i).memory.status ≠ .running) (event : FleetEvent) :
    (f.step env event).tasks i = f.tasks i := by
  cases event with
  | receive j channel received =>
    by_cases hj : j = i
    · subst hj
      have hsame : f.step env (.receive j channel received) = f := by
        unfold Fleet.step receive
        exact if_pos (.inr (.inl hstatus))
      rw [hsame]
    · exact (receive_others env (Ne.symm hj) f channel received).task
  | proceed j =>
    by_cases hj : j = i
    · subst hj
      have hsame : f.step env (.proceed j) = f := if_neg (by simp [hsaving])
      rw [hsame]
    · exact (proceed_others env (Ne.symm hj) f).task

/-- In fewer than `2 ^ 32` files, a save ends within six steps of its session and two more for each
file, whatever the other sessions do meanwhile, and the session sends its bundle. -/
theorem save_ends (env : SessionEnv) (fs : FileSystem) (events events' : List FleetEvent) (i : ℕ)
    (he : env.engines.Shrink) (htools : env.tools.Standard)
    (hsaving : ((run env (start fs) events).tasks i).saving = true) (paths : Finset Str)
    (hpaths : ∀ path,
      (run env (start fs) (events ++ events')).skins.fs.pathExists path = true → path ∈ paths)
    (hfew : paths.card < 2 ^ 32) (hmany : 2 * paths.card + 6 ≤ stepsOf i events') :
    ∃ result, (run env (start fs) (events ++ events')).tasks i =
      ⟨sendBundle env (((run env (start fs) events).tasks i).memory.record [.saved result]),
        false⟩ := by
  have hrun : (Spent env (run env (start fs) (events ++ events')) i (stepsOf i events') ∧
      (run env (start fs) (events ++ events')).tasks i = (run env (start fs) events).tasks i) ∨
      ∃ result, (run env (start fs) (events ++ events')).tasks i =
        ⟨sendBundle env (((run env (start fs) events).tasks i).memory.record [.saved result]),
          false⟩ := by
    clear hmany
    induction events' using List.reverseRecOn with
    | nil =>
      left
      rw [List.append_nil] at hpaths ⊢
      exact ⟨run_spent events hpaths hfew hsaving, rfl⟩
    | append_singleton rest event ih =>
      rw [← List.append_assoc, run_append] at hpaths
      rw [← List.append_assoc, run_snoc]
      have hbefore := paths_before [event] hpaths
      rcases ih hbefore with ⟨hspent, hsame⟩ | ⟨result, hended⟩
      · rcases hspent.step event hbefore hfew with ⟨hspent', hsame'⟩ | ⟨result, hphase, htask⟩
        · left
          unfold stepsOf at hspent' ⊢
          rw [List.countP_append]
          exact ⟨hspent', hsame'.trans hsame⟩
        · right
          obtain ⟨works, hworks⟩ := run_attributed he htools fs (events ++ rest)
          cases result with
          | some result =>
            rw [hsame] at htask
            exact ⟨result, htask⟩
          | none =>
            cases hworks.standing i with
            | before hidle => exact absurd hspent.1 (by simp [hidle])
            | after parsed hidle => exact absurd hspent.1 (by simp [hidle])
            | underway parsed skin _ _ _ _ _ _ hfiles =>
              unfold PhaseFiles at hfiles
              rw [hphase] at hfiles
              exact hfiles.elim
      · right
        refine ⟨result, (step_ended ?_ ?_ event).trans hended⟩
        · rw [hended]
        · rw [hended]
          exact (sendBundle_ends env _).1
  rcases hrun with ⟨⟨-, k, hk⟩, -⟩ | hended
  · have hcard := card_of_taken hpaths hk.taken
    have hsteps := hk.steps
    have hlast : ∀ phase : SavePhase, phaseSteps phase ≤ 5 := by
      intro phase
      cases phase <;> simp [phaseSteps]
    have hphase := hlast ((run env (start fs) (events ++ events')).skins.calls i).phase
    omega
  · exact hended

theorem save_ends_inTurns : ∃ result,
    (run whiteEnv (start .empty) (bothLogins ++ inTurns 10)).tasks 0 =
      ⟨sendBundle whiteEnv (((run whiteEnv (start .empty) bothLogins).tasks 0).memory.record
        [.saved result]), false⟩ := by
  obtain ⟨new, hadds⟩ := run_adds whiteEnv (start .empty) (bothLogins ++ inTurns 10)
  have hwritten : (run whiteEnv (start .empty) (bothLogins ++ inTurns 10)).skins.fs.written.map
      Prod.fst ⊆ ["./skins/UnknownPlayer__.png".toList, "./skins/UnknownPlayer__.json".toList] := by
    decide +kernel
  refine save_ends whiteEnv .empty bothLogins (inTurns 10) 0 strictEngines_shrink
    sampleTools_standard (by decide +kernel)
    ["./skins/UnknownPlayer__.png".toList, "./skins/UnknownPlayer__.json".toList].toFinset
    (fun path hpath => List.mem_toFinset.mpr (hwritten (Adds.listed hadds hpath)))
    (by decide +kernel) (by decide +kernel)

end Fleet

end SkinGetBE.NetherSession
