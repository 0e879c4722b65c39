import SkinGetBE.SessionFleet

/-!
# A session among others

Next to any number of other sessions, a session handles, records and sends what it would
on its own with another directory. Only the save of its capture takes as long as it
takes, and may have another result.
-/
namespace SkinGetBE.NetherSession
open Octets Text

/-- A session of the fleet, and the same session on its own: up to the save of its capture they are
the same, and after it they have the same left to do. -/
inductive Shadows (env : SessionEnv) (task : Task) (alone : SessionState) : Prop
  | same (hsaving : task.saving = false) (h : alone = task.memory.over alone.fs)
  | saving (result : Except Error (Option Str)) (hsaving : task.saving = true)
      (h : alone = sendBundle env ((task.memory.over alone.fs).record [.saved result]))
  | saved (s : SessionState) (result result' : Except Error (Option Str))
      (hsaving : task.saving = false)
      (hmemory : task.memory = sendBundle env (s.record [.saved result]))
      (h : alone = sendBundle env ((s.over alone.fs).record [.saved result']))

/-- Every save of a login returns. -/
def SavesReturn (env : SessionEnv) (fs : FileSystem) : Prop :=
  ∀ parsed skin, ParsedSkin env.engines parsed skin →
    saveLoginCapture env.tools fs env.baseDir (captureOf parsed skin) env.savemode ≠ none

variable {env : SessionEnv} {s alone : SessionState} {parsed : ParsedLoginPacket} {f : Fleet}
  {i : ℕ} {files : List (Str × Bytes)}

theorem sendBundle_over (env : SessionEnv) (s : SessionState) (fs : FileSystem) :
    sendBundle env (s.over fs) = (sendBundle env s).over fs := by
  unfold sendBundle SessionState.over
  dsimp only
  cases buildBatch env.tools.flate closingPackets s.compressionEnabled with
  | none => rfl
  | some bundle => rfl

/-- Receptions that carry no data have nothing to do with the files. -/
theorem step_over (env : SessionEnv) (s : SessionState) (fs : FileSystem) (channel : Channel)
    {received : Received}
    (h : ∀ bytes, received ≠ .data bytes) :
    step env (s.over fs) (channel, received) = (step env s (channel, received)).over fs := by
  have hopen : (s.over fs).isOpen channel = s.isOpen channel := by cases channel <;> rfl
  have hstatus : (s.over fs).status = s.status := rfl
  unfold step
  rw [hopen, hstatus]
  by_cases hdone : s.status ≠ .running ∨ s.isOpen channel = false
  · rw [if_pos hdone, if_pos hdone]
  · rw [if_neg hdone, if_neg hdone]
    cases received with
    | data bytes => exact absurd rfl (h bytes)
    | failed message => rfl
    | closed =>
      have hleft : ∀ channel, ((s.over fs).closeChannel channel) =
          (s.closeChannel channel).over fs := by
        intro channel
        cases channel <;> rfl
      dsimp only
      rw [hleft]
      unfold SessionState.over
      dsimp only
      split_ifs <;> rfl

theorem step_finished (h : s.status ≠ .running) (event : Channel × Received) :
    step env s event = s := by
  unfold step
  rw [if_pos (.inl h)]

namespace Fleet

theorem beginCapture_shadows (hsaves : SavesReturn env alone.fs)
    (hparsed : ∃ data, parseLoginPacket env.engines data = some (.ok (some parsed)))
    (h : alone = s.over alone.fs) :
    Shadows env ((f.beginCapture env i s parsed).tasks i) (captureLogin env alone parsed) := by
  have hrecord : ∀ actions, alone.record actions = (s.record actions).over alone.fs := by
    intro actions
    rw [h]
    rfl
  unfold beginCapture captureLogin
  dsimp only
  rw [hrecord]
  cases hskin : ExtractedSkin.new parsed.skinWidth parsed.skinHeight parsed.skinData with
  | error e =>
    dsimp only
    rw [setTask_self]
    refine .same rfl ?_
    have hfs := sendBundle_fs env
      (((s.record [.capture parsed]).over alone.fs).record [.rejected e])
    rw [hfs]
    exact sendBundle_over env ((s.record [.capture parsed]).record [.rejected e]) alone.fs
  | ok skin =>
    dsimp only
    rw [setTask_self]
    obtain ⟨⟨result, fs⟩, hsave⟩ :=
      Option.ne_none_iff_exists'.mp (hsaves parsed skin ⟨hparsed, hskin⟩)
    unfold captureOf at hsave
    have hfs : ((s.record [.capture parsed]).over alone.fs).fs = alone.fs := rfl
    rw [hfs, hsave]
    refine .saving result rfl ?_
    have hsame := sendBundle_fs env
      ({ (s.record [.capture parsed]).over alone.fs with fs := fs }.record [.saved result])
    rw [hsame]
    rfl

theorem receive_shadows (hsaves : alone.status = .running → SavesReturn env alone.fs)
    (h : Shadows env (f.tasks i) alone) (channel : Channel) (received : Received) :
    Shadows env ((f.receive env i channel received).tasks i)
      (NetherSession.step env alone (channel, received)) := by
  cases h with
  | saving result hsaving halone =>
    have hstay : f.receive env i channel received = f := by
      unfold receive
      exact if_pos (.inl hsaving)
    have hends := (sendBundle_ends env (((f.tasks i).memory.over alone.fs).record
      [.saved result])).1
    rw [← halone] at hends
    rw [hstay, step_finished hends]
    exact .saving result hsaving halone
  | saved s result result' hsaving hmemory halone =>
    have hstay : f.receive env i channel received = f := by
      unfold receive
      refine if_pos (.inr (.inl ?_))
      rw [hmemory]
      exact (sendBundle_ends env _).1
    have hends := (sendBundle_ends env ((s.over alone.fs).record [.saved result'])).1
    rw [← halone] at hends
    rw [hstay, step_finished hends]
    exact .saved s result result' hsaving hmemory halone
  | same hsaving halone =>
    have hstatus : (f.tasks i).memory.status = alone.status := by
      rw [halone]
      rfl
    have hopen : (f.tasks i).memory.isOpen channel = alone.isOpen channel := by
      rw [halone]
      cases channel <;> rfl
    have hquiet : ∀ {received}, (∀ bytes, received ≠ .data bytes) →
        NetherSession.step env alone (channel, received) =
          (NetherSession.step env (f.tasks i).memory (channel, received)).over
            (NetherSession.step env alone (channel, received)).fs := by
      intro received hdata
      have hover := step_over env (f.tasks i).memory alone.fs channel hdata
      rw [← halone] at hover
      rw [hover]
      rfl
    unfold receive
    dsimp only
    by_cases hdone : alone.status ≠ .running ∨ alone.isOpen channel = false
    · rw [if_pos (by rw [hstatus, hopen]; exact .inr hdone)]
      unfold NetherSession.step
      rw [if_pos hdone]
      exact .same hsaving halone
    rw [if_neg (by rw [hstatus, hopen, hsaving]; simpa using hdone)]
    cases received with
    | closed =>
      dsimp only
      rw [setTask_self]
      exact .same rfl (hquiet fun bytes hdata => by cases hdata)
    | failed message =>
      dsimp only
      rw [setTask_self]
      exact .same rfl (hquiet fun bytes hdata => by cases hdata)
    | data bytes =>
      have hrun : alone.status = .running := by
        by_contra hne
        exact hdone (.inl hne)
      have hflag : (f.tasks i).memory.compressionEnabled = alone.compressionEnabled := by
        rw [halone]
        rfl
      unfold NetherSession.step
      rw [if_neg hdone]
      dsimp only
      unfold handleMessage
      rw [hflag]
      cases openMessage env.tools.flate alone.compressionEnabled bytes with
      | none => exact .same hsaving halone
      | some packets =>
        dsimp only
        rw [handlePackets_untilLogin hrun]
        have hover := untilLogin_over env (f.tasks i).memory alone.fs packets
        rw [← halone] at hover
        rw [hover]
        unfold handlePackets
        cases hfound : untilLogin env (f.tasks i).memory packets with
        | mk s found =>
          cases found with
          | none =>
            dsimp only
            rw [setTask_self]
            exact .same rfl rfl
          | some parsed =>
            have hparsed := untilLogin_parsed packets (congrArg Prod.snd hfound)
            exact beginCapture_shadows (hsaves hrun) hparsed rfl

theorem proceed_shadows (hstanding : Standing env (f.skins.calls i) (f.tasks i) files)
    (h : Shadows env (f.tasks i) alone) : Shadows env ((f.proceed env i).tasks i) alone := by
  cases h with
  | same hsaving halone =>
    have hstay : f.proceed env i = f := if_neg (by simp [hsaving])
    rw [hstay]
    exact .same hsaving halone
  | saved s result result' hsaving hmemory halone =>
    have hstay : f.proceed env i = f := if_neg (by simp [hsaving])
    rw [hstay]
    exact .saved s result result' hsaving hmemory halone
  | saving result' hsaving halone =>
    unfold proceed
    rw [if_pos hsaving]
    cases hphase : (f.skins.calls i).phase with
    | returned result =>
      dsimp only
      rw [setTask_self]
      cases result with
      | some result => exact .saved _ result result' rfl rfl halone
      | none =>
        -- the encoder does not panic on the skin of a login
        cases hstanding with
        | before hsaving' => exact absurd hsaving (by simp [hsaving'])
        | after parsed hsaving' => exact absurd hsaving (by simp [hsaving'])
        | underway parsed skin _ _ _ _ _ _ hfiles =>
          unfold PhaseFiles at hfiles
          rw [hphase] at hfiles
          exact hfiles.elim
    | _ => exact .saving result' hsaving halone

end Fleet

/-- The same packets are handled, the same captures tried, and the same messages sent, though the
last of them only after the save. -/
structure AnswersAlike (task : Task) (alone : SessionState) : Prop where
  handled : handledIds task.memory.trace = handledIds alone.trace
  captured : captures task.memory.trace = captures alone.trace
  sent : sentMessages task.memory.trace <+: sentMessages alone.trace
  all : task.saving = false → sentMessages task.memory.trace = sentMessages alone.trace

/-- The bundle of a session after a save, whatever its result. -/
theorem sendBundle_saved (env : SessionEnv) (s : SessionState)
    (result : Except Error (Option Str)) : ∃ bundle,
      handledIds (sendBundle env (s.record [.saved result])).trace = handledIds s.trace ∧
      captures (sendBundle env (s.record [.saved result])).trace = captures s.trace ∧
      sentMessages (sendBundle env (s.record [.saved result])).trace =
        sentMessages s.trace ++ bundle ∧
      bundle = (buildBatch env.tools.flate closingPackets s.compressionEnabled).toList := by
  refine ⟨_, ?_, ?_, ?_, rfl⟩ <;> unfold sendBundle <;> dsimp only [SessionState.record] <;>
    cases buildBatch env.tools.flate closingPackets s.compressionEnabled <;>
    simp [handledIds, captures, sentMessages]

theorem Shadows.answersAlike {task : Task} (h : Shadows env task alone) :
    AnswersAlike task alone := by
  cases h with
  | same hsaving halone =>
    rw [halone]
    exact ⟨rfl, rfl, List.prefix_rfl, fun _ => rfl⟩
  | saving result hsaving halone =>
    obtain ⟨bundle, hhandled, hcaptured, hsent, -⟩ :=
      sendBundle_saved env (task.memory.over alone.fs) result
    rw [← halone] at hhandled hcaptured hsent
    refine ⟨hhandled.symm, hcaptured.symm, hsent ▸ List.prefix_append _ _, fun hdone => ?_⟩
    exact absurd hsaving (by simp [hdone])
  | saved s result result' hsaving hmemory halone =>
    obtain ⟨bundle, hhandled, hcaptured, hsent, rfl⟩ := sendBundle_saved env s result
    obtain ⟨bundle', hhandled', hcaptured', hsent', rfl⟩ :=
      sendBundle_saved env (s.over alone.fs) result'
    rw [← hmemory] at hhandled hcaptured hsent
    rw [← halone] at hhandled' hcaptured' hsent'
    have hall := hsent.trans hsent'.symm
    exact ⟨hhandled.trans hhandled'.symm, hcaptured.trans hcaptured'.symm, hall ▸ List.prefix_rfl,
      fun _ => hall⟩

theorem handleSession_snoc (env : SessionEnv) (s : SessionState)
    (events : List (Channel × Received)) (event : Channel × Received) :
    handleSession env s (events ++ [event]) = step env (handleSession env s events) event := by
  unfold handleSession
  rw [List.foldl_append]
  rfl

theorem receptions_append (i : ℕ) (events events' : List FleetEvent) :
    receptions i (events ++ events') = receptions i events ++ receptions i events' :=
  List.filterMap_append

namespace Fleet

/-- Whatever other sessions there are, and in whatever order they all take their steps, a session
handles the same packets, tries the same capture and sends the same messages as on its own with any
directory of fewer than `2 ^ 32` files. -/
theorem fleet_shadows (env : SessionEnv) (fs fs' : FileSystem) (events : List FleetEvent) (i : ℕ)
    (he : env.engines.Shrink) (htools : env.tools.Standard) (paths : Finset Str)
    (hpaths : ∀ path, fs'.pathExists path = true → path ∈ paths) (hfew : paths.card < 2 ^ 32) :
    Shadows env ((run env (start fs) events).tasks i)
      (handleSession env (.start fs') (receptions i events)) ∧
    AnswersAlike ((run env (start fs) events).tasks i)
      (handleSession env (.start fs') (receptions i events)) := by
  have hshadows : Shadows env ((run env (start fs) events).tasks i)
      (handleSession env (.start fs') (receptions i events)) := by
    induction events using List.reverseRecOn with
    | nil => exact .same rfl rfl
    | append_singleton events event ih =>
      obtain ⟨works, hworks⟩ := run_attributed he htools fs events
      rw [run_snoc, receptions_append]
      cases event with
      | receive j channel received =>
        by_cases hj : j = i
        · subst hj
          have hown : receptions j [.receive j channel received] = [(channel, received)] := by
            simp [receptions]
          rw [hown, handleSession_snoc]
          refine receive_shadows (fun hrun parsed skin hskin => ?_) ih channel received
          rw [handleSession_running _ hrun]
          exact hskin.saves he hpaths hfew env.tools env.baseDir env.savemode
        · have hnone : receptions i [.receive j channel received] = [] := by
            simp [receptions, hj]
          rw [hnone, List.append_nil]
          have hothers :=
            receive_others env (Ne.symm hj) (run env (start fs) events) channel received
          unfold step
          dsimp only
          rw [hothers.task]
          exact ih
      | proceed j =>
        have hnone : receptions i [.proceed j] = [] := rfl
        rw [hnone, List.append_nil]
        unfold step
        dsimp only
        by_cases hj : j = i
        · subst hj
          exact proceed_shadows (hworks.standing j) ih
        · rw [(proceed_others env (Ne.symm hj) (run env (start fs) events)).task]
          exact ih
  exact ⟨hshadows, hshadows.answersAlike⟩

/-- The first session has the image on the disk and not yet the sidecar. -/
theorem fleet_shadows_inTurns :
    let task := (run whiteEnv (start .empty) (bothLogins ++ inTurns 4)).tasks 0
    let alone := handleSession whiteEnv (.start .empty)
      [(.reliable, .data strangerMessage), (.unreliable, .data whiteMessage)]
    (Shadows whiteEnv task alone ∧ AnswersAlike task alone) ∧
      task.saving = true ∧ alone.status = .captured :=
  ⟨fleet_shadows whiteEnv .empty .empty (bothLogins ++ inTurns 4) 0 strictEngines_shrink
    sampleTools_standard ∅ (fun _ h => absurd h Bool.false_ne_true) (by decide),
    by decide +kernel⟩

end Fleet

end SkinGetBE.NetherSession
