import SkinGetBE.CaptureSession
import SkinGetBE.SavesApart

/-!
# Sessions that are served at the same time

Every accepted session is a task of its own. The tasks share nothing but the directory
of the skins, so that a task handles what it receives in one piece up to a login, and
takes the save of the login in single steps, between which others take theirs.
-/
namespace SkinGetBE.NetherSession
open Octets Text

/-- The memory of a session, whose files are not its own, and whether a save is under way. -/
structure Task where
  memory : SessionState
  saving : Bool

/-- The sessions in the order of their acceptance. One that has not been accepted yet has received
nothing. -/
structure Fleet where
  skins : SharedSkins
  tasks : ℕ → Task

inductive FleetEvent
  | receive (i : ℕ) (channel : Channel) (received : Received)
  | proceed (i : ℕ)

/-- The login that a packet is parsed as. -/
def carriedLogin (env : SessionEnv) (pkt : Bytes) : Option ParsedLoginPacket :=
  match pkt with
  | [] => none
  | first :: _ =>
    let (packetId, buf) := readPacketId first pkt
    if packetId = 0x01 then
      match parseLoginPacket env.engines buf.readRemaining.1 with
      | none => none
      | some (.ok parsed) => parsed
      | some (.error _) => none
    else none

/-- The packets before the first login, and that login. -/
def untilLogin (env : SessionEnv) (s : SessionState) :
    List Bytes → SessionState × Option ParsedLoginPacket
  | [] => (s, none)
  | pkt :: packets =>
    match carriedLogin env pkt with
    | some parsed => (s.record [.handle 0x01], some parsed)
    | none =>
      let s := handlePacket env s pkt
      if s.status = .running then untilLogin env s packets else (s, none)

/-- What a call stands for that no session has begun. -/
def noCapture : LoginCapture :=
  ⟨[], [], ⟨none, none, none, none, none, none, none, none, none⟩, ⟨1, 1, []⟩⟩

namespace Fleet

def setTask (f : Fleet) (i : ℕ) (task : Task) : Fleet :=
  { f with tasks := Function.update f.tasks i task }

/-- The call of the session begins. -/
def beginSave (env : SessionEnv) (skins : SharedSkins) (i : ℕ) (capture : LoginCapture) :
    SharedSkins :=
  let phase := if env.savemode = 0 then .returned (some (.ok none)) else .start
  { skins with calls := Function.update skins.calls i ⟨capture, phase⟩ }

def beginCapture (env : SessionEnv) (f : Fleet) (i : ℕ) (s : SessionState)
    (parsed : ParsedLoginPacket) : Fleet :=
  let s := s.record [.capture parsed]
  match ExtractedSkin.new parsed.skinWidth parsed.skinHeight parsed.skinData with
  | .error e => f.setTask i ⟨sendBundle env (s.record [.rejected e]), false⟩
  | .ok skin =>
    { f with skins := beginSave env f.skins i (captureOf parsed skin) }.setTask i ⟨s, true⟩

def handlePackets (env : SessionEnv) (f : Fleet) (i : ℕ) (packets : List Bytes) : Fleet :=
  match untilLogin env (f.tasks i).memory packets with
  | (s, none) => f.setTask i ⟨s, false⟩
  | (s, some parsed) => f.beginCapture env i s parsed

/-- A session that saves has left its loop. -/
def receive (env : SessionEnv) (f : Fleet) (i : ℕ) (channel : Channel) (received : Received) :
    Fleet :=
  let task := f.tasks i
  if task.saving ∨ task.memory.status ≠ .running ∨ task.memory.isOpen channel = false then f
  else
    match received with
    | .data bytes =>
      match openMessage env.tools.flate task.memory.compressionEnabled bytes with
      | none => f
      | some packets => f.handlePackets env i packets
    | .closed => f.setTask i ⟨step env task.memory (channel, .closed), false⟩
    | .failed message => f.setTask i ⟨step env task.memory (channel, .failed message), false⟩

/-- What is left to do once the call has returned, or when it panics. -/
def finishSave (env : SessionEnv) (s : SessionState) :
    Option (Except Error (Option Str)) → SessionState
  | none => { s with status := .stuck }
  | some result => sendBundle env (s.record [.saved result])

/-- A call that overwrites takes the plain name. -/
def skipSearch (savemode : ℕ) (skins : SharedSkins) (i : ℕ) : SharedSkins :=
  if savemode = 1 ∧ (skins.calls i).phase = .png none then skins.moveTo i (.image none) else skins

/-- One step of the save of a session. -/
def proceed (env : SessionEnv) (f : Fleet) (i : ℕ) : Fleet :=
  if (f.tasks i).saving then
    match (f.skins.calls i).phase with
    | .returned result => f.setTask i ⟨finishSave env (f.tasks i).memory result, false⟩
    | _ => { f with
        skins := skipSearch env.savemode (f.skins.step env.tools env.baseDir i) i }
  else f

def step (env : SessionEnv) (f : Fleet) : FleetEvent → Fleet
  | .receive i channel received => f.receive env i channel received
  | .proceed i => f.proceed env i

def run (env : SessionEnv) (f : Fleet) (events : List FleetEvent) : Fleet :=
  events.foldl (step env) f

/-- The program before the first session. -/
def start (fs : FileSystem) : Fleet :=
  ⟨.begin fs fun _ => noCapture, fun _ => ⟨.start fs, false⟩⟩

end Fleet

/-- What a session has received. -/
def receptions (i : ℕ) (events : List FleetEvent) : List (Channel × Received) :=
  events.filterMap fun
    | .receive j channel received => if j = i then some (channel, received) else none
    | .proceed _ => none


variable {env : SessionEnv} {s : SessionState} {parsed : ParsedLoginPacket} {pkt : Bytes}
  {f : Fleet} {i j : ℕ}

theorem handlePacket_carried (s : SessionState) (h : carriedLogin env pkt = some parsed) :
    handlePacket env s pkt = captureLogin env (s.record [.handle 0x01]) parsed := by
  unfold carriedLogin at h
  cases pkt with
  | nil => cases h
  | cons first rest =>
    unfold handlePacket
    dsimp only at h ⊢
    generalize readPacketId first (first :: rest) = read at h
    obtain ⟨packetId, buf⟩ := read
    dsimp only at h ⊢
    by_cases hid : packetId = 0x01
    · have hother : ¬ packetId = 0xc1 := by omega
      rw [if_pos hid] at h ⊢
      rw [if_neg hother, hid]
      unfold handleLogin
      obtain ⟨found, hparse⟩ := parseLoginPacket_ok env.engines buf.readRemaining.1
      rw [hparse] at h ⊢
      obtain rfl : found = some parsed := h
      rfl
    · rw [if_neg hid] at h
      cases h

/-- What a packet without a login is answered with, in every state. -/
inductive Answers (env : SessionEnv) (pkt : Bytes) : Prop
  | silent (h : ∀ s, handlePacket env s pkt = s)
  | noted (packetId : ℕ) (hne : packetId ≠ 0xc1)
      (h : ∀ s, handlePacket env s pkt = s.record [.handle packetId])
  | settings (h : ∀ s, handlePacket env s pkt =
      { s with compressionEnabled := true }.record [.handle 0xc1, .send networkSettingsBatch])

theorem handlePacket_answers (h : carriedLogin env pkt = none) : Answers env pkt := by
  unfold carriedLogin at h
  cases pkt with
  | nil => exact .silent fun s => rfl
  | cons first rest =>
    dsimp only at h
    cases hread : readPacketId first (first :: rest) with
    | mk packetId buf =>
      rw [hread] at h
      dsimp only at h
      have hpacket : ∀ s, handlePacket env s (first :: rest) =
          if packetId = 0xc1 then handleNetworkSettings env (s.record [.handle packetId])
          else if packetId = 0x01 then
            handleLogin env (s.record [.handle packetId]) buf.readRemaining.1
          else s.record [.handle packetId] := by
        intro s
        unfold handlePacket
        dsimp only
        rw [hread]
      by_cases hsettings : packetId = 0xc1
      · refine .settings fun s => ?_
        rw [hpacket, if_pos hsettings, hsettings]
        unfold handleNetworkSettings
        rw [buildSingleBatch_networkSettings]
        dsimp only [SessionState.record]
        rw [List.append_assoc]
        rfl
      · refine .noted packetId hsettings fun s => ?_
        rw [hpacket, if_neg hsettings]
        by_cases hid : packetId = 0x01
        · rw [if_pos hid] at h ⊢
          unfold handleLogin
          obtain ⟨found, hparse⟩ := parseLoginPacket_ok env.engines buf.readRemaining.1
          rw [hparse] at h ⊢
          obtain rfl : found = none := h
          rfl
        · rw [if_neg hid]

/-- The same state over other files. -/
def SessionState.over (s : SessionState) (fs : FileSystem) : SessionState := { s with fs := fs }

/-- What stays of a session that handles packets without a login. -/
structure Unsaved (s s' : SessionState) : Prop where
  fs : s'.fs = s.fs
  status : s'.status = s.status
  captures : captures s'.trace = captures s.trace

theorem Answers.over (h : Answers env pkt) (s : SessionState) (fs : FileSystem) :
    handlePacket env (s.over fs) pkt = (handlePacket env s pkt).over fs := by
  cases h with
  | silent h => rw [h, h]
  | noted packetId hne h => rw [h, h]; rfl
  | settings h => rw [h, h]; rfl

theorem Answers.unsaved (h : Answers env pkt) (s : SessionState) :
    Unsaved s (handlePacket env s pkt) := by
  cases h with
  | silent h => rw [h]; exact ⟨rfl, rfl, rfl⟩
  | noted packetId hne h =>
    rw [h]
    exact ⟨rfl, rfl, by simp [SessionState.record, captures]⟩
  | settings h =>
    rw [h]
    exact ⟨rfl, rfl, by simp [SessionState.record, captures]⟩

theorem Unsaved.trans {s' s'' : SessionState} (h : Unsaved s s') (h' : Unsaved s' s'') :
    Unsaved s s'' := ⟨h'.fs.trans h.fs, h'.status.trans h.status, h'.captures.trans h.captures⟩

/-- A message in one piece: the packets up to a login, and its capture. -/
theorem handlePackets_untilLogin (hrun : s.status = .running) (packets : List Bytes) :
    handlePackets env s packets = match untilLogin env s packets with
      | (s', none) => s'
      | (s', some parsed) => captureLogin env s' parsed := by
  induction packets generalizing s with
  | nil => rfl
  | cons pkt packets ih =>
    unfold handlePackets untilLogin
    cases hlogin : carriedLogin env pkt with
    | some parsed =>
      dsimp only
      rw [handlePacket_carried s hlogin, if_neg (captureLogin_status _ parsed)]
    | none =>
      have hnext : (handlePacket env s pkt).status = .running :=
        ((handlePacket_answers hlogin).unsaved s).status.trans hrun
      dsimp only
      rw [if_pos hnext, if_pos hnext]
      exact ih hnext

theorem untilLogin_over (env : SessionEnv) (s : SessionState) (fs : FileSystem)
    (packets : List Bytes) :
    untilLogin env (s.over fs) packets =
      ((untilLogin env s packets).1.over fs, (untilLogin env s packets).2) := by
  induction packets generalizing s with
  | nil => rfl
  | cons pkt packets ih =>
    unfold untilLogin
    cases hlogin : carriedLogin env pkt with
    | some parsed => rfl
    | none =>
      have hover := (handlePacket_answers hlogin).over s fs
      have hstatus :
          (handlePacket env (s.over fs) pkt).status = (handlePacket env s pkt).status := by
        rw [hover]
        rfl
      dsimp only
      rw [hstatus]
      split_ifs
      · rw [hover]
        exact ih _
      · rw [hover]

theorem untilLogin_unsaved (env : SessionEnv) (s : SessionState) (packets : List Bytes) :
    Unsaved s (untilLogin env s packets).1 := by
  induction packets generalizing s with
  | nil => exact ⟨rfl, rfl, rfl⟩
  | cons pkt packets ih =>
    unfold untilLogin
    cases hlogin : carriedLogin env pkt with
    | some parsed => exact ⟨rfl, rfl, by simp [SessionState.record, captures]⟩
    | none =>
      have hfirst := (handlePacket_answers hlogin).unsaved s
      dsimp only
      split_ifs
      · exact hfirst.trans (ih _)
      · exact hfirst

end SkinGetBE.NetherSession
