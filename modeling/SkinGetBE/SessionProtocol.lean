import SkinGetBE.NetherSession

/-!
# The protocol of a session

Whatever arrives, in whatever order, a session answers each request for the
network settings once, and ends with at most one capture and one bundle.
-/
namespace SkinGetBE.NetherSession
open Octets Text

def networkSettingsBatch : Bytes := (writePackets [buildNetworkSettings]).data

theorem buildSingleBatch_networkSettings (flate : Flate2) :
    buildSingleBatch flate buildNetworkSettings false = some networkSettingsBatch := by
  simp [buildSingleBatch, buildBatch, networkSettingsBatch]

/-- The session goes on: nothing, a record of the packet, or the network settings. -/
inductive Continues (s : SessionState) : SessionState → Prop
  | empty : Continues s s
  | ignored (packetId : ℕ) (h : packetId ≠ 0xc1) : Continues s (s.record [.handle packetId])
  | settings : Continues s ({ s with compressionEnabled := true }.record
      [.handle 0xc1, .send networkSettingsBatch])

theorem handlePacket_cases (env : SessionEnv) (s : SessionState) (pkt : Bytes) :
    Continues s (handlePacket env s pkt) ∨
      ∃ parsed, handlePacket env s pkt = captureLogin env (s.record [.handle 0x01]) parsed := by
  cases pkt with
  | nil => exact .inl .empty
  | cons first rest =>
    unfold handlePacket
    dsimp only
    generalize readPacketId first (first :: rest) = read
    obtain ⟨packetId, buf⟩ := read
    dsimp only
    split_ifs with h1 h2
    · left
      have hset : handleNetworkSettings env (s.record [.handle 0xc1]) =
          { s with compressionEnabled := true }.record
            [.handle 0xc1, .send networkSettingsBatch] := by
        simp [handleNetworkSettings, buildSingleBatch_networkSettings, SessionState.record]
      rw [h1, hset]
      exact .settings
    · rw [h2]
      unfold handleLogin
      obtain ⟨parsed, hp⟩ := parseLoginPacket_ok env.engines buf.readRemaining.1
      rw [hp]
      cases parsed with
      | none => exact .inl (.ignored 0x01 (by decide))
      | some parsed => exact .inr ⟨parsed, rfl⟩
    · exact .inl (.ignored packetId h1)

/-- A capture ends in its bundle, or in a call that does not return. -/
inductive Captures (env : SessionEnv) (s : SessionState) (parsed : ParsedLoginPacket) :
    SessionState → Prop
  | stuck (s' : SessionState) (mid : List Action) (hstatus : s'.status = .stuck)
      (hflag : s'.compressionEnabled = s.compressionEnabled)
      (htrace : s'.trace = s.trace ++ (.capture parsed :: mid)) (hids : handledIds mid = [])
      (hsent : sentMessages mid = []) (hcaps : captures mid = []) : Captures env s parsed s'
  | captured (s' : SessionState) (mid : List Action) (bundle : Bytes)
      (hstatus : s'.status = .captured) (hflag : s'.compressionEnabled = s.compressionEnabled)
      (htrace : s'.trace = s.trace ++ (.capture parsed :: mid) ++
        [.send bundle, .sleep 500, .close])
      (hids : handledIds mid = []) (hsent : sentMessages mid = []) (hcaps : captures mid = [])
      (hbundle : buildBatch env.tools.flate closingPackets s.compressionEnabled = some bundle) :
      Captures env s parsed s'

theorem captureLogin_cases (env : SessionEnv) (s : SessionState) (parsed : ParsedLoginPacket) :
    Captures env s parsed (captureLogin env s parsed) := by
  have bundle (s' : SessionState) (mid : List Action)
      (hflag : s'.compressionEnabled = s.compressionEnabled)
      (htrace : s'.trace = s.trace ++ (.capture parsed :: mid)) (hids : handledIds mid = [])
      (hsent : sentMessages mid = []) (hcaps : captures mid = []) :
      Captures env s parsed (sendBundle env s') := by
    unfold sendBundle
    cases hb : buildBatch env.tools.flate closingPackets s'.compressionEnabled with
    | none => exact .stuck _ mid rfl hflag htrace hids hsent hcaps
    | some b =>
      refine .captured _ mid b rfl hflag ?_ hids hsent hcaps (hflag ▸ hb)
      simp [SessionState.record, htrace]
  unfold captureLogin
  dsimp only
  cases ExtractedSkin.new parsed.skinWidth parsed.skinHeight parsed.skinData with
  | error e =>
    exact bundle _ [.rejected e] rfl (by simp [SessionState.record]) rfl rfl rfl
  | ok skin =>
    dsimp only
    split
    · exact .stuck _ [] rfl rfl rfl rfl rfl rfl
    · next result fs _ =>
      exact bundle _ [.saved result] rfl (by simp [SessionState.record]) rfl rfl rfl

/-- Every request handled was answered, and nothing else was sent. -/
def Answered (trace : List Action) : Prop :=
  sentMessages trace = List.replicate ((handledIds trace).count 0xc1) networkSettingsBatch

theorem Answered.append {a b : List Action} (ha : Answered a) (hb : Answered b) :
    Answered (a ++ b) := by
  unfold Answered at *
  rw [sentMessages_append, handledIds_append, List.count_append, ha, hb, List.replicate_add]

theorem answered_of_silent {mid : List Action} (hids : handledIds mid = [])
    (hsent : sentMessages mid = []) : Answered mid := by
  simp [Answered, hids, hsent]

theorem answered_ignored {packetId : ℕ} (h : packetId ≠ 0xc1) :
    Answered [.handle packetId] := by
  simp [Answered, handledIds, sentMessages, h]

theorem answered_settings : Answered [.handle 0xc1, .send networkSettingsBatch] := rfl

/-- What the trace looks like at each status. -/
def Outcome (env : SessionEnv) (s : SessionState) : Prop :=
  match s.status with
  | .captured => ∃ front bundle, s.trace = front ++ [.send bundle, .sleep 500, .close] ∧
      Answered front ∧ (captures front).length = 1 ∧
      buildBatch env.tools.flate closingPackets s.compressionEnabled = some bundle
  | .stuck => Answered s.trace ∧ (captures s.trace).length = 1
  | _ => Answered s.trace ∧ captures s.trace = []

structure Consistent (env : SessionEnv) (s : SessionState) : Prop where
  flag : s.compressionEnabled = true ↔ 0xc1 ∈ handledIds s.trace
  outcome : Outcome env s

theorem start_consistent (env : SessionEnv) (fs : FileSystem) :
    Consistent env (.start fs) := ⟨by simp [SessionState.start, handledIds], rfl, rfl⟩

theorem Outcome.of_running {env : SessionEnv} {s : SessionState} (h : Outcome env s)
    (hr : s.status = .running) : Answered s.trace ∧ captures s.trace = [] := by
  unfold Outcome at h
  rw [hr] at h
  exact h

theorem outcome_of_running {env : SessionEnv} {s : SessionState} (hr : s.status = .running)
    (h : Answered s.trace ∧ captures s.trace = []) : Outcome env s := by
  unfold Outcome
  rw [hr]
  exact h

theorem continues_consistent {env : SessionEnv} {s s' : SessionState} (hs : Consistent env s)
    (hr : s.status = .running) (h : Continues s s') :
    Consistent env s' ∧ s'.status = .running := by
  obtain ⟨hans, hcap⟩ := hs.outcome.of_running hr
  cases h with
  | empty => exact ⟨hs, hr⟩
  | ignored packetId hne =>
    refine ⟨⟨?_, ?_⟩, hr⟩
    · have hn : 0xc1 ∉ handledIds [.handle packetId] := by simp [handledIds, Ne.symm hne]
      simp only [SessionState.record, handledIds_append, List.mem_append, hn, or_false]
      exact hs.flag
    · refine outcome_of_running (by exact hr) ?_
      constructor
      · exact hans.append (answered_ignored hne)
      · rw [SessionState.record, captures_append, hcap]
        rfl
  | settings =>
    refine ⟨⟨?_, ?_⟩, hr⟩
    · simp [SessionState.record, handledIds]
    · refine outcome_of_running (by exact hr) ?_
      constructor
      · exact hans.append answered_settings
      · rw [SessionState.record, captures_append, hcap]
        rfl

theorem captures_consistent {env : SessionEnv} {s s' : SessionState} (hs : Consistent env s)
    (hr : s.status = .running) {parsed : ParsedLoginPacket}
    (h : Captures env (s.record [.handle 0x01]) parsed s') :
    Consistent env s' ∧ s'.status ≠ .running := by
  obtain ⟨hans, hcap⟩ := hs.outcome.of_running hr
  have hflag := hs.flag
  have hhandle : Answered (s.trace ++ [.handle 0x01]) := hans.append (answered_ignored (by decide))
  have front {mid : List Action} (hids : handledIds mid = []) (hsent : sentMessages mid = [])
      (hcaps : captures mid = []) :
      Answered ((s.record [.handle 0x01]).trace ++ (.capture parsed :: mid)) ∧
        (captures ((s.record [.handle 0x01]).trace ++ (.capture parsed :: mid))).length = 1 ∧
        handledIds ((s.record [.handle 0x01]).trace ++ (.capture parsed :: mid)) =
          handledIds s.trace ++ [0x01] := by
    have hids' : handledIds (.capture parsed :: mid) = [] := by simpa [handledIds] using hids
    have hsent' : sentMessages (.capture parsed :: mid) = [] := by
      simpa [sentMessages] using hsent
    have hcaps' : captures (.capture parsed :: mid) = [parsed] := by
      simpa [captures] using hcaps
    refine ⟨hhandle.append (answered_of_silent hids' hsent'), ?_, ?_⟩
    · rw [captures_append, hcaps', SessionState.record, captures_append, hcap]
      rfl
    · rw [handledIds_append, hids', List.append_nil, SessionState.record, handledIds_append]
      rfl
  cases h with
  | stuck mid hstatus hflag' htrace hids hsent hcaps =>
    obtain ⟨h1, h2, h3⟩ := front hids hsent hcaps
    refine ⟨⟨?_, ?_⟩, by simp [hstatus]⟩
    · rw [hflag', htrace, h3]
      simpa [SessionState.record] using hflag
    · unfold Outcome
      rw [hstatus, htrace]
      exact ⟨h1, h2⟩
  | captured mid bundle hstatus hflag' htrace hids hsent hcaps hbundle =>
    obtain ⟨h1, h2, h3⟩ := front hids hsent hcaps
    refine ⟨⟨?_, ?_⟩, by simp [hstatus]⟩
    · rw [hflag', htrace, handledIds_append, h3]
      simpa [SessionState.record, handledIds] using hflag
    · unfold Outcome
      rw [hstatus, hflag']
      exact ⟨_, bundle, htrace, h1, h2, hbundle⟩

theorem handlePacket_consistent {env : SessionEnv} {s : SessionState} (hs : Consistent env s)
    (hr : s.status = .running) (pkt : Bytes) : Consistent env (handlePacket env s pkt) := by
  rcases handlePacket_cases env s pkt with h | ⟨parsed, h⟩
  · exact (continues_consistent hs hr h).1
  · rw [h]
    exact (captures_consistent hs hr (captureLogin_cases env _ parsed)).1

theorem handlePackets_consistent {env : SessionEnv} {s : SessionState} (hs : Consistent env s)
    (hr : s.status = .running) (packets : List Bytes) :
    Consistent env (handlePackets env s packets) := by
  induction packets generalizing s with
  | nil => exact hs
  | cons pkt packets ih =>
    have hp := handlePacket_consistent hs hr pkt
    unfold handlePackets
    dsimp only
    split
    · next h => exact ih hp h
    · exact hp

theorem handleMessage_consistent {env : SessionEnv} {s : SessionState} (hs : Consistent env s)
    (hr : s.status = .running) (bytes : Bytes) : Consistent env (handleMessage env s bytes) := by
  unfold handleMessage
  split
  · exact hs
  · exact handlePackets_consistent hs hr _

/-- A change of the open channels, or the end of the loop, leaves the trace as it is. -/
theorem consistent_of_trace {env : SessionEnv} {s s' : SessionState} (hs : Consistent env s)
    (hr : s.status = .running) (ht : s'.trace = s.trace)
    (hf : s'.compressionEnabled = s.compressionEnabled) (hc : s'.status ≠ .captured)
    (hk : s'.status ≠ .stuck) : Consistent env s' := by
  refine ⟨by rw [hf, ht]; exact hs.flag, ?_⟩
  have h := hs.outcome.of_running hr
  unfold Outcome
  split
  · contradiction
  · contradiction
  · rwa [ht]

theorem step_consistent {env : SessionEnv} {s : SessionState} (hs : Consistent env s)
    (event : Channel × Received) : Consistent env (step env s event) := by
  unfold step
  split_ifs with h
  · exact hs
  · have hr : s.status = .running := by
      by_contra hn
      exact h (.inl hn)
    obtain ⟨channel, received⟩ := event
    cases received with
    | data bytes => exact handleMessage_consistent hs hr bytes
    | failed message =>
      exact consistent_of_trace hs hr (by rfl) (by rfl) (by simp) (by simp)
    | closed =>
      dsimp only
      split_ifs
      · apply consistent_of_trace hs hr <;> cases channel <;> simp [SessionState.closeChannel, hr]
      · apply consistent_of_trace hs hr <;> cases channel <;> simp [SessionState.closeChannel]

theorem handleSession_consistent {env : SessionEnv} {s : SessionState} (hs : Consistent env s)
    (events : List (Channel × Received)) : Consistent env (handleSession env s events) := by
  unfold handleSession
  induction events generalizing s with
  | nil => exact hs
  | cons event events ih => exact ih (step_consistent hs event)

theorem handleSession_finished {env : SessionEnv} {s : SessionState} (h : s.status ≠ .running)
    (events : List (Channel × Received)) : handleSession env s events = s := by
  unfold handleSession
  induction events with
  | nil => rfl
  | cons event events ih =>
    rw [List.foldl_cons]
    have hs : step env s event = s := if_pos (.inl h)
    rw [hs, ih]

/-- Empty, of an unknown kind, or a Login that is not recognized. -/
def IgnoredPacket (env : SessionEnv) : Bytes → Prop
  | [] => True
  | first :: rest =>
    let read := readPacketId first (first :: rest)
    read.1 ≠ 0xc1 ∧ (read.1 = 0x01 →
      parseLoginPacket env.engines read.2.readRemaining.1 = some (.ok none))

/-- Nothing but the record of handled packets is added to the state. -/
def OnlyRecords (s s' : SessionState) : Prop :=
  ∃ ids : List ℕ, s' = s.record (ids.map .handle)

theorem OnlyRecords.refl (s : SessionState) : OnlyRecords s s :=
  ⟨[], by simp [SessionState.record]⟩

theorem OnlyRecords.trans {a b c : SessionState} (h1 : OnlyRecords a b) (h2 : OnlyRecords b c) :
    OnlyRecords a c := by
  obtain ⟨ids, rfl⟩ := h1
  obtain ⟨ids', rfl⟩ := h2
  exact ⟨ids ++ ids', by simp [SessionState.record]⟩

theorem handlePacket_ignored {env : SessionEnv} (s : SessionState) {pkt : Bytes}
    (h : IgnoredPacket env pkt) : OnlyRecords s (handlePacket env s pkt) := by
  cases pkt with
  | nil => exact .refl s
  | cons first rest =>
    obtain ⟨hid, hlogin⟩ := h
    have hp : handlePacket env s (first :: rest) = s.record
        [.handle (readPacketId first (first :: rest)).1] := by
      unfold handlePacket
      dsimp only
      rw [if_neg hid]
      split_ifs with h1
      · simp only [handleLogin, hlogin h1]
      · rfl
    rw [hp]
    exact ⟨[_], rfl⟩

end SkinGetBE.NetherSession
