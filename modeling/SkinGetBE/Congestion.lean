import SkinGetBE.SessionJournal

/-!
# Congestion control

The window, its threshold, the timeout and the smoothed round trip of a session stay
within their bounds in every run. An acknowledgement lets the window grow, and a
datagram that is resent never does.
-/
namespace SkinGetBE.RakNet
open Octets Text Tables

theorem smoothRtt_between (prev rtt : ℕ) : min prev rtt ≤ smoothRtt (some prev) rtt ∧
    smoothRtt (some prev) rtt ≤ max prev rtt := by
  unfold smoothRtt
  dsimp only
  by_cases h : rtt ≥ prev
  · rw [if_pos h]
    omega
  · rw [if_neg h]
    omega

/-- The average stays above one of the samples that it is taken over. -/
theorem exists_le_smoothRtt {samples : List ℕ} {smoothed : Option ℕ} {rtt : ℕ}
    (hrtt : rtt ∈ samples) (h : ∀ prev, smoothed = some prev → ∃ lo ∈ samples, lo ≤ prev) :
    ∃ lo ∈ samples, lo ≤ smoothRtt smoothed rtt := by
  cases smoothed with
  | none => exact ⟨rtt, hrtt, le_rfl⟩
  | some prev =>
    obtain ⟨lo, hmem, hlo⟩ := h prev rfl
    have hmin := (smoothRtt_between prev rtt).1
    by_cases hle : prev ≤ rtt
    · exact ⟨lo, hmem, by omega⟩
    · exact ⟨rtt, hrtt, by omega⟩

theorem exists_smoothRtt_le {samples : List ℕ} {smoothed : Option ℕ} {rtt : ℕ}
    (hrtt : rtt ∈ samples) (h : ∀ prev, smoothed = some prev → ∃ hi ∈ samples, prev ≤ hi) :
    ∃ hi ∈ samples, smoothRtt smoothed rtt ≤ hi := by
  cases smoothed with
  | none => exact ⟨rtt, hrtt, le_rfl⟩
  | some prev =>
    obtain ⟨hi, hmem, hhi⟩ := h prev rfl
    have hmax := (smoothRtt_between prev rtt).2
    by_cases hle : rtt ≤ prev
    · exact ⟨hi, hmem, by omega⟩
    · exact ⟨rtt, hrtt, by omega⟩

/-- The round trip that an acknowledgement measures. -/
def SessionEvent.sample : SessionEvent → Option ℕ
  | acknowledged _ rtt => rtt
  | _ => none

def rttSamples (journal : List SessionEvent) : List ℕ := journal.filterMap SessionEvent.sample

/-- The bounds after a journal; the smoothed round trip, once it is set, lies between two of the
samples that were taken. -/
structure Controlled (journal : List SessionEvent) (c : ClientSession) : Prop where
  window : 1024 ≤ c.congestionWindowBytes
  threshold : 1024 ≤ c.slowStartThresholdBytes
  timeout_ge : millis 150 ≤ c.retransmitTimeout
  timeout_le : c.retransmitTimeout ≤ millis 2000
  smoothed_ge : ∀ rtt, c.smoothedRtt = some rtt → ∃ lo ∈ rttSamples journal, lo ≤ rtt
  smoothed_le : ∀ rtt, c.smoothedRtt = some rtt → ∃ hi ∈ rttSamples journal, rtt ≤ hi

variable {c c' : ClientSession} {journal added : List SessionEvent}

theorem controlled_new (connected : Bool) (raknetProtocol bedrockProtocol : ℕ) (version : Str) :
    Controlled [] (.new connected raknetProtocol bedrockProtocol version) where
  window := (by decide : 1024 ≤ 16 * 1024)
  threshold := (by decide : 1024 ≤ 64 * 1024)
  timeout_ge := (by decide : millis 150 ≤ millis 300)
  timeout_le := (by decide : millis 300 ≤ millis 2000)
  smoothed_ge rtt h := by cases h
  smoothed_le rtt h := by cases h

theorem mem_rttSamples_append {rtt : ℕ} (h : rtt ∈ rttSamples journal)
    (added : List SessionEvent) : rtt ∈ rttSamples (journal ++ added) := by
  unfold rttSamples
  rw [List.filterMap_append]
  exact List.mem_append_left _ h

/-- A change that spares the smoothed round trip. -/
theorem Controlled.of_smoothed (h : Controlled journal c) (c' : ClientSession)
    (hsmoothed : c'.smoothedRtt = c.smoothedRtt) (hwindow : 1024 ≤ c'.congestionWindowBytes)
    (hthreshold : 1024 ≤ c'.slowStartThresholdBytes) (hge : millis 150 ≤ c'.retransmitTimeout)
    (hle : c'.retransmitTimeout ≤ millis 2000) (added : List SessionEvent) :
    Controlled (journal ++ added) c' where
  window := hwindow
  threshold := hthreshold
  timeout_ge := hge
  timeout_le := hle
  smoothed_ge rtt hrtt := by
    obtain ⟨lo, hmem, hlo⟩ := h.smoothed_ge rtt (hsmoothed ▸ hrtt)
    exact ⟨lo, mem_rttSamples_append hmem added, hlo⟩
  smoothed_le rtt hrtt := by
    obtain ⟨hi, hmem, hhi⟩ := h.smoothed_le rtt (hsmoothed ▸ hrtt)
    exact ⟨hi, mem_rttSamples_append hmem added, hhi⟩

theorem growWindow_ge {c : ClientSession} (h : 1024 ≤ c.congestionWindowBytes) (sizeBytes : ℕ) :
    1024 ≤ growWindow c sizeBytes := by
  unfold growWindow saturatingSum
  split_ifs <;> omega

theorem Controlled.acknowledge (h : Controlled journal c) (now seq : ℕ) :
    Controlled (journal ++
      [.acknowledged seq ((c.pendingMessages.lookup seq).map fun msg => now - msg.lastSent)])
      (c.acknowledge now seq) := by
  unfold ClientSession.acknowledge
  cases hm : c.pendingMessages.lookup seq with
  | none => exact h.of_smoothed c rfl h.window h.threshold h.timeout_ge h.timeout_le _
  | some msg =>
    have hsample : now - msg.lastSent ∈ rttSamples (journal ++
        [.acknowledged seq ((some msg).map fun msg => now - msg.lastSent)]) := by
      unfold rttSamples
      rw [List.filterMap_append]
      exact List.mem_append_right _ (List.mem_singleton_self _)
    have h150 : millis 150 ≤ millis 2000 := by decide
    refine ⟨growWindow_ge h.window _, h.threshold, ?_, ?_, ?_, ?_⟩
    · dsimp only
      omega
    · exact Nat.min_le_right _ _
    · rintro rtt hrtt
      obtain rfl := Option.some.inj hrtt
      refine exists_le_smoothRtt hsample fun prev hprev => ?_
      obtain ⟨lo, hmem, hlo⟩ := h.smoothed_ge prev hprev
      exact ⟨lo, mem_rttSamples_append hmem _, hlo⟩
    · rintro rtt hrtt
      obtain rfl := Option.some.inj hrtt
      refine exists_smoothRtt_le hsample fun prev hprev => ?_
      obtain ⟨hi, hmem, hhi⟩ := h.smoothed_le prev hprev
      exact ⟨hi, mem_rttSamples_append hmem _, hhi⟩

/-- Resending halves the window, which stays above the smallest. -/
theorem resend_window (h : 1024 ≤ c.congestionWindowBytes) (now seq : ℕ) (msg : PendingMessage) :
    1024 ≤ (c.resend now seq msg).congestionWindowBytes ∧
      (c.resend now seq msg).congestionWindowBytes ≤ c.congestionWindowBytes := by
  unfold ClientSession.resend
  dsimp only
  omega

theorem Change.controlled (hchange : Change c added c') (h : Controlled journal c) :
    Controlled (journal ++ added) c' := by
  cases hchange with
  | transmit reliability datagram now =>
    unfold ClientSession.transmitted
    by_cases hr : hasReliable reliability
    · rw [if_pos hr]
      exact h.of_smoothed (registerPending _ _ _ (allocateSequence _ _).2) rfl h.window h.threshold
        h.timeout_ge h.timeout_le _
    · rw [if_neg hr]
      exact h.of_smoothed (allocateSequence _ _).2 rfl h.window h.threshold h.timeout_ge
        h.timeout_le _
  | acknowledge now seq => exact h.acknowledge now seq
  | resend now seq msg byWorker hm hdue =>
    have hge := h.timeout_ge
    have h150 : millis 150 ≤ millis 2000 := by decide
    refine h.of_smoothed (c.resend now seq msg) rfl (resend_window h.window now seq msg).1
      (Nat.le_max_right _ _) ?_ (Nat.min_le_right _ _) _
    unfold ClientSession.resend
    dsimp only
    omega
  | prune now =>
    exact h.of_smoothed (pruneSessionQueues c now) rfl h.window h.threshold h.timeout_ge
      h.timeout_le _

theorem Changes.controlled (hchanges : Changes c added c') (h : Controlled journal c) :
    Controlled (journal ++ added) c' := by
  induction hchanges with
  | refl => rwa [List.append_nil]
  | tail _ hchange ih =>
    rw [← List.append_assoc]
    exact hchange.controlled ih

/-- A change that only resends. -/
theorem Change.window_le (hchange : Change c added c') (hresent : ∀ e ∈ added, e.frame.isSome)
    (h : Controlled journal c) : c'.congestionWindowBytes ≤ c.congestionWindowBytes := by
  cases hchange with
  | transmit reliability datagram now =>
    have hsent := hresent _ (List.mem_singleton_self _)
    cases hsent
  | acknowledge now seq =>
    have hacked := hresent _ (List.mem_singleton_self _)
    cases hacked
  | resend now seq msg byWorker hm hdue => exact (resend_window h.window now seq msg).2
  | prune now => exact le_rfl

theorem Changes.window_le (hchanges : Changes c added c') (hresent : ∀ e ∈ added, e.frame.isSome)
    (h : Controlled journal c) : c'.congestionWindowBytes ≤ c.congestionWindowBytes := by
  induction hchanges with
  | refl => exact le_rfl
  | tail hchanges hchange ih =>
    have hfirst := ih fun e he => hresent e (List.mem_append_left _ he)
    exact (hchange.window_le (fun e he => hresent e (List.mem_append_right _ he))
      (hchanges.controlled h)).trans hfirst

section Run

variable {env : ServerEnv} {addr : SocketAddr} {s : ServerState}

theorem queueEvents_resent (byWorker : Bool) (seq : ℕ) (pending : Option PendingMessage) :
    ∀ e ∈ queueEvents byWorker seq pending, e.frame.isSome := by
  intro e he
  cases pending with
  | none => exact absurd he List.not_mem_nil
  | some msg =>
    obtain rfl := List.mem_singleton.mp he
    rfl

theorem nackEvents_resent (seqs : List ℕ) (s : ServerState) :
    ∀ e ∈ nackEvents env addr s seqs, e.frame.isSome := by
  induction seqs generalizing s with
  | nil => exact fun e he => absurd he List.not_mem_nil
  | cons seq seqs ih =>
    unfold nackEvents
    intro e he
    rcases List.mem_append.mp he with he | he
    · exact queueEvents_resent _ _ _ e he
    · exact ih _ e he

theorem workerEvents_resent (now : ℕ) (keys : List ℕ) (c : ClientSession) :
    ∀ e ∈ workerEvents now c keys, e.frame.isSome := by
  induction keys generalizing c with
  | nil => exact fun e he => absurd he List.not_mem_nil
  | cons seq keys ih =>
    unfold workerEvents
    intro e he
    rcases List.mem_append.mp he with he | he
    · exact queueEvents_resent _ _ _ e he
    · exact ih _ e he

/-- An operation of which every event resends. -/
theorem operation_window_le (parse : Str → Option SocketAddr) (operation : SessionOperation)
    (hc : s.session addr = some c) (h : Controlled journal c)
    (hresent : ∀ e ∈ operation.events env parse addr s, e.frame.isSome) : ∃ c',
      (operation.apply env parse addr s).session addr = some c' ∧
      c'.congestionWindowBytes ≤ c.congestionWindowBytes := by
  obtain ⟨c', hc', hchanges, -⟩ := operation_changes env parse operation hc
  exact ⟨c', hc', hchanges.window_le hresent h⟩

theorem tick_resent (parse : Str → Option SocketAddr) (s : ServerState) :
    ∀ e ∈ SessionOperation.tick.events env parse addr s, e.frame.isSome := by
  unfold SessionOperation.events
  dsimp only
  by_cases hparse : (parse addr.display).isSome
  · rw [if_pos hparse]
    exact workerEvents_resent _ _ _
  · rw [if_neg hparse]
    exact fun e he => absurd he List.not_mem_nil

end Run

/-- After every run of a session its congestion state is within the bounds, and neither a request
to resend nor the worker raises the window. -/
theorem congestion_controlled (env : ServerEnv) (parse : Str → Option SocketAddr)
    (addr : SocketAddr) (s : ServerState) (connected : Bool) (raknetProtocol bedrockProtocol : ℕ)
    (version : Str)
    (hnew : s.session addr = some (.new connected raknetProtocol bedrockProtocol version))
    (operations : List SessionOperation) :
    let run := runSession env parse addr s operations
    ∃ c, run.session addr = some c ∧ Controlled (journalOf env parse addr s operations) c ∧
      (∀ data, ∃ c', (handleNackPacket env addr run data).session addr = some c' ∧
        c'.congestionWindowBytes ≤ c.congestionWindowBytes) ∧
      ∃ c', (resendRound env parse run).session addr = some c' ∧
        c'.congestionWindowBytes ≤ c.congestionWindowBytes := by
  obtain ⟨c, hc, hchanges⟩ := runSession_changes env parse operations hnew
  have hcontrolled := hchanges.controlled (controlled_new _ _ _ _)
  exact ⟨c, hc, hcontrolled,
    fun data => operation_window_le parse (.nack data) hc hcontrolled (nackEvents_resent _ _),
    operation_window_le parse .tick hc hcontrolled (tick_resent parse _)⟩

/-- A datagram is asked for again before it is acknowledged. -/
def resentOnce : List SessionOperation :=
  [.send [7] 3, .nack (0xA0 :: (ackDatagram 1).tail), .tick, .ack (ackDatagram 1), .prune]

theorem congestion_controlled_resentOnce :
    let run := runSession (.quiet 1492) (fun _ => some loopback) loopback
      (freshServer 1492 loopback) resentOnce
    ∃ c, run.session loopback = some c ∧
      Controlled (journalOf (.quiet 1492) (fun _ => some loopback) loopback
        (freshServer 1492 loopback) resentOnce) c ∧
      (∀ data, ∃ c', (handleNackPacket (.quiet 1492) loopback run data).session loopback = some c' ∧
        c'.congestionWindowBytes ≤ c.congestionWindowBytes) ∧
      ∃ c', (resendRound (.quiet 1492) (fun _ => some loopback) run).session loopback = some c' ∧
        c'.congestionWindowBytes ≤ c.congestionWindowBytes :=
  congestion_controlled (.quiet 1492) (fun _ => some loopback) loopback (freshServer 1492 loopback)
    true 0 924 "1.26.0".toList rfl resentOnce

end SkinGetBE.RakNet
