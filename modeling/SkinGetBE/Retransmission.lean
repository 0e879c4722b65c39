import SkinGetBE.AckEffects
import SkinGetBE.Congestion

/-!
# Retransmission

What is queued for resending, by a request of the peer or by the worker, is the
datagram that was sent under its number, and no acknowledgement has named that
number. An acknowledgement names the 24 bits that the header carries, so a session
that counts beyond them resends what has been acknowledged. Every turn of the worker
leaves one attempt more behind, so it queues a datagram four times at the most.
-/
namespace SkinGetBE.RakNet
open Octets Text Tables

def SessionEvent.sentNumber : SessionEvent → Option ℕ
  | sent seq _ => some seq
  | _ => none

/-- The numbers of the datagrams that were sent. -/
def sentNumbers (journal : List SessionEvent) : List ℕ :=
  journal.filterMap SessionEvent.sentNumber

/-- The datagram was sent under the number, and no acknowledgement has named `key` since. -/
def AwaitsAck (key : ℕ) (journal : List SessionEvent) (seq : ℕ) (datagram : Bytes) : Prop :=
  ∃ earlier since, journal = earlier ++ .sent seq datagram :: since ∧
    ∀ rtt, SessionEvent.acknowledged key rtt ∉ since

/-- The number in the header of the datagram has not been acknowledged since it was sent. -/
def Outstanding (journal : List SessionEvent) (seq : ℕ) (datagram : Bytes) : Prop :=
  AwaitsAck (seq % 2 ^ 24) journal seq datagram

def SessionEvent.isWorkerResend (seq : ℕ) : SessionEvent → Bool
  | resent byWorker seq' _ => byWorker && seq' == seq
  | _ => false

/-- How often the worker has queued the number. -/
def workerResends (journal : List SessionEvent) (seq : ℕ) : ℕ :=
  journal.countP (SessionEvent.isWorkerResend seq)

variable {c c' : ClientSession} {journal added : List SessionEvent} {seq : ℕ} {datagram : Bytes}

theorem sentNumbers_append (journal added : List SessionEvent) :
    sentNumbers (journal ++ added) = sentNumbers journal ++ sentNumbers added :=
  List.filterMap_append

theorem workerResends_append (journal added : List SessionEvent) (seq : ℕ) :
    workerResends (journal ++ added) seq = workerResends journal seq + workerResends added seq :=
  List.countP_append

/-- Events that do not acknowledge the number. -/
theorem AwaitsAck.append {key : ℕ} (h : AwaitsAck key journal seq datagram)
    (hadded : ∀ rtt, SessionEvent.acknowledged key rtt ∉ added) :
    AwaitsAck key (journal ++ added) seq datagram := by
  obtain ⟨earlier, since, rfl, hsince⟩ := h
  refine ⟨earlier, since ++ added, by rw [List.append_assoc, List.cons_append], fun rtt hmem => ?_⟩
  rcases List.mem_append.mp hmem with hmem | hmem
  · exact hsince rtt hmem
  · exact hadded rtt hmem

theorem AwaitsAck.mem_sentNumbers {key : ℕ} (h : AwaitsAck key journal seq datagram) :
    seq ∈ sentNumbers journal := by
  obtain ⟨earlier, since, rfl, -⟩ := h
  rw [sentNumbers_append]
  exact List.mem_append_right _ List.mem_cons_self

/-- One datagram for each number, when the numbers are distinct. -/
theorem sent_unique {other : Bytes} (hdistinct : (sentNumbers journal).Nodup)
    (h : SessionEvent.sent seq datagram ∈ journal) (h' : SessionEvent.sent seq other ∈ journal) :
    datagram = other := by
  induction journal with
  | nil => exact absurd h List.not_mem_nil
  | cons e journal ih =>
    have hmem {d : Bytes} (hd : SessionEvent.sent seq d ∈ journal) : seq ∈ sentNumbers journal :=
      List.mem_filterMap.mpr ⟨_, hd, rfl⟩
    rw [← List.singleton_append, sentNumbers_append, List.nodup_append'] at hdistinct
    obtain ⟨-, hrest, hapart⟩ := hdistinct
    rcases List.mem_cons.mp h with rfl | hin
    · rcases List.mem_cons.mp h' with he | hin'
      · cases he
        rfl
      · exact absurd (hmem hin') (hapart List.mem_cons_self)
    · rcases List.mem_cons.mp h' with rfl | hin'
      · exact absurd (hmem hin) (hapart List.mem_cons_self)
      · exact ih hrest hin hin'

/-- A session and its journal agree: the numbers are consecutive from one on, what is pending has
not been named since it was sent, nor had what was resent, and each turn of the worker was an
attempt. -/
structure Faithful (journal : List SessionEvent) (c : ClientSession) : Prop where
  numbers : sentNumbers journal = List.range' 1 (sentNumbers journal).length
  next : c.packetSeq = ((sentNumbers journal).length + 1) % 2 ^ 32
  outstanding : ∀ seq msg, c.pendingMessages.lookup seq = some msg →
    AwaitsAck seq journal seq msg.frame
  attempts : ∀ seq msg, c.pendingMessages.lookup seq = some msg →
    workerResends journal seq < msg.attempts
  resends : ∀ before byWorker seq frame,
    before ++ [.resent byWorker seq frame] <+: journal → AwaitsAck seq before seq frame
  bounded : ∀ seq, workerResends journal seq ≤ 4

theorem faithful_new (connected : Bool) (raknetProtocol bedrockProtocol : ℕ) (version : Str) :
    Faithful [] (.new connected raknetProtocol bedrockProtocol version) where
  numbers := rfl
  next := rfl
  outstanding seq msg h := by
    have hnone := (AList.lookup_empty seq).symm.trans h
    cases hnone
  attempts seq msg h := by
    have hnone := (AList.lookup_empty seq).symm.trans h
    cases hnone
  resends before byWorker seq frame h := by
    have hnil := List.prefix_nil.mp h
    simp at hnil
  bounded seq := Nat.zero_le _

/-- A number that was resent has been sent. -/
theorem Faithful.resent_le (h : Faithful journal c)
    (hpos : 0 < workerResends journal seq) : seq ≤ (sentNumbers journal).length := by
  obtain ⟨e, he, hresend⟩ := List.countP_pos_iff.mp hpos
  cases e with
  | sent seq' d => cases hresend
  | acknowledged seq' rtt => cases hresend
  | resent byWorker seq' frame =>
    obtain ⟨-, hseq⟩ := Bool.and_eq_true_iff.mp hresend
    obtain rfl : seq' = seq := by simpa using hseq
    obtain ⟨before, after, hsplit⟩ := List.append_of_mem he
    have hout := h.resends before byWorker seq' frame
      ⟨after, by rw [hsplit, List.append_assoc]; rfl⟩
    have hmem : seq' ∈ sentNumbers journal := by
      rw [hsplit, sentNumbers_append]
      exact List.mem_append_left _ hout.mem_sentNumbers
    rw [h.numbers, List.mem_range'_1] at hmem
    omega

/-- The beginnings of a journal that end with a resend. -/
theorem Faithful.resends_concat (h : Faithful journal c) {e : SessionEvent}
    (he : ∀ byWorker seq frame, e = .resent byWorker seq frame → AwaitsAck seq journal seq frame)
    {before : List SessionEvent} {byWorker : Bool} {frame : Bytes}
    (hbefore : before ++ [.resent byWorker seq frame] <+: journal ++ [e]) :
    AwaitsAck seq before seq frame := by
  rcases List.prefix_concat_iff.mp hbefore with hall | hbefore
  · obtain ⟨rfl, hlast⟩ := List.append_inj' hall rfl
    exact he byWorker seq frame (List.singleton_inj.mp hlast).symm
  · exact h.resends before byWorker seq frame hbefore

theorem acknowledge_packetSeq (c : ClientSession) (now seq : ℕ) :
    (c.acknowledge now seq).packetSeq = c.packetSeq := by
  unfold ClientSession.acknowledge
  cases c.pendingMessages.lookup seq with
  | none => rfl
  | some msg => rfl

theorem Faithful.acknowledge (h : Faithful journal c) (now acked : ℕ) (rtt : Option ℕ) :
    Faithful (journal ++ [.acknowledged acked rtt]) (c.acknowledge now acked) := by
  have hnumbers : sentNumbers (journal ++ [.acknowledged acked rtt]) = sentNumbers journal := by
    rw [sentNumbers_append]
    exact List.append_nil _
  have hresends (seq : ℕ) :
      workerResends (journal ++ [.acknowledged acked rtt]) seq = workerResends journal seq := by
    rw [workerResends_append]
    rfl
  have hkept {seq : ℕ} {msg : PendingMessage}
      (hm : (c.acknowledge now acked).pendingMessages.lookup seq = some msg) :
      seq ≠ acked ∧ c.pendingMessages.lookup seq = some msg := by
    rw [acknowledge_lookup] at hm
    by_cases he : seq = acked
    · rw [if_pos he] at hm
      cases hm
    · exact ⟨he, by rwa [if_neg he] at hm⟩
  refine ⟨by rw [hnumbers]; exact h.numbers, ?_, fun seq msg hm => ?_, fun seq msg hm => ?_,
    fun before byWorker seq frame hbefore => ?_, fun seq => (hresends seq).trans_le (h.bounded seq)⟩
  · rw [hnumbers, acknowledge_packetSeq]
    exact h.next
  · obtain ⟨hne, hm⟩ := hkept hm
    refine (h.outstanding seq msg hm).append fun rtt hmem => hne ?_
    have he := List.mem_singleton.mp hmem
    cases he
    rfl
  · rw [hresends]
    exact h.attempts seq msg (hkept hm).2
  · exact h.resends_concat (fun byWorker seq frame he => by cases he) hbefore

/-- The datagram takes the next number, which the journal does not mention. -/
theorem Faithful.transmit (h : Faithful journal c)
    (hlen : (sentNumbers journal).length + 1 < 2 ^ 32) (reliability : ℕ) (datagram : Bytes)
    (now : ℕ) :
    Faithful (journal ++ [.sent c.packetSeq datagram])
      (c.transmitted reliability datagram now) := by
  have hseq : c.packetSeq = (sentNumbers journal).length + 1 :=
    h.next.trans (Nat.mod_eq_of_lt hlen)
  have hnumbers : sentNumbers (journal ++ [.sent c.packetSeq datagram]) =
      sentNumbers journal ++ [c.packetSeq] := sentNumbers_append _ _
  have hresends (seq : ℕ) :
      workerResends (journal ++ [.sent c.packetSeq datagram]) seq = workerResends journal seq := by
    rw [workerResends_append]
    rfl
  have hfresh : workerResends journal c.packetSeq = 0 := by
    by_contra hne
    have := h.resent_le (Nat.pos_of_ne_zero hne)
    omega
  refine ⟨?_, ?_, fun seq msg hm => ?_, fun seq msg hm => ?_,
    fun before byWorker seq frame hbefore => ?_, fun seq => (hresends seq).trans_le (h.bounded seq)⟩
  · rw [hnumbers, List.length_append, List.length_singleton, List.range'_1_concat, ← h.numbers,
      hseq, Nat.add_comm 1]
  · rw [transmitted_packetSeq, hnumbers, List.length_append, List.length_singleton, hseq]
  · rcases transmitted_pending hm with hm | ⟨rfl, rfl⟩
    · refine (h.outstanding seq msg hm).append fun rtt hmem => ?_
      have he := List.mem_singleton.mp hmem
      cases he
    · exact ⟨journal, [], rfl, fun rtt hmem => absurd hmem List.not_mem_nil⟩
  · rw [hresends]
    rcases transmitted_pending hm with hm | ⟨rfl, rfl⟩
    · exact h.attempts seq msg hm
    · rw [hfresh]
      exact Nat.one_pos
  · exact h.resends_concat (fun byWorker seq frame he => by cases he) hbefore

/-- One attempt more; a turn of the worker leaves at most five behind. -/
theorem Faithful.resend (h : Faithful journal c) (now asked : ℕ) {msg : PendingMessage}
    (byWorker : Bool) (hm : c.pendingMessages.lookup asked = some msg)
    (hdue : byWorker = true → msg.attempts < 5) :
    Faithful (journal ++ [.resent byWorker asked msg.frame]) (c.resend now asked msg) := by
  have hnumbers : sentNumbers (journal ++ [.resent byWorker asked msg.frame]) =
      sentNumbers journal := by
    rw [sentNumbers_append]
    exact List.append_nil _
  have hresends (seq : ℕ) : workerResends (journal ++ [.resent byWorker asked msg.frame]) seq =
      workerResends journal seq + if byWorker && asked == seq then 1 else 0 := by
    rw [workerResends_append]
    exact congrArg _ (List.countP_singleton)
  have hattempts := h.attempts asked msg hm
  have hbounded := h.bounded asked
  have hout := h.outstanding asked msg hm
  have hcarry {seq : ℕ} {d : Bytes} (ho : AwaitsAck seq journal seq d) :
      AwaitsAck seq (journal ++ [.resent byWorker asked msg.frame]) seq d := by
    refine ho.append fun rtt hmem => ?_
    have he := List.mem_singleton.mp hmem
    cases he
  have hlookup (seq : ℕ) : (c.resend now asked msg).pendingMessages.lookup seq =
      if seq = asked then
        some { msg with attempts := min (msg.attempts + 1) (2 ^ 32 - 1), lastSent := now }
      else c.pendingMessages.lookup seq := lookup_insert_eq asked seq _ c.pendingMessages
  refine ⟨by rw [hnumbers]; exact h.numbers, by rw [hnumbers]; exact h.next, fun seq msg' hm' => ?_,
    fun seq msg' hm' => ?_, fun before byWorker seq frame hbefore => ?_, fun seq => ?_⟩
  · rw [hlookup] at hm'
    by_cases he : seq = asked
    · rw [if_pos he] at hm'
      obtain rfl := Option.some.inj hm'
      exact hcarry (he ▸ hout)
    · rw [if_neg he] at hm'
      exact hcarry (h.outstanding seq msg' hm')
  · rw [hlookup] at hm'
    rw [hresends]
    by_cases he : seq = asked
    · rw [if_pos he] at hm'
      obtain rfl := Option.some.inj hm'
      subst he
      cases byWorker with
      | false =>
        simp only [Bool.false_and, Bool.false_eq_true, if_false]
        omega
      | true =>
        have hlt := hdue rfl
        simp only [Bool.true_and, beq_self_eq_true, if_true]
        omega
    · rw [if_neg he] at hm'
      have hne : (byWorker && asked == seq) = false := by simp [Ne.symm he]
      rw [hne]
      exact h.attempts seq msg' hm'
  · refine h.resends_concat (fun byWorker' seq frame he => ?_) hbefore
    cases he
    exact hout
  · rw [hresends]
    by_cases he : (byWorker && asked == seq) = true
    · obtain ⟨hworker, hseq⟩ := Bool.and_eq_true_iff.mp he
      obtain rfl : asked = seq := by simpa using hseq
      have hlt := hdue hworker
      rw [if_pos he]
      omega
    · rw [if_neg he]
      exact h.bounded seq

theorem Change.faithful (hchange : Change c added c') (h : Faithful journal c)
    (hlen : (sentNumbers (journal ++ added)).length < 2 ^ 32) :
    Faithful (journal ++ added) c' := by
  cases hchange with
  | transmit reliability datagram now =>
    rw [sentNumbers_append, List.length_append] at hlen
    exact h.transmit hlen reliability datagram now
  | acknowledge now seq => exact h.acknowledge now seq _
  | resend now seq msg byWorker hm hdue => exact h.resend now seq byWorker hm hdue
  | prune now =>
    rw [List.append_nil]
    have hkept {seq : ℕ} {msg : PendingMessage}
        (hm : (pruneSessionQueues c now).pendingMessages.lookup seq = some msg) :
        c.pendingMessages.lookup seq = some msg := by
      unfold pruneSessionQueues at hm
      rw [lookup_retain, Option.filter_eq_some_iff] at hm
      exact hm.1
    exact ⟨h.numbers, h.next, fun seq msg hm => h.outstanding seq msg (hkept hm),
      fun seq msg hm => h.attempts seq msg (hkept hm), h.resends, h.bounded⟩

theorem Changes.faithful (hchanges : Changes c added c') (h : Faithful journal c)
    (hlen : (sentNumbers (journal ++ added)).length < 2 ^ 32) :
    Faithful (journal ++ added) c' := by
  induction hchanges with
  | refl => rwa [List.append_nil]
  | tail _ hchange ih =>
    rw [← List.append_assoc] at hlen ⊢
    refine hchange.faithful (ih ?_) hlen
    rw [sentNumbers_append, List.length_append] at hlen
    omega

/-- In every run of a session with fewer than `2 ^ 24` datagrams, the frames that an operation
queues are those of its resends, each of them is the one datagram that was sent under its number
and is outstanding, and the worker resends no number more than four times. -/
theorem retransmissions_faithful (env : ServerEnv) (parse : Str → Option SocketAddr)
    (addr : SocketAddr) (s : ServerState) (connected : Bool) (raknetProtocol bedrockProtocol : ℕ)
    (version : Str)
    (hnew : s.session addr = some (.new connected raknetProtocol bedrockProtocol version))
    (operations : List SessionOperation)
    (hsent : (sentNumbers (journalOf env parse addr s operations)).length < 2 ^ 24) :
    (∀ done operation rest, operations = done ++ operation :: rest →
      operation.queued env parse addr (runSession env parse addr s done) =
        (operation.events env parse addr (runSession env parse addr s done)).filterMap
          SessionEvent.frame) ∧
    (∀ before byWorker seq frame,
      before ++ [.resent byWorker seq frame] <+: journalOf env parse addr s operations →
      Outstanding before seq frame ∧ ∀ datagram,
        .sent seq datagram ∈ journalOf env parse addr s operations → datagram = frame) ∧
    ∀ seq, workerResends (journalOf env parse addr s operations) seq ≤ 4 := by
  obtain ⟨c, hc, hchanges⟩ := runSession_changes env parse operations hnew
  have hfaithful : Faithful (journalOf env parse addr s operations) c :=
    hchanges.faithful (faithful_new _ _ _ _) (hsent.trans (by decide))
  refine ⟨fun done operation rest _ => ?_, fun before byWorker seq frame hbefore => ?_,
    hfaithful.bounded⟩
  · obtain ⟨c', hc', -⟩ := runSession_changes env parse done hnew
    obtain ⟨-, -, -, hqueued⟩ := operation_changes env parse operation hc'
    exact hqueued
  · have hout := hfaithful.resends before byWorker seq frame hbefore
    obtain ⟨since, hsince⟩ := hbefore
    have hmem : seq ∈ sentNumbers (journalOf env parse addr s operations) := by
      rw [← hsince, sentNumbers_append, sentNumbers_append]
      exact List.mem_append_left _ (List.mem_append_left _ hout.mem_sentNumbers)
    have hsmall : seq % 2 ^ 24 = seq := by
      rw [hfaithful.numbers, List.mem_range'_1] at hmem
      exact Nat.mod_eq_of_lt (by omega)
    unfold Outstanding
    rw [hsmall]
    refine ⟨hout, fun datagram hin => ?_⟩
    have hdistinct : (sentNumbers (journalOf env parse addr s operations)).Nodup := by
      rw [hfaithful.numbers]
      exact List.nodup_range'
    obtain ⟨earlier, later, rfl, -⟩ := hout
    refine sent_unique hdistinct hin (hsince ▸ ?_)
    simp

/-- The worker has six turns, and no answer comes. -/
def unanswered : List SessionOperation := .send [7] 3 :: List.replicate 6 .tick

theorem retransmissions_faithful_unanswered :
    let journal := journalOf pausingClock (fun _ => some loopback) loopback
      (freshServer 1492 loopback) unanswered
    (∀ before byWorker seq frame, before ++ [.resent byWorker seq frame] <+: journal →
      Outstanding before seq frame ∧ ∀ datagram, .sent seq datagram ∈ journal → datagram = frame) ∧
    ∀ seq, workerResends journal seq ≤ 4 :=
  (retransmissions_faithful pausingClock (fun _ => some loopback) loopback
    (freshServer 1492 loopback) true 0 924 "1.26.0".toList rfl unanswered (by decide +kernel)).2

/-- The worker gives up behind its fourth turn. -/
example : workerResends (journalOf pausingClock (fun _ => some loopback) loopback
    (freshServer 1492 loopback) unanswered) 1 = 4 := by decide +kernel

/-- What the last event acknowledges is no longer outstanding. -/
theorem not_outstanding_acknowledged (journal : List SessionEvent) (seq : ℕ) (datagram : Bytes)
    (rtt : Option ℕ) :
    ¬ Outstanding (journal ++ [.acknowledged (seq % 2 ^ 24) rtt]) seq datagram := by
  rintro ⟨earlier, since, hsplit, hsince⟩
  rcases List.eq_nil_or_concat' since with rfl | ⟨front, e, rfl⟩
  · obtain ⟨-, hlast⟩ := List.append_inj' hsplit rfl
    cases hlast
  · rw [← List.cons_append, ← List.append_assoc] at hsplit
    obtain ⟨-, hlast⟩ := List.append_inj' hsplit rfl
    rw [List.singleton_inj] at hlast
    exact hsince rtt (hlast ▸ List.mem_concat_self)

section LongSession

variable {env : ServerEnv} {parse : Str → Option SocketAddr} {addr : SocketAddr} {s : ServerState}

/-- A payload that fits goes out as one datagram. -/
theorem send_single (parse : Str → Option SocketAddr) {payload : Bytes} {reliability : ℕ}
    (hfits : fitsSingle env.config.mtuSize reliability payload = true)
    (hc : s.session addr = some c) :
    (SessionOperation.send payload reliability).apply env parse addr s =
        (transmit env s addr reliability (singleFlags reliability) payload).2 ∧
      (SessionOperation.send payload reliability).events env parse addr s =
        [.sent c.packetSeq (frameDatagram (singleFlags reliability) reliability c.counters
          payload)] := by
  have hsend : sendFrame env s payload reliability addr =
      transmit env s addr reliability (singleFlags reliability) payload := if_pos hfits
  have hplan : outgoing env s payload reliability addr = [⟨c.counters, none, payload⟩] := by
    unfold outgoing planFrames ServerState.countersOf
    rw [if_pos hfits, sessionOf_eq hc]
  refine ⟨congrArg Prod.snd hsend, ?_⟩
  unfold SessionOperation.events submittedFrames
  dsimp only
  rw [hsend, transmit_sent, hplan, List.length_append, Nat.add_sub_cancel_left]
  rfl

/-- Unreliable datagrams take numbers and are not kept. -/
theorem sends_unreliable (hfits : fitsSingle env.config.mtuSize 0 [0] = true) (n : ℕ)
    (hc : s.session addr = some c) (hseq : c.packetSeq < 2 ^ 32) :
    (runSession env parse addr s (List.replicate n (.send [0] 0))).session addr =
        some { c with packetSeq := (c.packetSeq + n) % 2 ^ 32 } ∧
      (sentNumbers (journalOf env parse addr s (List.replicate n (.send [0] 0)))).length = n := by
  induction n generalizing s c with
  | zero =>
    refine ⟨?_, rfl⟩
    rw [Nat.add_zero, Nat.mod_eq_of_lt hseq]
    exact hc
  | succ n ih =>
    obtain ⟨happly, hevents⟩ := send_single parse hfits hc
    have hnext : ((SessionOperation.send [0] 0).apply env parse addr s).session addr =
        some { c with packetSeq := (c.packetSeq + 1) % 2 ^ 32 } := by
      rw [happly, ServerState.session, lookup_transmit, sessionOf_eq hc]
      rfl
    obtain ⟨hrest, hcount⟩ := ih hnext (Nat.mod_lt _ (Nat.two_pow_pos 32))
    rw [List.replicate_succ]
    unfold journalOf
    rw [sentNumbers_append, List.length_append, hcount, hevents]
    refine ⟨hrest.trans ?_, Nat.add_comm _ _⟩
    have hsum : ((c.packetSeq + 1) % 2 ^ 32 + n) % 2 ^ 32 = (c.packetSeq + (n + 1)) % 2 ^ 32 := by
      omega
    dsimp only
    rw [hsum]

theorem journalOf_append (done rest : List SessionOperation) :
    journalOf env parse addr s (done ++ rest) = journalOf env parse addr s done ++
      journalOf env parse addr (runSession env parse addr s done) rest := by
  induction done generalizing s with
  | nil => rfl
  | cons operation done ih =>
    have hcons (operations : List SessionOperation) :
        journalOf env parse addr s (operation :: operations) =
          operation.events env parse addr s ++
            journalOf env parse addr (operation.apply env parse addr s) operations := rfl
    rw [List.cons_append, hcons, hcons, ih, List.append_assoc]
    rfl

/-- A reliable datagram is all that is pending in a session that had nothing pending. -/
theorem transmit_pending (env : ServerEnv) (payload : Bytes) (hc : s.session addr = some c)
    (hempty : c.pendingMessages = ∅) :
    ∃ c', (transmit env s addr 3 (singleFlags 3) payload).2.session addr = some c' ∧
      c'.pendingMessages = AList.insert c.packetSeq
        ⟨frameDatagram (singleFlags 3) 3 c.counters payload,
          (frameDatagram (singleFlags 3) 3 c.counters payload).length, env.instant s.tick, 1⟩ ∅ ∧
      c'.retransmitTimeout = c.retransmitTimeout := by
  have hcounters : (s.allocate addr 3).1 = c.counters :=
    congrArg ClientSession.counters (sessionOf_eq hc)
  refine ⟨registerPending c.packetSeq (frameDatagram (singleFlags 3) 3 c.counters payload)
    (env.instant s.tick) (allocateSequence c 3).2, ?_, ?_, rfl⟩
  · rw [ServerState.session, lookup_transmit, if_pos (by decide), sessionOf_eq hc, hcounters]
    rfl
  · rw [← hempty]
    rfl

/-- An acknowledgement passes over a number that is not in the table. -/
theorem acknowledge_unknown {now acked : ℕ} (h : c.pendingMessages.lookup acked = none) :
    c.acknowledge now acked = c := by
  unfold ClientSession.acknowledge
  rw [h]

/-- The only datagram is due behind the timeout. -/
theorem dueKeys_single {now : ℕ} {msg : PendingMessage}
    (hpending : c.pendingMessages = AList.insert seq msg ∅) (hattempts : msg.attempts < 5)
    (hdue : c.retransmitTimeout < now - msg.lastSent) : dueKeys now c = [seq] := by
  have hentries : c.pendingMessages.entries = [⟨seq, msg⟩] := by
    rw [hpending]
    rfl
  unfold dueKeys
  rw [hentries, List.filter_cons_of_pos (by simp [hdue, hattempts])]
  rfl

/-- A reliable datagram, an acknowledgement that names another number, and the worker. -/
theorem journalOf_resent (hfits : fitsSingle env.config.mtuSize 3 [7] = true)
    (hparse : (parse addr.display).isSome) (hc : s.session addr = some c)
    (hempty : c.pendingMessages = ∅) (hne : c.packetSeq ≠ 0)
    (hdue : c.retransmitTimeout < env.instant (s.tick + 3) - env.instant s.tick) :
    ∃ datagram, journalOf env parse addr s [.send [7] 3, .ack (singleAck 1 [0, 0, 0]), .tick] =
      [.sent c.packetSeq datagram, .acknowledged 0 none, .resent true c.packetSeq datagram] := by
  obtain ⟨happly, hevents⟩ := send_single parse hfits hc
  obtain ⟨c₁, hc₁, hpending, htimeout⟩ := transmit_pending env [7] hc hempty
  generalize frameDatagram (singleFlags 3) 3 c.counters [7] = datagram at hevents hpending
  generalize ht : (transmit env s addr 3 (singleFlags 3) [7]).2 = t at happly hc₁
  have htick : t.tick = s.tick + 2 := ht ▸ rfl
  have hlookup : c₁.pendingMessages.lookup c.packetSeq =
      some ⟨datagram, datagram.length, env.instant s.tick, 1⟩ := by
    rw [hpending]
    exact AList.lookup_insert _
  have hother : c₁.pendingMessages.lookup 0 = none := by
    rw [hpending, AList.lookup_insert_ne hne.symm]
    exact AList.lookup_empty 0
  have hnumbers : requestedNumbers (singleAck 1 [0, 0, 0]) = [0] := by decide
  have hc₂ : (handleAckPacket env addr t (singleAck 1 [0, 0, 0])).session addr = some c₁ := by
    rw [handleAckPacket_session, hc₁, hnumbers, Option.map_some, List.foldl_cons,
      acknowledge_unknown hother]
    rfl
  have htick₂ : (handleAckPacket env addr t (singleAck 1 [0, 0, 0])).tick = s.tick + 3 := by
    rw [handleAckPacket_singleAck env addr t 1 0 0 0]
    exact congrArg (· + 1) htick
  have hkeys : dueKeys (env.instant (s.tick + 3)) c₁ = [c.packetSeq] :=
    dueKeys_single hpending (by simp) (htimeout ▸ hdue)
  refine ⟨datagram, ?_⟩
  unfold journalOf journalOf journalOf journalOf
  rw [hevents, happly]
  unfold SessionOperation.events SessionOperation.apply
  dsimp only
  rw [hnumbers, sessionOf_eq hc₁, sessionOf_eq hc₂, htick₂, if_pos hparse, hkeys]
  unfold ackEvents workerEvents
  rw [hother, hlookup]
  rfl

end LongSession

/-- A reliable datagram behind `n` others, and the acknowledgement of the number in its header when
that is zero. -/
def longSession (n : ℕ) : List SessionOperation :=
  List.replicate n (.send [0] 0) ++ [.send [7] 3, .ack (singleAck 1 [0, 0, 0]), .tick]

/-- The table knows the datagram by a number that the acknowledgement cannot name. -/
theorem longSession_resent (n : ℕ) (hheader : (n + 1) % 2 ^ 24 = 0) (hn : n + 1 < 2 ^ 32) :
    let journal := journalOf pausingClock (fun _ => some loopback) loopback
      (freshServer 1492 loopback) (longSession n)
    (sentNumbers journal).length = n + 1 ∧ ∃ before frame,
      before ++ [.resent true (n + 1) frame] <+: journal ∧ ¬ Outstanding before (n + 1) frame := by
  have hfirst : (freshServer 1492 loopback).session loopback =
      some (.new true 0 924 "1.26.0".toList) := rfl
  have hfits : fitsSingle pausingClock.config.mtuSize 0 [0] = true := by decide
  obtain ⟨hsession, hcount⟩ : _ ∧ (sentNumbers (journalOf pausingClock (fun _ => some loopback)
      loopback _ _)).length = _ := sends_unreliable hfits n hfirst (by decide)
  obtain ⟨c, hc, hseq, hempty, htimeout⟩ : ∃ c, (runSession pausingClock (fun _ => some loopback)
      loopback (freshServer 1492 loopback) (List.replicate n (.send [0] 0))).session loopback =
        some c ∧ c.packetSeq = n + 1 ∧ c.pendingMessages = ∅ ∧
          c.retransmitTimeout = millis 300 :=
    ⟨_, hsession, (Nat.mod_eq_of_lt (Nat.add_comm n 1 ▸ hn)).trans (Nat.add_comm 1 n), rfl, rfl⟩
  dsimp only
  unfold longSession
  rw [journalOf_append]
  generalize runSession pausingClock (fun _ => some loopback) loopback
    (freshServer 1492 loopback) (List.replicate n (.send [0] 0)) = s at hc ⊢
  generalize journalOf pausingClock (fun _ => some loopback) loopback
    (freshServer 1492 loopback) (List.replicate n (.send [0] 0)) = earlier at hcount ⊢
  have hdue : c.retransmitTimeout <
      pausingClock.instant (s.tick + 3) - pausingClock.instant s.tick := by
    rw [htimeout]
    unfold pausingClock millis
    dsimp only
    split_ifs <;> omega
  obtain ⟨datagram, htail⟩ : ∃ datagram, journalOf pausingClock (fun _ => some loopback) loopback s
      _ = _ := journalOf_resent (by decide) rfl hc hempty (by omega) hdue
  rw [htail, hseq]
  refine ⟨?_, earlier ++ [.sent (n + 1) datagram] ++ [.acknowledged 0 none], datagram, ?_, ?_⟩
  · rw [sentNumbers_append, List.length_append, hcount]
    rfl
  · rw [List.append_assoc, List.append_assoc]
    exact List.prefix_refl _
  · rw [← hheader]
    exact not_outstanding_acknowledged _ _ _ _

/-- After `2 ^ 24 - 1` datagrams the worker resends one that has been acknowledged. -/
theorem retransmission_acknowledged :
    let journal := journalOf pausingClock (fun _ => some loopback) loopback
      (freshServer 1492 loopback) (longSession (2 ^ 24 - 1))
    (sentNumbers journal).length < 2 ^ 32 ∧ ∃ before seq frame,
      before ++ [.resent true seq frame] <+: journal ∧ ¬ Outstanding before seq frame := by
  obtain ⟨hcount, before, frame, hbefore, hout⟩ :=
    longSession_resent (2 ^ 24 - 1) (by decide) (by decide)
  exact ⟨hcount.trans_lt (by decide), before, _, frame, hbefore, hout⟩

end SkinGetBE.RakNet
