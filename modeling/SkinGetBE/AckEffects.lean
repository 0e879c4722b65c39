import SkinGetBE.SequenceRanges

/-!
# What an acknowledgement takes out

Acknowledging numbers one after the other takes exactly their entries out of the
table, and their sizes out of the octets in flight. The order of the numbers, and
of the packets that bring them, makes no difference to either.
-/
namespace SkinGetBE.RakNet
open Octets Text Tables Relation

/-- A session that has allocated `n` numbers. -/
inductive Numbered : ℕ → ClientSession → Prop
  | new (connected : Bool) (raknetProtocol bedrockProtocol : ℕ) (version : Str) :
      Numbered 0 (.new connected raknetProtocol bedrockProtocol version)
  | transmitted {n : ℕ} {c : ClientSession} (h : Numbered n c) (reliability : ℕ) (datagram : Bytes)
      (now : ℕ) : Numbered (n + 1) (c.transmitted reliability datagram now)
  | acknowledged {n : ℕ} {c : ClientSession} (h : Numbered n c) (now seq : ℕ) :
      Numbered n (c.acknowledge now seq)
  | resent {n : ℕ} {c : ClientSession} (h : Numbered n c) {seq : ℕ} {msg : PendingMessage}
      (hm : c.pendingMessages.lookup seq = some msg) (now : ℕ) : Numbered n (c.resend now seq msg)
  | pruned {n : ℕ} {c : ClientSession} (h : Numbered n c) (now : ℕ) :
      Numbered n (pruneSessionQueues c now)
  | aside {n : ℕ} {c c' : ClientSession} (h : Numbered n c) (hseq : c'.packetSeq = c.packetSeq)
      (hpending : c'.pendingMessages = c.pendingMessages) : Numbered n c'

variable {n : ℕ} {c : ClientSession}

theorem maintained_numbered (bound : ℕ) : Maintained bound Numbered where
  new := .new
  aside h hseq _ hpending := h.aside hseq hpending
  transmitted h _ reliability datagram _ now := h.transmitted reliability datagram now
  acknowledge h now seq := h.acknowledged now seq
  resend h hm now := h.resent hm now

/-- The sessions of a server count the numbers that they allocate. -/
theorem numbered_run (env : ServerEnv) (parse : Str → Option SocketAddr) (peer : Str)
    (operations : List Operation) {s : ServerState} (h : Tracked Numbered peer s)
    (hsent : (runOperations env parse s operations).sentCount peer < 2 ^ 32) :
    Tracked Numbered peer (runOperations env parse s operations) := by
  induction operations generalizing s with
  | nil => exact h
  | cons operation rest ih =>
    have hrest : (operate env parse s operation).sentCount peer < 2 ^ 32 :=
      (sentCount_mono (runOperations_sent parse _ rest) peer).trans_lt hsent
    refine ih ?_ hsent
    cases operation with
    | packet addr data =>
      have hstart : Tracked Numbered peer (startOf env s addr data) := by
        unfold startOf
        by_cases hp : prunes s addr data
        · rw [if_pos hp]
          exact h.pruneQueues fun n c _ _ hc => hc.pruned _
        · rw [if_neg hp]
          exact h
      exact (handlePacket_steps s data).tracked (maintained_numbered _) hstart hrest
    | send addr payload reliability =>
      have hsteps : Steps env addr (fun _ => True) s (sendFrame env s payload reliability addr).2 :=
        sendFrame_steps s payload reliability
      exact hsteps.tracked (maintained_numbered _) h hrest
    | prune addr => exact h.pruneQueues fun n c _ _ hc => hc.pruned _
    | resend => exact h.resendRound (maintained_numbered 0) parse

/-- Every session of a server, at any time, has allocated a number of numbers, not more than
datagrams were submitted for its peer. -/
theorem exists_numbered (env : ServerEnv) (parse : Str → Option SocketAddr) (config : RakNetConfig)
    (fs : FileSystem) (peer : Str) (operations : List Operation)
    (hsent : (runOperations env parse (.new config fs) operations).sentCount peer < 2 ^ 32)
    (hc : (runOperations env parse (.new config fs) operations).connections.lookup peer = some c) :
    ∃ n ≤ (runOperations env parse (.new config fs) operations).sentCount peer, Numbered n c :=
  numbered_run env parse peer operations (tracked_new Numbered config fs peer) hsent c hc

/-- The next number, and those that are pending: they have been allocated, and none is zero. -/
theorem Numbered.keys (h : Numbered n c) (hn : n < 2 ^ 32) : c.packetSeq = (n + 1) % 2 ^ 32 ∧
    ∀ seq msg, c.pendingMessages.lookup seq = some msg → 0 < seq ∧ seq ≤ n := by
  induction h with
  | new connected raknetProtocol bedrockProtocol version =>
    refine ⟨rfl, fun seq msg hm => ?_⟩
    have hnone := (AList.lookup_empty seq).symm.trans hm
    cases hnone
  | @transmitted n c h reliability datagram now ih =>
    obtain ⟨hseq, hkeys⟩ := ih (Nat.lt_of_succ_lt hn)
    rw [transmitted_packetSeq]
    refine ⟨by omega, fun seq msg hm => ?_⟩
    rcases transmitted_pending hm with hm | ⟨hnew, -⟩
    · exact ⟨(hkeys seq msg hm).1, (hkeys seq msg hm).2.trans (Nat.le_succ n)⟩
    · omega
  | @acknowledged n c h now acked ih =>
    obtain ⟨hseq, hkeys⟩ := ih hn
    refine ⟨?_, fun seq msg hm => ?_⟩
    · unfold ClientSession.acknowledge
      cases c.pendingMessages.lookup acked with
      | none => exact hseq
      | some msg => exact hseq
    · rw [acknowledge_lookup] at hm
      by_cases he : seq = acked
      · rw [if_pos he] at hm
        cases hm
      · rw [if_neg he] at hm
        exact hkeys seq msg hm
  | @resent n c h asked msg hasked now ih =>
    obtain ⟨hseq, hkeys⟩ := ih hn
    refine ⟨hseq, fun seq msg' hm => ?_⟩
    by_cases he : seq = asked
    · rw [he]
      exact hkeys asked msg hasked
    · exact hkeys seq msg' ((AList.lookup_insert_ne he).symm.trans hm)
  | @pruned n c h now ih =>
    obtain ⟨hseq, hkeys⟩ := ih hn
    refine ⟨hseq, fun seq msg hm => hkeys seq msg ?_⟩
    unfold pruneSessionQueues at hm
    rw [lookup_retain, Option.filter_eq_some_iff] at hm
    exact hm.1
  | aside h hseq hpending ih =>
    obtain ⟨hseq', hkeys⟩ := ih hn
    exact ⟨hseq.trans hseq', fun seq msg hm => hkeys seq msg (hpending ▸ hm)⟩

theorem acknowledge_books (c : ClientSession) (now seq : ℕ) :
    (c.acknowledge now seq).pendingMessages = c.pendingMessages.erase seq ∧
      (c.acknowledge now seq).inFlightBytes =
        c.inFlightBytes - (c.pendingMessages.lookup seq).elim 0 PendingMessage.sizeBytes := by
  unfold ClientSession.acknowledge
  cases hm : c.pendingMessages.lookup seq with
  | none => exact ⟨(erase_eq_self hm).symm, rfl⟩
  | some msg => exact ⟨rfl, rfl⟩

/-- The entries of the numbers leave the table, and their octets are no longer in flight. -/
theorem acknowledgeAll_books (c : ClientSession) (now : ℕ) (seqs : List ℕ) :
    (seqs.foldl (ClientSession.acknowledge now) c).pendingMessages =
        retain (fun seq _ => !decide (seq ∈ seqs)) c.pendingMessages ∧
      (seqs.foldl (ClientSession.acknowledge now) c).inFlightBytes = c.inFlightBytes -
        weight PendingMessage.sizeBytes
          (retain (fun seq _ => decide (seq ∈ seqs)) c.pendingMessages) := by
  induction seqs generalizing c with
  | nil =>
    constructor
    · exact (retain_eq_self fun e he => rfl).symm
    · rw [retain_congr (q := fun _ _ => false) fun e _ => by simp, weight_retain_none]
      rfl
  | cons seq seqs ih =>
    obtain ⟨hpending, hbytes⟩ := ih (c.acknowledge now seq)
    obtain ⟨hpending₁, hbytes₁⟩ := acknowledge_books c now seq
    rw [List.foldl_cons]
    constructor
    · rw [hpending, hpending₁, erase_eq_retain, retain_retain]
      congr 1
      funext seq' msg
      simp [Bool.and_comm]
    · rw [hbytes, hpending₁, hbytes₁, weight_retain_cons]
      omega

/-- What is pending, and the octets in flight. -/
structure Books where
  pending : Table ℕ PendingMessage
  inFlight : ℕ

/-- The books without the entries under the keys that satisfy `p`. -/
def Books.settle (p : ℕ → Bool) (b : Books) : Books where
  pending := retain (fun seq _ => !p seq) b.pending
  inFlight := b.inFlight -
    weight PendingMessage.sizeBytes (retain (fun seq _ => p seq) b.pending)

/-- Passes over the same table, one after the other. -/
theorem retain_keys_comm (p q : ℕ → Bool) (t : Table ℕ PendingMessage) :
    retain (fun seq _ => p seq) (retain (fun seq _ => q seq) t) =
      retain (fun seq _ => q seq) (retain (fun seq _ => p seq) t) := by
  rw [retain_retain, retain_retain]
  exact retain_congr fun e _ => Bool.and_comm (p e.1) (q e.1)

theorem Books.settle_self (p : ℕ → Bool) (b : Books) : (b.settle p).settle p = b.settle p := by
  have hkept : retain (fun seq _ => !p seq) (retain (fun seq _ => !p seq) b.pending) =
      retain (fun seq _ => !p seq) b.pending := by
    rw [retain_retain]
    exact retain_congr fun e _ => Bool.and_self (!p e.1)
  have hnone : retain (fun seq _ => p seq) (retain (fun seq _ => !p seq) b.pending) =
      retain (fun _ _ => false) b.pending := by
    rw [retain_retain]
    exact retain_congr fun e _ => Bool.and_not_self (p e.1)
  unfold Books.settle
  dsimp only
  rw [hkept, hnone, weight_retain_none]
  rfl

/-- What two passes take out together, whichever is first. -/
theorem weight_settle_comm (f : PendingMessage → ℕ) (p q : ℕ → Bool) (t : Table ℕ PendingMessage) :
    weight f (retain (fun seq _ => p seq) t) +
        weight f (retain (fun seq _ => q seq) (retain (fun seq _ => !p seq) t)) =
      weight f (retain (fun seq _ => q seq) t) +
        weight f (retain (fun seq _ => p seq) (retain (fun seq _ => !q seq) t)) := by
  have hp := weight_split f (fun seq _ => q seq) (retain (fun seq _ => p seq) t)
  have hq := weight_split f (fun seq _ => p seq) (retain (fun seq _ => q seq) t)
  rw [retain_keys_comm q p] at hp
  rw [retain_keys_comm q (fun seq => !p seq), retain_keys_comm p (fun seq => !q seq)]
  omega

theorem Books.settle_comm (p q : ℕ → Bool) (b : Books) :
    (b.settle p).settle q = (b.settle q).settle p := by
  have hweight := weight_settle_comm PendingMessage.sizeBytes p q b.pending
  unfold Books.settle
  dsimp only
  rw [retain_keys_comm (fun seq => !q seq) (fun seq => !p seq)]
  congr 1
  omega

def ClientSession.books (c : ClientSession) : Books := ⟨c.pendingMessages, c.inFlightBytes⟩

def ServerState.booksOf (s : ServerState) (addr : SocketAddr) : Option Books :=
  (s.session addr).map ClientSession.books

theorem booksOf_eq {s : ServerState} {addr : SocketAddr} (hc : s.session addr = some c) {b : Books}
    (hb : c.books = b) : s.booksOf addr = some b := by
  unfold ServerState.booksOf
  rw [hc, Option.map_some, hb]

/-- The session behind an acknowledgement is without the entries that its ranges cover. -/
theorem handleAckPacket_books (env : ServerEnv) (addr : SocketAddr) {s : ServerState}
    (hc : s.session addr = some c) (hnum : Numbered n c) (hn : n < 2 ^ 32) (data : Bytes) :
    ∃ c', (handleAckPacket env addr s data).session addr = some c' ∧ Numbered n c' ∧
      c'.books = c.books.settle (covers data) := by
  have hkey (e : Sigma fun _ : ℕ => PendingMessage) (he : e ∈ c.pendingMessages.entries) :
      decide (e.1 ∈ requestedNumbers data) = covers data e.1 := by
    have hpos := ((hnum.keys hn).2 e.1 e.2 (AList.mem_lookup_iff.mpr he)).1
    rw [Bool.eq_iff_iff, decide_eq_true_eq]
    exact mem_requestedNumbers (Nat.ne_of_gt hpos)
  have hkept := retain_congr (p := fun seq _ => !decide (seq ∈ requestedNumbers data))
    (q := fun seq _ => !covers data seq) fun e he => congrArg Bool.not (hkey e he)
  have hgone := retain_congr (p := fun seq _ => decide (seq ∈ requestedNumbers data))
    (q := fun seq _ => covers data seq) hkey
  obtain ⟨hpending, hbytes⟩ :=
    acknowledgeAll_books c (env.instant s.tick) (requestedNumbers data)
  refine ⟨_, by rw [handleAckPacket_session, hc, Option.map_some],
    (maintained_numbered 0).acknowledgeAll hnum _ _, ?_⟩
  unfold ClientSession.books Books.settle
  rw [hpending, hbytes, hkept, hgone]

/-- An acknowledgement, whatever its octets are, takes out the pending entries that its ranges
cover, and their sizes. A second time it takes nothing out, and two of them settle the same
in either order. -/
theorem handleAckPacket_settles (env env' : ServerEnv) (addr : SocketAddr) (s : ServerState)
    (c : ClientSession) (n : ℕ) (hc : s.session addr = some c) (hnum : Numbered n c)
    (hn : n < 2 ^ 32) (data other : Bytes) :
    (handleAckPacket env addr s data).booksOf addr =
      some ⟨retain (fun seq _ => !covers data seq) c.pendingMessages, c.inFlightBytes -
        weight PendingMessage.sizeBytes (retain (fun seq _ => covers data seq) c.pendingMessages)⟩ ∧
    (handleAckPacket env' addr (handleAckPacket env addr s data) data).booksOf addr =
      (handleAckPacket env addr s data).booksOf addr ∧
    (handleAckPacket env' addr (handleAckPacket env addr s data) other).booksOf addr =
      (handleAckPacket env' addr (handleAckPacket env addr s other) data).booksOf addr := by
  obtain ⟨settled, hsettled, hnum₁, hbooks⟩ := handleAckPacket_books env addr hc hnum hn data
  obtain ⟨again, hagain, -, hbooks₂⟩ := handleAckPacket_books env' addr hsettled hnum₁ hn data
  obtain ⟨first, hfirst, -, hbooks₃⟩ := handleAckPacket_books env' addr hsettled hnum₁ hn other
  obtain ⟨c', hc', hnum₄, hbooks₄⟩ := handleAckPacket_books env addr hc hnum hn other
  obtain ⟨second, hsecond, -, hbooks₅⟩ := handleAckPacket_books env' addr hc' hnum₄ hn data
  refine ⟨booksOf_eq hsettled hbooks, ?_, ?_⟩
  · rw [booksOf_eq hagain rfl, booksOf_eq hsettled rfl, hbooks₂, hbooks, Books.settle_self]
  · rw [booksOf_eq hfirst rfl, booksOf_eq hsecond rfl, hbooks₃, hbooks, hbooks₅, hbooks₄,
      Books.settle_comm]

/-- One datagram is pending, and the second packet is cut off within its range. -/
theorem handleAckPacket_settles_first :
    let s := (transmit (.quiet 1492) (freshServer 1492 loopback) loopback 3 0x60 [7]).2
    let cut := (ackDatagram 1).take 9
    ∃ c, s.session loopback = some c ∧
      (handleAckPacket (.quiet 1492) loopback s (ackDatagram 1)).booksOf loopback =
        some ⟨retain (fun seq _ => !covers (ackDatagram 1) seq) c.pendingMessages, c.inFlightBytes -
          weight PendingMessage.sizeBytes
            (retain (fun seq _ => covers (ackDatagram 1) seq) c.pendingMessages)⟩ ∧
      (handleAckPacket (.quiet 1492) loopback (handleAckPacket (.quiet 1492) loopback s
          (ackDatagram 1)) (ackDatagram 1)).booksOf loopback =
        (handleAckPacket (.quiet 1492) loopback s (ackDatagram 1)).booksOf loopback ∧
      (handleAckPacket (.quiet 1492) loopback (handleAckPacket (.quiet 1492) loopback s
          (ackDatagram 1)) cut).booksOf loopback =
        (handleAckPacket (.quiet 1492) loopback (handleAckPacket (.quiet 1492) loopback s cut)
          (ackDatagram 1)).booksOf loopback := by
  obtain ⟨now, hsession⟩ := transmit_session (.quiet 1492) (freshServer 1492 loopback) loopback 3
    0x60 [7]
  have hnum : Numbered 0 ((freshServer 1492 loopback).sessionOf loopback) :=
    .new true 0 924 "1.26.0".toList
  exact ⟨_, hsession, handleAckPacket_settles (.quiet 1492) (.quiet 1492) loopback _ _ 1 hsession
    (hnum.transmitted 3 _ now) (by decide) (ackDatagram 1) ((ackDatagram 1).take 9)⟩

end SkinGetBE.RakNet
