import SkinGetBE.InFlight
import SkinGetBE.OrderedDelivery

/-!
# The number that is acknowledged

A pending datagram is kept under its 32-bit number, and its header carries the
low 24 bits. An acknowledgement finds the datagram while the two agree.
-/
namespace SkinGetBE.RakNet
open Octets Text Tables

/-- The sequence number in the header of a datagram, as it is written there. -/
def headerNumber (datagram : Bytes) : Bytes := (datagram.drop 1).take 3

/-- An acknowledgement of one range that begins and ends with the same number. -/
def singleAck (flag : UInt8) (number : Bytes) : Bytes :=
  0xC0 :: (beBytes 2 1 ++ (flag :: (number ++ number)))

theorem headerNumber_frameDatagram (flags : UInt8) (reliability : ℕ) (a : Allocated)
    (body : Bytes) : headerNumber (frameDatagram flags reliability a body) = leBytes 3 a.seq := by
  unfold headerNumber frameDatagram
  exact List.take_left' (leBytes_length 3 a.seq)

theorem readTriad_cons {buf : Buffer} {x0 x1 x2 : UInt8} {tl : Bytes}
    (h : buf.rest = x0 :: x1 :: x2 :: tl) :
    readTriad buf = (leValue [x0, x1, x2], buf.advance 3) := by
  unfold readTriad
  rw [Buffer.readU24Le_cons h]

theorem sequenceRange_self (seq : ℕ) : sequenceRange seq seq = [seq] := by
  unfold sequenceRange
  rw [Nat.add_sub_cancel_left]
  rfl

theorem readSegmentCount_cons (id hi lo flag : UInt8) (tl : Bytes) :
    readSegmentCount (id :: hi :: lo :: flag :: tl) =
      (beValue [hi, lo], (Buffer.ofBytes (id :: hi :: lo :: flag :: tl)).advance 4) := by
  have hid := Buffer.readU8_cons (b := .ofBytes (id :: hi :: lo :: flag :: tl)) rfl
  have hhi : ((Buffer.ofBytes (id :: hi :: lo :: flag :: tl)).advance 1).rest =
    hi :: lo :: flag :: tl := by simp
  have hlo : ((Buffer.ofBytes (id :: hi :: lo :: flag :: tl)).advance 3).rest =
      flag :: tl := by simp
  have hflag := Buffer.readU8_cons hlo
  unfold readSegmentCount
  rw [hid, Buffer.readU16_cons hhi]
  dsimp only
  rw [Buffer.advance_advance, hflag]
  dsimp only
  rw [Buffer.advance_advance]

/-- The acknowledgement reaches the session as the number that its three octets spell. -/
theorem handleAckPacket_singleAck (env : ServerEnv) (addr : SocketAddr) (s : ServerState)
    (flag x0 x1 x2 : UInt8) : handleAckPacket env addr s (singleAck flag [x0, x1, x2]) =
      s.advance.modifySession addr fun c =>
        c.acknowledge (env.instant s.tick) (leValue [x0, x1, x2]) := by
  have hack : singleAck flag [x0, x1, x2] = [0xC0, 0, 1, flag, x0, x1, x2, x0, x1, x2] := rfl
  rw [hack]
  generalize hbuf : Buffer.ofBytes [0xC0, 0, 1, flag, x0, x1, x2, x0, x1, x2] = buf
  have hstart : (buf.advance 4).rest = [x0, x1, x2, x0, x1, x2] := by simp [← hbuf]
  have hstop : ((buf.advance 4).advance 3).rest = [x0, x1, x2] := by simp [← hbuf]
  unfold handleAckPacket
  rw [readSegmentCount_cons, hbuf]
  have hcount : beValue [0, 1] = 1 := by decide
  rw [hcount]
  unfold acknowledgeSegments acknowledgeSegments
  dsimp only
  rw [readTriad_cons hstart, readTriad_cons hstop, sequenceRange_self]
  rfl

/-- Only the acknowledged number leaves the table. -/
theorem acknowledge_lookup (c : ClientSession) (now acked seq : ℕ) :
    (c.acknowledge now acked).pendingMessages.lookup seq =
      if seq = acked then none else c.pendingMessages.lookup seq := by
  unfold ClientSession.acknowledge
  cases hm : c.pendingMessages.lookup acked with
  | none =>
    by_cases h : seq = acked
    · rw [if_pos h, h]
      exact hm
    · rw [if_neg h]
  | some msg => exact lookup_erase_eq acked seq c.pendingMessages

theorem pendingOf_singleAck (env : ServerEnv) (addr : SocketAddr) (s : ServerState)
    (flag : UInt8) (seq number : ℕ) :
    (handleAckPacket env addr s (singleAck flag (leBytes 3 number))).pendingOf addr seq =
      if seq = number % 2 ^ 24 then none else s.pendingOf addr seq := by
  have hack := handleAckPacket_singleAck env addr s flag (UInt8.ofNat (number % 256))
    (UInt8.ofNat (number / 256 % 256)) (UInt8.ofNat (number / 256 / 256 % 256))
  have hvalue : leValue [UInt8.ofNat (number % 256), UInt8.ofNat (number / 256 % 256),
      UInt8.ofNat (number / 256 / 256 % 256)] = number % 2 ^ 24 := leValue_leBytes 3 number
  rw [hvalue] at hack
  have hbytes : leBytes 3 number = [UInt8.ofNat (number % 256), UInt8.ofNat (number / 256 % 256),
      UInt8.ofNat (number / 256 / 256 % 256)] := rfl
  rw [hbytes, hack]
  unfold ServerState.pendingOf ServerState.session
  rw [ServerState.lookup_modifySession, if_pos rfl]
  have hadvance : s.advance.connections = s.connections := rfl
  rw [hadvance]
  cases s.connections.lookup addr.display with
  | none =>
    dsimp only [Option.map_none]
    by_cases h : seq = number % 2 ^ 24
    · rw [if_pos h]
    · rw [if_neg h]
  | some c =>
    dsimp only [Option.map_some]
    exact acknowledge_lookup c _ _ seq

/-- A reliable datagram is pending under its 32-bit number. -/
theorem transmit_pendingOf (env : ServerEnv) (s : ServerState) (addr : SocketAddr)
    {reliability : ℕ} (hr : hasReliable reliability = true) (flags : UInt8) (body : Bytes) :
    ∃ msg, (transmit env s addr reliability flags body).2.pendingOf addr (s.countersOf addr).seq =
      some msg ∧ msg.frame = frameDatagram flags reliability (s.countersOf addr) body := by
  refine ⟨⟨frameDatagram flags reliability (s.countersOf addr) body,
    (frameDatagram flags reliability (s.countersOf addr) body).length,
    env.instant (s.allocate addr reliability).2.tick, 1⟩, ?_, rfl⟩
  unfold ServerState.pendingOf ServerState.session
  rw [lookup_transmit, if_pos hr]
  exact AList.lookup_insert _

/-- A reliable datagram waits for its acknowledgement, and the acknowledgement of the number in
its header ends the wait exactly when the number it was sent under has at most 24 bits. -/
theorem acknowledged_iff (env : ServerEnv) (s : ServerState) (addr : SocketAddr) (reliability : ℕ)
    (hr : hasReliable reliability = true) (flags : UInt8) (body : Bytes) (flag : UInt8) :
    let seq := (s.countersOf addr).seq
    let datagram := frameDatagram flags reliability (s.countersOf addr) body
    let sent := (transmit env s addr reliability flags body).2
    (sent.sent = s.sent ++ [(addr, datagram)] ∧ ∃ msg, sent.pendingOf addr seq = some msg ∧
      msg.frame = datagram) ∧
    ∀ later : ServerState, (later.pendingOf addr seq).isSome →
      ((handleAckPacket env addr later (singleAck flag (headerNumber datagram))).pendingOf addr
        seq = none ↔ seq < 2 ^ 24) := by
  dsimp only
  refine ⟨⟨transmit_sent env s addr reliability flags body,
    transmit_pendingOf env s addr hr flags body⟩, fun later hlater => ?_⟩
  rw [headerNumber_frameDatagram, pendingOf_singleAck]
  constructor
  · intro h
    by_contra hge
    rw [if_neg (by omega)] at h
    rw [h] at hlater
    cases hlater
  · intro h
    rw [if_pos (by omega)]

/-- The first datagram of a session. -/
theorem acknowledged_iff_first :
    let s := freshServer 1492 loopback
    let datagram := frameDatagram 0x60 3 (s.countersOf loopback) [7]
    let sent := (transmit (.quiet 1492) s loopback 3 0x60 [7]).2
    (handleAckPacket (.quiet 1492) loopback sent (singleAck 1 (headerNumber datagram))).pendingOf
      loopback (s.countersOf loopback).seq = none ↔ (s.countersOf loopback).seq < 2 ^ 24 :=
  (acknowledged_iff (.quiet 1492) (freshServer 1492 loopback) loopback 3 (by decide) 0x60 [7] 1).2 _
    (by decide +kernel)

/-- The server answers `n` pings. -/
def answerPings (env : ServerEnv) (addr : SocketAddr) : ℕ → ServerState → ServerState
  | 0, s => s
  | n + 1, s => (transmit env (answerPings env addr n s) addr 0 0 (connectedPong env n)).2

theorem answerPings_seq (env : ServerEnv) (addr : SocketAddr) (n : ℕ) (s : ServerState)
    (h : (s.countersOf addr).seq < 2 ^ 32) :
    ((answerPings env addr n s).countersOf addr).seq = ((s.countersOf addr).seq + n) % 2 ^ 32 := by
  induction n with
  | zero => exact (Nat.mod_eq_of_lt h).symm
  | succ n ih =>
    unfold answerPings
    rw [transmit_counters]
    show (((answerPings env addr n s).countersOf addr).seq + 1) % 2 ^ 32 = _
    rw [ih]
    omega

/-- After `2 ^ 24 - 1` datagrams the next one is never found by its acknowledgement. -/
theorem unacknowledged_long_session :
    let s := answerPings (.quiet 1492) loopback (2 ^ 24 - 1) (freshServer 1492 loopback)
    let datagram := frameDatagram 0x60 3 (s.countersOf loopback) [7]
    let sent := (transmit (.quiet 1492) s loopback 3 0x60 [7]).2
    ¬ (handleAckPacket (.quiet 1492) loopback sent (singleAck 1 (headerNumber datagram))).pendingOf
      loopback (s.countersOf loopback).seq = none := by
  dsimp only
  generalize hs : answerPings (.quiet 1492) loopback (2 ^ 24 - 1) (freshServer 1492 loopback) = s
  have hseq : (s.countersOf loopback).seq = 2 ^ 24 := by
    rw [← hs, answerPings_seq _ _ _ _ (by decide)]
    decide
  have hreliable : hasReliable 3 = true := by decide
  obtain ⟨msg, hmsg, -⟩ := transmit_pendingOf (.quiet 1492) s loopback hreliable 0x60 [7]
  rw [headerNumber_frameDatagram, pendingOf_singleAck, hseq, if_neg (by decide), ← hseq, hmsg]
  exact Option.some_ne_none msg

end SkinGetBE.RakNet
