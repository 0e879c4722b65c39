import SkinGetBE.RakNetSteps
import SkinGetBE.OrderedDelivery
import SkinGetBE.SplitReassembly

/-!
# Peers do not touch each other

Both tables are keyed by the text of an address. A datagram is handled under the
text of its sender only, so every entry under another text stays as it was.
-/
namespace SkinGetBE.RakNet
open Octets Text Tables Relation

/-- The session of the peer and its fragments are as before. -/
structure Untouched (peer : Str) (s s' : ServerState) : Prop where
  session : s'.connections.lookup peer = s.connections.lookup peer
  fragments : ∀ sid, s'.splitBuffers.lookup (peer, sid) = s.splitBuffers.lookup (peer, sid)

variable {env : ServerEnv} {addr : SocketAddr} {stored : ℕ → Prop} {peer : Str}
  {s s' s'' : ServerState}

theorem Untouched.refl (peer : Str) (s : ServerState) : Untouched peer s s :=
  ⟨rfl, fun _ => rfl⟩

theorem Untouched.trans (h₁ : Untouched peer s s') (h₂ : Untouched peer s' s'') :
    Untouched peer s s'' where
  session := h₂.session.trans h₁.session
  fragments sid := (h₂.fragments sid).trans (h₁.fragments sid)

theorem untouched_modifySession (h : peer ≠ addr.display) (s : ServerState)
    (f : ClientSession → ClientSession) : Untouched peer s (s.modifySession addr f) :=
  ⟨by rw [ServerState.lookup_modifySession, if_neg h], fun _ => rfl⟩

theorem untouched_drop (h : peer ≠ addr.display) (s : ServerState) :
    Untouched peer s (s.dropConnectionState addr) := by
  have hdrops := drops_dropConnectionState s addr
  refine ⟨hdrops.others peer h, fun sid => ?_⟩
  rw [hdrops.splits, if_neg h]

theorem untouched_transmit (h : peer ≠ addr.display) (s : ServerState) (reliability : ℕ)
    (flags : UInt8) (body : Bytes) :
    Untouched peer s (transmit env s addr reliability flags body).2 := by
  have hkeeps := keeps_transmit env s addr reliability flags body
  refine ⟨hkeeps.others peer h, fun sid => ?_⟩
  rw [hkeeps.splits]

/-- No step of a handler touches a peer other than the sender. -/
theorem Step.untouched (hstep : Step env addr stored s s') (h : peer ≠ addr.display) :
    Untouched peer s s' := by
  cases hstep with
  | aside haside =>
    refine ⟨?_, fun sid => haside.splits (peer, sid) h⟩
    rw [haside.connections]
  | sync protocol hp => exact ⟨rfl, fun _ => rfl⟩
  | ensure connected protocol =>
    refine ⟨?_, fun _ => rfl⟩
    rw [ServerState.lookup_ensureSession, if_neg h]
  | update f hf => exact untouched_modifySession h s f
  | replace c hc => exact ⟨AList.lookup_insert_ne h, fun _ => rfl⟩
  | transmit reliability flags body => exact untouched_transmit h s reliability flags body
  | negotiate proto hp => exact untouched_modifySession h s _
  | capture name path protocol hp => exact untouched_modifySession h s _
  | acknowledge now seqs => exact untouched_modifySession h s _
  | resend now seq msg hm => exact untouched_modifySession h s _
  | drop => exact untouched_drop h s

theorem Steps.untouched (hsteps : Steps env addr stored s s') (h : peer ≠ addr.display) :
    Untouched peer s s' := by
  induction hsteps with
  | refl => exact Untouched.refl peer s
  | tail _ hstep ih => exact ih.trans (hstep.untouched h)

/-- The passes over the whole tables keep what other peers have. -/
theorem untouched_pruneQueues (h : peer ≠ addr.display) (s : ServerState) :
    Untouched peer s (pruneQueues env s addr) := by
  refine ⟨(untouched_modifySession h (pruneSplitBuffersForPeer env s addr) _).session,
    fun sid => ?_⟩
  have hlookup : (pruneQueues env s addr).splitBuffers.lookup (peer, sid) =
      (s.splitBuffers.lookup (peer, sid)).filter fun split =>
        peer != addr.display || isFresh (env.instant s.tick) split.createdAt :=
    lookup_retain _ (peer, sid) s.splitBuffers
  rw [hlookup]
  cases s.splitBuffers.lookup (peer, sid) with
  | none => rfl
  | some split => simp [h]

/-- Whatever a datagram holds, its handling leaves the session and the fragments of every
other peer as they were. -/
theorem handlePacket_untouched (env : ServerEnv) (addr : SocketAddr) (s : ServerState)
    (data : Bytes) (peer : Str) (h : peer ≠ addr.display) :
    Untouched peer s (handlePacket env addr s data).2 := by
  have hstart : Untouched peer s (startOf env s addr data) := by
    unfold startOf
    by_cases hp : prunes s addr data
    · rw [if_pos hp]
      exact untouched_pruneQueues h s
    · rw [if_neg hp]
      exact Untouched.refl peer s
  exact hstart.trans ((handlePacket_steps s data).untouched h)

/-- Two connected peers, one of which disconnects. -/
theorem handlePacket_untouched_disconnect :
    let s := (freshServer 1492 neighbour).ensureSession loopback true 0
    let s' := (handlePacket (.quiet 1492) loopback s [0x84, 0, 0, 0, 0, 0, 8, 0x15]).2
    Untouched neighbour.display s s' ∧ s'.isActiveConnection loopback = false :=
  ⟨handlePacket_untouched (.quiet 1492) loopback _ _ neighbour.display (by decide),
    by decide +kernel⟩

end SkinGetBE.RakNet
