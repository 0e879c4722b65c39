import SkinGetBE.ServerLink
import SkinGetBE.SkinLogin
import SkinGetBE.SplitReassembly

/-!
# A login on its way

A peer sends its login in parts. Until the last of them is there, neither other peers
nor the worker, nor anything that the peer sends outside of frames, take from the table
what has arrived, or change how the session will read it.
-/
namespace SkinGetBE.RakNet
open Octets Text Tables Relation

/-- The parts of a login under a split id of a peer, with the place that their frames name. -/
structure LoginParts where
  login : SkinLogin
  peer : SocketAddr
  splitId : ℕ
  chunks : List Bytes
  orderIndex : Option ℕ
  orderChannel : Option ℕ
  few : chunks.length ≤ maxSplitParts

namespace LoginParts

def key (parts : LoginParts) : Str × ℕ := (parts.peer.display, parts.splitId)

/-- The frame is a part, at its place. -/
structure Has (parts : LoginParts) (i : ℕ) (frame : RakNetFrame) : Prop where
  fragment : IsFragment parts.chunks parts.splitId i frame
  orderIndex : frame.orderIndex = parts.orderIndex
  orderChannel : frame.orderChannel = parts.orderChannel

end LoginParts

/-- The channel waits for nothing before the index. -/
def Due (c : ClientSession) (orderIndex orderChannel : Option ℕ) : Prop :=
  ∀ idx, orderIndex = some idx → ∀ channel,
    c.orderedChannels.lookup (orderChannel.getD 0) = some channel → channel.nextIndex = idx

/-- The session is there, and the table has the parts that have arrived, since an instant of the
run. -/
structure Awaiting (env : ServerEnv) (parts : LoginParts) (compressed : Bool) (since : ℕ)
    (arrived : ℕ → Prop) (s : ServerState) : Prop where
  session : ∃ c, s.session parts.peer = some c ∧ c.compressionEnabled = compressed ∧
    Due c parts.orderIndex parts.orderChannel
  progress : Progress (fun index channel => index = parts.orderIndex ∧ channel = parts.orderChannel)
    parts.chunks arrived (s.splitBuffers.lookup parts.key)
  made : ∀ entry, s.splitBuffers.lookup parts.key = some entry →
    ∃ t, since ≤ t ∧ t ≤ s.tick ∧ entry.createdAt = env.instant t
  since : since ≤ s.tick

/-- Nothing of the run expires within it. -/
def Timed (env : ServerEnv) (since limit : ℕ) : Prop :=
  ∀ t now, since ≤ t → t ≤ now → now ≤ limit → isFresh (env.instant now) (env.instant t) = true

variable {env : ServerEnv} {parse : Str → Option SocketAddr} {addr : SocketAddr}
  {datagram : Bytes} {parts : LoginParts} {compressed : Bool} {since limit : ℕ}
  {arrived : ℕ → Prop} {s s' : ServerState} {x y : Serving}

theorem transmit_tick (env : ServerEnv) (s : ServerState) (addr : SocketAddr) (reliability : ℕ)
    (flags : UInt8) (body : Bytes) :
    s.tick ≤ (transmit env s addr reliability flags body).2.tick := by
  unfold transmit rememberReliable
  dsimp only
  split_ifs
  · exact (Nat.le_succ _).trans (Nat.le_succ _)
  · exact Nat.le_succ _

theorem storeFragment_tick (env : ServerEnv) (s : ServerState) (addr : SocketAddr) (sid : ℕ)
    (entry : SplitBuffer) (idx : ℕ) (payload : Bytes) :
    s.tick ≤ (storeFragment env s addr sid entry idx payload).1.tick := by
  unfold storeFragment
  by_cases h : entry.received[idx]? = some false
  · rw [dif_pos h]
    dsimp only
    split_ifs
    · exact Nat.le_succ _
    · exact le_rfl
  · rw [dif_neg h]

theorem receiveFrame_tick (env : ServerEnv) (s : ServerState) (addr : SocketAddr)
    (frame : RakNetFrame) : s.tick ≤ (receiveFrame env s addr frame).1.tick := by
  unfold receiveFrame
  dsimp only
  by_cases hsplit : frame.isSplit
  · rw [if_pos hsplit]
    unfold receiveSplit
    cases frame.splitId with
    | none => exact le_rfl
    | some sid =>
      dsimp only
      split_ifs
      · exact le_rfl
      · exact le_rfl
      · have hstored := storeFragment_tick env (s.ensureSession addr true 0).advance addr sid
          (getOr (addr.display, sid) (.new (frame.splitCount.getD 0)
            (env.instant (s.ensureSession addr true 0).tick) frame)
            (s.ensureSession addr true 0).splitBuffers) (frame.splitIndex.getD 0) frame.payload
        exact (Nat.le_succ _).trans hstored
  · rw [if_neg hsplit]
    exact Nat.le_succ _

theorem Effect.tick_le (h : Effect env addr datagram s s') : s.tick ≤ s'.tick := by
  cases h with
  | clock => exact Nat.le_succ _
  | answer id fields h hasked => exact Nat.le_succ _
  | transmit reliability flags body => exact transmit_tick env s addr reliability flags body
  | again seq msg h => exact Nat.le_succ _
  | prune => exact (Nat.le_succ _).trans (Nat.le_succ _)
  | receive frame h => exact receiveFrame_tick env s addr frame
  | _ => exact le_rfl

theorem sendAll_tick (env : ServerEnv) (s : ServerState) (frames : List (SocketAddr × Bytes)) :
    s.tick ≤ (s.sendAll env frames).tick := by
  induction frames generalizing s with
  | nil => exact le_rfl
  | cons frame frames ih => exact (Nat.le_succ s.tick).trans (ih (s.sendTo env frame.1 frame.2).2)

theorem Turn.tick_le (h : Turn env parse x y) : x.state.tick ≤ y.state.tick := by
  cases h with
  | hear addr datagram => exact le_rfl
  | effect addr datagram s hheard heffect => exact heffect.tick_le
  | acknowledge addr datagram frameset hheard hparse => exact Nat.le_succ _
  | worker =>
    unfold resendRound
    dsimp only
    refine (Nat.le_succ x.state.tick).trans ?_
    exact sendAll_tick env { x.state.advance with connections := _ } _

theorem Effects.tick_le (h : Effects env addr datagram s s') : s.tick ≤ s'.tick := by
  induction h with
  | refl => exact le_rfl
  | tail _ heffect ih => exact ih.trans heffect.tick_le

/-- A frame touches only entries of its peer, and gives none an older date. -/
theorem storeFragment_entry (env : ServerEnv) (s : ServerState) (addr : SocketAddr) (sid : ℕ)
    (entry : SplitBuffer) (idx : ℕ) (payload : Bytes) (key : Str × ℕ) :
    (storeFragment env s addr sid entry idx payload).1.splitBuffers.lookup key =
        s.splitBuffers.lookup key ∨
      key = (addr.display, sid) ∧ ∀ stored,
        (storeFragment env s addr sid entry idx payload).1.splitBuffers.lookup key = some stored →
          stored.createdAt = entry.createdAt := by
  have hinsert : ∀ kept : SplitBuffer, kept.createdAt = entry.createdAt →
      (s.splitBuffers.insert (addr.display, sid) kept).lookup key = s.splitBuffers.lookup key ∨
        key = (addr.display, sid) ∧ ∀ stored,
          (s.splitBuffers.insert (addr.display, sid) kept).lookup key = some stored →
            stored.createdAt = entry.createdAt := by
    intro kept hkept
    by_cases hkey : key = (addr.display, sid)
    · subst hkey
      refine .inr ⟨rfl, fun stored hstored => ?_⟩
      rw [AList.lookup_insert, Option.some.injEq] at hstored
      rw [← hstored, hkept]
    · exact .inl (AList.lookup_insert_ne hkey)
  unfold storeFragment
  by_cases h : entry.received[idx]? = some false
  · rw [dif_pos h]
    dsimp only
    split_ifs
    · by_cases hkey : key = (addr.display, sid)
      · subst hkey
        refine .inr ⟨rfl, fun stored hstored => ?_⟩
        have herased : (s.splitBuffers.erase (addr.display, sid)).lookup (addr.display, sid) =
            some stored := hstored
        rw [AList.lookup_erase] at herased
        cases herased
      · exact .inl (AList.lookup_erase_ne hkey)
    · exact hinsert _ rfl
  · rw [dif_neg h]
    exact hinsert entry rfl

theorem receiveFrame_entry (env : ServerEnv) (s : ServerState) (addr : SocketAddr)
    (frame : RakNetFrame) (key : Str × ℕ) :
    (receiveFrame env s addr frame).1.splitBuffers.lookup key = s.splitBuffers.lookup key ∨
      key.1 = addr.display ∧ ∀ stored,
        (receiveFrame env s addr frame).1.splitBuffers.lookup key = some stored →
          stored.createdAt = env.instant s.tick ∨
            ∃ old, s.splitBuffers.lookup key = some old ∧ stored.createdAt = old.createdAt := by
  unfold receiveFrame
  dsimp only
  by_cases hsplit : frame.isSplit
  · rw [if_pos hsplit]
    unfold receiveSplit
    cases frame.splitId with
    | none => exact .inl rfl
    | some sid =>
      dsimp only
      split_ifs
      · exact .inl rfl
      · exact .inl rfl
      · rcases storeFragment_entry env (s.ensureSession addr true 0).advance addr sid
          (getOr (addr.display, sid) (.new (frame.splitCount.getD 0)
            (env.instant (s.ensureSession addr true 0).tick) frame)
            (s.ensureSession addr true 0).splitBuffers) (frame.splitIndex.getD 0) frame.payload key
          with hsame | ⟨rfl, hstored⟩
        · exact .inl hsame
        · refine .inr ⟨rfl, fun stored h => ?_⟩
          have hdate := hstored stored h
          cases hold : s.splitBuffers.lookup (addr.display, sid) with
          | none =>
            have hnew : (s.ensureSession addr true 0).splitBuffers.lookup (addr.display, sid) =
              none := hold
            unfold getOr at hdate
            rw [hnew] at hdate
            exact .inl hdate
          | some old =>
            have hfound : (s.ensureSession addr true 0).splitBuffers.lookup (addr.display, sid) =
              some old := hold
            unfold getOr at hdate
            rw [hfound] at hdate
            exact .inr ⟨old, rfl, hdate⟩
  · rw [if_neg hsplit]
    exact .inl rfl

/-- No effect of a datagram touches a peer other than its sender. -/
theorem Effect.untouched {peer : Str} (h : Effect env addr datagram s s')
    (hpeer : peer ≠ addr.display) : Untouched peer s s' := by
  refine ⟨h.lookup_others hpeer, fun sid => ?_⟩
  cases h with
  | transmit reliability flags body => exact (untouched_transmit hpeer s _ _ _).fragments sid
  | prune => exact (untouched_pruneQueues hpeer s).fragments sid
  | drop => exact (untouched_drop hpeer s).fragments sid
  | receive frame _ =>
    exact (receiveFrame_entry env s addr frame (peer, sid)).resolve_right fun h => hpeer h.1
  | _ => rfl

theorem Due.same {c c' : ClientSession} {orderIndex orderChannel : Option ℕ}
    (h : Due c orderIndex orderChannel) (hchannels : c'.orderedChannels = c.orderedChannels) :
    Due c' orderIndex orderChannel := by
  unfold Due
  rw [hchannels]
  exact h

theorem pruneChannel_nextIndex {now : ℕ} {channel kept : OrderedChannel}
    (h : pruneChannel now channel = some kept) : kept.nextIndex = channel.nextIndex := by
  unfold pruneChannel at h
  dsimp only at h
  split_ifs at h
  cases h
  rfl

theorem Due.prune {c : ClientSession} {orderIndex orderChannel : Option ℕ}
    (h : Due c orderIndex orderChannel) (now : ℕ) :
    Due (pruneSessionQueues c now) orderIndex orderChannel := by
  intro idx hidx kept hkept
  have hlookup : (c.orderedChannels.lookup (orderChannel.getD 0)).bind (pruneChannel now) =
      some kept := (lookup_filterMap _ _ _).symm.trans hkept
  obtain ⟨channel, hchannel, hprune⟩ := Option.bind_eq_some_iff.mp hlookup
  rw [pruneChannel_nextIndex hprune]
  exact h idx hidx channel hchannel

/-- A step that keeps the entry, and the mode and the channels of the session. -/
theorem Awaiting.calm (h : Awaiting env parts compressed since arrived s)
    (hsession : ∀ c, s.session parts.peer = some c → ∃ c', s'.session parts.peer = some c' ∧
      c'.compressionEnabled = c.compressionEnabled ∧ c'.orderedChannels = c.orderedChannels)
    (hentry : s'.splitBuffers.lookup parts.key = s.splitBuffers.lookup parts.key)
    (htick : s.tick ≤ s'.tick) : Awaiting env parts compressed since arrived s' where
  session := by
    obtain ⟨c, hc, hmode, hdue⟩ := h.session
    obtain ⟨c', hc', hmode', hchannels⟩ := hsession c hc
    exact ⟨c', hc', hmode'.trans hmode, hdue.same hchannels⟩
  progress := by
    rw [hentry]
    exact h.progress
  made entry hlookup := by
    rw [hentry] at hlookup
    obtain ⟨t, hsince, ht, hdate⟩ := h.made entry hlookup
    exact ⟨t, hsince, ht.trans htick, hdate⟩
  since := h.since.trans htick

theorem Awaiting.untouched (h : Awaiting env parts compressed since arrived s)
    (huntouched : Untouched parts.peer.display s s') (htick : s.tick ≤ s'.tick) :
    Awaiting env parts compressed since arrived s' :=
  h.calm (fun c hc => ⟨c, huntouched.session.trans hc, rfl, rfl⟩)
    (huntouched.fragments parts.splitId) htick

theorem Awaiting.modify (h : Awaiting env parts compressed since arrived s)
    {f : ClientSession → ClientSession}
    (hmode : ∀ c, (f c).compressionEnabled = c.compressionEnabled)
    (hchannels : ∀ c, (f c).orderedChannels = c.orderedChannels) :
    Awaiting env parts compressed since arrived (s.modifySession parts.peer f) := by
  refine h.calm (fun c hc => ⟨f c, ?_, hmode c, hchannels c⟩) rfl le_rfl
  unfold ServerState.session at hc ⊢
  rw [ServerState.lookup_modifySession, if_pos rfl, hc]
  rfl

theorem Awaiting.active (h : Awaiting env parts compressed since arrived s) :
    s.isActiveConnection parts.peer = true := by
  obtain ⟨c, hc, -⟩ := h.session
  exact Option.isSome_of_eq_some hc

theorem Awaiting.prune (h : Awaiting env parts compressed since arrived s)
    (htimed : Timed env since limit) (htick : s.tick ≤ limit) :
    Awaiting env parts compressed since arrived (pruneQueues env s parts.peer) := by
  have hentry : (pruneQueues env s parts.peer).splitBuffers.lookup parts.key =
      s.splitBuffers.lookup parts.key := by
    have hlookup : (pruneQueues env s parts.peer).splitBuffers.lookup parts.key =
        (s.splitBuffers.lookup parts.key).filter fun split =>
          parts.peer.display != parts.peer.display ||
            isFresh (env.instant s.tick) split.createdAt := lookup_retain _ parts.key s.splitBuffers
    rw [hlookup]
    cases hfound : s.splitBuffers.lookup parts.key with
    | none => rfl
    | some entry =>
      obtain ⟨t, hsince, ht, hdate⟩ := h.made entry hfound
      rw [Option.filter_some, hdate, htimed t s.tick hsince ht htick, Bool.or_true, if_pos rfl]
  obtain ⟨c, hc, hmode, hdue⟩ := h.session
  refine ⟨⟨pruneSessionQueues c (env.instant (s.tick + 1)), ?_, hmode, hdue.prune _⟩, ?_, ?_, ?_⟩
  · have hlookup := ServerState.lookup_modifySession (pruneSplitBuffersForPeer env s parts.peer)
      parts.peer (fun c => pruneSessionQueues c
        (env.instant (pruneSplitBuffersForPeer env s parts.peer).tick)) parts.peer.display
    rw [if_pos rfl] at hlookup
    unfold ServerState.session at hc
    exact hlookup.trans (congrArg (Option.map _) hc)
  · rw [hentry]
    exact h.progress
  · intro entry hfound
    rw [hentry] at hfound
    obtain ⟨t, hsince, ht, hdate⟩ := h.made entry hfound
    exact ⟨t, hsince, ht.trans ((Nat.le_succ _).trans (Nat.le_succ _)), hdate⟩
  · exact h.since.trans ((Nat.le_succ _).trans (Nat.le_succ _))

end SkinGetBE.RakNet
