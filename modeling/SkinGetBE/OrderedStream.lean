import SkinGetBE.OrderedQueue

/-!
# The stream of an ordered channel

A channel that has begun at its first index holds back what has a gap in front of
it and passes on the rest. Indices that come late or again stay in the buffer
behind the next index, where no flush reaches them.
-/
namespace SkinGetBE.RakNet
open Octets Text Tables

/-- The first index from `f` on that has not arrived. -/
structure IsFrontier (arrived : List ℕ) (f m : ℕ) : Prop where
  le : f ≤ m
  missing : m ∉ arrived
  complete : ∀ i, f ≤ i → i < m → i ∈ arrived

/-- The arguments of one call. -/
structure OrderedCall where
  payload : Bytes
  orderIndex : Option ℕ
  orderChannel : Option ℕ
  now : ℕ

/-- The index that a call brings to a channel. -/
def OrderedCall.arrives (ch : ℕ) (call : OrderedCall) : Option ℕ :=
  if call.orderChannel.getD 0 = ch then call.orderIndex else none

def OrderedCall.run (session : ClientSession) (call : OrderedCall) :
    ClientSession × List Emitted :=
  bufferOrderedPayload session call.payload call.orderIndex call.orderChannel call.now

/-- The session after some calls. -/
def bufferAll : ClientSession → List OrderedCall → ClientSession
  | session, [] => session
  | session, call :: calls => bufferAll (call.run session).1 calls

/-- The payloads that the calls on a channel emit, oldest first. -/
def emittedOn (ch : ℕ) : ClientSession → List OrderedCall → List Bytes
  | _, [] => []
  | session, call :: calls =>
    (if (call.arrives ch).isSome then (call.run session).2.map (·.payload) else []) ++
      emittedOn ch (call.run session).1 calls

theorem size_erase_lt {α : Type*} {k : ℕ} {t : Table ℕ α} (h : (t.lookup k).isSome) :
    size (t.erase k) < size t := by
  have hone (u : Table ℕ α) : weight (fun _ => 1) u = size u := by
    simp [weight, size]
  have hweight := weight_erase (fun _ : α => 1) k t
  obtain ⟨v, hv⟩ := Option.isSome_iff_exists.mp h
  rw [hone, hone, hv, Option.elim_some] at hweight
  omega

/-- The budget covers the buffer, so the flush ends at an index that is missing. -/
theorem flushChannel_done {fuel : ℕ} {channel : OrderedChannel}
    (h : size channel.buffer ≤ fuel) : (flushChannel fuel channel).1.buffer.lookup
      (flushChannel fuel channel).1.nextIndex = none := by
  induction fuel generalizing channel with
  | zero =>
    by_contra hsome
    have hlt := size_erase_lt (Option.isSome_iff_ne_none.mpr hsome)
    have : size (flushChannel 0 channel).1.buffer = size channel.buffer := rfl
    omega
  | succ fuel ih =>
    cases hlook : channel.buffer.lookup channel.nextIndex with
    | none =>
      rw [flushChannel_none hlook]
      exact hlook
    | some entry =>
      obtain ⟨p, now⟩ := entry
      have hlt := size_erase_lt (k := channel.nextIndex) (t := channel.buffer) (by rw [hlook]; rfl)
      rw [flushChannel_some hlook]
      refine ih ?_
      dsimp only
      omega

/-- What is released was buffered. -/
theorem flushChannel_buffered {fuel : ℕ} {channel : OrderedChannel} (hb : channel.InBounds)
    {e : ℕ × Bytes} (he : e ∈ (flushChannel fuel channel).2) :
    ∃ now, channel.buffer.lookup e.1 = some (e.2, now) := by
  induction fuel generalizing channel with
  | zero => exact absurd he List.not_mem_nil
  | succ fuel ih =>
    cases hlook : channel.buffer.lookup channel.nextIndex with
    | none =>
      rw [flushChannel_none hlook] at he
      exact absurd he List.not_mem_nil
    | some entry =>
      obtain ⟨p, now⟩ := entry
      rw [flushChannel_some hlook] at he
      rcases List.mem_cons.mp he with rfl | he
      · exact ⟨now, hlook⟩
      · obtain ⟨now', hnow⟩ := ih (hb.erase _ _) he
        dsimp only at hnow
        rw [lookup_erase_eq] at hnow
        by_cases hk : e.1 = channel.nextIndex
        · rw [if_pos hk] at hnow
          cases hnow
        · rw [if_neg hk] at hnow
          exact ⟨now', hnow⟩

/-- Only what is released leaves the buffer. -/
theorem flushChannel_lookup (fuel : ℕ) {channel : OrderedChannel} (hb : channel.InBounds) (k : ℕ) :
    (flushChannel fuel channel).1.buffer.lookup k =
      if channel.nextIndex ≤ k ∧ k < channel.nextIndex + (flushChannel fuel channel).2.length then
        none
      else channel.buffer.lookup k := by
  induction fuel generalizing channel with
  | zero =>
    have hlength : (flushChannel 0 channel).2.length = 0 := rfl
    rw [if_neg (by omega)]
    rfl
  | succ fuel ih =>
    cases hlook : channel.buffer.lookup channel.nextIndex with
    | none =>
      rw [flushChannel_none hlook]
      rw [if_neg (by rw [List.length_nil]; omega)]
    | some entry =>
      obtain ⟨p, now⟩ := entry
      have hlt : channel.nextIndex < 2 ^ 24 := hb _ (by rw [hlook]; rfl)
      have hmod : (channel.nextIndex + 1) % 2 ^ 32 = channel.nextIndex + 1 :=
        Nat.mod_eq_of_lt (by omega)
      have hrest := ih (hb.erase channel.nextIndex ((channel.nextIndex + 1) % 2 ^ 32))
      rw [flushChannel_some hlook]
      dsimp only at hrest ⊢
      rw [hrest, hmod, List.length_cons, lookup_erase_eq]
      by_cases hk : k = channel.nextIndex
      · rw [if_neg (by omega), if_pos hk, if_pos (by omega)]
      · rw [if_neg hk]
        exact if_congr (by omega) rfl rfl

variable {payloadOf : ℕ → Bytes} {arrived : List ℕ} {f ch idx : ℕ}

/-- What is buffered from the next index on is what has arrived there. The entries behind it are
never looked at again. -/
structure Buffered (payloadOf : ℕ → Bytes) (arrived : List ℕ) (channel : OrderedChannel) :
    Prop where
  inBounds : channel.InBounds
  waiting : ∀ k, channel.nextIndex ≤ k → ((channel.buffer.lookup k).isSome ↔ k ∈ arrived)
  payloads : ∀ k entry, channel.nextIndex ≤ k → channel.buffer.lookup k = some entry →
    entry.1 = payloadOf k

/-- The record of a channel that began at `f`. -/
structure ChannelStream (payloadOf : ℕ → Bytes) (arrived : List ℕ) (f : ℕ)
    (record : OrderedChannel) : Prop where
  frontier : IsFrontier arrived f record.nextIndex
  begun : 0 < record.nextIndex
  buffered : Buffered payloadOf arrived record

/-- An empty channel that adopts its first index. -/
theorem stream_first (hidx : idx < 2 ^ 24) :
    ChannelStream payloadOf [idx] idx ⟨(idx + 1) % 2 ^ 32, ∅⟩ := by
  have hmod : (idx + 1) % 2 ^ 32 = idx + 1 := Nat.mod_eq_of_lt (by omega)
  rw [hmod]
  refine ⟨⟨Nat.le_succ idx, by simp, ?_⟩, Nat.succ_pos idx, ?_, ?_, ?_⟩
  · intro i hge hlt
    dsimp only at hlt
    rw [List.mem_singleton]
    omega
  · intro k hk
    simp at hk
  · intro k hk
    dsimp only at hk
    simp only [AList.lookup_empty, Option.isSome_none, Bool.false_eq_true, false_iff,
      List.mem_singleton]
    omega
  · intro k entry _ hk
    simp at hk

theorem Buffered.insert {record : OrderedChannel} (h : Buffered payloadOf arrived record)
    (hbegun : 0 < record.nextIndex) (hidx : idx < 2 ^ 24) (now : ℕ) :
    Buffered payloadOf (arrived ++ [idx]) (insertOrdered record idx (payloadOf idx) now) := by
  have hnext := insertOrdered_nextIndex hbegun idx (payloadOf idx) now
  have hlookup (k : ℕ) : (insertOrdered record idx (payloadOf idx) now).buffer.lookup k =
      if k = idx then some (payloadOf idx, now) else record.buffer.lookup k :=
    lookup_insert_eq _ _ _ _
  refine ⟨insertOrdered_inBounds h.inBounds hidx _ _, ?_, ?_⟩
  · intro k hk
    rw [hnext] at hk
    rw [hlookup, List.mem_append, List.mem_singleton]
    by_cases hi : k = idx
    · simp [hi]
    · rw [if_neg hi, h.waiting k hk]
      simp [hi]
  · intro k entry hk hentry
    rw [hnext] at hk
    rw [hlookup] at hentry
    by_cases hi : k = idx
    · rw [if_pos hi, Option.some.injEq] at hentry
      rw [← hentry, hi]
    · rw [if_neg hi] at hentry
      exact h.payloads k entry hk hentry

/-- A flush with enough budget goes to the next index that has not arrived. -/
theorem Buffered.flush {channel : OrderedChannel} {fuel : ℕ}
    (h : Buffered payloadOf arrived channel)
    (hfuel : size channel.buffer ≤ fuel) :
    Buffered payloadOf arrived (flushChannel fuel channel).1 ∧
      IsFrontier arrived channel.nextIndex (flushChannel fuel channel).1.nextIndex ∧
      (flushChannel fuel channel).2.map Prod.snd = (List.range' channel.nextIndex
        ((flushChannel fuel channel).1.nextIndex - channel.nextIndex)).map payloadOf := by
  obtain ⟨hfst, hreached, hbounds⟩ := flushChannel_indices fuel h.inBounds
  have hdone := flushChannel_done hfuel
  have hleft := flushChannel_lookup fuel h.inBounds
  have hindex (e : ℕ × Bytes) (he : e ∈ (flushChannel fuel channel).2) :
      channel.nextIndex ≤ e.1 := by
    have hmem : e.1 ∈ (flushChannel fuel channel).2.map Prod.fst := List.mem_map_of_mem he
    rw [hfst, List.mem_range'_1] at hmem
    exact hmem.1
  have hstays (k : ℕ) (hk : (flushChannel fuel channel).1.nextIndex ≤ k) :
      (flushChannel fuel channel).1.buffer.lookup k = channel.buffer.lookup k := by
    rw [hleft, if_neg (by omega)]
  refine ⟨⟨hbounds, ?_, ?_⟩, ⟨by omega, ?_, ?_⟩, ?_⟩
  · intro k hk
    rw [hstays k hk]
    exact h.waiting k (by omega)
  · intro k entry hk hentry
    rw [hstays k hk] at hentry
    exact h.payloads k entry (by omega) hentry
  · rw [← h.waiting _ (by omega), ← hstays _ le_rfl, hdone]
    exact Bool.false_ne_true
  · intro i hge hlt
    have hmem : i ∈ (flushChannel fuel channel).2.map Prod.fst := by
      rw [hfst, List.mem_range'_1]
      omega
    obtain ⟨e, he, rfl⟩ := List.mem_map.mp hmem
    obtain ⟨now, hnow⟩ := flushChannel_buffered h.inBounds he
    rw [← h.waiting e.1 hge, hnow]
    rfl
  · rw [hreached, Nat.add_sub_cancel_left, ← hfst, List.map_map]
    refine List.map_congr_left fun e he => ?_
    obtain ⟨now, hnow⟩ := flushChannel_buffered h.inBounds he
    exact h.payloads e.1 _ (hindex e he) hnow

/-- What lies between the frontiers before and after an arrival is released by it. -/
theorem ChannelStream.arrive {record : OrderedChannel}
    (h : ChannelStream payloadOf arrived f record) (hidx : idx < 2 ^ 24) (now : ℕ)
    {channel : OrderedChannel}
    (hchannel : channel = insertOrdered record idx (payloadOf idx) now) :
    ChannelStream payloadOf (arrived ++ [idx]) f (flushChannel (size channel.buffer) channel).1 ∧
      record.nextIndex ≤ (flushChannel (size channel.buffer) channel).1.nextIndex ∧
      (flushChannel (size channel.buffer) channel).2.map Prod.snd = (List.range' record.nextIndex
        ((flushChannel (size channel.buffer) channel).1.nextIndex - record.nextIndex)).map
          payloadOf := by
  have hinsert := h.buffered.insert h.begun hidx now
  have hnext := insertOrdered_nextIndex h.begun idx (payloadOf idx) now
  rw [← hchannel] at hinsert hnext
  obtain ⟨hholds, hfrontier, hreleased⟩ := hinsert.flush le_rfl
  rw [hnext] at hfrontier hreleased
  refine ⟨⟨⟨h.frontier.le.trans hfrontier.le, hfrontier.missing, ?_⟩,
    h.begun.trans_le hfrontier.le, hholds⟩, hfrontier.le, hreleased⟩
  intro i hge hlt
  by_cases hold : i < record.nextIndex
  · exact List.mem_append_left _ (h.frontier.complete i hge hold)
  · exact hfrontier.complete i (by omega) hlt

/-- What was emitted on a channel, and the record it has, after the indices that arrived. -/
inductive Delivered (payloadOf : ℕ → Bytes) : List ℕ → List Bytes → Option OrderedChannel → Prop
  | idle : Delivered payloadOf [] [] none
  | begun (f : ℕ) (later : List ℕ) (record : OrderedChannel)
      (stream : ChannelStream payloadOf (f :: later) f record) :
      Delivered payloadOf (f :: later)
        ((List.range' f (record.nextIndex - f)).map payloadOf) (some record)

/-- A call that brings nothing to the channel leaves its record alone. -/
theorem lookup_run_elsewhere {call : OrderedCall} (h : call.arrives ch = none)
    (session : ClientSession) : (call.run session).1.orderedChannels.lookup ch =
      session.orderedChannels.lookup ch := by
  obtain ⟨payload, orderIndex, orderChannel, now⟩ := call
  unfold OrderedCall.arrives at h
  unfold OrderedCall.run bufferOrderedPayload
  cases orderIndex with
  | none => rfl
  | some i =>
    dsimp only at h ⊢
    have hother : ch ≠ orderChannel.getD 0 := by
      rintro rfl
      rw [if_pos rfl] at h
      cases h
    exact AList.lookup_insert_ne hother

theorem run_arrives {call : OrderedCall} (h : call.arrives ch = some idx)
    (session : ClientSession) : call.run session =
      bufferOrderedPayload session call.payload (some idx) (some ch) call.now := by
  obtain ⟨payload, orderIndex, orderChannel, now⟩ := call
  unfold OrderedCall.arrives at h
  dsimp only at h
  by_cases hch : orderChannel.getD 0 = ch
  · rw [if_pos hch] at h
    unfold OrderedCall.run bufferOrderedPayload
    rw [h, hch]
    rfl
  · rw [if_neg hch] at h
    cases h

theorem Delivered.call {session : ClientSession} {emitted : List Bytes} {call : OrderedCall}
    (h : Delivered payloadOf arrived emitted (session.orderedChannels.lookup ch))
    (hcall : ∀ i, call.arrives ch = some i → i < 2 ^ 24 ∧ call.payload = payloadOf i) :
    Delivered payloadOf (arrived ++ (call.arrives ch).toList)
      (emitted ++ if (call.arrives ch).isSome then (call.run session).2.map (·.payload) else [])
      ((call.run session).1.orderedChannels.lookup ch) := by
  cases harrives : call.arrives ch with
  | none =>
    rw [lookup_run_elsewhere harrives]
    simpa using h
  | some i =>
    obtain ⟨hi, hpayload⟩ := hcall i harrives
    rw [run_arrives harrives, hpayload, Option.isSome_some, if_pos rfl, Option.toList_some]
    generalize hrecord : session.orderedChannels.lookup ch = record? at h
    cases h with
    | idle =>
      have hfresh : channelAt session ch = ⟨0, ∅⟩ := by
        unfold channelAt getOr
        rw [hrecord]
        rfl
      have hmod : (i + 1) % 2 ^ 32 = i + 1 := Nat.mod_eq_of_lt (by omega)
      have hone : (List.range' i (i + 1 - i)).map payloadOf = [payloadOf i] := by
        rw [Nat.add_sub_cancel_left]
        rfl
      rw [bufferOrderedPayload_due hfresh (.inr rfl), AList.lookup_insert]
      have hstream : ChannelStream payloadOf [i] i ⟨(i + 1) % 2 ^ 32, ∅⟩ := stream_first hi
      have hfirst := Delivered.begun i [] _ hstream
      rw [hmod] at hfirst ⊢
      dsimp only at hfirst ⊢
      rw [hone] at hfirst
      exact hfirst
    | begun f later record stream =>
      have hat : getOr ch ⟨0, ∅⟩ session.orderedChannels = record := by
        unfold getOr
        rw [hrecord]
        rfl
      unfold bufferOrderedPayload
      dsimp only [Option.getD_some]
      rw [hat, AList.lookup_insert]
      obtain ⟨hstream, hle, hreleased⟩ := stream.arrive hi call.now rfl
      generalize flushChannel (size (insertOrdered record i (payloadOf i) call.now).buffer)
        (insertOrdered record i (payloadOf i) call.now) = flushed at hstream hle hreleased ⊢
      have hranges : List.range' f (flushed.1.nextIndex - f) =
          List.range' f (record.nextIndex - f) ++
            List.range' record.nextIndex (flushed.1.nextIndex - record.nextIndex) := by
        have hf := stream.frontier.le
        have hjoin := List.range'_append_1 (s := f) (m := record.nextIndex - f)
          (n := flushed.1.nextIndex - record.nextIndex)
        rw [Nat.add_sub_cancel' hf] at hjoin
        rw [hjoin]
        congr 1
        omega
      have hdelivered := Delivered.begun f (later ++ [i]) flushed.1 hstream
      rw [hranges, List.map_append, ← hreleased] at hdelivered
      rw [List.map_map]
      exact hdelivered

theorem delivered_run {session : ClientSession} {emitted : List Bytes} (calls : List OrderedCall)
    (h : Delivered payloadOf arrived emitted (session.orderedChannels.lookup ch))
    (hcalls : ∀ call ∈ calls, ∀ i, call.arrives ch = some i →
      i < 2 ^ 24 ∧ call.payload = payloadOf i) :
    Delivered payloadOf (arrived ++ calls.filterMap (·.arrives ch))
      (emitted ++ emittedOn ch session calls)
      ((bufferAll session calls).orderedChannels.lookup ch) := by
  induction calls generalizing session arrived emitted with
  | nil => simpa [emittedOn, bufferAll] using h
  | cons call calls ih =>
    have hstep := h.call (hcalls call List.mem_cons_self)
    have hrest := ih hstep fun c hc => hcalls c (List.mem_cons_of_mem _ hc)
    rw [List.append_assoc, List.append_assoc] at hrest
    have hlist : (call :: calls).filterMap (·.arrives ch) =
        (call.arrives ch).toList ++ calls.filterMap (·.arrives ch) := by
      rw [List.filterMap_cons]
      cases call.arrives ch <;> rfl
    rw [hlist]
    exact hrest

/-- What any calls leave, from a session without the channel. -/
theorem delivered_calls {session : ClientSession}
    (hfresh : session.orderedChannels.lookup ch = none)
    (calls : List OrderedCall) (hcalls : ∀ call ∈ calls, ∀ i, call.arrives ch = some i →
      i < 2 ^ 24 ∧ call.payload = payloadOf i) :
    Delivered payloadOf (calls.filterMap (·.arrives ch)) (emittedOn ch session calls)
      ((bufferAll session calls).orderedChannels.lookup ch) := by
  have hidle : Delivered payloadOf [] [] (session.orderedChannels.lookup ch) := by
    rw [hfresh]
    exact .idle
  have hrun := delivered_run calls hidle hcalls
  rwa [List.nil_append, List.nil_append] at hrun

/-- Once a channel has begun at `f`, the payloads of `f` and of what follows it without a gap
have been emitted, in this order and once, and the record waits for the first gap. -/
theorem emittedOn_frontier (ch : ℕ) (payloadOf : ℕ → Bytes) (session : ClientSession)
    (calls : List OrderedCall) (hfresh : session.orderedChannels.lookup ch = none)
    (hcalls : ∀ call ∈ calls, ∀ i, call.arrives ch = some i →
      i < 2 ^ 24 ∧ call.payload = payloadOf i) :
    (calls.filterMap (·.arrives ch) = [] → emittedOn ch session calls = [] ∧
      (bufferAll session calls).orderedChannels.lookup ch = none) ∧
    ∀ f ∈ (calls.filterMap (·.arrives ch)).head?, ∃ m record,
      IsFrontier (calls.filterMap (·.arrives ch)) f m ∧
      emittedOn ch session calls = (List.range' f (m - f)).map payloadOf ∧
      (bufferAll session calls).orderedChannels.lookup ch = some record ∧
      record.nextIndex = m := by
  have hrun := delivered_calls hfresh calls hcalls
  generalize calls.filterMap (·.arrives ch) = arrived at hrun
  generalize emittedOn ch session calls = emitted at hrun
  generalize (bufferAll session calls).orderedChannels.lookup ch = record? at hrun
  cases hrun with
  | idle => exact ⟨fun _ => ⟨rfl, rfl⟩, fun f hf => by simp at hf⟩
  | begun f later record stream =>
    refine ⟨fun h => by simp at h, fun f' hf' => ?_⟩
    obtain rfl : f = f' := by simpa using hf'
    exact ⟨record.nextIndex, record, stream.frontier, rfl, rfl, rfl⟩

/-- Two fragments of a stream in the wrong order, one of them twice, among other calls. -/
def gapCalls : List OrderedCall :=
  [⟨[5], some 5, some 1, 0⟩, ⟨[7], some 7, some 1, 1⟩, ⟨[9], some 6, some 2, 2⟩,
    ⟨[8], none, none, 3⟩, ⟨[6], some 6, some 1, 4⟩, ⟨[5], some 5, some 1, 5⟩]

theorem emittedOn_frontier_gap : ∃ m record, IsFrontier [5, 7, 6, 5] 5 m ∧
    emittedOn 1 (.new true 11 975 []) gapCalls =
      (List.range' 5 (m - 5)).map (fun i => [UInt8.ofNat i]) ∧
    (bufferAll (.new true 11 975 []) gapCalls).orderedChannels.lookup 1 = some record ∧
    record.nextIndex = m := by
  refine (emittedOn_frontier 1 (fun i => [UInt8.ofNat i]) (.new true 11 975 []) gapCalls rfl
    ?_).2 5 rfl
  simp [gapCalls, OrderedCall.arrives]

end SkinGetBE.RakNet
