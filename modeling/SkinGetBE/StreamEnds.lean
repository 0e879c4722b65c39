import SkinGetBE.OrderedStream
import SkinGetBE.RakNetFrames

/-!
# The two ends of an ordered stream

A channel begins at the index that arrives first, whichever it is. Its next index
is a 32-bit word, and what arrives has 24 bits: behind the largest index that a
header can hold, the channel waits for one that never comes.
-/
namespace SkinGetBE.RakNet
open Octets Text Tables

/-- Of `n` messages that arrive once each, those from the first to arrive on are emitted, and so
all of them exactly when that is the first of the stream. -/
theorem emittedOn_permuted (ch n : ℕ) (payloadOf : ℕ → Bytes) (session : ClientSession)
    (calls : List OrderedCall) (hfresh : session.orderedChannels.lookup ch = none)
    (hn : 1 ≤ n ∧ n < 2 ^ 24)
    (harrived : (calls.filterMap (·.arrives ch)).Perm (List.range n))
    (hpayload : ∀ call ∈ calls, ∀ i, call.arrives ch = some i → call.payload = payloadOf i) :
    ∃ f, (calls.filterMap (·.arrives ch)).head? = some f ∧
      emittedOn ch session calls = (List.range' f (n - f)).map payloadOf ∧
      (emittedOn ch session calls = (List.range n).map payloadOf ↔ f = 0) := by
  have hmem (i : ℕ) : i ∈ calls.filterMap (·.arrives ch) ↔ i < n :=
    harrived.mem_iff.trans List.mem_range
  have hcalls : ∀ call ∈ calls, ∀ i, call.arrives ch = some i →
      i < 2 ^ 24 ∧ call.payload = payloadOf i := by
    intro call hcall i hi
    have hlt := (hmem i).mp (List.mem_filterMap.mpr ⟨call, hcall, hi⟩)
    exact ⟨by omega, hpayload call hcall i hi⟩
  have hrun := delivered_calls hfresh calls hcalls
  generalize calls.filterMap (·.arrives ch) = arrived at harrived hmem hrun
  generalize emittedOn ch session calls = emitted at hrun
  generalize (bufferAll session calls).orderedChannels.lookup ch = record? at hrun
  cases hrun with
  | idle => exact absurd ((hmem 0).mpr hn.1) List.not_mem_nil
  | begun f later record stream =>
    obtain ⟨hle, hmissing, hcomplete⟩ := stream.frontier
    have hf : f < n := (hmem f).mp List.mem_cons_self
    have hend : record.nextIndex = n := by
      have hge : ¬ record.nextIndex < n := fun h => hmissing ((hmem _).mpr h)
      have hnot : ¬ n < record.nextIndex := fun h =>
        absurd ((hmem n).mp (hcomplete n hf.le h)) (Nat.lt_irrefl n)
      omega
    rw [hend]
    refine ⟨f, rfl, rfl, fun hall => ?_, ?_⟩
    · have hlength := congrArg List.length hall
      rw [List.length_map, List.length_range', List.length_map, List.length_range] at hlength
      omega
    · rintro rfl
      rw [List.range_eq_range', Nat.sub_zero]

/-- The third message comes first of three. -/
def lateFirst : List OrderedCall :=
  [⟨[7], some 2, some 0, 0⟩, ⟨[5], some 0, some 0, 1⟩, ⟨[6], some 1, some 0, 2⟩]

theorem emittedOn_permuted_rotated : ∃ f,
    ((lateFirst.rotate 1).filterMap (·.arrives 0)).head? = some f ∧
    emittedOn 0 (.new true 11 975 []) (lateFirst.rotate 1) =
      (List.range' f (3 - f)).map (fun i => [UInt8.ofNat (i + 5)]) ∧
    (emittedOn 0 (.new true 11 975 []) (lateFirst.rotate 1) =
      (List.range 3).map (fun i => [UInt8.ofNat (i + 5)]) ↔ f = 0) := by
  refine emittedOn_permuted 0 3 (fun i => [UInt8.ofNat (i + 5)]) (.new true 11 975 [])
    (lateFirst.rotate 1) rfl (by decide) ?_ ?_
  · decide
  · simp [lateFirst, OrderedCall.arrives]

/-- The two messages before it are never emitted. -/
theorem emittedOn_lateFirst :
    (lateFirst.filterMap (·.arrives 0)).Perm (List.range 3) ∧
      emittedOn 0 (.new true 11 975 []) lateFirst = [[7]] := by
  decide +kernel

/-- The order index of a frame: the three octets that the sender writes of its counter, as the
parser reads them. -/
def headerOrder (orderIdx : ℕ) : Option ℕ :=
  match readU24Le (leBytes 3 orderIdx) 0 with
  | .ok (v, _) => some v
  | .error _ => none

/-- Messages in the order in which they are sent, each with the time of its arrival. The sender
allocates an index for each. -/
def streamCalls (ch reliability : ℕ) : ClientSession → List (Bytes × ℕ) → List OrderedCall
  | _, [] => []
  | sender, (payload, now) :: messages =>
    let taken := allocateSequence sender reliability
    ⟨payload, headerOrder taken.1.orderIdx, some ch, now⟩ ::
      streamCalls ch reliability taken.2 messages

variable {ch reliability : ℕ} {sender receiver : ClientSession}

theorem headerOrder_eq (orderIdx : ℕ) : headerOrder orderIdx = some (orderIdx % 2 ^ 24) := by
  have hbytes : leBytes 3 orderIdx = leBytes 3 (orderIdx % 2 ^ 24) := by
    have hvalue : leValue (leBytes 3 orderIdx) = orderIdx % 2 ^ 24 := leValue_leBytes 3 orderIdx
    have hback := leBytes_leValue (leBytes 3 orderIdx)
    rw [leBytes_length, hvalue] at hback
    exact hback.symm
  have hdrop : (leBytes 3 (orderIdx % 2 ^ 24)).drop 0 = leBytes 3 (orderIdx % 2 ^ 24) ++ [] :=
    (List.append_nil _).symm
  have hread := readU24Le_of_drop (Nat.mod_lt orderIdx (by omega)) hdrop (Nat.zero_le _)
  unfold headerOrder
  rw [hbytes, hread]

theorem allocateSequence_orderIndex (hr : hasOrdering reliability = true) (c : ClientSession) :
    (allocateSequence c reliability).1.orderIdx = c.orderIndex ∧
      (allocateSequence c reliability).2.orderIndex = (c.orderIndex + 1) % 2 ^ 32 :=
  ⟨rfl, if_pos hr⟩

theorem channelAt_insert (c : ClientSession) (ch : ℕ) (record : OrderedChannel) :
    channelAt { c with orderedChannels := c.orderedChannels.insert ch record } ch = record := by
  unfold channelAt getOr
  rw [AList.lookup_insert]
  rfl

/-- The record waits for an index beyond those of the wire. -/
def BeyondWire (record : OrderedChannel) : Prop := record.nextIndex = 2 ^ 24 ∧ record.InBounds

theorem emittedOn_beyondWire (messages : List (Bytes × ℕ))
    (h : BeyondWire (channelAt receiver ch)) :
    emittedOn ch receiver (streamCalls ch reliability sender messages) = [] := by
  induction messages generalizing sender receiver with
  | nil => rfl
  | cons message messages ih =>
    obtain ⟨payload, now⟩ := message
    obtain ⟨hnext, hbounds⟩ := h
    unfold streamCalls
    dsimp only
    rw [headerOrder_eq]
    generalize hidx : (allocateSequence sender reliability).1.orderIdx % 2 ^ 24 = idx
    have hlt : idx < 2 ^ 24 := by
      rw [← hidx]
      exact Nat.mod_lt _ (by omega)
    have hbegun : 0 < (channelAt receiver ch).nextIndex := by omega
    have hnext' := insertOrdered_nextIndex hbegun idx payload now
    have hbounds' := insertOrdered_inBounds hbounds hlt payload now
    have hnone : (insertOrdered (channelAt receiver ch) idx payload now).buffer.lookup
        (insertOrdered (channelAt receiver ch) idx payload now).nextIndex = none := by
      rw [hnext', hnext]
      by_contra hsome
      exact absurd (hbounds' _ (Option.isSome_iff_ne_none.mpr hsome)) (Nat.lt_irrefl _)
    have hrun : OrderedCall.run receiver ⟨payload, some idx, some ch, now⟩ =
        ({ receiver with
            orderedChannels := receiver.orderedChannels.insert ch
              (insertOrdered (channelAt receiver ch) idx payload now) }, []) := by
      unfold channelAt at hnone ⊢
      unfold OrderedCall.run bufferOrderedPayload
      dsimp only [Option.getD_some]
      rw [flushChannel_none hnone]
      rfl
    unfold emittedOn
    rw [hrun]
    dsimp only
    rw [List.map_nil, ite_self, List.nil_append]
    apply ih
    rw [channelAt_insert]
    exact ⟨hnext'.trans hnext, hbounds'⟩

/-- While the counter and the channel agree, the messages pass through up to the largest index. -/
theorem emittedOn_stream (hr : hasOrdering reliability = true) (messages : List (Bytes × ℕ))
    {k : ℕ} (hk : k ≤ 2 ^ 24) (hsender : sender.orderIndex = k)
    (hreceiver : channelAt receiver ch = ⟨k, ∅⟩) :
    emittedOn ch receiver (streamCalls ch reliability sender messages) =
      (messages.map Prod.fst).take (2 ^ 24 - k) := by
  induction messages generalizing sender receiver k with
  | nil => simp [streamCalls, emittedOn]
  | cons message messages ih =>
    by_cases hend : k = 2 ^ 24
    · have hbeyond : BeyondWire (channelAt receiver ch) := by
        rw [hreceiver]
        exact ⟨hend, fun i hi => by simp at hi⟩
      rw [emittedOn_beyondWire (message :: messages) hbeyond, hend, Nat.sub_self, List.take_zero]
    · obtain ⟨payload, now⟩ := message
      obtain ⟨hindex, hfollowing⟩ := allocateSequence_orderIndex hr sender
      have hmod : k % 2 ^ 24 = k := Nat.mod_eq_of_lt (by omega)
      have hmod' : (k + 1) % 2 ^ 32 = k + 1 := Nat.mod_eq_of_lt (by omega)
      have hleft : 2 ^ 24 - k = (2 ^ 24 - (k + 1)) + 1 := by omega
      rw [hsender, hmod'] at hfollowing
      have hdue : OrderedCall.run receiver ⟨payload, some k, some ch, now⟩ =
          ({ receiver with orderedChannels := receiver.orderedChannels.insert ch ⟨k + 1, ∅⟩ },
            [⟨some (ch, k), payload⟩]) := by
        rw [← hmod']
        exact bufferOrderedPayload_due hreceiver (.inl rfl) payload now
      have hreached : channelAt { receiver with
          orderedChannels := receiver.orderedChannels.insert ch ⟨k + 1, ∅⟩ } ch = ⟨k + 1, ∅⟩ := by
        rw [channelAt_insert]
      have hrest := ih (by omega) hfollowing hreached
      unfold streamCalls
      dsimp only
      rw [headerOrder_eq, hindex, hsender, hmod]
      unfold emittedOn
      rw [hdue]
      dsimp only
      rw [hrest, hleft]
      simp [OrderedCall.arrives]

/-- Between a fresh sender and a fresh channel, a stream comes through exactly when it has no more
messages than a header has indices. -/
theorem stream_wrap_iff (ch reliability : ℕ) (hr : hasOrdering reliability = true)
    (connected : Bool) (raknetProtocol bedrockProtocol : ℕ) (version : Str)
    (receiver : ClientSession) (hfresh : receiver.orderedChannels.lookup ch = none)
    (messages : List (Bytes × ℕ)) :
    emittedOn ch receiver (streamCalls ch reliability
        (.new connected raknetProtocol bedrockProtocol version) messages) = messages.map Prod.fst ↔
      messages.length ≤ 2 ^ 24 := by
  have hchannel : channelAt receiver ch = ⟨0, ∅⟩ := by
    unfold channelAt getOr
    rw [hfresh]
    rfl
  rw [emittedOn_stream hr messages (Nat.zero_le _) rfl hchannel, Nat.sub_zero,
    List.take_eq_self_iff, List.length_map]

theorem stream_wrap_two : emittedOn 0 (.new true 11 975 [])
    (streamCalls 0 3 (.new true 11 975 []) [([5], 0), ([6], 1)]) = [[5], [6]] :=
  (stream_wrap_iff 0 3 (by decide) true 11 975 [] (.new true 11 975 []) rfl
    [([5], 0), ([6], 1)]).mpr (by decide)

/-- The message behind the largest index is held back. -/
theorem stream_wrap_lost : emittedOn 0 (.new true 11 975 []) (streamCalls 0 3 (.new true 11 975 [])
      (List.replicate (2 ^ 24 + 1) ([5], 0))) ≠
    (List.replicate (2 ^ 24 + 1) (([5] : Bytes), 0)).map Prod.fst := by
  have hreliability : hasOrdering 3 = true := by decide
  rw [emittedOn_stream hreliability _ (Nat.zero_le _) rfl rfl]
  intro h
  have hlength := congrArg List.length h
  rw [List.length_take, List.length_map, List.length_replicate] at hlength
  omega

end SkinGetBE.RakNet
