import SkinGetBE.RakNetServer

/-!
# The ordered buffer

What one arrival does to an ordered channel. A flush releases consecutive
indices from the next one on; a channel without a record adopts the index that
arrives and releases it at once.
-/
namespace SkinGetBE.RakNet
open Octets Text Tables

/-- Every buffered index is one that a 24-bit field can hold. -/
def OrderedChannel.InBounds (channel : OrderedChannel) : Prop :=
  ∀ k, (channel.buffer.lookup k).isSome → k < 2 ^ 24

theorem flushChannel_none {channel : OrderedChannel}
    (h : channel.buffer.lookup channel.nextIndex = none) (fuel : ℕ) :
    flushChannel fuel channel = (channel, []) := by
  cases fuel with
  | zero => rfl
  | succ fuel =>
    unfold flushChannel
    rw [h]

theorem flushChannel_some {channel : OrderedChannel} {p : Bytes} {now : ℕ}
    (h : channel.buffer.lookup channel.nextIndex = some (p, now)) (fuel : ℕ) :
    flushChannel (fuel + 1) channel =
      ((flushChannel fuel ⟨(channel.nextIndex + 1) % 2 ^ 32,
          channel.buffer.erase channel.nextIndex⟩).1,
        (channel.nextIndex, p) :: (flushChannel fuel ⟨(channel.nextIndex + 1) % 2 ^ 32,
          channel.buffer.erase channel.nextIndex⟩).2) := by
  rw [flushChannel, h]

theorem OrderedChannel.InBounds.erase {channel : OrderedChannel} (hb : channel.InBounds) (k n : ℕ) :
    OrderedChannel.InBounds ⟨n, channel.buffer.erase k⟩ := by
  intro j hj
  apply hb j
  dsimp only at hj
  rw [lookup_erase_eq] at hj
  by_cases h : j = k
  · rw [if_pos h] at hj
    cases hj
  · rwa [if_neg h] at hj

/-- The released indices are consecutive, and the next index is the one behind them. -/
theorem flushChannel_indices (fuel : ℕ) {channel : OrderedChannel} (hb : channel.InBounds) :
    (flushChannel fuel channel).2.map Prod.fst =
        List.range' channel.nextIndex (flushChannel fuel channel).2.length ∧
      (flushChannel fuel channel).1.nextIndex =
        channel.nextIndex + (flushChannel fuel channel).2.length ∧
      (flushChannel fuel channel).1.InBounds := by
  induction fuel generalizing channel with
  | zero => exact ⟨rfl, rfl, hb⟩
  | succ fuel ih =>
    cases h : channel.buffer.lookup channel.nextIndex with
    | none =>
      rw [flushChannel_none h]
      exact ⟨rfl, rfl, hb⟩
    | some entry =>
      obtain ⟨p, now⟩ := entry
      have hlt : channel.nextIndex < 2 ^ 24 := hb _ (by rw [h]; rfl)
      have hmod : (channel.nextIndex + 1) % 2 ^ 32 = channel.nextIndex + 1 :=
        Nat.mod_eq_of_lt (by omega)
      obtain ⟨h1, h2, h3⟩ := ih (hb.erase channel.nextIndex ((channel.nextIndex + 1) % 2 ^ 32))
      rw [flushChannel_some h]
      rw [hmod] at h1 h2 h3 ⊢
      refine ⟨?_, ?_, h3⟩
      · rw [List.map_cons, List.length_cons, List.range'_succ, h1]
      · rw [h2, List.length_cons]
        dsimp only
        omega

/-- The released payloads and those that stay are the ones that were buffered. -/
theorem flushChannel_weight (f : Bytes → ℕ) (fuel : ℕ) (channel : OrderedChannel) :
    weight (fun e => f e.1) (flushChannel fuel channel).1.buffer +
        ((flushChannel fuel channel).2.map fun e => f e.2).sum =
      weight (fun e => f e.1) channel.buffer := by
  induction fuel generalizing channel with
  | zero => rfl
  | succ fuel ih =>
    cases h : channel.buffer.lookup channel.nextIndex with
    | none =>
      rw [flushChannel_none h]
      rfl
    | some entry =>
      obtain ⟨p, now⟩ := entry
      have herase := weight_erase (fun e : Bytes × ℕ => f e.1) channel.nextIndex channel.buffer
      rw [h] at herase
      have hrest := ih ⟨(channel.nextIndex + 1) % 2 ^ 32, channel.buffer.erase channel.nextIndex⟩
      rw [flushChannel_some h, List.map_cons, List.sum_cons]
      simp only [Option.elim_some] at herase hrest ⊢
      omega

/-- What holds of the buffered indices and of the one that arrives. -/
theorem insertOrdered_forall {P : ℕ → Prop} {channel : OrderedChannel}
    (hb : ∀ k, (channel.buffer.lookup k).isSome → P k) {idx : ℕ} (hidx : P idx) (payload : Bytes)
    (now : ℕ) (k : ℕ)
    (hk : ((insertOrdered channel idx payload now).buffer.lookup k).isSome) : P k := by
  unfold insertOrdered at hk
  dsimp only at hk
  rw [lookup_insert_eq] at hk
  by_cases h : k = idx
  · rwa [h]
  · rw [if_neg h] at hk
    exact hb k hk

theorem insertOrdered_inBounds {channel : OrderedChannel} (hb : channel.InBounds) {idx : ℕ}
    (hidx : idx < 2 ^ 24) (payload : Bytes) (now : ℕ) :
    (insertOrdered channel idx payload now).InBounds :=
  insertOrdered_forall hb hidx payload now

theorem insertOrdered_nextIndex {channel : OrderedChannel} (h : 0 < channel.nextIndex) (idx : ℕ)
    (payload : Bytes) (now : ℕ) :
    (insertOrdered channel idx payload now).nextIndex = channel.nextIndex :=
  if_neg fun hand => by omega

/-- An empty channel at `idx`, or one that has not begun, is at `idx` afterwards. -/
theorem insertOrdered_empty {next idx : ℕ} (h : next = idx ∨ next = 0) (payload : Bytes)
    (now : ℕ) : insertOrdered ⟨next, ∅⟩ idx payload now =
      ⟨idx, AList.insert idx (payload, now) ∅⟩ := by
  have hsize : size (AList.insert idx (payload, now) (∅ : Table ℕ (Bytes × ℕ))) = 1 := rfl
  unfold insertOrdered
  dsimp only
  rw [hsize]
  by_cases h0 : next = 0
  · rw [if_pos ⟨rfl, h0⟩]
  · rw [if_neg fun hand => h0 hand.2]
    rcases h with rfl | h
    · rfl
    · exact absurd h h0

/-- The payload of an index that is due passes through. -/
theorem flushChannel_due (idx : ℕ) (payload : Bytes) (now : ℕ) :
    flushChannel (size (AList.insert idx (payload, now) (∅ : Table ℕ (Bytes × ℕ))))
        ⟨idx, AList.insert idx (payload, now) ∅⟩ =
      (⟨(idx + 1) % 2 ^ 32, ∅⟩, [(idx, payload)]) := by
  have hsize : size (AList.insert idx (payload, now) (∅ : Table ℕ (Bytes × ℕ))) = 0 + 1 := rfl
  have herase : (AList.insert idx (payload, now) (∅ : Table ℕ (Bytes × ℕ))).erase idx = ∅ := by
    apply AList.ext
    exact List.kerase_cons_eq (β := fun _ : ℕ => Bytes × ℕ) rfl
  rw [hsize, flushChannel_some (AList.lookup_insert _), herase]
  rfl

/-- The record that an arrival on the channel finds. -/
def channelAt (session : ClientSession) (ch : ℕ) : OrderedChannel :=
  getOr ch ⟨0, ∅⟩ session.orderedChannels

/-- An index that is due, on a channel with nothing else, is released. -/
theorem bufferOrderedPayload_due {session : ClientSession} {ch next idx : ℕ}
    (hchannel : channelAt session ch = ⟨next, ∅⟩) (h : next = idx ∨ next = 0) (payload : Bytes)
    (now : ℕ) : bufferOrderedPayload session payload (some idx) (some ch) now =
      ({ session with orderedChannels :=
          session.orderedChannels.insert ch ⟨(idx + 1) % 2 ^ 32, ∅⟩ },
        [⟨some (ch, idx), payload⟩]) := by
  have hinsert : insertOrdered (getOr ch ⟨0, ∅⟩ session.orderedChannels) idx payload now =
      ⟨idx, AList.insert idx (payload, now) ∅⟩ := by
    rw [← insertOrdered_empty h, ← hchannel]
    rfl
  unfold bufferOrderedPayload
  dsimp only [Option.getD_some]
  rw [hinsert, flushChannel_due]
  rfl

/-- An ordered arrival releases consecutive indices and leaves the record behind them. They
begin at the next index of the record, or at the index itself when there is no record. -/
structure Arrival (before : Option OrderedChannel) (ch idx : ℕ) (emitted : List Emitted)
    (after : OrderedChannel) (start n : ℕ) : Prop where
  orders : emitted.map (·.order) = (List.range' start n).map fun i => some (ch, i)
  nextIndex : after.nextIndex = start + n
  inBounds : after.InBounds
  begun : 0 < after.nextIndex
  adopted : before = none → start = idx ∧ n = 1
  resumed : ∀ record, before = some record → start = record.nextIndex

theorem bufferOrderedPayload_arrival {session : ClientSession} {ch idx : ℕ} (hidx : idx < 2 ^ 24)
    (hrecord : ∀ record, session.orderedChannels.lookup ch = some record →
      record.InBounds ∧ 0 < record.nextIndex) (payload : Bytes) (now : ℕ) :
    ∃ after start n,
      (bufferOrderedPayload session payload (some idx) (some ch) now).1.orderedChannels.lookup ch =
        some after ∧
      Arrival (session.orderedChannels.lookup ch) ch idx
        (bufferOrderedPayload session payload (some idx) (some ch) now).2 after start n := by
  cases hbefore : session.orderedChannels.lookup ch with
  | none =>
    have hat : channelAt session ch = ⟨0, ∅⟩ := by
      unfold channelAt getOr
      rw [hbefore]
      rfl
    have hmod : (idx + 1) % 2 ^ 32 = idx + 1 := Nat.mod_eq_of_lt (by omega)
    rw [bufferOrderedPayload_due hat (.inr rfl), hmod]
    refine ⟨⟨idx + 1, ∅⟩, idx, 1, AList.lookup_insert _, rfl, rfl, ?_, Nat.succ_pos _,
      fun _ => ⟨rfl, rfl⟩, fun _ h => by cases h⟩
    intro k hk
    simp at hk
  | some record =>
    obtain ⟨hbounds, hbegun⟩ := hrecord record hbefore
    have hat : getOr ch ⟨0, ∅⟩ session.orderedChannels = record := by
      unfold getOr
      rw [hbefore]
      rfl
    unfold bufferOrderedPayload
    dsimp only [Option.getD_some]
    rw [hat]
    have hnext := insertOrdered_nextIndex hbegun idx payload now
    have hinserted := insertOrdered_inBounds hbounds hidx payload now
    generalize insertOrdered record idx payload now = channel at hnext hinserted
    obtain ⟨h1, h2, h3⟩ := flushChannel_indices (size channel.buffer) hinserted
    generalize flushChannel (size channel.buffer) channel = flushed at h1 h2 h3
    refine ⟨flushed.1, channel.nextIndex, flushed.2.length, AList.lookup_insert _, ?_, h2, h3,
      by omega, (fun h => by cases h), ?_⟩
    · rw [← h1, List.map_map, List.map_map]
      rfl
    · intro record' h
      rw [hnext, Option.some.inj h]

end SkinGetBE.RakNet
