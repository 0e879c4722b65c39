import SkinGetBE.RakNetServer

/-!
# The reassembly of one message

An entry holds the fragments of its message that have arrived and flags them.
The counter of an entry is the number of its flags, so an entry is complete
exactly when every flag is set, and then its fragments are those of the message.
-/
namespace SkinGetBE.RakNet
open Octets Text Tables

@[simp] theorem SplitBuffer.store_count (entry : SplitBuffer) (idx : ℕ) (payload : Bytes)
    (h : entry.received[idx]? = some false) : (entry.store idx payload h).count = entry.count := rfl

@[simp] theorem SplitBuffer.store_received (entry : SplitBuffer) (idx : ℕ) (payload : Bytes)
    (h : entry.received[idx]? = some false) :
    (entry.store idx payload h).received = entry.received.set idx true := rfl

@[simp] theorem SplitBuffer.store_fragments (entry : SplitBuffer) (idx : ℕ) (payload : Bytes)
    (h : entry.received[idx]? = some false) :
    (entry.store idx payload h).fragments = entry.fragments.set idx payload := rfl

/-- The flag of an index after a fragment is stored. -/
theorem SplitBuffer.store_flag (entry : SplitBuffer) {idx : ℕ} (payload : Bytes)
    (h : entry.received[idx]? = some false) (i : ℕ) :
    (entry.store idx payload h).received[i]? = some true ↔
      entry.received[i]? = some true ∨ i = idx := by
  rw [store_received]
  by_cases hi : i = idx
  · subst hi
    rw [List.getElem?_set_self (List.getElem?_eq_some_iff.mp h).1]
    simp
  · rw [List.getElem?_set_ne (Ne.symm hi)]
    simp [hi]

/-- A flag that is not set is clear. -/
theorem SplitBuffer.received_eq_false {entry : SplitBuffer} {i : ℕ} (hi : i < entry.count)
    (h : entry.received[i]? ≠ some true) : entry.received[i]? = some false := by
  rw [← entry.received_length] at hi
  rw [List.getElem?_eq_getElem hi] at h ⊢
  simpa using h

/-- The counter has reached the count when every flag is set. -/
theorem SplitBuffer.complete_iff (entry : SplitBuffer) :
    entry.receivedCount = entry.count ↔ ∀ i < entry.count, entry.received[i]? = some true := by
  rw [entry.counted]
  nth_rewrite 1 [← entry.received_length]
  rw [List.count_eq_length]
  constructor
  · intro h i hi
    rw [← entry.received_length] at hi
    rw [List.getElem?_eq_getElem hi, ← h _ (List.getElem_mem hi)]
  · intro h b hb
    obtain ⟨i, hi, rfl⟩ := List.mem_iff_getElem.mp hb
    have hflag := h i (entry.received_length ▸ hi)
    rw [List.getElem?_eq_getElem hi] at hflag
    exact (Option.some.inj hflag).symm

/-- The entry belongs to the message that was cut into `chunks`, of which those with an
arrived index are stored. The order is that of the frame that made the entry. -/
structure Holds (order : Option ℕ → Option ℕ → Prop) (chunks : List Bytes) (arrived : ℕ → Prop)
    (entry : SplitBuffer) : Prop where
  count : entry.count = chunks.length
  flags : ∀ i < chunks.length, entry.received[i]? = some true ↔ arrived i
  parts : ∀ i < chunks.length, arrived i → entry.fragments[i]? = chunks[i]?
  order : order entry.orderIndex entry.orderChannel

/-- What the table has for the message: no entry before its first fragment. -/
def Progress (order : Option ℕ → Option ℕ → Prop) (chunks : List Bytes) (arrived : ℕ → Prop) :
    Option SplitBuffer → Prop
  | none => ∀ i < chunks.length, ¬ arrived i
  | some entry => Holds order chunks arrived entry

section Entry

variable {order : Option ℕ → Option ℕ → Prop} {chunks : List Bytes} {arrived : ℕ → Prop}
  {entry : SplitBuffer}

theorem holds_new {frame : RakNetFrame} (h : ∀ i < chunks.length, ¬ arrived i)
    (horder : order frame.orderIndex frame.orderChannel) (createdAt : ℕ) :
    Holds order chunks arrived (.new chunks.length createdAt frame) where
  count := rfl
  flags i hi := by simp [SplitBuffer.new, hi, h i hi]
  parts i hi ha := absurd ha (h i hi)
  order := horder

theorem holds_store (hentry : Holds order chunks arrived entry) {idx : ℕ} {payload : Bytes}
    (hchunk : chunks[idx]? = some payload) (h : entry.received[idx]? = some false) :
    Holds order chunks (fun i => arrived i ∨ i = idx) (entry.store idx payload h) where
  count := hentry.count
  flags i hi := by rw [SplitBuffer.store_flag, hentry.flags i hi]
  parts i hi ha := by
    rw [SplitBuffer.store_fragments]
    by_cases hidx : i = idx
    · subst hidx
      rw [List.getElem?_set_self (by rw [entry.fragments_length, hentry.count]; exact hi), hchunk]
    · rw [List.getElem?_set_ne (Ne.symm hidx)]
      exact hentry.parts i hi (ha.resolve_right hidx)
  order := hentry.order

/-- A fragment that had arrived is of no use. -/
theorem Holds.repeated (hentry : Holds order chunks arrived entry) {idx : ℕ} (h : arrived idx) :
    Holds order chunks (fun i => arrived i ∨ i = idx) entry := by
  have hsame : (fun i => arrived i ∨ i = idx) = arrived := by
    ext i
    exact ⟨fun hi => hi.elim id fun hi => hi ▸ h, .inl⟩
  rw [hsame]
  exact hentry

theorem Holds.complete_iff (hentry : Holds order chunks arrived entry) :
    entry.receivedCount = entry.count ↔ ∀ i < chunks.length, arrived i := by
  rw [entry.complete_iff, hentry.count]
  exact forall₂_congr hentry.flags

/-- The fragments of a complete entry are the chunks. -/
theorem Holds.fragments_eq (hentry : Holds order chunks arrived entry)
    (h : ∀ i < chunks.length, arrived i) : entry.fragments = chunks := by
  apply List.ext_getElem?
  intro i
  by_cases hi : i < chunks.length
  · exact hentry.parts i hi (h i hi)
  · rw [List.getElem?_eq_none (by rw [entry.fragments_length, hentry.count]; omega),
      List.getElem?_eq_none (by omega)]

end Entry

/-- The frame carries the fragment `i` of the message that was cut into `chunks`. -/
structure IsFragment (chunks : List Bytes) (sid i : ℕ) (frame : RakNetFrame) : Prop where
  split : frame.isSplit = true
  splitId : frame.splitId = some sid
  count : frame.splitCount = some chunks.length
  index : frame.splitIndex = some i
  payload : chunks[i]? = some frame.payload

/-- A step that changes one entry of the reassembly at most. -/
structure SplitStep (key : Str × ℕ) (value : Option SplitBuffer) (s s' : ServerState) : Prop where
  connections : s'.connections = s.connections
  splits : ∀ k, s'.splitBuffers.lookup k = if k = key then value else s.splitBuffers.lookup k
  dispatched : s'.dispatched = s.dispatched
  stuck : s'.stuck = s.stuck

variable {order : Option ℕ → Option ℕ → Prop} {chunks : List Bytes} {arrived : ℕ → Prop}

theorem SplitStep.channels {key : Str × ℕ} {value : Option SplitBuffer} {s s' : ServerState}
    (h : SplitStep key value s s') (peer : Str) : s'.channels peer = s.channels peer := by
  unfold ServerState.channels
  rw [h.connections]

/-- The clock does not matter. -/
theorem SplitStep.of_advance {key : Str × ℕ} {value : Option SplitBuffer} {s s' : ServerState}
    (h : SplitStep key value s.advance s') : SplitStep key value s s' :=
  ⟨h.connections, h.splits, h.dispatched, h.stuck⟩

/-- What storing a fragment into the entry can do. -/
inductive Stored (env : ServerEnv) (s : ServerState) (addr : SocketAddr) (sid : ℕ)
    (entry : SplitBuffer) (idx : ℕ) (payload : Bytes) : ServerState × List Emitted → Prop
  | repeated (s' : ServerState) (h : entry.received[idx]? ≠ some false)
      (hstep : SplitStep (addr.display, sid) (some entry) s s')
      (hassembled : s'.assembled = s.assembled) :
      Stored env s addr sid entry idx payload (s', [])
  | kept (s' : ServerState) (h : entry.received[idx]? = some false)
      (hmore : (entry.store idx payload h).receivedCount ≠ (entry.store idx payload h).count)
      (hstep : SplitStep (addr.display, sid) (some (entry.store idx payload h)) s s')
      (hassembled : s'.assembled = s.assembled) :
      Stored env s addr sid entry idx payload (s', [])
  | completed (s' : ServerState) (stored : SplitBuffer) (h : entry.received[idx]? = some false)
      (heq : stored = entry.store idx payload h) (hcomplete : stored.receivedCount = stored.count)
      (hstep : SplitStep (addr.display, sid) none s s')
      (hassembled : s'.assembled =
        s.assembled ++ [⟨addr.display, sid, stored.count, stored.fragments.flatten⟩]) :
      Stored env s addr sid entry idx payload
        (deliver env s' addr stored.fragments.flatten stored.orderIndex stored.orderChannel)

theorem storeFragment_stored (env : ServerEnv) (s : ServerState) (addr : SocketAddr) (sid : ℕ)
    (entry : SplitBuffer) (idx : ℕ) (payload : Bytes) :
    Stored env s addr sid entry idx payload (storeFragment env s addr sid entry idx payload) := by
  unfold storeFragment
  by_cases h : entry.received[idx]? = some false
  · rw [dif_pos h]
    dsimp only
    by_cases hcomplete : (entry.store idx payload h).receivedCount =
        (entry.store idx payload h).count
    · rw [if_pos hcomplete]
      exact .completed _ _ h rfl hcomplete ⟨rfl, fun _ => lookup_erase_eq _ _ _, rfl, rfl⟩ rfl
    · rw [if_neg hcomplete]
      exact .kept _ h hcomplete ⟨rfl, fun _ => lookup_insert_eq _ _ _ _, rfl, rfl⟩ rfl
  · rw [dif_neg h]
    exact .repeated _ h ⟨rfl, fun _ => lookup_insert_eq _ _ _ _, rfl, rfl⟩ rfl

/-- A fragment of a message that is not complete is kept, or completes the message. -/
theorem stored_holds {entry : SplitBuffer} (hentry : Holds order chunks arrived entry)
    {idx : ℕ} {payload : Bytes} (hchunk : chunks[idx]? = some payload)
    (hbefore : ¬ ∀ i < chunks.length, arrived i) {env : ServerEnv} {s : ServerState}
    {addr : SocketAddr} {sid : ℕ} {out : ServerState × List Emitted}
    (h : Stored env s addr sid entry idx payload out) :
    ((¬ ∀ i < chunks.length, arrived i ∨ i = idx) ∧
      ∃ s' stored, out = (s', []) ∧ Holds order chunks (fun i => arrived i ∨ i = idx) stored ∧
        SplitStep (addr.display, sid) (some stored) s s') ∨
    ((∀ i < chunks.length, arrived i ∨ i = idx) ∧
      ∃ s' orderIndex orderChannel, out =
          deliver env s' addr chunks.flatten orderIndex orderChannel ∧
        order orderIndex orderChannel ∧ SplitStep (addr.display, sid) none s s') := by
  have hidx : idx < chunks.length := (List.getElem?_eq_some_iff.mp hchunk).1
  cases h with
  | repeated s' h hstep hassembled =>
    have harrived : arrived idx := by
      rw [← hentry.flags idx hidx]
      by_contra hflag
      exact h (SplitBuffer.received_eq_false (hentry.count ▸ hidx) hflag)
    have hmore : ¬ ∀ i < chunks.length, arrived i ∨ i = idx := fun hall =>
      hbefore fun i hi => (hall i hi).elim id fun he => he ▸ harrived
    exact .inl ⟨hmore, s', entry, rfl, hentry.repeated harrived, hstep⟩
  | kept s' h hmore hstep hassembled =>
    have hstored := holds_store hentry hchunk h
    exact .inl ⟨fun hall => hmore (hstored.complete_iff.mpr hall), s', _, rfl, hstored, hstep⟩
  | completed s' stored h heq hcomplete hstep hassembled =>
    have hstored := holds_store hentry hchunk h
    rw [← heq] at hstored
    have hall := hstored.complete_iff.mp hcomplete
    rw [hstored.fragments_eq hall]
    exact .inr ⟨hall, s', _, _, rfl, hstored.order, hstep⟩

/-- A split frame that counts its fragments is put to those of its message. -/
theorem receiveFrame_handed {frame : RakNetFrame} {sid : ℕ} (hsplit : frame.isSplit = true)
    (hsid : frame.splitId = some sid) (hcount : 0 < frame.splitCount.getD 0)
    (hbound : frame.splitCount.getD 0 ≤ maxSplitParts) (env : ServerEnv) (s : ServerState)
    (addr : SocketAddr) : receiveFrame env s addr frame =
      storeFragment env (s.ensureSession addr true 0).advance addr sid (getOr (addr.display, sid)
        (.new (frame.splitCount.getD 0) (env.instant (s.ensureSession addr true 0).tick) frame)
        s.splitBuffers) (frame.splitIndex.getD 0) frame.payload := by
  unfold receiveFrame receiveSplit
  dsimp only
  rw [hsplit, if_pos rfl, hsid]
  dsimp only
  rw [if_neg (by omega), if_neg (by omega)]
  rfl

/-- A split frame that counts none, or too many, is passed over. -/
theorem receiveFrame_passedOver {frame : RakNetFrame} (hsplit : frame.isSplit = true)
    (hcount : frame.splitCount.getD 0 = 0 ∨ maxSplitParts < frame.splitCount.getD 0)
    (env : ServerEnv) (s : ServerState) (addr : SocketAddr) :
    receiveFrame env s addr frame = (s.ensureSession addr true 0, []) := by
  unfold receiveFrame receiveSplit
  rw [hsplit, if_pos rfl]
  cases frame.splitId with
  | none => rfl
  | some sid =>
    dsimp only
    by_cases hzero : frame.splitCount.getD 0 = 0
    · rw [if_pos hzero]
    · rw [if_neg hzero, if_pos (hcount.resolve_left hzero)]

/-- The split branch on a fragment. -/
theorem receiveFrame_fragment {frame : RakNetFrame} {sid idx : ℕ}
    (hf : IsFragment chunks sid idx frame) (hlen : chunks.length ≤ maxSplitParts) (env : ServerEnv)
    (s : ServerState) (addr : SocketAddr)
    (hprogress : Progress order chunks arrived (s.splitBuffers.lookup (addr.display, sid)))
    (horder : s.splitBuffers.lookup (addr.display, sid) = none →
      order frame.orderIndex frame.orderChannel)
    (hbefore : ¬ ∀ i < chunks.length, arrived i) :
    ((¬ ∀ i < chunks.length, arrived i ∨ i = idx) ∧
      ∃ s' stored, receiveFrame env s addr frame = (s', []) ∧
        Holds order chunks (fun i => arrived i ∨ i = idx) stored ∧
        SplitStep (addr.display, sid) (some stored) (s.ensureSession addr true 0) s') ∨
    ((∀ i < chunks.length, arrived i ∨ i = idx) ∧
      ∃ s' orderIndex orderChannel, receiveFrame env s addr frame =
          deliver env s' addr chunks.flatten orderIndex orderChannel ∧
        order orderIndex orderChannel ∧
        SplitStep (addr.display, sid) none (s.ensureSession addr true 0) s') := by
  have hidx : idx < chunks.length := (List.getElem?_eq_some_iff.mp hf.payload).1
  have hentry : Holds order chunks arrived (getOr (addr.display, sid)
      (.new chunks.length (env.instant (s.ensureSession addr true 0).tick) frame)
      s.splitBuffers) := by
    unfold getOr
    cases hlookup : s.splitBuffers.lookup (addr.display, sid) with
    | none =>
      rw [hlookup] at hprogress
      exact holds_new hprogress (horder hlookup) _
    | some entry =>
      rw [hlookup] at hprogress
      exact hprogress
  have hreceive : receiveFrame env s addr frame =
      storeFragment env (s.ensureSession addr true 0).advance addr sid (getOr (addr.display, sid)
        (.new chunks.length (env.instant (s.ensureSession addr true 0).tick) frame)
        s.splitBuffers) idx frame.payload := by
    have hcount : frame.splitCount.getD 0 = chunks.length := by rw [hf.count, Option.getD_some]
    rw [receiveFrame_handed hf.split hf.splitId (by omega) (by omega), hcount, hf.index,
      Option.getD_some]
  rw [hreceive]
  rcases stored_holds hentry hf.payload hbefore (storeFragment_stored env
    (s.ensureSession addr true 0).advance addr sid _ idx frame.payload) with
      ⟨hpart, s', stored, heq, hstored, hstep⟩ |
      ⟨hall, s', orderIndex, orderChannel, heq, horder', hstep⟩
  · exact .inl ⟨hpart, s', stored, heq, hstored, hstep.of_advance⟩
  · exact .inr ⟨hall, s', orderIndex, orderChannel, heq, horder', hstep.of_advance⟩

end SkinGetBE.RakNet
