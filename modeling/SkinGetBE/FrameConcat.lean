import SkinGetBE.FrameEncoding
import SkinGetBE.OrderedDelivery
import SkinGetBE.SplitBuffers

/-!
# Several frames in one datagram

A datagram is the header of a set and well-formed frames one behind the other.
The parser stops behind a split frame that is not the last, and a split frame of
no fragments is passed over, while the whole set is acknowledged.
-/
namespace SkinGetBE.RakNet
open Octets Text Tables

/-- A frame as a peer writes it. Fields that the flags do not ask for are not written; the length
field counts the bits of the payload. -/
structure WireFrame where
  flags : UInt8
  bits : ℕ
  reliableSeq : ℕ
  orderIndex : ℕ
  orderChannel : ℕ
  split : SplitHeader
  payload : Bytes
  bits_lt : bits < 2 ^ 16
  payload_length : payload.length = (bits + 7) / 8
  reliableSeq_lt : reliableSeq < 2 ^ 24
  orderIndex_lt : orderIndex < 2 ^ 24
  orderChannel_le : orderChannel ≤ 31
  split_fits : split.Fits
  count_le : split.count ≤ 512

namespace WireFrame

def reliability (w : WireFrame) : ℕ := ((w.flags >>> 5) &&& 0x07).toNat

def isSplit (w : WireFrame) : Bool := (w.flags &&& 0x10) != 0

def encode (w : WireFrame) : Bytes :=
  w.flags :: (beBytes 2 w.bits ++
    ((if hasReliable w.reliability then leBytes 3 w.reliableSeq else []) ++
      ((if hasOrdering w.reliability then leBytes 3 w.orderIndex ++ [UInt8.ofNat w.orderChannel]
        else []) ++ ((if w.isSplit then splitHeaderBytes w.split else []) ++ w.payload))))

/-- The frame as a receiver should see it. -/
def frame (w : WireFrame) : RakNetFrame where
  reliability := w.reliability
  isSplit := w.isSplit
  payload := w.payload
  reliableSeq := if hasReliable w.reliability then some w.reliableSeq else none
  orderIndex := if hasOrdering w.reliability then some w.orderIndex else none
  orderChannel := if hasOrdering w.reliability then some w.orderChannel else none
  splitCount := if w.isSplit then some w.split.count else none
  splitId := if w.isSplit then some w.split.id else none
  splitIndex := if w.isSplit then some w.split.index else none

end WireFrame

/-- A frame set with the sequence number in `s0`, `s1`, `s2`. -/
def concatDatagram (id s0 s1 s2 : UInt8) (ws : List WireFrame) : Bytes :=
  id :: s0 :: s1 :: s2 :: ws.flatMap WireFrame.encode

variable {data tl : Bytes}

/-- The fields of the frame, which are written the same way. -/
def WireFrame.fields (w : WireFrame) : FrameFields :=
  ⟨w.flags, w.bits, w.reliableSeq, w.orderIndex, w.orderChannel, w.split, w.payload⟩

theorem WireFrame.fields_wellFormed (w : WireFrame) : w.fields.WellFormed where
  bits := w.bits_lt
  payload := w.payload_length
  reliableSeq := w.reliableSeq_lt
  orderIndex := w.orderIndex_lt
  orderChannel := w.orderChannel_le
  split := w.split_fits
  count := w.count_le.trans (by decide)

/-- A frame that is split comes last. -/
def SplitLast (frames : List RakNetFrame) : Prop := ∀ f ∈ frames.dropLast, f.isSplit = false

theorem splitLast_of_forall {frames : List RakNetFrame} (h : ∀ f ∈ frames, f.isSplit = false) :
    SplitLast frames := fun f hf => h f (List.dropLast_subset _ hf)

theorem splitLast_append {frames : List RakNetFrame} (h : ∀ f ∈ frames, f.isSplit = false)
    (frame : RakNetFrame) : SplitLast (frames ++ [frame]) := by
  intro f hf
  rw [List.dropLast_concat] at hf
  exact h f hf

theorem refusedFrame_splitLast {mode : FrameLengthMode} {offset off : ℕ}
    {acc frames : List RakNetFrame} {failed : Bool}
    (h : refusedFrame data mode offset acc = .ok (frames, off, failed)) (hacc : SplitLast acc) :
    SplitLast frames := by
  have hfailed : ∀ {r : Except FrameStop Bytes},
      (r >>= fun _ => Except.ok (acc, offset, true)) = .ok (frames, off, failed) →
        SplitLast frames := by
    intro r hr
    cases r with
    | error e => cases hr
    | ok o =>
      cases hr
      exact hacc
  unfold refusedFrame at h
  cases mode with
  | bits => exact hfailed h
  | bytes =>
    rcases acc with _ | ⟨frame, _ | ⟨frame', acc⟩⟩
    · exact hfailed h
    · dsimp only at h
      by_cases hbatch : isOversizedBatch frame.payload
      · rw [if_pos hbatch] at h
        cases hslice : sliceAt data offset data.length with
        | error e =>
          rw [hslice] at h
          cases h
        | ok o =>
          rw [hslice] at h
          cases h
          exact fun f hf => absurd hf (List.not_mem_nil)
      · rw [if_neg hbatch] at h
        exact hfailed h
    · exact hfailed h

/-- Whatever the datagram holds, no frame is kept that stands behind a split one. -/
theorem parseFramesLoop_splitLast {mode : FrameLengthMode} {fuel offset off : ℕ}
    {acc frames : List RakNetFrame} {failed : Bool}
    (h : parseFramesLoop data mode fuel offset acc = .ok (frames, off, failed))
    (hacc : (∀ f ∈ acc, f.isSplit = false) ∨ (SplitLast acc ∧ data.length ≤ offset)) :
    SplitLast frames := by
  have hlast : SplitLast acc := hacc.elim splitLast_of_forall And.left
  induction fuel generalizing offset acc with
  | zero =>
    cases h
    exact hlast
  | succ fuel ih =>
    unfold parseFramesLoop at h
    by_cases hend : offset < data.length
    · rw [if_pos hend] at h
      have hall : ∀ f ∈ acc, f.isSplit = false := hacc.resolve_right fun hr => by omega
      cases hparse : parseFrame data offset mode with
      | error stop =>
        rw [hparse] at h
        cases stop with
        | refused => exact refusedFrame_splitLast h hlast
        | outOfBounds => cases h
      | ok read =>
        obtain ⟨frame, newOffset⟩ := read
        rw [hparse] at h
        dsimp only at h
        have happend := splitLast_append hall frame
        by_cases hstop : frame.isSplit && decide (newOffset < data.length)
        · rw [if_pos hstop] at h
          cases h
          exact happend
        · rw [if_neg hstop] at h
          refine ih h ?_ happend
          rw [Bool.and_eq_true, decide_eq_true_eq, not_and_or] at hstop
          rcases hstop with hunsplit | hpast
          · left
            intro f hf
            rcases List.mem_append.mp hf with hf | hf
            · exact hall f hf
            · rw [List.mem_singleton.mp hf]
              simpa using hunsplit
          · exact .inr ⟨happend, by omega⟩
    · rw [if_neg hend] at h
      cases h
      exact hlast

theorem selectFrames_splitLast {frames : List RakNetFrame} (h : selectFrames data = .ok frames) :
    SplitLast frames := by
  have hmode : ∀ mode result, parseFrameSetWithMode data mode = .ok result →
      SplitLast result.1 := fun mode result hr => parseFramesLoop_splitLast hr (.inl nofun)
  unfold selectFrames at h
  cases hbits : parseFrameSetWithMode data .bits with
  | error e =>
    rw [hbits] at h
    cases h
  | ok bits =>
    rw [hbits] at h
    simp only [bind, Except.bind] at h
    by_cases htry : bits.2.2 || decide (bits.2.1 < data.length)
    · rw [if_pos htry] at h
      cases hbytes : parseFrameSetWithMode data .bytes with
      | error e =>
        rw [hbytes] at h
        cases h
      | ok bytes =>
        rw [hbytes] at h
        simp only [Except.ok.injEq] at h
        rw [← h]
        split
        · exact hmode .bytes bytes hbytes
        · exact hmode .bits bits hbits
    · rw [if_neg htry] at h
      cases h
      exact hmode .bits bits hbits

theorem framesOf_splitLast (data : Bytes) : SplitLast (framesOf data) := by
  unfold framesOf parseFrameSet
  rcases data with _ | ⟨id, _ | ⟨s0, _ | ⟨s1, _ | ⟨s2, tl⟩⟩⟩⟩
  · exact nofun
  · exact nofun
  · exact nofun
  · exact nofun
  · dsimp only
    by_cases hid : 0x80 ≤ id ∧ id ≤ 0x8d
    · rw [if_pos hid]
      cases hselect : selectFrames (id :: s0 :: s1 :: s2 :: tl) with
      | error e => exact nofun
      | ok frames => exact selectFrames_splitLast hselect
    · rw [if_neg hid]
      exact nofun

theorem framesOf_concat {id : UInt8} (hid : 0x80 ≤ id ∧ id ≤ 0x8d) (s0 s1 s2 : UInt8)
    (ws : List WireFrame) (hsplit : ∀ w ∈ ws.dropLast, w.isSplit = false) :
    framesOf (concatDatagram id s0 s1 s2 ws) = ws.map WireFrame.frame := by
  have hdatagram : concatDatagram id s0 s1 s2 ws =
      fieldsDatagram id s0 s1 s2 (ws.map WireFrame.fields) := by
    unfold concatDatagram fieldsDatagram
    rw [List.flatMap_map]
    rfl
  have hfields : ∀ f ∈ ws.map WireFrame.fields, f.WellFormed :=
    List.forall_mem_map.mpr fun w _ => w.fields_wellFormed
  have hlast : ∀ f ∈ (ws.map WireFrame.fields).dropLast, f.isSplit = false := by
    rw [← List.map_dropLast]
    exact List.forall_mem_map.mpr hsplit
  rw [hdatagram, framesOf_eq (parseFrameSet_fields hid s0 s1 s2 hfields hlast), List.map_map]
  rfl

variable {env : ServerEnv} {addr : SocketAddr} {s : ServerState}

/-- The octets are those of the entry under the index. -/
def SplitBuffer.HasPart (entry : SplitBuffer) (idx : ℕ) (payload : Bytes) : Prop :=
  entry.received[idx]? = some true ∧ entry.fragments[idx]? = some payload

/-- A call has released the payload, or it waits in its ordered channel under its index. -/
def Forwarded (addr : SocketAddr) (payload : Bytes) (orderIndex orderChannel : Option ℕ)
    (out : ServerState × List Emitted) : Prop :=
  match orderIndex with
  | none => ⟨none, payload⟩ ∈ out.2
  | some idx => ⟨some (orderChannel.getD 0, idx), payload⟩ ∈ out.2 ∨
      ∃ channel time, (out.1.channels addr.display).lookup (orderChannel.getD 0) = some channel ∧
        channel.buffer.lookup idx = some (payload, time)

/-- Where a frame is after the call that receives it: its payload is delivered, or its octets are
in the table with those of its message, or they are in the message that it completes, which is
delivered. -/
inductive Kept (addr : SocketAddr) (s : ServerState) (frame : RakNetFrame)
    (out : ServerState × List Emitted) : Prop
  | whole (hsplit : frame.isSplit = false)
      (h : Forwarded addr frame.payload frame.orderIndex frame.orderChannel out)
  | part (sid : ℕ) (entry : SplitBuffer) (hsplit : frame.isSplit = true)
      (hsid : frame.splitId = some sid)
      (hlookup : out.1.splitBuffers.lookup (addr.display, sid) = some entry)
      (h : entry.HasPart (frame.splitIndex.getD 0) frame.payload)
  | last (sid : ℕ) (chunks : List Bytes) (orderIndex orderChannel : Option ℕ)
      (hsplit : frame.isSplit = true) (hsid : frame.splitId = some sid)
      (hchunk : chunks[frame.splitIndex.getD 0]? = some frame.payload)
      (hassembled : out.1.assembled =
        s.assembled ++ [⟨addr.display, sid, chunks.length, chunks.flatten⟩])
      (h : Forwarded addr chunks.flatten orderIndex orderChannel out)

/-- The fragment is in the table already, or there is a free place for it. The first fragment that
arrives of a message says how many places there are. -/
def Admits (addr : SocketAddr) (s : ServerState) (w : WireFrame) : Prop :=
  match s.splitBuffers.lookup (addr.display, w.split.id) with
  | none => w.split.index < w.split.count
  | some entry => entry.HasPart w.split.index w.payload ∨
      1 ≤ w.split.count ∧ entry.received[w.split.index]? = some false

instance (entry : SplitBuffer) (idx : ℕ) (payload : Bytes) :
    Decidable (entry.HasPart idx payload) := inferInstanceAs (Decidable (_ ∧ _))

instance (addr : SocketAddr) (s : ServerState) (w : WireFrame) : Decidable (Admits addr s w) :=
  match h : s.splitBuffers.lookup (addr.display, w.split.id) with
  | none => decidable_of_iff (w.split.index < w.split.count) (by unfold Admits; rw [h])
  | some entry => decidable_of_iff (entry.HasPart w.split.index w.payload ∨
      1 ≤ w.split.count ∧ entry.received[w.split.index]? = some false) (by unfold Admits; rw [h])

/-- A flush releases what is buffered or leaves it where it is. -/
theorem flushChannel_forwards (fuel : ℕ) {channel : OrderedChannel} {idx time : ℕ}
    {payload : Bytes} (h : channel.buffer.lookup idx = some (payload, time)) :
    (idx, payload) ∈ (flushChannel fuel channel).2 ∨
      (flushChannel fuel channel).1.buffer.lookup idx = some (payload, time) := by
  induction fuel generalizing channel with
  | zero => exact .inr h
  | succ fuel ih =>
    cases hnext : channel.buffer.lookup channel.nextIndex with
    | none =>
      rw [flushChannel_none hnext]
      exact .inr h
    | some entry =>
      obtain ⟨p, now⟩ := entry
      rw [flushChannel_some hnext]
      by_cases hidx : idx = channel.nextIndex
      · subst hidx
        obtain ⟨rfl, -⟩ := Prod.mk.inj (Option.some.inj (h.symm.trans hnext))
        exact .inl List.mem_cons_self
      · refine (ih ?_).imp (List.mem_cons_of_mem _) id
        exact (AList.lookup_erase_ne hidx).trans h

theorem deliver_forwards (env : ServerEnv) (s : ServerState) (addr : SocketAddr) (payload : Bytes)
    (orderIndex orderChannel : Option ℕ) : Forwarded addr payload orderIndex orderChannel
      (deliver env s addr payload orderIndex orderChannel) := by
  cases orderIndex with
  | none => exact List.mem_cons_self
  | some idx =>
    have hinserted : (insertOrdered (getOr (orderChannel.getD 0) ⟨0, ∅⟩
        (s.sessionOf addr).orderedChannels) idx payload (env.instant s.tick)).buffer.lookup idx =
          some (payload, env.instant s.tick) := AList.lookup_insert _
    unfold Forwarded
    dsimp only
    rw [deliver_channels]
    unfold deliver bufferOrderedPayload
    dsimp only
    rw [AList.lookup_insert]
    refine (flushChannel_forwards _ hinserted).imp ?_ fun hleft => ⟨_, _, rfl, hleft⟩
    exact fun hmem => List.mem_map.mpr ⟨_, hmem, rfl⟩

/-- What the entry has that a fragment is put to. -/
theorem admits_iff (w : WireFrame) (createdAt : ℕ) (frame : RakNetFrame) {entry : SplitBuffer}
    (hentry : getOr (addr.display, w.split.id) (.new w.split.count createdAt frame)
      s.splitBuffers = entry) : Admits addr s w ↔ entry.HasPart w.split.index w.payload ∨
        1 ≤ w.split.count ∧ entry.received[w.split.index]? = some false := by
  subst hentry
  unfold Admits getOr
  cases s.splitBuffers.lookup (addr.display, w.split.id) with
  | none =>
    dsimp only [Option.getD_none, SplitBuffer.HasPart, SplitBuffer.new]
    rw [List.getElem?_replicate]
    by_cases hlt : w.split.index < w.split.count
    · simp [hlt, Nat.one_le_of_lt hlt]
    · simp [hlt]
  | some entry => rfl

theorem SplitBuffer.store_hasPart (entry : SplitBuffer) {idx : ℕ} (payload : Bytes)
    (h : entry.received[idx]? = some false) : (entry.store idx payload h).HasPart idx payload := by
  refine ⟨(entry.store_flag payload h idx).mpr (.inr rfl), ?_⟩
  have hlt : idx < entry.fragments.length := by
    rw [entry.fragments_length, ← entry.received_length]
    exact (List.getElem?_eq_some_iff.mp h).1
  rw [SplitBuffer.store_fragments, List.getElem?_set_self hlt]

/-- A call that puts nothing together keeps a fragment in the table or not at all. -/
theorem kept_table_iff {frame : RakNetFrame} {sid : ℕ} (hsplit : frame.isSplit = true)
    (hsid : frame.splitId = some sid) {out : ServerState × List Emitted}
    (hassembled : out.1.assembled = s.assembled) : Kept addr s frame out ↔
      ∃ entry, out.1.splitBuffers.lookup (addr.display, sid) = some entry ∧
        entry.HasPart (frame.splitIndex.getD 0) frame.payload := by
  constructor
  · intro hkept
    cases hkept with
    | whole hunsplit h =>
      rw [hsplit] at hunsplit
      cases hunsplit
    | part sid' entry _ hsid' hlookup h =>
      obtain rfl := Option.some.inj (hsid.symm.trans hsid')
      exact ⟨entry, hlookup, h⟩
    | last sid' chunks orderIndex orderChannel _ _ hchunk hgrown h =>
      have hlen := congrArg List.length (hassembled.symm.trans hgrown)
      rw [List.length_append, List.length_singleton] at hlen
      omega
  · rintro ⟨entry, hlookup, h⟩
    exact .part sid entry hsplit hsid hlookup h

/-- What a fragment is put into the table by. -/
theorem WireFrame.frame_split (w : WireFrame) (hsplit : w.isSplit = true) :
    w.frame.isSplit = true ∧ w.frame.splitId = some w.split.id ∧
      w.frame.splitIndex.getD 0 = w.split.index ∧ w.frame.splitCount.getD 0 = w.split.count :=
  ⟨hsplit, if_pos hsplit, congrArg (Option.getD · 0) (if_pos hsplit),
    congrArg (Option.getD · 0) (if_pos hsplit)⟩

/-- A fragment that counts none is passed over. -/
theorem kept_uncounted_iff {w : WireFrame} (hsplit : w.isSplit = true) (hzero : w.split.count = 0) :
    Kept addr s w.frame (receiveFrame env s addr w.frame) ↔ Admits addr s w := by
  obtain ⟨hframe, hsid, hidx, hcount⟩ := w.frame_split hsplit
  have hsame : (s.ensureSession addr true 0).assembled = s.assembled := rfl
  have htable : (s.ensureSession addr true 0).splitBuffers = s.splitBuffers := rfl
  rw [receiveFrame_passedOver hframe (.inl (hcount.trans hzero)),
    kept_table_iff hframe hsid (by exact hsame), hidx, htable]
  unfold Admits
  rw [hzero]
  cases s.splitBuffers.lookup (addr.display, w.split.id) with
  | none => simp
  | some entry => simp [WireFrame.frame]

theorem kept_split_iff {w : WireFrame} (hsplit : w.isSplit = true) :
    Kept addr s w.frame (receiveFrame env s addr w.frame) ↔ Admits addr s w := by
  obtain ⟨hframe, hsid, hidx, hcount⟩ := w.frame_split hsplit
  by_cases hzero : w.split.count = 0
  · exact kept_uncounted_iff hsplit hzero
  · rw [receiveFrame_handed hframe hsid (by omega) (hcount.trans_le w.count_le), hcount, hidx]
    generalize hentry : getOr (addr.display, w.split.id) (.new w.split.count
      (env.instant (s.ensureSession addr true 0).tick) w.frame) s.splitBuffers = entry
    rw [admits_iff w _ w.frame hentry]
    have hstored := storeFragment_stored env (s.ensureSession addr true 0).advance addr w.split.id
      entry w.split.index w.frame.payload
    generalize storeFragment env (s.ensureSession addr true 0).advance addr w.split.id
      entry w.split.index w.frame.payload = out at hstored
    cases hstored with
    | repeated s' h hstep hassembled =>
      rw [kept_table_iff hframe hsid hassembled, hidx, hstep.splits, if_pos rfl]
      constructor
      · rintro ⟨entry', hsame, hpart⟩
        exact .inl (Option.some.inj hsame ▸ hpart)
      · rintro (hpart | ⟨-, hfree⟩)
        · exact ⟨entry, rfl, hpart⟩
        · exact absurd hfree h
    | kept s' h hmore hstep hassembled =>
      rw [kept_table_iff hframe hsid hassembled, hidx, hstep.splits, if_pos rfl]
      exact ⟨fun _ => .inr ⟨by omega, h⟩, fun _ => ⟨_, rfl, entry.store_hasPart _ h⟩⟩
    | completed s' stored h heq hcomplete hstep hassembled =>
      have hpart : stored.HasPart w.split.index w.frame.payload := heq ▸ entry.store_hasPart _ h
      refine ⟨fun _ => .inr ⟨by omega, h⟩, fun _ => ?_⟩
      refine .last w.split.id stored.fragments stored.orderIndex stored.orderChannel hframe hsid
        (hidx ▸ hpart.2) ?_ (deliver_forwards env s' addr _ _ _)
      rw [stored.fragments_length]
      exact hassembled

/-- The loop gets to every frame, and the call that receives it keeps it. -/
def KeptAll (env : ServerEnv) (addr : SocketAddr) : ServerState → List RakNetFrame → Prop
  | _, [] => True
  | s, frame :: frames => s.stuck = false ∧ Kept addr s frame (receiveFrame env s addr frame) ∧
      KeptAll env addr (handleFrame env addr s frame) frames

/-- Every frame was read from the datagram, and every one was kept. -/
def LosesNothing (env : ServerEnv) (addr : SocketAddr) (s : ServerState) (data : Bytes)
    (ws : List WireFrame) : Prop :=
  framesOf data = ws.map WireFrame.frame ∧
    KeptAll env addr (markConnected (pruneQueues env s addr) addr) (framesOf data)

/-- The state in which the last of the frames is handled. -/
def beforeLast (env : ServerEnv) (addr : SocketAddr) (s : ServerState) (ws : List WireFrame) :
    ServerState :=
  forEach (handleFrame env addr) (markConnected (pruneQueues env s addr) addr)
    (ws.dropLast.map WireFrame.frame)

/-- A frame is kept when it is not split, or is a fragment that the table admits. -/
theorem kept_iff (w : WireFrame) : Kept addr s w.frame (receiveFrame env s addr w.frame) ↔
    (w.isSplit = true → Admits addr s w) := by
  have hframe : w.frame.isSplit = w.isSplit := rfl
  cases hsplit : w.isSplit with
  | false =>
    rw [receiveFrame_unsplit (hframe.trans hsplit)]
    exact ⟨fun _ h => absurd h Bool.false_ne_true,
      fun _ => .whole (hframe.trans hsplit) (deliver_forwards env _ addr _ _ _)⟩
  | true => exact (kept_split_iff hsplit).trans ⟨fun h _ => h, fun h => h rfl⟩

/-- Frames that are not split are kept as long as the loop gets to them. -/
theorem keptAll_unsplit {ws : List WireFrame} {frame : RakNetFrame}
    (hsplit : ∀ w ∈ ws, w.isSplit = false)
    (h : (forEach (handleFrame env addr) s (ws.map WireFrame.frame ++ [frame])).stuck = false) :
    KeptAll env addr s (ws.map WireFrame.frame) ∧
      (forEach (handleFrame env addr) s (ws.map WireFrame.frame)).stuck = false := by
  induction ws generalizing s with
  | nil =>
    have hone : forEach (handleFrame env addr) s [frame] =
        if s.stuck = true then s else handleFrame env addr s frame := rfl
    refine ⟨trivial, ?_⟩
    rw [List.map_nil, List.nil_append, hone] at h
    by_contra hs
    rw [if_pos (by simpa [forEach] using hs)] at h
    exact hs h
  | cons w ws ih =>
    rw [List.map_cons, List.cons_append] at h
    rw [List.map_cons]
    unfold KeptAll
    unfold forEach at h ⊢
    by_cases hs : s.stuck = true
    · rw [if_pos hs, hs] at h
      cases h
    · rw [if_neg hs] at h ⊢
      obtain ⟨hkept, hrun⟩ := ih (fun v hv => hsplit v (List.mem_cons_of_mem w hv)) h
      have hw := hsplit w List.mem_cons_self
      have hfirst : Kept addr s w.frame (receiveFrame env s addr w.frame) :=
        (kept_iff w).mpr fun hsplit => absurd (hw.symm.trans hsplit) Bool.false_ne_true
      exact ⟨⟨by simpa using hs, hfirst, hkept⟩, hrun⟩

theorem keptAll_append (frames : List RakNetFrame) (frame : RakNetFrame) :
    KeptAll env addr s (frames ++ [frame]) ↔ KeptAll env addr s frames ∧
      (forEach (handleFrame env addr) s frames).stuck = false ∧
      Kept addr (forEach (handleFrame env addr) s frames) frame
        (receiveFrame env (forEach (handleFrame env addr) s frames) addr frame) := by
  induction frames generalizing s with
  | nil => simp [KeptAll, forEach]
  | cons first frames ih =>
    rw [List.cons_append]
    unfold KeptAll forEach
    by_cases hs : s.stuck = true
    · simp [hs]
    · rw [if_neg hs, ih, and_assoc, and_assoc]

/-- A call that returns has handled every frame, and its last step is to acknowledge. -/
theorem handleGamePacket_acknowledges {id s0 s1 s2 : UInt8} (hid : 0x80 ≤ id ∧ id ≤ 0x8d)
    (hactive : s.isActiveConnection addr = true)
    (hreturns : (handleGamePacket env addr s (id :: s0 :: s1 :: s2 :: tl)).stuck = false) :
    (forEach (handleFrame env addr) (markConnected (pruneQueues env s addr) addr)
      (framesOf (id :: s0 :: s1 :: s2 :: tl))).stuck = false ∧
    ∃ before, (handleGamePacket env addr s (id :: s0 :: s1 :: s2 :: tl)).sent =
      before ++ [(addr, ackDatagram (leValue [s0, s1, s2, 0]))] := by
  have hlen : ¬ (id :: s0 :: s1 :: s2 :: tl).length < 4 := by simp
  cases hselect : selectFrames (id :: s0 :: s1 :: s2 :: tl) with
  | error e =>
    have hparse : parseFrameSet (id :: s0 :: s1 :: s2 :: tl) = none := by
      unfold parseFrameSet
      dsimp only
      rw [if_pos hid, hselect]
    unfold handleGamePacket at hreturns
    rw [if_neg (by simp [hactive]), if_neg hlen, hparse] at hreturns
    cases hreturns
  | ok frames =>
    have hparse : parseFrameSet (id :: s0 :: s1 :: s2 :: tl) =
        some (.ok ⟨id, leValue [s0, s1, s2, 0], frames⟩) := by
      unfold parseFrameSet
      dsimp only
      rw [if_pos hid, hselect]
    rw [framesOf_eq hparse]
    rw [handleGamePacket_read hactive hparse] at hreturns ⊢
    unfold handleFrameSet at hreturns ⊢
    dsimp only at hreturns ⊢
    by_cases hstuck : (forEach (handleFrame env addr)
        (markConnected (pruneQueues env s addr) addr) frames).stuck
    · rw [if_pos hstuck, hstuck] at hreturns
      cases hreturns
    · rw [if_neg hstuck]
      exact ⟨by simpa using hstuck, _, rfl⟩

/-- The acknowledged datagram has lost nothing exactly when a split frame comes last and finds its
fragment in the table or a free place for it. -/
theorem losesNothing_iff {id : UInt8} (hid : 0x80 ≤ id ∧ id ≤ 0x8d) (s0 s1 s2 : UInt8)
    (ws : List WireFrame) (env : ServerEnv) (addr : SocketAddr) (s : ServerState)
    (hactive : s.isActiveConnection addr = true)
    (hreturns : (handleGamePacket env addr s (concatDatagram id s0 s1 s2 ws)).stuck = false) :
    (∃ before, (handleGamePacket env addr s (concatDatagram id s0 s1 s2 ws)).sent =
      before ++ [(addr, ackDatagram (leValue [s0, s1, s2, 0]))]) ∧
    (LosesNothing env addr s (concatDatagram id s0 s1 s2 ws) ws ↔
      (∀ w ∈ ws.dropLast, w.isSplit = false) ∧
        ∀ w ∈ ws.getLast?, w.isSplit = true → Admits addr (beforeLast env addr s ws) w) := by
  obtain ⟨hhandled, hack⟩ := handleGamePacket_acknowledges hid hactive hreturns
  refine ⟨hack, ?_⟩
  change (forEach (handleFrame env addr) (markConnected (pruneQueues env s addr) addr)
    (framesOf (concatDatagram id s0 s1 s2 ws))).stuck = false at hhandled
  have hlast (hsplit : ∀ w ∈ ws.dropLast, w.isSplit = false)
      (hread : framesOf (concatDatagram id s0 s1 s2 ws) = ws.map WireFrame.frame) :
      KeptAll env addr (markConnected (pruneQueues env s addr) addr)
          (framesOf (concatDatagram id s0 s1 s2 ws)) ↔
        ∀ w ∈ ws.getLast?, w.isSplit = true → Admits addr (beforeLast env addr s ws) w := by
    rw [hread] at hhandled ⊢
    rcases List.eq_nil_or_concat' ws with rfl | ⟨front, w, rfl⟩
    · simp [KeptAll]
    · rw [List.dropLast_concat] at hsplit
      rw [List.map_append, List.map_singleton] at hhandled ⊢
      obtain ⟨hkept, hrun⟩ := keptAll_unsplit hsplit hhandled
      rw [keptAll_append, kept_iff]
      simp only [hkept, hrun, true_and, List.getLast?_concat, Option.mem_some_iff, forall_eq',
        beforeLast, List.dropLast_concat]
  constructor
  · rintro ⟨hread, hkept⟩
    have hall : SplitLast (ws.map WireFrame.frame) := hread ▸ framesOf_splitLast _
    have hsplit : ∀ w ∈ ws.dropLast, w.isSplit = false := fun w hw =>
      hall w.frame (List.map_dropLast ▸ List.mem_map_of_mem hw)
    exact ⟨hsplit, (hlast hsplit hread).mp hkept⟩
  · rintro ⟨hsplit, hadmits⟩
    have hread := framesOf_concat hid s0 s1 s2 ws hsplit
    exact ⟨hread, (hlast hsplit hread).mpr hadmits⟩

/-- A frame of one octet, reliable, without order. -/
def plainFrame (seq : ℕ) (hseq : seq < 2 ^ 24) (octet : UInt8) : WireFrame where
  flags := 0x40
  bits := 8
  reliableSeq := seq
  orderIndex := 0
  orderChannel := 0
  split := ⟨0, 0, 0⟩
  payload := [octet]
  bits_lt := by decide
  payload_length := rfl
  reliableSeq_lt := hseq
  orderIndex_lt := by decide
  orderChannel_le := by decide
  split_fits := ⟨by decide, by decide, by decide⟩
  count_le := by decide

/-- The first of two fragments. -/
def firstOfTwo : WireFrame where
  flags := 0x50
  bits := 128
  reliableSeq := 0
  orderIndex := 0
  orderChannel := 0
  split := ⟨2, 7, 0⟩
  payload := List.replicate 16 0xfe
  bits_lt := by decide
  payload_length := rfl
  reliableSeq_lt := by decide
  orderIndex_lt := by decide
  orderChannel_le := by decide
  split_fits := ⟨by decide, by decide, by decide⟩
  count_le := by decide

theorem losesNothing_splitLast : LosesNothing (.quiet 1492) loopback (freshServer 1492 loopback)
    (concatDatagram 0x84 0 0 0 [plainFrame 1 (by decide) 0x13, firstOfTwo])
    [plainFrame 1 (by decide) 0x13, firstOfTwo] := by
  refine (losesNothing_iff (by decide) 0 0 0 _ (.quiet 1492) loopback _ rfl ?_).2.mpr ?_
  · decide +kernel
  · decide

/-- The frame behind the fragment is never read, and the datagram is acknowledged. -/
theorem losesNothing_splitFirst :
    framesOf (concatDatagram 0x84 0 0 0 [firstOfTwo, plainFrame 1 (by decide) 0x13]) =
      [firstOfTwo.frame] ∧
    (handleGamePacket (.quiet 1492) loopback (freshServer 1492 loopback)
      (concatDatagram 0x84 0 0 0 [firstOfTwo, plainFrame 1 (by decide) 0x13])).sent =
        [(loopback, ackDatagram 0)] ∧
    ¬ LosesNothing (.quiet 1492) loopback (freshServer 1492 loopback)
      (concatDatagram 0x84 0 0 0 [firstOfTwo, plainFrame 1 (by decide) 0x13])
      [firstOfTwo, plainFrame 1 (by decide) 0x13] := by
  have hread : framesOf (concatDatagram 0x84 0 0 0
      [firstOfTwo, plainFrame 1 (by decide) 0x13]) = [firstOfTwo.frame] := by decide +kernel
  refine ⟨hread, by decide +kernel, fun h => ?_⟩
  have hlength := congrArg List.length (hread.symm.trans h.1)
  cases hlength

end SkinGetBE.RakNet
