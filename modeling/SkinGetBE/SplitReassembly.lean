import SkinGetBE.Completions
import SkinGetBE.FrameRoundTrip
import SkinGetBE.RakNetEffects
import SkinGetBE.SplitBuffers

/-!
# Reassembly over runs

The fragments of several messages of several peers arrive interleaved, in any
order and some of them repeatedly. Each message is dispatched at the arrival
that completes it, and its entry is gone from then on.
-/
namespace SkinGetBE.RakNet
open Octets Text Tables Completions

/-- Datagrams of several peers, one after the other. -/
def handleDatagrams (env : ServerEnv) (s : ServerState) (datagrams : List (SocketAddr × Bytes)) :
    ServerState :=
  forEach (fun s d => handleGamePacket env d.1 s d.2) s datagrams

/-- The messages are given by the chunks under each peer and split id, none where there is no
message. -/
def partCount (chunks : Str × ℕ → List Bytes) (key : Str × ℕ) : ℕ := (chunks key).length

/-- The frame is a fragment without an order index of a message of the peer. -/
def FragmentOf (chunks : Str × ℕ → List Bytes) (peer : Str) (frame : RakNetFrame) : Prop :=
  ∃ sid i, IsFragment (chunks (peer, sid)) sid i frame ∧ frame.orderIndex = none

/-- The message that a fragment belongs to, with the index of the fragment. -/
def partOf (peer : Str) (frame : RakNetFrame) : (Str × ℕ) × ℕ :=
  ((peer, frame.splitId.getD 0), frame.splitIndex.getD 0)

/-- The parts in the order of their arrival. -/
def partsOf (datagrams : List (SocketAddr × Bytes)) : List ((Str × ℕ) × ℕ) :=
  datagrams.flatMap fun d => (framesOf d.2).map (partOf d.1.display)

/-- The dispatch of a message. -/
def wholeMessage (chunks : Str × ℕ → List Bytes) (key : Str × ℕ) : Dispatch :=
  ⟨key.1, ⟨none, (chunks key).flatten⟩⟩

/-- No entry of the peer has expired. -/
def Unexpired (env : ServerEnv) (s : ServerState) (addr : SocketAddr) : Prop :=
  ∀ e ∈ s.splitBuffers.entries, e.1.1 = addr.display →
    isFresh (env.instant s.tick) e.2.createdAt = true

instance (env : ServerEnv) (s : ServerState) (addr : SocketAddr) :
    Decidable (Unexpired env s addr) :=
  inferInstanceAs (Decidable (∀ e ∈ s.splitBuffers.entries, _))

/-- Each frame is handled, and its peer has a session then. -/
def FramesServed (env : ServerEnv) (addr : SocketAddr) : ServerState → List RakNetFrame → Prop
  | _, [] => True
  | s, frame :: frames => s.stuck = false ∧ s.isActiveConnection addr = true ∧
      FramesServed env addr (handleFrame env addr s frame) frames

/-- Each datagram is handled, its peer has a session then, and nothing has expired. -/
def DatagramsServed (env : ServerEnv) : ServerState → List (SocketAddr × Bytes) → Prop
  | _, [] => True
  | s, d :: datagrams => s.stuck = false ∧ s.isActiveConnection d.1 = true ∧
      Unexpired env s d.1 ∧
      FramesServed env d.1 (markConnected (pruneQueues env s d.1) d.1) (framesOf d.2) ∧
      DatagramsServed env (handleGamePacket env d.1 s d.2) datagrams

instance decidableFramesServed (env : ServerEnv) (addr : SocketAddr) :
    (s : ServerState) → (frames : List RakNetFrame) → Decidable (FramesServed env addr s frames)
  | _, [] => isTrue trivial
  | s, frame :: frames =>
    have := decidableFramesServed env addr (handleFrame env addr s frame) frames
    inferInstanceAs (Decidable (_ ∧ _ ∧ _))

instance decidableDatagramsServed (env : ServerEnv) :
    (s : ServerState) → (datagrams : List (SocketAddr × Bytes)) →
      Decidable (DatagramsServed env s datagrams)
  | _, [] => isTrue trivial
  | s, d :: datagrams =>
    have := decidableDatagramsServed env (handleGamePacket env d.1 s d.2) datagrams
    inferInstanceAs (Decidable (_ ∧ _ ∧ _ ∧ _ ∧ _))

/-- Exactly the complete messages were dispatched. The table holds what has arrived of
the others, as long as their peers have sessions. -/
structure Reassembles (chunks : Str × ℕ → List Bytes) (start : List Dispatch)
    (arrived : List ((Str × ℕ) × ℕ)) (s : ServerState) : Prop where
  dispatched : s.dispatched =
    start ++ (completions (partCount chunks) arrived).map (wholeMessage chunks)
  complete : ∀ key, chunks key ≠ [] → Complete (partCount chunks) key arrived →
    s.splitBuffers.lookup key = none
  incomplete : ∀ key, ¬ Complete (partCount chunks) key arrived →
    (s.connections.lookup key.1).isSome →
      Progress (fun index _ => index = none) (chunks key) (fun i => (key, i) ∈ arrived)
        (s.splitBuffers.lookup key)

variable {chunks : Str × ℕ → List Bytes} {start : List Dispatch}
  {arrived : List ((Str × ℕ) × ℕ)} {s s' : ServerState} {env : ServerEnv} {addr : SocketAddr}

/-- A step that keeps the entries of the peers that have sessions. -/
theorem Reassembles.step (hs : Reassembles chunks start arrived s)
    (hdispatched : s'.dispatched = s.dispatched)
    (hsplits : ∀ key, s'.splitBuffers.lookup key = s.splitBuffers.lookup key)
    (hpresent : ∀ b, (s'.connections.lookup b).isSome → (s.connections.lookup b).isSome) :
    Reassembles chunks start arrived s' where
  dispatched := hdispatched.trans hs.dispatched
  complete key hkey hc := (hsplits key).trans (hs.complete key hkey hc)
  incomplete key hc hp := by
    rw [hsplits]
    exact hs.incomplete key hc (hpresent _ hp)

/-- A part leaves the other messages as they were. -/
theorem progress_other {key : Str × ℕ} {part : (Str × ℕ) × ℕ} (h : key ≠ part.1)
    {order : Option ℕ → Option ℕ → Prop} {cut : List Bytes} {entry : Option SplitBuffer} :
    Progress order cut (fun i => (key, i) ∈ arrived ++ [part]) entry ↔
      Progress order cut (fun i => (key, i) ∈ arrived) entry := by
  have hsame : (fun i => (key, i) ∈ arrived ++ [part]) = fun i => (key, i) ∈ arrived := by
    ext i
    rw [List.mem_append, List.mem_singleton]
    exact or_iff_left fun hpart => h (congrArg Prod.fst hpart)
  rw [hsame]

/-- The state after a dispatch has the entries of before, or neither entries nor a session. -/
theorem Outcome.splits {peer : Str} (h : Outcome peer s s') (key : Str × ℕ) :
    s'.splitBuffers.lookup key = s.splitBuffers.lookup key ∨
      (key.1 = peer ∧ s'.splitBuffers.lookup key = none ∧ s'.connections.lookup peer = none) := by
  rcases h with hkeeps | hdrops
  · rw [hkeeps.splits]
    exact .inl rfl
  · by_cases hkey : key.1 = peer
    · exact .inr ⟨hkey, by rw [hdrops.splits, if_pos hkey], hdrops.absent⟩
    · rw [hdrops.splits, if_neg hkey]
      exact .inl rfl

theorem mem_snoc_iff {key : Str × ℕ} {idx : ℕ} (i : ℕ) :
    (key, i) ∈ arrived ++ [(key, idx)] ↔ (key, i) ∈ arrived ∨ i = idx := by
  simp

/-- The fragment is one more that is stored. -/
theorem Reassembles.store {key : Str × ℕ} {idx : ℕ} {stored : SplitBuffer}
    (hs : Reassembles chunks start arrived s)
    (hpart : ¬ Complete (partCount chunks) key (arrived ++ [(key, idx)]))
    (hstored : Holds (fun index _ => index = none) (chunks key)
      (fun i => (key, i) ∈ arrived ++ [(key, idx)]) stored)
    (hstep : SplitStep key (some stored) s s') :
    Reassembles chunks start (arrived ++ [(key, idx)]) s' := by
  constructor
  · rw [hstep.dispatched, hs.dispatched, completions_snoc, if_neg fun h => hpart h.2,
      List.append_nil]
  · intro k hk hc
    have hne : k ≠ key := by
      rintro rfl
      exact hpart hc
    rw [hstep.splits, if_neg hne]
    exact hs.complete k hk ((complete_snoc_of_ne hne _).mp hc)
  · intro k hc hp
    rw [hstep.connections] at hp
    rw [hstep.splits]
    by_cases hne : k = key
    · subst hne
      rw [if_pos rfl]
      exact hstored
    · rw [if_neg hne]
      refine (progress_other hne).mpr (hs.incomplete k ?_ hp)
      exact fun h => hc (h.append _)

/-- The fragment completes its message, which is dispatched without its entry. -/
theorem Reassembles.finish {sid idx : ℕ} (hs : Reassembles chunks start arrived s)
    (hactive : (s.connections.lookup addr.display).isSome)
    (hbefore : ¬ Complete (partCount chunks) (addr.display, sid) arrived)
    (hall : Complete (partCount chunks) (addr.display, sid)
      (arrived ++ [((addr.display, sid), idx)]))
    {delivered : ServerState} (hdispatched : delivered.dispatched = s.dispatched)
    (hsplits : ∀ k, delivered.splitBuffers.lookup k =
      if k = (addr.display, sid) then none else s.splitBuffers.lookup k)
    (hothers : ∀ b, b ≠ addr.display → delivered.connections.lookup b = s.connections.lookup b)
    (houtcome : Outcome addr.display { delivered with dispatched :=
      delivered.dispatched ++ [wholeMessage chunks (addr.display, sid)] } s') :
    Reassembles chunks start (arrived ++ [((addr.display, sid), idx)]) s' := by
  have hlocal : Local addr.display { delivered with dispatched :=
      delivered.dispatched ++ [wholeMessage chunks (addr.display, sid)] } s' :=
    houtcome.elim Keeps.toLocal Drops.toLocal
  constructor
  · rw [hlocal.dispatched, hdispatched, hs.dispatched, completions_snoc, if_pos ⟨hbefore, hall⟩,
      List.map_append, List.append_assoc]
    rfl
  · intro k hk hc
    rcases houtcome.splits k with hsame | ⟨-, hnone, -⟩
    · rw [hsame]
      dsimp only
      rw [hsplits]
      by_cases hne : k = (addr.display, sid)
      · rw [if_pos hne]
      · rw [if_neg hne]
        exact hs.complete k hk ((complete_snoc_of_ne hne _).mp hc)
    · exact hnone
  · intro k hc hp
    have hne : k ≠ (addr.display, sid) := by
      rintro rfl
      exact hc hall
    have hp' : (s.connections.lookup k.1).isSome := by
      by_cases hpeer : k.1 = addr.display
      · rwa [hpeer]
      · have hkept := (hlocal.others k.1 hpeer).trans (hothers k.1 hpeer)
        rwa [hkept] at hp
    refine (progress_other hne).mpr ?_
    rcases houtcome.splits k with hsame | ⟨hpeer, -, habsent⟩
    · rw [hsame]
      dsimp only
      rw [hsplits, if_neg hne]
      exact hs.incomplete k (fun h => hc (h.append _)) hp'
    · rw [hpeer, habsent] at hp
      cases hp

/-- A payload without an order index passes through. -/
theorem deliver_unordered (env : ServerEnv) (s : ServerState) (addr : SocketAddr)
    (payload : Bytes) (orderChannel : Option ℕ) : ∃ delivered,
      deliver env s addr payload none orderChannel = (delivered, [⟨none, payload⟩]) ∧
      delivered.dispatched = s.dispatched ∧ delivered.splitBuffers = s.splitBuffers ∧
      delivered.stuck = s.stuck ∧
      ∀ b, b ≠ addr.display → delivered.connections.lookup b = s.connections.lookup b :=
  ⟨{ s.advance with connections := s.connections.insert addr.display (s.sessionOf addr) }, rfl,
    rfl, rfl, rfl, fun _ hb => AList.lookup_insert_ne hb⟩

theorem forEach_singleton {α : Type} {f : ServerState → α → ServerState} {x : α}
    (h : s.stuck = false) : forEach f s [x] = f s x := by
  unfold forEach
  rw [if_neg (by simp [h])]
  rfl

theorem forEach_append {α : Type} (f : ServerState → α → ServerState) (s : ServerState)
    (xs ys : List α) : forEach f s (xs ++ ys) = forEach f (forEach f s xs) ys := by
  have hcons (s : ServerState) (x : α) (xs : List α) :
      forEach f s (x :: xs) = if s.stuck then s else forEach f (f s x) xs := rfl
  induction xs generalizing s with
  | nil => rfl
  | cons x xs ih =>
    rw [List.cons_append, hcons, hcons]
    by_cases h : s.stuck
    · rw [if_pos h, if_pos h]
      cases ys with
      | nil => rfl
      | cons y ys => rw [hcons, if_pos h]
    · rw [if_neg h, if_neg h]
      exact ih _

theorem handleFrame_reassembles (hlen : ∀ key, (chunks key).length ≤ maxSplitParts)
    {frame : RakNetFrame} (hf : FragmentOf chunks addr.display frame)
    (hs : Reassembles chunks start arrived s) (hrun : s.stuck = false)
    (hactive : s.isActiveConnection addr = true)
    (htimely : ¬ Complete (partCount chunks) (partOf addr.display frame).1 arrived) :
    Reassembles chunks start (arrived ++ [partOf addr.display frame])
      (handleFrame env addr s frame) := by
  obtain ⟨sid, idx, hf, hindex⟩ := hf
  have hpart : partOf addr.display frame = ((addr.display, sid), idx) := by
    unfold partOf
    rw [hf.splitId, hf.index]
    rfl
  rw [hpart] at htimely ⊢
  dsimp only at htimely
  have hsame : (fun i => ((addr.display, sid), i) ∈ arrived ∨ i = idx) =
      fun i => ((addr.display, sid), i) ∈ arrived ++ [((addr.display, sid), idx)] := by
    ext i
    exact (mem_snoc_iff i).symm
  have hreceived := receiveFrame_fragment hf (hlen _) env s addr
    (hs.incomplete _ htimely hactive) (fun _ => hindex) htimely
  rw [ServerState.ensureSession_eq_self hactive] at hreceived
  unfold handleFrame
  rcases hreceived with ⟨hmore, s', stored, heq, hstored, hstep⟩ |
    ⟨hall, s', orderIndex, orderChannel, heq, hnone, hstep⟩
  · rw [hsame] at hstored
    rw [heq]
    refine hs.store (fun hc => hmore fun i hi => ?_) hstored hstep
    exact (mem_snoc_iff i).mp (hc i hi)
  · obtain ⟨delivered, hdeliver, hdispatched, hsplits, hstuck, hothers⟩ :=
      deliver_unordered env s' addr (chunks (addr.display, sid)).flatten orderChannel
    rw [heq, hnone, hdeliver]
    dsimp only
    rw [forEach_singleton (hstuck.trans (hstep.stuck.trans hrun))]
    refine hs.finish hactive htimely (fun i hi => (mem_snoc_iff i).mpr (hall i hi))
      (hdispatched.trans hstep.dispatched) (fun k => ?_) (fun b hb => ?_)
      (dispatchEmitted_outcome env addr delivered _)
    · rw [hsplits]
      exact hstep.splits k
    · rw [hothers b hb, hstep.connections]

theorem forEach_handleFrame_reassembles (hlen : ∀ key, (chunks key).length ≤ maxSplitParts)
    {frames : List RakNetFrame} (hframes : ∀ f ∈ frames, FragmentOf chunks addr.display f)
    (hs : Reassembles chunks start arrived s) (hserved : FramesServed env addr s frames)
    (htimely : Timely (partCount chunks) arrived (frames.map (partOf addr.display))) :
    Reassembles chunks start (arrived ++ frames.map (partOf addr.display))
      (forEach (handleFrame env addr) s frames) := by
  induction frames generalizing arrived s with
  | nil =>
    rw [List.map_nil, List.append_nil]
    exact hs
  | cons frame frames ih =>
    obtain ⟨hrun, hactive, hrest⟩ := hserved
    rw [List.map_cons, timely_cons] at htimely
    have hstep : Reassembles chunks start (arrived ++ [partOf addr.display frame])
        (handleFrame env addr s frame) :=
      handleFrame_reassembles hlen (hframes frame List.mem_cons_self) hs hrun hactive htimely.1
    have hlast := ih (fun f hf => hframes f (List.mem_cons_of_mem _ hf)) hstep hrest htimely.2
    rw [List.append_assoc] at hlast
    unfold forEach
    rw [if_neg (by simp [hrun])]
    exact hlast

theorem pruneQueues_splits (h : Unexpired env s addr) (key : Str × ℕ) :
    (pruneQueues env s addr).splitBuffers.lookup key = s.splitBuffers.lookup key := by
  refine lookup_retain_of_forall (fun e he => ?_) key
  by_cases hpeer : e.1.1 = addr.display
  · simp [h e he hpeer]
  · simp [hpeer]

theorem pruneQueues_present (b : Str) :
    ((pruneQueues env s addr).connections.lookup b).isSome = (s.connections.lookup b).isSome := by
  have hlookup := ServerState.lookup_modifySession (pruneSplitBuffersForPeer env s addr) addr
    (fun c => pruneSessionQueues c (env.instant (pruneSplitBuffersForPeer env s addr).tick)) b
  unfold pruneQueues ServerState.advance
  dsimp only
  rw [hlookup]
  by_cases hb : b = addr.display
  · rw [if_pos hb, hb, Option.isSome_map]
    rfl
  · rw [if_neg hb]
    rfl

/-- One datagram of fragments. -/
theorem handleGamePacket_reassembles (hlen : ∀ key, (chunks key).length ≤ maxSplitParts)
    {data : Bytes} (hframes : ∀ f ∈ framesOf data, FragmentOf chunks addr.display f)
    (hs : Reassembles chunks start arrived s) (hactive : s.isActiveConnection addr = true)
    (hfresh : Unexpired env s addr) (hserved : FramesServed env addr
      (markConnected (pruneQueues env s addr) addr) (framesOf data))
    (htimely : Timely (partCount chunks) arrived ((framesOf data).map (partOf addr.display))) :
    Reassembles chunks start (arrived ++ (framesOf data).map (partOf addr.display))
      (handleGamePacket env addr s data) := by
  have hpruned : Reassembles chunks start arrived (pruneQueues env s addr) :=
    hs.step rfl (pruneQueues_splits hfresh) fun b hb => (pruneQueues_present b).symm.trans hb
  have hkeeps := keeps_markConnected (pruneQueues env s addr) addr
  have hmarked : Reassembles chunks start arrived
      (markConnected (pruneQueues env s addr) addr) := by
    refine hpruned.step hkeeps.dispatched (fun key => by rw [hkeeps.splits]) fun b hb => ?_
    by_cases hpeer : b = addr.display
    · rw [pruneQueues_present, hpeer]
      exact hactive
    · rwa [hkeeps.others b hpeer] at hb
  rcases handleGamePacket_cases env addr s data with
    ⟨hinactive, -⟩ | ⟨-, hnil, hsame⟩ | ⟨-, hsame⟩
  · rw [hactive] at hinactive
    cases hinactive
  · rw [hnil, List.map_nil, List.append_nil]
    exact hpruned.step hsame.dispatched (fun key => by rw [hsame.splits])
      fun b hb => by rwa [hsame.connections] at hb
  · exact (forEach_handleFrame_reassembles hlen hframes hmarked hserved htimely).step
      hsame.dispatched (fun key => by rw [hsame.splits])
      fun b hb => by rwa [hsame.connections] at hb

theorem handleDatagrams_reassembles (hlen : ∀ key, (chunks key).length ≤ maxSplitParts)
    {datagrams : List (SocketAddr × Bytes)}
    (hframes : ∀ d ∈ datagrams, ∀ f ∈ framesOf d.2, FragmentOf chunks d.1.display f)
    (hs : Reassembles chunks start arrived s) (hserved : DatagramsServed env s datagrams)
    (htimely : Timely (partCount chunks) arrived (partsOf datagrams)) :
    Reassembles chunks start (arrived ++ partsOf datagrams) (handleDatagrams env s datagrams) := by
  induction datagrams generalizing arrived s with
  | nil =>
    unfold partsOf
    rw [List.flatMap_nil, List.append_nil]
    exact hs
  | cons d datagrams ih =>
    obtain ⟨hrun, hactive, hfresh, hfirst, hrest⟩ := hserved
    have hparts : partsOf (d :: datagrams) =
        (framesOf d.2).map (partOf d.1.display) ++ partsOf datagrams := List.flatMap_cons
    rw [hparts, timely_append] at htimely
    have hstep := handleGamePacket_reassembles hlen (hframes d List.mem_cons_self) hs hactive hfresh
      hfirst htimely.1
    have hlast := ih (fun e he => hframes e (List.mem_cons_of_mem _ he)) hstep hrest htimely.2
    rw [List.append_assoc, ← hparts] at hlast
    unfold handleDatagrams forEach
    rw [if_neg (by simp [hrun])]
    exact hlast

/-- From a state without entries of the messages, each message whose parts have all arrived
is dispatched once, at the arrival that completes it and whole, and leaves no entry. Nothing
else is dispatched. -/
theorem reassembled_once (env : ServerEnv) (chunks : Str × ℕ → List Bytes) (s : ServerState)
    (datagrams : List (SocketAddr × Bytes))
    (hlen : ∀ key, (chunks key).length ≤ maxSplitParts)
    (hframes : ∀ d ∈ datagrams, ∀ f ∈ framesOf d.2, FragmentOf chunks d.1.display f)
    (hempty : ∀ key, chunks key ≠ [] → s.splitBuffers.lookup key = none)
    (hserved : DatagramsServed env s datagrams)
    (htimely : Timely (partCount chunks) [] (partsOf datagrams)) :
    (handleDatagrams env s datagrams).dispatched = s.dispatched ++
        (completions (partCount chunks) (partsOf datagrams)).map (wholeMessage chunks) ∧
      ∀ key, chunks key ≠ [] →
        (completions (partCount chunks) (partsOf datagrams)).count key =
          (if Complete (partCount chunks) key (partsOf datagrams) then 1 else 0) ∧
        (Complete (partCount chunks) key (partsOf datagrams) →
          (handleDatagrams env s datagrams).splitBuffers.lookup key = none) := by
  have hstart : Reassembles chunks s.dispatched [] s := by
    constructor
    · exact (List.append_nil _).symm
    · exact fun key hkey _ => hempty key hkey
    · intro key hc _
      have hkey : chunks key ≠ [] := by
        intro hnil
        apply hc
        intro i hi
        unfold partCount at hi
        rw [hnil] at hi
        cases hi
      rw [hempty key hkey]
      exact fun i _ => List.not_mem_nil
  have hend := handleDatagrams_reassembles hlen hframes hstart hserved htimely
  rw [List.nil_append] at hend
  refine ⟨hend.dispatched, fun key hkey => ⟨?_, hend.complete key hkey⟩⟩
  exact count_completions (n := partCount chunks) (List.length_pos_iff.mpr hkey) _

def neighbour : SocketAddr := ⟨"127.0.0.1:19134".toList, .v4 [127, 0, 0, 1], 19134⟩

/-- An unreliable fragment whose length field counts the chunk. -/
def fragmentDatagram (header : SplitHeader) (chunk : Bytes) : Bytes :=
  0x84 :: (leBytes 3 0 ++ (0x10 :: (beBytes 2 (chunk.length * 8) ++ splitBody header chunk)))

/-- Both peers use the same split id. -/
def pairedChunks (key : Str × ℕ) : List Bytes :=
  if key = (loopback.display, 7) then [[1], [2]]
  else if key = (neighbour.display, 7) then [[3], [4]]
  else []

/-- The second fragment first, and once more before the message is complete. -/
def pairedDatagrams : List (SocketAddr × Bytes) :=
  [(loopback, fragmentDatagram ⟨2, 7, 1⟩ [2]), (neighbour, fragmentDatagram ⟨2, 7, 0⟩ [3]),
    (loopback, fragmentDatagram ⟨2, 7, 1⟩ [2]), (loopback, fragmentDatagram ⟨2, 7, 0⟩ [1]),
    (neighbour, fragmentDatagram ⟨2, 7, 1⟩ [4])]

def pairedServer : ServerState :=
  let empty := ServerState.new (ServerEnv.quiet 1492).config .empty
  (empty.ensureSession loopback true 0).ensureSession neighbour true 0

theorem pairedDatagrams_fragments : ∀ d ∈ pairedDatagrams, ∀ f ∈ framesOf d.2,
    FragmentOf pairedChunks d.1.display f := by
  have hfields : ∀ d ∈ pairedDatagrams, ∀ f ∈ framesOf d.2, f.isSplit = true ∧
      f.splitId = some 7 ∧ f.splitCount = some (pairedChunks (d.1.display, 7)).length ∧
      f.splitIndex = some (f.splitIndex.getD 0) ∧
      (pairedChunks (d.1.display, 7))[f.splitIndex.getD 0]? = some f.payload ∧
      f.orderIndex = none := by decide +kernel
  intro d hd f hf
  obtain ⟨h1, h2, h3, h4, h5, h6⟩ := hfields d hd f hf
  exact ⟨7, _, ⟨h1, h2, h3, h4, h5⟩, h6⟩

theorem reassembled_once_paired :
    (handleDatagrams (.quiet 1492) pairedServer pairedDatagrams).dispatched =
      [⟨loopback.display, ⟨none, [1, 2]⟩⟩, ⟨neighbour.display, ⟨none, [3, 4]⟩⟩] := by
  refine (reassembled_once (.quiet 1492) pairedChunks pairedServer pairedDatagrams ?_
    pairedDatagrams_fragments (fun _ _ => rfl) (by decide +kernel)
    (by decide +kernel)).1.trans (by decide +kernel)
  intro key
  unfold pairedChunks
  split_ifs <;> decide

end SkinGetBE.RakNet
