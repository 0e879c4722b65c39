import SkinGetBE.LossyLink
import SkinGetBE.SentNumbers

/-!
# The server and a truthful client

Between the server and a client there is a network that loses, repeats and reorders.
A frame set that waits for its acknowledgement leaves the table of the server when it
has arrived at the client, when it has waited for too long, or when the session ends.
-/
namespace SkinGetBE.RakNet
open Octets Text Tables Relation LossyLink

/-- A frame set with a number in its header. -/
structure CarriesNumber (datagram : Bytes) (n : ℕ) : Prop where
  id : ∃ id, datagram.head? = some id ∧ isFrameSetId id = true
  number : headerNumber datagram = leBytes 3 n

/-- An acknowledgement with a range that the number is in. -/
structure AcknowledgesNumber (datagram : Bytes) (n : ℕ) : Prop where
  id : datagram.head? = some 0xC0
  covers : covers datagram n = true

/-- The server as a party, which takes the turns that are allowed. -/
def serverParty (env : ServerEnv) (parse : Str → Option SocketAddr)
    (allowed : Serving → Serving → Prop) : Party SocketAddr Bytes Serving where
  next x y := Turn env parse x y ∧ allowed x y
  heard x addr := {datagram | (addr, datagram) ∈ x.heard}
  sent x addr := {datagram | (addr, datagram) ∈ x.state.sent}
  sent_mono h _ _ hd := h.1.sent.subset hd

/-- The entry of the number is pruned, since it has not been sent for too long. -/
structure Expires (env : ServerEnv) (dest : SocketAddr) (n : ℕ) (s s' : ServerState) : Prop where
  prunes : s' = pruneQueues env s dest
  stale : ∃ msg, s.pendingOf dest n = some msg ∧
    isFresh (env.instant (s.tick + 1)) msg.lastSent = false

variable {env : ServerEnv} {parse : Str → Option SocketAddr} {addr dest : SocketAddr}
  {datagram : Bytes} {peer : Str} {s s' : ServerState} {x y : Serving} {n : ℕ} {frame : Bytes}

theorem waiting_of_lookup
    (h : s'.connections.lookup peer = s.connections.lookup peer) (n : ℕ) :
    s'.waiting peer n = s.waiting peer n := by
  unfold ServerState.waiting
  rw [h]

theorem waiting_modifySession {f : ClientSession → ClientSession}
    (hf : ∀ c, s.session dest = some c → (f c).frameAt n = c.frameAt n) :
    (s.modifySession dest f).waiting dest.display n = s.waiting dest.display n := by
  unfold ServerState.waiting
  rw [ServerState.lookup_modifySession, if_pos rfl]
  cases hc : s.connections.lookup dest.display with
  | none => rfl
  | some c => exact hf c hc

theorem frameAt_acknowledgeAll (c : ClientSession) (now : ℕ) (seqs : List ℕ) (h : n ∉ seqs) :
    (seqs.foldl (ClientSession.acknowledge now) c).frameAt n = c.frameAt n := by
  unfold ClientSession.frameAt
  rw [(acknowledgeAll_books c now seqs).1, lookup_retain]
  cases c.pendingMessages.lookup n with
  | none => rfl
  | some msg => rw [Option.filter_some, if_pos (by simp [h])]

theorem Effect.lookup_others (h : Effect env addr datagram s s') (hpeer : peer ≠ addr.display) :
    s'.connections.lookup peer = s.connections.lookup peer := by
  have hmodify : ∀ f, (s.modifySession addr f).connections.lookup peer =
      s.connections.lookup peer := fun f => (untouched_modifySession hpeer s f).session
  cases h with
  | transmit reliability flags body => exact (untouched_transmit hpeer s _ _ _).session
  | ensure connected protocol => rw [ServerState.lookup_ensureSession, if_neg hpeer]
  | update f hf => exact hmodify f
  | acknowledge now seqs _ _ => exact hmodify _
  | resend now seq msg hm => exact hmodify _
  | prune => exact (untouched_pruneQueues hpeer s).session
  | receive frame _ => exact (receives_receiveFrame env s addr frame).others peer hpeer
  | drop => exact (untouched_drop hpeer s).session
  | _ => rfl

theorem waiting_transmit (hn : n < s.nextNumber dest.display)
    (hwaiting : s.waiting dest.display n = some frame) (reliability : ℕ) (flags : UInt8)
    (body : Bytes) :
    (transmit env s dest reliability flags body).2.waiting dest.display n = some frame := by
  obtain ⟨c, hc, hframe⟩ := Option.bind_eq_some_iff.mp hwaiting
  obtain ⟨now, hsession⟩ := transmit_session env s dest reliability flags body
  rw [sessionOf_eq hc] at hsession
  have hne : n ≠ c.packetSeq := by
    unfold ServerState.nextNumber at hn
    rw [hc] at hn
    exact Nat.ne_of_lt hn
  refine Option.bind_eq_some_iff.mpr ⟨_, hsession, ?_⟩
  unfold ClientSession.transmitted
  split_ifs
  · unfold ClientSession.frameAt registerPending
    exact (congrArg (Option.map PendingMessage.frame) (AList.lookup_insert_ne hne)).trans hframe
  · exact hframe

theorem Receives.waiting (h : Receives dest s s')
    (hwaiting : s.waiting dest.display n = some frame) :
    s'.waiting dest.display n = some frame := by
  obtain ⟨c, hc, hframe⟩ := Option.bind_eq_some_iff.mp hwaiting
  obtain ⟨c', hc', -, hpending⟩ := h.pending
  rw [sessionOf_eq hc] at hpending
  refine Option.bind_eq_some_iff.mpr ⟨c', hc', ?_⟩
  unfold ClientSession.frameAt at hframe ⊢
  rwa [hpending]

theorem pruned_forgets (hwaiting : s.waiting dest.display n = some frame)
    (hgone : (pruneQueues env s dest).waiting dest.display n ≠ some frame) :
    Expires env dest n s (pruneQueues env s dest) := by
  refine ⟨rfl, ?_⟩
  obtain ⟨c, hc, hframe⟩ := Option.bind_eq_some_iff.mp hwaiting
  obtain ⟨msg, hmsg, hmsgframe⟩ := Option.map_eq_some_iff.mp hframe
  refine ⟨msg, ?_, ?_⟩
  · unfold ServerState.pendingOf ServerState.session
    rw [hc]
    exact hmsg
  · by_contra hfresh
    rw [Bool.not_eq_false] at hfresh
    refine hgone (Option.bind_eq_some_iff.mpr
      ⟨pruneSessionQueues c (env.instant (s.tick + 1)), ?_, ?_⟩)
    · have hlookup := ServerState.lookup_modifySession (pruneSplitBuffersForPeer env s dest) dest
        (fun c => pruneSessionQueues c (env.instant (s.tick + 1))) dest.display
      rw [if_pos rfl] at hlookup
      refine hlookup.trans ?_
      have hbefore :
          (pruneSplitBuffersForPeer env s dest).connections.lookup dest.display = some c :=
        hc
      rw [hbefore, Option.map_some]
    · unfold ClientSession.frameAt pruneSessionQueues
      dsimp only
      rw [lookup_retain, hmsg, Option.filter_some, if_pos hfresh, Option.map_some, hmsgframe]

/-- A number is forgotten when it is acknowledged or has expired. -/
theorem Effect.forgets (h : Effect env dest datagram s s') (hpos : 0 < n)
    (hn : n < s.nextNumber dest.display) (hwaiting : s.waiting dest.display n = some frame)
    (hgone : s'.waiting dest.display n ≠ some frame)
    (hopen : (s'.connections.lookup dest.display).isSome) :
    AcknowledgesNumber datagram n ∨ Expires env dest n s s' := by
  have hmodify : ∀ {f : ClientSession → ClientSession},
      (∀ c, s.session dest = some c → (f c).frameAt n = c.frameAt n) →
        (s.modifySession dest f).waiting dest.display n = some frame :=
    fun hf => (waiting_modifySession hf).trans hwaiting
  cases h with
  | transmit reliability flags body =>
    exact absurd (waiting_transmit hn hwaiting reliability flags body) hgone
  | ensure connected protocol =>
    obtain ⟨c, hc, -⟩ := Option.bind_eq_some_iff.mp hwaiting
    have hsame : s.ensureSession dest connected protocol = s :=
      ServerState.ensureSession_eq_self
        (ServerState.isActiveConnection_iff.mpr (Option.isSome_of_eq_some hc))
    rw [hsame] at hgone
    exact absurd hwaiting hgone
  | update f hf =>
    refine absurd (hmodify fun c _ => ?_) hgone
    unfold ClientSession.frameAt
    rw [(hf c).pendingMessages]
  | acknowledge now seqs hid hseqs =>
    by_cases hmem : n ∈ seqs
    · exact .inl ⟨hid, (mem_requestedNumbers (Nat.pos_iff_ne_zero.mp hpos)).mp (hseqs n hmem)⟩
    · exact absurd (hmodify fun c _ => frameAt_acknowledgeAll c now seqs hmem) hgone
  | resend now seq msg hm =>
    refine absurd (hmodify fun c hc => frameAt_resend ?_ now n) hgone
    unfold ServerState.pendingOf at hm
    rwa [hc] at hm
  | prune => exact .inr (pruned_forgets hwaiting hgone)
  | receive frame' _ =>
    exact absurd ((receives_receiveFrame env s dest frame').waiting hwaiting) hgone
  | drop =>
    rw [(drops_dropConnectionState s dest).absent] at hopen
    cases hopen
  | _ => exact absurd hwaiting hgone

theorem Turn.forgets (h : Turn env parse x y) (hx : Sender dest x) (hread : Readable parse x)
    (hself : parse dest.display = some dest) (hfew : x.state.sentCount dest.display < 2 ^ 24)
    (hopen : StaysOpen dest x y) (hwaiting : x.state.waiting dest.display n = some frame)
    (hgone : y.state.waiting dest.display n ≠ some frame) :
    (∃ datagram, (dest, datagram) ∈ x.heard ∧ AcknowledgesNumber datagram n) ∨
      Expires env dest n x.state y.state := by
  cases h with
  | hear addr datagram => exact absurd hwaiting hgone
  | effect addr datagram s hheard heffect =>
    by_cases hdisplay : dest.display = addr.display
    · have haddr := hread addr (Serving.mem_peers hheard)
      rw [← hdisplay, hself] at haddr
      obtain rfl := Option.some.inj haddr
      obtain ⟨-, -, hgiven⟩ := hx.tracked.given hfew
      obtain ⟨hpos, hn⟩ := hgiven n frame hwaiting
      obtain ⟨c, hc, -⟩ := Option.bind_eq_some_iff.mp hwaiting
      have hsome := hopen (Option.isSome_of_eq_some hc)
      exact (heffect.forgets hpos hn hwaiting hgone hsome).imp_left fun hack =>
        ⟨datagram, hheard, hack⟩
    · have hsame := waiting_of_lookup (heffect.lookup_others hdisplay) n
      exact absurd (hsame.trans hwaiting) hgone
  | acknowledge addr datagram frameset hheard hparse => exact absurd hwaiting hgone
  | worker =>
    exact absurd ((waiting_resendRound env parse x.state _ n).trans hwaiting) hgone

/-- An acknowledgement of the server is for one number. -/
theorem covers_ackDatagram {k : ℕ} (hk : k < 2 ^ 24) : covers (ackDatagram k) n = true ↔ n = k := by
  have hvalue : leValue (leBytes 3 k) = k := leValue_leBytes_of_lt (n := 3) hk
  have hranges : (ackDatagram k).drop 4 = leBytes 3 k ++ leBytes 3 k := rfl
  have hcount : segmentCount (ackDatagram k) = 1 := rfl
  unfold covers
  rw [hcount, hranges, List.range_one, List.any_cons, List.any_nil, Bool.or_false, inRange_iff]
  have hlen : (leBytes 3 k ++ leBytes 3 k).length = 6 := by simp
  have hfirst : ((leBytes 3 k ++ leBytes 3 k).drop (6 * 0)).take 3 = leBytes 3 k := rfl
  have hlast : ((leBytes 3 k ++ leBytes 3 k).drop (6 * 0 + 3)).take 3 = leBytes 3 k := rfl
  rw [hlen, hfirst, hlast, hvalue]
  omega

theorem parseFrameSet_number {frameset : FrameSet}
    (h : parseFrameSet datagram = some (.ok frameset)) :
    CarriesNumber datagram frameset.seq ∧ frameset.seq < 2 ^ 24 := by
  unfold parseFrameSet at h
  split at h
  · next id s0 s1 s2 tl =>
    by_cases hid : 0x80 ≤ id ∧ id ≤ 0x8d
    · rw [if_pos hid] at h
      cases hframes : selectFrames (id :: s0 :: s1 :: s2 :: tl) with
      | error e =>
        rw [hframes] at h
        cases h
      | ok frames =>
        rw [hframes] at h
        dsimp only at h
        rw [Option.some.injEq, Except.ok.injEq] at h
        subst h
        have hvalue : leValue [s0, s1, s2, 0] = leValue [s0, s1, s2] := by
          simp [leValue]
        have hset : isFrameSetId id = true := by
          unfold isFrameSetId
          rw [Bool.and_eq_true, decide_eq_true_eq, decide_eq_true_eq]
          exact hid
        refine ⟨⟨⟨id, rfl, hset⟩, ?_⟩, ?_⟩
        · dsimp only
          rw [hvalue]
          exact (leBytes_leValue [s0, s1, s2]).symm
        · have hlt := leValue_lt [s0, s1, s2]
          have hsize : 256 ^ [s0, s1, s2].length = 2 ^ 24 := by norm_num
          dsimp only
          rw [hvalue]
          rwa [hsize] at hlt
    · rw [if_neg hid] at h
      cases h
  · cases h

/-- The server acknowledges no number to an address before a frame set of that number has arrived
from it. -/
theorem serving_truthful (env : ServerEnv) (parse : Str → Option SocketAddr) (fs : FileSystem)
    (x : Serving) (h : Turns env parse ⟨[], .new env.config fs⟩ x) (addr : SocketAddr) :
    Truthful AcknowledgesNumber CarriesNumber {datagram | (addr, datagram) ∈ x.heard}
      {datagram | (addr, datagram) ∈ x.state.sent} := by
  intro m hm n hack
  obtain ⟨datagram, frameset, hheard, hparse, hm⟩ := (turns_spoken h).acks _ hm hack.id
  obtain ⟨hcarries, hlt⟩ := parseFrameSet_number hparse
  have hcovers := hack.covers
  dsimp only at hm
  rw [hm, covers_ackDatagram hlt] at hcovers
  exact ⟨datagram, hheard, hcovers ▸ hcarries⟩

theorem serving_truthful_connect :
    let x := quietServing (fun _ => some loopback) openAndConnect
    Truthful AcknowledgesNumber CarriesNumber {datagram | (loopback, datagram) ∈ x.heard}
      {datagram | (loopback, datagram) ∈ x.state.sent} ∧
      (loopback, ackDatagram 0) ∈ x.state.sent :=
  ⟨serving_truthful (.quiet 1492) (fun _ => some loopback) .empty
    (quietServing (fun _ => some loopback) openAndConnect)
    (quietServing_turns (fun _ => some loopback) openAndConnect) loopback, by decide +kernel⟩

theorem sender_of_run {fs : FileSystem}
    (h : ReflTransGen (serverParty env parse (StaysOpen dest)).next ⟨[], .new env.config fs⟩ x)
    (hread : Readable parse x) (hself : parse dest.display = some dest)
    (hfew : x.state.sentCount dest.display < 2 ^ 24) : Sender dest x := by
  induction h with
  | refl => exact sender_new env.config fs dest
  | @tail y z _ hnext ih =>
    have hbefore : y.state.sentCount dest.display < 2 ^ 24 :=
      (sentCount_mono hnext.1.sent dest.display).trans_lt hfew
    exact hnext.1.sender hnext.2 (hread.before hnext.1) hself hfew
      (ih (hread.before hnext.1) hbefore)

theorem turns_of_run {allowed : Serving → Serving → Prop}
    (h : ReflTransGen (serverParty env parse allowed).next x y) : Turns env parse x y := by
  induction h with
  | refl => exact .refl
  | tail _ hnext ih => exact ih.tail hnext.1

/-- The frame sets of the server have one identifier. -/
theorem Spoken.frameSet (hx : Spoken x) (hsent : (dest, datagram) ∈ x.state.sent)
    (hn : CarriesNumber datagram n) : datagram.head? = some 0x84 := by
  have hframe : ∀ id ∈ serverIds, isFrameSetId id = true → id = 0x84 := by decide +kernel
  obtain ⟨id, hid, hhead⟩ := hx.ids _ hsent
  obtain ⟨id', hhead', hset⟩ := hn.id
  obtain rfl := Option.some.inj (hhead.symm.trans hhead')
  rw [hhead, hframe id hid hset]

theorem IsFrame.carriesNumber (h : IsFrame n datagram) : CarriesNumber datagram n :=
  ⟨⟨0x84, h.id, rfl⟩, h.number⟩

theorem Sender.unambiguous (hx : Sender dest x) (hspoken : Spoken x) :
    Unambiguous CarriesNumber {datagram | (dest, datagram) ∈ x.state.sent} := by
  intro d hd d' hd' n hn hn'
  exact hx.numbering.unique d d' hd hd' (hspoken.frameSet hd hn) (hspoken.frameSet hd' hn')
    (hn.number.trans hn'.number.symm)

/-- Whatever the network does, with a client that acknowledges only what it has received, a frame
set that waits for its acknowledgement leaves the table of an open session only once the client has
it, or when it has waited for longer than the queues last. -/
theorem forgotten_arrived {τ : Type} (env : ServerEnv) (parse : Str → Option SocketAddr)
    (fs : FileSystem) (client : Party SocketAddr Bytes τ) (self dest : SocketAddr) (t₀ : τ)
    (hnew : client.heard t₀ self = ∅) (p : Serving × τ)
    (h : ReflTransGen (LossyLink.Step (serverParty env parse (StaysOpen dest)) client self dest)
      (⟨[], .new env.config fs⟩, t₀) p)
    (hread : Readable parse p.1) (hself : parse dest.display = some dest)
    (hfew : p.1.state.sentCount dest.display < 2 ^ 24)
    (htruthful : Truthful AcknowledgesNumber CarriesNumber (client.heard p.2 self)
      (client.sent p.2 self))
    (y : Serving) (hturn : Turn env parse p.1 y) (hopen : StaysOpen dest p.1 y) (n : ℕ)
    (frame : Bytes) (hwaiting : p.1.state.waiting dest.display n = some frame)
    (hgone : y.state.waiting dest.display n ≠ some frame) :
    frame ∈ client.heard p.2 self ∨ Expires env dest n p.1.state y.state := by
  have hrun := steps_left h
  have hsender := sender_of_run hrun hread hself hfew
  have hspoken := turns_spoken (turns_of_run hrun)
  rcases hturn.forgets hsender hread hself hfew hopen hwaiting hgone with ⟨m, hm, hack⟩ | hexpired
  · left
    have hstart : Genuine (serverParty env parse (StaysOpen dest)) client self dest
        (⟨[], .new env.config fs⟩, t₀) := by
      refine ⟨fun m hm => absurd hm List.not_mem_nil, ?_⟩
      dsimp only
      rw [hnew]
      exact Set.empty_subset _
    have hsent : (dest, frame) ∈ p.1.state.sent := by
      obtain ⟨a, ha, hdisplay, hmem⟩ := hsender.traced.waiting _ n frame hwaiting
      have haddr := hread a ha
      rw [hdisplay, hself] at haddr
      rwa [Option.some.inj haddr]
    have hframe := turns_framed (turns_of_run hrun) dest.display n frame hwaiting
    exact arrived_of_acknowledged (genuine_of_steps h hstart) htruthful
      (hsender.unambiguous hspoken) hm hack hsent hframe.carriesNumber
  · exact .inr hexpired

def serverAddress : SocketAddr := ⟨"127.0.0.1:19132".toList, .v4 [127, 0, 0, 1], 19132⟩

/-- What a client has heard from the server and what it has told it. -/
structure ClientLog where
  heard : List Bytes
  said : List Bytes

/-- A client of which nothing more is known. -/
def anyClient : Party SocketAddr Bytes ClientLog where
  next t t' := t.said ⊆ t'.said
  heard t _ := {datagram | datagram ∈ t.heard}
  sent t _ := {datagram | datagram ∈ t.said}
  sent_mono h _ _ hd := h hd

def openingDatagram : Bytes := 0x05 :: (magic ++ [11])

def greeting : Bytes := frameDatagram 0x60 3 ⟨1, 0, 0⟩ [7]

/-- The server has sent one reliable frame in a new session. -/
def greetedServer : ServerState :=
  (transmit (.quiet 1492) (freshServer 1492 loopback) loopback 3 0x60 [7]).2

/-- The server has heard that the client has the frame. -/
def greetedServing : Serving :=
  ⟨[(loopback, ackDatagram 1), (loopback, openingDatagram)], greetedServer⟩

def greetedClient : ClientLog := ⟨[greeting], [ackDatagram 1, openingDatagram]⟩

/-- The server has taken the frame out of its table. -/
def settledServing : Serving :=
  { greetedServing with
    state := greetedServer.modifySession loopback fun c =>
      [1].foldl (ClientSession.acknowledge 0) c }

theorem greeted_run : ReflTransGen
    (LossyLink.Step (serverParty (.quiet 1492) (fun _ => some loopback) (StaysOpen loopback))
      anyClient serverAddress loopback)
    (⟨[], .new (ServerEnv.quiet 1492).config .empty⟩, ⟨[], []⟩)
    (greetedServing, greetedClient) := by
  have hheard : ∀ (heard : List (SocketAddr × Bytes)) (d : Bytes) (said : List Bytes), d ∈ said →
      {m | (loopback, m) ∈ (loopback, d) :: heard} ⊆
        {m | (loopback, m) ∈ heard} ∪ {m | m ∈ said} := by
    intro heard d said hd m hm
    rcases List.mem_cons.mp hm with hnew | hold
    · rw [Prod.mk.injEq] at hnew
      exact .inr (hnew.2 ▸ hd)
    · exact .inl hold
  -- the client says something, the server makes a session for it and sends the frame
  refine .head (.right _ (u := ⟨[], [openingDatagram]⟩) (List.subset_cons_self _ _)
    Set.subset_union_left) ?_
  refine .head (.left _ ⟨.hear _ loopback openingDatagram, id⟩ (hheard [] _ _ (by decide))) ?_
  refine .head (.left _ ⟨.effect _ loopback openingDatagram _ List.mem_cons_self
    (.ensure _ true 0), fun _ => by decide⟩ Set.subset_union_left) ?_
  refine .head (.left _ ⟨.effect _ loopback openingDatagram _ List.mem_cons_self
    (.transmit _ 3 0x60 [7] (by decide)), fun _ => by decide +kernel⟩ Set.subset_union_left) ?_
  -- the client hears it and acknowledges it
  refine .head (.right _ (u := ⟨[greeting], [openingDatagram]⟩) (List.Subset.refl _) ?_) ?_
  · intro m hm
    obtain rfl : m = greeting := List.mem_singleton.mp hm
    exact .inr (List.mem_singleton_self _)
  refine .head (.right _ (u := greetedClient) (List.subset_cons_self _ _)
    Set.subset_union_left) ?_
  exact .single (.left _ ⟨.hear _ loopback (ackDatagram 1), id⟩ (hheard _ _ _ (by decide)))

theorem readable_greeted : Readable (fun _ => some loopback) greetedServing := by
  have hpeers : ∀ addr ∈ greetedServing.peers, addr = loopback := by decide
  intro addr haddr
  rw [hpeers addr haddr]

theorem greetedClient_truthful : Truthful AcknowledgesNumber CarriesNumber
    (anyClient.heard greetedClient serverAddress) (anyClient.sent greetedClient serverAddress) := by
  intro m hm n hack
  refine ⟨greeting, List.mem_singleton_self _, ⟨0x84, rfl, rfl⟩, ?_⟩
  rcases List.mem_cons.mp hm with rfl | hm
  · rw [(covers_ackDatagram (by decide)).mp hack.covers]
    rfl
  · rw [List.mem_singleton.mp hm] at hack
    exact absurd (Option.some.inj hack.id) (by decide)

theorem forgotten_arrived_greeting :
    greeting ∈ anyClient.heard greetedClient serverAddress ∨
      Expires (.quiet 1492) loopback 1 greetedServing.state settledServing.state :=
  forgotten_arrived (.quiet 1492) (fun _ => some loopback) .empty anyClient serverAddress loopback
    ⟨[], []⟩ (Set.eq_empty_of_forall_notMem fun _ h => List.not_mem_nil h)
    (greetedServing, greetedClient) greeted_run readable_greeted rfl (by decide +kernel)
    greetedClient_truthful settledServing
    (.effect greetedServing loopback (ackDatagram 1) _ List.mem_cons_self
      (.acknowledge _ 0 [1] rfl (by decide +kernel)))
    (fun _ => by decide +kernel) 1 greeting (by decide +kernel) (by decide +kernel)

end SkinGetBE.RakNet
