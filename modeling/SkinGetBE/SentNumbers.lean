import SkinGetBE.AckEffects
import SkinGetBE.ServerTraffic

/-!
# The numbers of what was sent

While the session of a peer lasts and has taken fewer than 2 ^ 24 numbers, each number
is that of one frame set only, and what waits under a number is the frame set of that
number. Every acknowledgement that the server sends is for a frame set that arrived.
-/
namespace SkinGetBE.RakNet
open Octets Text Tables Relation

/-- What waits under a number is the frame set of that number. -/
def Framed (s : ServerState) : Prop :=
  ∀ peer seq frame, s.waiting peer seq = some frame → IsFrame seq frame

/-- The identifiers of the datagrams that the server sends. -/
def serverIds : List UInt8 := 0x84 :: 0xC0 :: answerIds

/-- What the server has said is of the kinds that it sends, and an acknowledgement among it is for
a frame set that has arrived from that address. -/
structure Spoken (x : Serving) : Prop where
  ids : ∀ e ∈ x.state.sent, ∃ id ∈ serverIds, e.2.head? = some id
  acks : ∀ e ∈ x.state.sent, e.2.head? = some 0xC0 → ∃ datagram frameset,
    (e.1, datagram) ∈ x.heard ∧ parseFrameSet datagram = some (.ok frameset) ∧
      e.2 = ackDatagram frameset.seq

/-- The frame sets that were sent to the peer have numbers that it has been given, each its own. -/
structure Numbering (dest : SocketAddr) (s : ServerState) : Prop where
  allocated : ∀ d, (dest, d) ∈ s.sent → d.head? = some 0x84 →
    ∃ k, 0 < k ∧ k < s.nextNumber dest.display ∧ headerNumber d = leBytes 3 k
  unique : ∀ d d', (dest, d) ∈ s.sent → (dest, d') ∈ s.sent → d.head? = some 0x84 →
    d'.head? = some 0x84 → headerNumber d = headerNumber d' → d = d'

variable {env : ServerEnv} {parse : Str → Option SocketAddr} {addr dest : SocketAddr}
  {datagram : Bytes} {peer : Str} {s s' : ServerState} {x y : Serving}

theorem Traffic.framed {new : List (SocketAddr × Bytes)} (h : Traffic addr s s' new)
    (hs : Framed s) : Framed s' := by
  intro peer seq frame hwaiting
  rcases h.waiting peer seq frame hwaiting with hold | ⟨-, -, hframe⟩
  · exact hs peer seq frame hold
  · exact hframe

theorem Turn.framed (h : Turn env parse x y) (hx : Framed x.state) : Framed y.state := by
  cases h with
  | hear addr datagram => exact hx
  | effect addr datagram s hheard heffect =>
    obtain ⟨new, htraffic⟩ := heffect.traffic
    exact htraffic.framed hx
  | acknowledge addr datagram frameset hheard hparse => exact hx
  | worker =>
    intro peer seq frame hwaiting
    exact hx peer seq frame ((waiting_resendRound env parse x.state peer seq).symm.trans hwaiting)

theorem turns_framed {config : RakNetConfig} {fs : FileSystem}
    (h : Turns env parse ⟨[], .new config fs⟩ x) : Framed x.state := by
  induction h with
  | refl =>
    intro peer seq frame hwaiting
    cases hwaiting
  | tail _ hturn ih => exact hturn.framed ih

theorem Spoken.sending (hx : Spoken x) {new : List (SocketAddr × Bytes)}
    (hsent : y.state.sent = x.state.sent ++ new) (hheard : ∀ e ∈ x.heard, e ∈ y.heard)
    (hids : ∀ e ∈ new, ∃ id ∈ serverIds, e.2.head? = some id)
    (hacks : ∀ e ∈ new, e.2.head? = some 0xC0 → ∃ datagram frameset, (e.1, datagram) ∈ y.heard ∧
      parseFrameSet datagram = some (.ok frameset) ∧ e.2 = ackDatagram frameset.seq) :
    Spoken y where
  ids e he := (List.mem_append.mp (hsent ▸ he)).elim (hx.ids e) (hids e)
  acks e he hid := by
    rcases List.mem_append.mp (hsent ▸ he : e ∈ x.state.sent ++ new) with hold | hnew
    · obtain ⟨datagram, frameset, hmem, hparse, heq⟩ := hx.acks e hold hid
      exact ⟨datagram, frameset, hheard _ hmem, hparse, heq⟩
    · exact hacks e hnew hid

theorem answerIds_ne_ack {id : UInt8} (h : id ∈ answerIds) : id ≠ 0xC0 := by
  rintro rfl
  exact absurd h (by decide)

theorem IsFrame.ne_ack {seq : ℕ} (h : IsFrame seq datagram) : datagram.head? ≠ some 0xC0 := by
  rw [h.id]
  decide

theorem Submission.spoken (h : Submission addr s datagram) (hs : Framed s) :
    (∃ id ∈ serverIds, datagram.head? = some id) ∧ datagram.head? ≠ some 0xC0 := by
  have hframe : ∀ {seq}, IsFrame seq datagram →
      (∃ id ∈ serverIds, datagram.head? = some id) ∧ datagram.head? ≠ some 0xC0 := fun h =>
    ⟨⟨0x84, by decide, h.id⟩, h.ne_ack⟩
  cases h with
  | answer id hid hhead =>
    refine ⟨⟨id, List.mem_cons_of_mem _ (List.mem_cons_of_mem _ hid), hhead⟩, fun hack => ?_⟩
    exact answerIds_ne_ack hid (Option.some.inj (hhead.symm.trans hack))
  | next hnext => exact hframe hnext
  | again seq hwaiting => exact hframe (hs addr.display seq datagram hwaiting)

theorem Turn.spoken (h : Turn env parse x y) (hframed : Framed x.state) (hx : Spoken x) :
    Spoken y := by
  cases h with
  | hear addr datagram =>
    refine hx.sending (List.append_nil _).symm (fun e he => List.mem_cons_of_mem _ he) ?_ ?_
    · exact fun e he => absurd he List.not_mem_nil
    · exact fun e he => absurd he List.not_mem_nil
  | effect addr datagram s hheard heffect =>
    obtain ⟨new, htraffic⟩ := heffect.traffic
    refine hx.sending htraffic.sent (fun e he => he) (fun e he => ?_) fun e he hid => ?_
    · exact ((htraffic.submitted e he).spoken hframed).1
    · exact absurd hid ((htraffic.submitted e he).spoken hframed).2
  | acknowledge addr datagram frameset hheard hparse =>
    refine hx.sending rfl (fun e he => he) (fun e he => ?_) fun e he _ => ?_
    · rw [List.mem_singleton.mp he]
      exact ⟨0xC0, by decide, rfl⟩
    · rw [List.mem_singleton.mp he]
      exact ⟨datagram, frameset, hheard, hparse, rfl⟩
  | worker =>
    obtain ⟨due, hsent, hdue⟩ := resendRound_sent_eq env parse x.state
    have hframe : ∀ e ∈ due, ∃ seq, IsFrame seq e.2 := fun e he => by
      obtain ⟨peer, seq, -, hwaiting⟩ := hdue e he
      exact ⟨seq, hframed peer seq e.2 hwaiting⟩
    refine hx.sending hsent (fun e he => he) (fun e he => ?_) fun e he hid => ?_
    · obtain ⟨seq, hseq⟩ := hframe e he
      exact ⟨0x84, by decide, hseq.id⟩
    · obtain ⟨seq, hseq⟩ := hframe e he
      exact absurd hid hseq.ne_ack

theorem turns_spoken {config : RakNetConfig} {fs : FileSystem}
    (h : Turns env parse ⟨[], .new config fs⟩ x) : Spoken x := by
  induction h with
  | refl =>
    exact ⟨fun e he => absurd he List.not_mem_nil, fun e he => absurd he List.not_mem_nil⟩
  | tail h hturn ih => exact hturn.spoken (turns_framed h) ih

theorem Effect.tracked (h : Effect env addr datagram s s') (hs : Tracked Numbered peer s)
    (hsent : s'.sentCount peer < 2 ^ 32) : Tracked Numbered peer s' := by
  have hstep : ∀ {t}, Step env addr (fun _ => True) s t → t.sentCount peer < 2 ^ 32 →
      Tracked Numbered peer t := fun h hsent => h.tracked (maintained_numbered _) hs hsent
  have hsame : ∀ {t}, t.connections = s.connections → s.sent <+: t.sent → Tracked Numbered peer t :=
    fun hc hprefix => hs.of_lookup (by rw [hc]) hprefix
  cases h with
  | clock => exact hsame rfl (List.prefix_refl _)
  | answer id fields _ _ => exact hsame rfl (List.prefix_append _ _)
  | transmit reliability flags body hbody =>
    exact hstep (.transmit s reliability flags body hbody) hsent
  | again seq msg _ => exact hsame rfl (List.prefix_append _ _)
  | ensure connected protocol => exact hstep (.ensure s connected protocol) hsent
  | update f hf =>
    by_cases hpeer : peer = addr.display
    · subst hpeer
      exact hs.modify fun n c _ hc => hc.aside (hf c).packetSeq (hf c).pendingMessages
    · refine hs.of_lookup ?_ (List.prefix_refl _)
      rw [ServerState.lookup_modifySession, if_neg hpeer]
  | acknowledge now seqs _ _ => exact hstep (.acknowledge s now seqs) hsent
  | resend now seq msg hm => exact hstep (.resend s now seq msg hm) hsent
  | prune => exact hs.pruneQueues fun n c _ _ hc => hc.pruned _
  | receive frame _ =>
    have hsteps : Steps env addr (fun _ => True) s (receiveFrame env s addr frame).1 :=
      receiveFrame_steps s frame
    exact hsteps.tracked (maintained_numbered _) hs hsent
  | dispatch e => exact hsame rfl (List.prefix_refl _)
  | sync protocol => exact hsame rfl (List.prefix_refl _)
  | save parsed skin result fs _ _ => exact hsame rfl (List.prefix_refl _)
  | halt parsed skin _ _ => exact hsame rfl (List.prefix_refl _)
  | drop => exact hstep (.drop s) hsent

theorem Turn.tracked (h : Turn env parse x y) (hx : Tracked Numbered peer x.state)
    (hsent : y.state.sentCount peer < 2 ^ 32) : Tracked Numbered peer y.state := by
  cases h with
  | hear addr datagram => exact hx
  | effect addr datagram s hheard heffect => exact heffect.tracked hx hsent
  | acknowledge addr datagram frameset hheard hparse =>
    exact hx.of_lookup rfl (List.prefix_append _ _)
  | worker => exact hx.resendRound (maintained_numbered 0) parse

/-- The next number has not been given yet, and what waits has a number that has. -/
theorem Tracked.given (h : Tracked Numbered peer s) (hsent : s.sentCount peer < 2 ^ 24) :
    0 < s.nextNumber peer ∧ s.nextNumber peer ≤ s.sentCount peer + 1 ∧
      ∀ seq frame, s.waiting peer seq = some frame → 0 < seq ∧ seq < s.nextNumber peer := by
  unfold ServerState.nextNumber ServerState.waiting
  cases hc : s.connections.lookup peer with
  | none => exact ⟨Nat.one_pos, Nat.succ_le_succ (Nat.zero_le _), fun _ _ h => by cases h⟩
  | some c =>
    obtain ⟨n, hn, hnumbered⟩ := h c hc
    obtain ⟨hseq, hkeys⟩ := hnumbered.keys (by omega)
    have hnext : (some c).elim 1 ClientSession.packetSeq = n + 1 :=
      hseq.trans (Nat.mod_eq_of_lt (by omega))
    rw [hnext]
    refine ⟨Nat.succ_pos n, Nat.succ_le_succ hn, fun seq frame hframe => ?_⟩
    obtain ⟨msg, hmsg, -⟩ := Option.map_eq_some_iff.mp hframe
    have hkey := hkeys seq msg hmsg
    exact ⟨hkey.1, Nat.lt_succ_of_le hkey.2⟩

/-- No frame set is sent for the first time. -/
theorem Numbering.quiet (h : Numbering dest s)
    (hsent : ∀ d, (dest, d) ∈ s'.sent → d.head? = some 0x84 → (dest, d) ∈ s.sent)
    (hnumber : s'.nextNumber dest.display = s.nextNumber dest.display) : Numbering dest s' where
  allocated d hd hid := by
    rw [hnumber]
    exact h.allocated d (hsent d hd hid) hid
  unique d d' hd hd' hid hid' := h.unique d d' (hsent d hd hid) (hsent d' hd' hid') hid hid'

theorem headerNumber_injective {d d' : Bytes} {k k' : ℕ} (h : headerNumber d = leBytes 3 k)
    (h' : headerNumber d' = leBytes 3 k') (hk : k < 2 ^ 24) (hk' : k' < 2 ^ 24)
    (heq : headerNumber d = headerNumber d') : k = k' := by
  rw [h, h'] at heq
  have hvalue := congrArg leValue heq
  rwa [leValue_leBytes_of_lt (n := 3) hk, leValue_leBytes_of_lt (n := 3) hk'] at hvalue

/-- The next frame set takes the next number. -/
theorem Numbering.frame {frame : Bytes} (h : Numbering dest s)
    (hpos : 0 < s.nextNumber dest.display)
    (hfew : s.nextNumber dest.display < 2 ^ 24)
    (hframe : IsFrame (s.nextNumber dest.display) frame)
    (hsent : s'.sent = s.sent ++ [(dest, frame)])
    (hnext : s'.nextNumber dest.display = s.nextNumber dest.display + 1) : Numbering dest s' := by
  have hcases : ∀ d, (dest, d) ∈ s'.sent → (dest, d) ∈ s.sent ∨ d = frame := by
    intro d hd
    rw [hsent, List.mem_append, List.mem_singleton, Prod.mk.injEq] at hd
    exact hd.imp_right And.right
  have hfresh : ∀ d, (dest, d) ∈ s.sent → d.head? = some 0x84 →
      headerNumber d ≠ headerNumber frame := by
    intro d hd hid heq
    obtain ⟨k, -, hk, hnumber⟩ := h.allocated d hd hid
    have := headerNumber_injective hnumber hframe.number (hk.trans hfew) hfew heq
    omega
  constructor
  case allocated =>
    intro d hd hid
    rw [hnext]
    rcases hcases d hd with hold | rfl
    · obtain ⟨k, hk, hlt, hnumber⟩ := h.allocated d hold hid
      exact ⟨k, hk, hlt.trans (Nat.lt_succ_self _), hnumber⟩
    · exact ⟨_, hpos, Nat.lt_succ_self _, hframe.number⟩
  case unique =>
    intro d d' hd hd' hid hid' heq
    rcases hcases d hd with hold | rfl
    · rcases hcases d' hd' with hold' | rfl
      · exact h.unique d d' hold hold' hid hid' heq
      · exact absurd heq (hfresh d hold hid)
    · rcases hcases d' hd' with hold' | rfl
      · exact absurd heq.symm (hfresh d' hold' hid')
      · rfl

/-- The session of the peer, when there is one, is not closed. -/
def StaysOpen (dest : SocketAddr) (x y : Serving) : Prop :=
  (x.state.connections.lookup dest.display).isSome →
    (y.state.connections.lookup dest.display).isSome

theorem nextNumber_absent (h : s.connections.lookup peer = none) : s.nextNumber peer = 1 := by
  unfold ServerState.nextNumber
  rw [h]
  rfl

/-- What holds of the frame sets to one peer, as long as its session lasts. -/
structure Sender (dest : SocketAddr) (x : Serving) : Prop where
  traced : Traced x
  tracked : Tracked Numbered dest.display x.state
  numbering : Numbering dest x.state

theorem Sender.effect (hx : Sender dest x) (hread : Readable parse x)
    (hself : parse dest.display = some dest) (haddr : addr ∈ x.peers)
    (heffect : Effect env addr datagram x.state s')
    (hopen : StaysOpen dest x { x with state := s' })
    (hfew : s'.sentCount dest.display < 2 ^ 24) : Numbering dest s' := by
  have hsame : addr.display = dest.display → addr = dest := by
    intro hdisplay
    have hparse := hread addr haddr
    rw [hdisplay, hself] at hparse
    exact (Option.some.inj hparse).symm
  cases heffect.sends with
  | frame reliability flags body =>
    have hsent := transmit_sent env x.state addr reliability flags body
    by_cases hdisplay : addr.display = dest.display
    · obtain rfl := hsame hdisplay
      have hmono : x.state.sentCount addr.display + 1 =
          (transmit env x.state addr reliability flags body).2.sentCount addr.display := by
        unfold ServerState.sentCount
        rw [hsent, List.countP_append, List.countP_singleton, if_pos (by simp)]
      obtain ⟨hpos, hle, -⟩ := hx.tracked.given (by omega)
      refine hx.numbering.frame hpos (by omega) ?_ hsent ?_
      · rw [← countersOf_seq]
        exact isFrame_frameDatagram flags reliability _ body
      · rw [← countersOf_seq, transmit_counters, ← countersOf_seq]
        refine Nat.mod_eq_of_lt ?_
        rw [countersOf_seq]
        omega
    · refine hx.numbering.quiet (fun d hd _ => ?_) ?_
      · rw [hsent, List.mem_append, List.mem_singleton, Prod.mk.injEq] at hd
        exact hd.elim id fun h => absurd (congrArg SocketAddr.display h.1).symm hdisplay
      · unfold ServerState.nextNumber
        rw [(keeps_transmit env x.state addr reliability flags body).others _
          (fun h => hdisplay h.symm)]
  | other new htraffic hframes hnumbers =>
    refine hx.numbering.quiet (fun d hd hid => ?_) ?_
    · rw [htraffic.sent] at hd
      rcases List.mem_append.mp hd with hold | hnew
      · exact hold
      · obtain rfl : dest = addr := htraffic.dest _ hnew
        obtain ⟨seq, hwaiting⟩ := hframes _ hnew hid
        exact hx.traced.repeated hread haddr hwaiting
    · rcases hnumbers dest.display with hsame | hgone
      · exact hsame
      · have hbefore : x.state.connections.lookup dest.display = none := by
          by_contra hsome
          have hstays := hopen (Option.isSome_iff_ne_none.mpr hsome)
          rw [hgone] at hstays
          cases hstays
        rw [nextNumber_absent hgone, nextNumber_absent hbefore]

theorem nextNumber_resendRound (env : ServerEnv) (parse : Str → Option SocketAddr)
    (s : ServerState) (peer : Str) :
    (resendRound env parse s).nextNumber peer = s.nextNumber peer := by
  unfold ServerState.nextNumber
  rw [lookup_resendRound]
  cases s.connections.lookup peer with
  | none => rfl
  | some c =>
    rw [Option.map_some]
    split_ifs
    · exact (resendDue_course _ c).packetSeq
    · rfl

theorem Turn.sender (h : Turn env parse x y) (hopen : StaysOpen dest x y)
    (hread : Readable parse x) (hself : parse dest.display = some dest)
    (hfew : y.state.sentCount dest.display < 2 ^ 24) (hx : Sender dest x) : Sender dest y := by
  obtain ⟨new, hsubmits, htraced⟩ := h.submits hread hx.traced
  refine ⟨htraced, h.tracked hx.tracked (by omega), ?_⟩
  cases h with
  | hear addr datagram => exact hx.numbering
  | effect addr datagram s hheard heffect =>
    exact hx.effect hread hself (Serving.mem_peers hheard) heffect hopen hfew
  | acknowledge addr datagram frameset hheard hparse =>
    refine hx.numbering.quiet (fun d hd hid => ?_) rfl
    rcases List.mem_append.mp hd with hold | hnew
    · exact hold
    · rw [List.mem_singleton, Prod.mk.injEq] at hnew
      rw [hnew.2] at hid
      exact absurd (Option.some.inj hid) (by decide)
  | worker =>
    refine hx.numbering.quiet (fun d hd hid => ?_) (nextNumber_resendRound env parse x.state _)
    obtain ⟨due, hsent, hdue⟩ := resendRound_sent_eq env parse x.state
    rw [hsent] at hd
    rcases List.mem_append.mp hd with hold | hnew
    · exact hold
    · obtain ⟨peer, seq, hparse, hwaiting⟩ := hdue _ hnew
      obtain ⟨a, ha, rfl, hmem⟩ := hx.traced.waiting peer seq d hwaiting
      obtain rfl : dest = a := Option.some.inj (hparse.symm.trans (hread a ha))
      exact hmem

theorem sender_new (config : RakNetConfig) (fs : FileSystem) (dest : SocketAddr) :
    Sender dest ⟨[], .new config fs⟩ where
  traced := traced_new config fs
  tracked := tracked_new Numbered config fs dest.display
  numbering := ⟨fun _ hd => absurd hd List.not_mem_nil, fun _ _ hd => absurd hd List.not_mem_nil⟩

end SkinGetBE.RakNet
