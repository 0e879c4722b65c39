import SkinGetBE.HandshakeReplies
import SkinGetBE.ServerAcks
import SkinGetBE.VersionPairs

/-!
# One answer for each request

Pings and the requests that open a connection are answered outside of a frame set. In a
run each of them is answered once, to where it came from and in the order in which they
arrive; what is answered is read by the client as the echo of its request with the
identity of the server. Nothing else that the server sends can be taken for an answer.
-/
namespace SkinGetBE.RakNet
open Octets Text Tables Relation

def isAnswer (e : SocketAddr × Bytes) : Bool := answerIds.any fun id => e.2.head? == some id

/-- The answers among what was sent. -/
def ServerState.answers (s : ServerState) : List (SocketAddr × Bytes) := s.sent.filter isAnswer

/-- The time in a connection request; a short one has none. -/
def requestTime (data : Bytes) : ℕ := if data.length ≥ 17 then beValue ((data.drop 9).take 8) else 0

/-- What the sender of a datagram is to read in its answer. -/
def expectedAnswer (env : ServerEnv) (s : ServerState) (addr : SocketAddr) (data : Bytes) :
    Option Answer :=
  match data with
  | [] => none
  | id :: _ =>
    if id = 0x01 then
      if data.length < 25 then none
      else some (.pong ((data.drop 1).take 8) env.config.serverGuid
        (motdFields env.config (env.systemMillis s.tick / 1000) (s.advertised addr).1
          (s.advertised addr).2))
    else if id = 0x05 then
      if data.length < 17 then none else some (.opened env.config.serverGuid env.config.mtuSize)
    else if id = 0x07 then
      if data.length < 19 then none
      else some (.addressed env.config.serverGuid addr.ip addr.port env.config.mtuSize)
    else if id = 0x09 then
      some (.accepted addr.ip.shown addr.port (requestTime data)
        (env.systemMillis s.tick % 2 ^ 64))
    else none

def ServerEvent.expected (env : ServerEnv) (s : ServerState) :
    ServerEvent → List (SocketAddr × Answer)
  | datagram addr data => (expectedAnswer env s addr data).toList.map fun answer => (addr, answer)
  | worker => []

/-- The answers that are to be read in a run. -/
def expectedAnswers (env : ServerEnv) (parse : Str → Option SocketAddr) :
    ServerState → List ServerEvent → List (SocketAddr × Answer)
  | _, [] => []
  | s, event :: events =>
    event.expected env s ++ expectedAnswers env parse (event.apply env parse s) events

/-- What the clients read. -/
def readAnswers (answers : List (SocketAddr × Bytes)) : List (SocketAddr × Option Answer) :=
  answers.map fun e => (e.1, readAnswer e.2)

/-- The address that an event comes from is proper. -/
def ServerEvent.Proper : ServerEvent → Prop
  | datagram addr _ => addr.Proper
  | worker => True

variable {env : ServerEnv} {parse : Str → Option SocketAddr} {addr : SocketAddr}
  {stored : ℕ → Prop} {datagram : Bytes} {s s' : ServerState}

/-- A version that fits the text of a pong. -/
structure IsField (version : Str) : Prop where
  short : byteLen version ≤ 2 ^ 15
  field : ';' ∉ version

/-- Every protocol and version that the server may tell a peer. -/
structure Informed (s : ServerState) : Prop where
  runtime : Tells s.runtimeProtocolVersion s.runtimeVersion
  sessions : ∀ peer c, s.connections.lookup peer = some c → Tells c.bedrockProtocol c.bedrockVersion

theorem isField_protocolMap : ∀ entry ∈ protocolMap,
    byteLen entry.2.toList ≤ 2 ^ 15 ∧ ';' ∉ entry.2.toList := by decide +kernel

theorem tells_resolveVersion (h : IsField env.fallbackVersion) (protocol number : ℕ) :
    Tells (protocol % 2 ^ 16) (resolveVersion env.fallbackVersion number) := by
  have hprotocol : protocol % 2 ^ 16 < 2 ^ 16 := Nat.mod_lt _ (by decide)
  rcases resolveVersion_mem env.fallbackVersion number with hversion | ⟨entry, hentry, hversion⟩
  · rw [hversion]
    exact ⟨hprotocol, h.short, h.field⟩
  · obtain ⟨hshort, hfield⟩ := isField_protocolMap entry hentry
    rw [hversion]
    exact ⟨hprotocol, hshort, hfield⟩

theorem informed_of_lookup (addr : SocketAddr) (h : Informed s)
    (hruntime : Tells s'.runtimeProtocolVersion s'.runtimeVersion)
    (hothers : ∀ peer, peer ≠ addr.display →
      s'.connections.lookup peer = s.connections.lookup peer)
    (hpeer : ∀ c, s'.connections.lookup addr.display = some c →
      Tells c.bedrockProtocol c.bedrockVersion) : Informed s' where
  runtime := hruntime
  sessions peer c hc := by
    by_cases hp : peer = addr.display
    · exact hpeer c (hp ▸ hc)
    · exact h.sessions peer c ((hothers peer hp).symm.trans hc)

theorem informed_modify (h : Informed s) {f : ClientSession → ClientSession}
    (hf : ∀ c, Tells c.bedrockProtocol c.bedrockVersion →
      Tells (f c).bedrockProtocol (f c).bedrockVersion) : Informed (s.modifySession addr f) := by
  refine informed_of_lookup addr h h.runtime (fun peer hp => ?_) fun c hc => ?_
  · rw [ServerState.lookup_modifySession, if_neg hp]
  · rw [ServerState.lookup_modifySession, if_pos rfl, Option.map_eq_some_iff] at hc
    obtain ⟨c₀, hc₀, rfl⟩ := hc
    exact hf c₀ (h.sessions addr.display c₀ hc₀)

theorem tells_getOr (h : Informed s) (addr : SocketAddr) (connected : Bool) (protocol : ℕ) :
    let c := getOr addr.display (s.createSession connected protocol) s.connections
    Tells c.bedrockProtocol c.bedrockVersion := by
  unfold getOr
  cases hc : s.connections.lookup addr.display with
  | some c => exact h.sessions addr.display c hc
  | none => exact h.runtime

theorem informed_transmit (h : Informed s) (reliability : ℕ) (flags : UInt8) (body : Bytes) :
    Informed (transmit env s addr reliability flags body).2 := by
  have hallocated := tells_getOr h addr true 0
  refine informed_of_lookup addr h ?_ (keeps_transmit env s addr reliability flags body).others
    fun c hc => ?_
  · unfold transmit rememberReliable
    dsimp only
    by_cases hr : hasReliable reliability
    · rw [if_pos hr]
      exact h.runtime
    · rw [if_neg hr]
      exact h.runtime
  · rw [lookup_transmit, Option.some.injEq] at hc
    subst hc
    by_cases hr : hasReliable reliability
    · rw [if_pos hr]
      exact hallocated
    · rw [if_neg hr]
      exact hallocated

theorem Step.informed (hstep : Step env addr stored s s') (hfallback : IsField env.fallbackVersion)
    (h : Informed s) : Informed s' := by
  cases hstep with
  | aside haside =>
    refine ⟨?_, ?_⟩
    · rw [haside.runtimeProtocolVersion, haside.runtimeVersion]
      exact h.runtime
    · rw [haside.connections]
      exact h.sessions
  | sync protocol hp =>
    have htells := tells_resolveVersion hfallback protocol protocol
    rw [Nat.mod_eq_of_lt hp] at htells
    exact ⟨htells, h.sessions⟩
  | ensure connected protocol =>
    refine informed_of_lookup addr h h.runtime (fun peer hp => ?_) fun c hc => ?_
    · rw [ServerState.lookup_ensureSession, if_neg hp]
    · rw [ServerState.lookup_ensureSession, if_pos rfl, Option.some.injEq] at hc
      rw [← hc]
      exact tells_getOr h addr connected protocol
  | update f hf =>
    refine informed_modify h fun c hc => ?_
    rw [(hf c).bedrockProtocol, (hf c).bedrockVersion]
    exact hc
  | replace c hb =>
    refine informed_of_lookup addr h h.runtime (fun peer hp => AList.lookup_insert_ne hp)
      fun c' hc => ?_
    rw [AList.lookup_insert, Option.some.injEq] at hc
    rw [← hc, hb.bedrockProtocol, hb.bedrockVersion]
    exact tells_getOr h addr true 0
  | transmit reliability flags body => exact informed_transmit h reliability flags body
  | negotiate proto hp =>
    exact informed_modify h fun c _ => tells_resolveVersion hfallback proto proto
  | capture name path protocol hp =>
    exact informed_modify h fun c _ => tells_resolveVersion hfallback protocol protocol
  | acknowledge now seqs =>
    refine informed_modify h fun c hc => ?_
    obtain ⟨hproto, hversion⟩ := acknowledge_pair now c seqs
    rw [hproto, hversion]
    exact hc
  | resend now seq msg hm => exact informed_modify h fun c hc => hc
  | drop =>
    have hdrops := drops_dropConnectionState s addr
    refine informed_of_lookup addr h h.runtime hdrops.others fun c hc => ?_
    rw [hdrops.absent] at hc
    cases hc

theorem Steps.informed (hsteps : Steps env addr stored s s')
    (hfallback : IsField env.fallbackVersion) (h : Informed s) : Informed s' := by
  induction hsteps with
  | refl => exact h
  | tail _ hstep ih => exact hstep.informed hfallback ih

theorem informed_sendAll (hfallback : IsField env.fallbackVersion) (h : Informed s)
    (frames : List (SocketAddr × Bytes)) : Informed (s.sendAll env frames) := by
  have hsteps : Steps env ⟨[], .v4 [], 0⟩ (fun _ => True) s (s.sendAll env frames) :=
    sendAll_steps s frames
  exact hsteps.informed hfallback h

theorem informed_pruneQueues (h : Informed s) : Informed (pruneQueues env s addr) := by
  have hsplits : Informed (pruneSplitBuffersForPeer env s addr) := ⟨h.runtime, h.sessions⟩
  have hqueues : Informed ((pruneSplitBuffersForPeer env s addr).modifySession addr fun c =>
      pruneSessionQueues c (env.instant (pruneSplitBuffersForPeer env s addr).tick)) :=
    informed_modify hsplits fun c hc => hc
  exact ⟨hqueues.runtime, hqueues.sessions⟩

theorem foldl_resendKey_pair (now : ℕ) (collected : ClientSession × List Bytes) (keys : List ℕ) :
    (keys.foldl (resendKey now) collected).1.bedrockProtocol = collected.1.bedrockProtocol ∧
      (keys.foldl (resendKey now) collected).1.bedrockVersion = collected.1.bedrockVersion := by
  induction keys generalizing collected with
  | nil => exact ⟨rfl, rfl⟩
  | cons seq keys ih =>
    obtain ⟨hproto, hversion⟩ := ih (resendKey now collected seq)
    have hone : (resendKey now collected seq).1.bedrockProtocol = collected.1.bedrockProtocol ∧
        (resendKey now collected seq).1.bedrockVersion = collected.1.bedrockVersion := by
      unfold resendKey
      cases collected.1.pendingMessages.lookup seq with
      | none => exact ⟨rfl, rfl⟩
      | some msg => exact ⟨rfl, rfl⟩
    exact ⟨hproto.trans hone.1, hversion.trans hone.2⟩

theorem informed_resendRound (hfallback : IsField env.fallbackVersion) (h : Informed s) :
    Informed (resendRound env parse s) := by
  unfold resendRound
  dsimp only
  refine informed_sendAll hfallback ?_ _
  refine ⟨h.runtime, fun peer c hc => ?_⟩
  dsimp only at hc
  rw [lookup_filterMap, Option.bind_eq_some_iff] at hc
  obtain ⟨c₀, hc₀, hc⟩ := hc
  have htells := h.sessions peer c₀ hc₀
  cases hparse : parse peer with
  | none =>
    rw [hparse, Option.some.injEq] at hc
    exact hc ▸ htells
  | some dest =>
    obtain ⟨hproto, hversion⟩ := foldl_resendKey_pair (env.instant s.tick) (c₀, [])
      (dueKeys (env.instant s.tick) c₀)
    rw [hparse, Option.some.injEq] at hc
    rw [← hc]
    unfold resendDue
    rw [hproto, hversion]
    exact htells

theorem informed_apply (hfallback : IsField env.fallbackVersion) (h : Informed s)
    (event : ServerEvent) : Informed (event.apply env parse s) := by
  cases event with
  | datagram addr data =>
    unfold ServerEvent.apply
    dsimp only
    by_cases hs : s.stuck = true
    · rw [if_pos hs]
      exact h
    · rw [if_neg hs]
      refine Steps.informed (handlePacket_steps s data) hfallback ?_
      unfold startOf
      by_cases hprunes : prunes s addr data = true
      · rw [if_pos hprunes]
        exact informed_pruneQueues h
      · rw [if_neg hprunes]
        exact h
  | worker => exact informed_resendRound hfallback h

theorem isAnswer_frame {seq : ℕ} (h : IsFrame seq datagram) (addr : SocketAddr) :
    isAnswer (addr, datagram) = false := by
  unfold isAnswer
  rw [h.id]
  decide

/-- The datagram is none of the requests. -/
def Unasked (datagram : Bytes) : Prop := ∀ asked ∈ requestIds, datagram.head? ≠ some asked

theorem Effect.answers (h : Effect env addr datagram s s') (hid : Unasked datagram)
    (hs : Framed s) : s'.answers = s.answers := by
  cases h with
  | answer id fields hmem hasked =>
    obtain ⟨asked, hasked, hhead⟩ := hasked
    exact absurd hhead (hid asked hasked)
  | transmit reliability flags body =>
    have htraffic := traffic_transmit env s addr reliability flags body
    refine filter_sent htraffic.sent fun e he => ?_
    rw [List.mem_singleton.mp he]
    exact isAnswer_frame (isFrame_frameDatagram _ _ _ _) addr
  | again seq msg hm =>
    have hsent : (s.sendTo env addr msg.frame).2.sent = s.sent ++ [(addr, msg.frame)] := rfl
    refine filter_sent hsent fun e he => ?_
    rw [List.mem_singleton.mp he]
    exact isAnswer_frame (hs addr.display seq msg.frame (waiting_of_pendingOf hm)) addr
  | receive frame hframe =>
    exact congrArg (List.filter isAnswer) (receives_receiveFrame env s addr frame).sent
  | _ => rfl

theorem Effects.answers (h : Effects env addr datagram s s') (hid : Unasked datagram)
    (hs : Framed s) : s'.answers = s.answers := by
  have hboth : s'.answers = s.answers ∧ Framed s' := by
    induction h with
    | refl => exact ⟨rfl, hs⟩
    | tail _ heffect ih =>
      obtain ⟨hsame, hframed⟩ := ih
      obtain ⟨new, htraffic⟩ := heffect.traffic
      exact ⟨(heffect.answers hid hframed).trans hsame, htraffic.framed hframed⟩
  exact hboth.1

theorem answers_sendTo (env : ServerEnv) (s : ServerState) (addr : SocketAddr) (answer : Bytes) :
    (s.sendTo env addr answer).2.answers =
      s.answers ++ [(addr, answer)].filter isAnswer := List.filter_append _ _

theorem Handling.answers {frameset : Option FrameSet}
    (h : Handling env addr datagram s frameset s') (hid : Unasked datagram) (hs : Framed s) :
    s'.answers = s.answers := by
  cases h with
  | passed h => exact Effects.answers h hid hs
  | interrupted frameset h hstuck => exact Effects.answers h hid hs
  | acknowledged frameset hparse h hstuck =>
    have hack : [(addr, ackDatagram frameset.seq)].filter isAnswer = [] := rfl
    rw [answers_sendTo, hack, List.append_nil]
    exact Effects.answers h hid hs

theorem answers_resendRound (hs : Framed s) : (resendRound env parse s).answers = s.answers := by
  obtain ⟨due, hsent, hdue⟩ := resendRound_sent_eq env parse s
  refine filter_sent hsent fun e he => ?_
  obtain ⟨peer, seq, -, hwaiting⟩ := hdue e he
  exact isAnswer_frame (hs peer seq e.2 hwaiting) e.1

/-- Handling a datagram from `addr` adds the one answer that is expected. -/
def Answers (env : ServerEnv) (addr : SocketAddr) (data : Bytes) (s s' : ServerState) : Prop :=
  ∃ new, s'.answers = s.answers ++ new ∧
    readAnswers new = (expectedAnswer env s addr data).toList.map fun answer => (addr, some answer)

theorem answers_none (h : expectedAnswer env s addr datagram = none)
    (hsame : s'.answers = s.answers) : Answers env addr datagram s s' :=
  ⟨[], by rw [hsame, List.append_nil], by rw [h]; rfl⟩

theorem answers_some {answer : Answer} {reply : Bytes}
    (h : expectedAnswer env s addr datagram = some answer) (hkind : isAnswer (addr, reply) = true)
    (hread : readAnswer reply = some answer) (hsent : s'.sent = s.sent ++ [(addr, reply)]) :
    Answers env addr datagram s s' := by
  refine ⟨[(addr, reply)], ?_, ?_⟩
  · have hone : [(addr, reply)].filter isAnswer = [(addr, reply)] := by
      rw [List.filter_cons_of_pos hkind, List.filter_nil]
    unfold ServerState.answers
    rw [hsent, List.filter_append, hone]
  · rw [h]
    unfold readAnswers
    rw [List.map_singleton, hread]
    rfl

theorem tells_advertised (h : Informed s) (addr : SocketAddr) :
    Tells (s.advertised addr).1 (s.advertised addr).2 := by
  unfold ServerState.advertised
  cases hc : s.session addr with
  | none => exact h.runtime
  | some c => exact h.sessions addr.display c hc

theorem handleUnconnectedPing_answers (hconfig : env.config.Fits) (h : Informed s) (tl : Bytes) :
    Answers env addr (0x01 :: tl) s (handleUnconnectedPing env addr s (0x01 :: tl)).2 := by
  unfold handleUnconnectedPing
  by_cases hlen : (0x01 :: tl).length < 25
  · rw [if_pos hlen]
    exact answers_none (if_pos hlen) rfl
  · rw [if_neg hlen]
    have htime : (((0x01 :: tl).drop 1).take 8).length = 8 := by
      rw [List.length_cons] at hlen
      simp
      omega
    exact answers_some (if_neg hlen) rfl
      (readAnswer_unconnectedPong hconfig htime (tells_advertised h addr) _) rfl

theorem handleOpenConnectionRequest1_answers (hconfig : env.config.Fits) (tl : Bytes) :
    Answers env addr (0x05 :: tl) s (handleOpenConnectionRequest1 env addr s (0x05 :: tl)).2 := by
  unfold handleOpenConnectionRequest1
  by_cases hlen : (0x05 :: tl).length < 17
  · rw [if_pos hlen]
    exact answers_none (if_pos hlen) rfl
  · rw [if_neg hlen]
    refine answers_some (if_neg hlen) rfl (readAnswer_openConnectionReply1 hconfig) ?_
    cases extractOpenConnectionProtocol (0x05 :: tl) with
    | none => rfl
    | some protocol => rfl

theorem handleOpenConnectionRequest2_answers (hconfig : env.config.Fits) (haddr : addr.Proper)
    (tl : Bytes) :
    Answers env addr (0x07 :: tl) s (handleOpenConnectionRequest2 env addr s (0x07 :: tl)).2 := by
  unfold handleOpenConnectionRequest2
  by_cases hlen : (0x07 :: tl).length < 19
  · rw [if_pos hlen]
    exact answers_none (if_pos hlen) rfl
  · rw [if_neg hlen]
    exact answers_some (if_neg hlen) rfl (readAnswer_openConnectionReply2 hconfig haddr) rfl

theorem requestTime_lt (data : Bytes) : requestTime data < 2 ^ 64 := by
  unfold requestTime
  split_ifs
  · have hlen : ((data.drop 9).take 8).reverse.length ≤ 8 := by
      rw [List.length_reverse, List.length_take]
      exact Nat.min_le_left _ _
    exact (leValue_lt _).trans_le (Nat.pow_le_pow_right (by decide) hlen)
  · decide

theorem handleConnectionRequest_answers (haddr : addr.Proper) (tl : Bytes) :
    Answers env addr (0x09 :: tl) s (handleConnectionRequest env addr s (0x09 :: tl)).2 := by
  have hread := readAnswer_connectionRequestReply haddr (requestTime (0x09 :: tl))
    (env.systemMillis s.tick)
  rw [Nat.mod_eq_of_lt (requestTime_lt _)] at hread
  exact answers_some rfl rfl hread rfl

theorem handlePacket_answers (hframed : Framed s) (hinformed : Informed s)
    (hconfig : env.config.Fits) (haddr : addr.Proper) (data : Bytes) :
    Answers env addr data s (handlePacket env addr s data).2 := by
  cases data with
  | nil => exact answers_none rfl rfl
  | cons id tl =>
    by_cases h01 : id = 0x01
    · subst h01
      exact handleUnconnectedPing_answers hconfig hinformed tl
    by_cases h05 : id = 0x05
    · subst h05
      exact handleOpenConnectionRequest1_answers hconfig tl
    by_cases h07 : id = 0x07
    · subst h07
      exact handleOpenConnectionRequest2_answers hconfig haddr tl
    by_cases h09 : id = 0x09
    · subst h09
      exact handleConnectionRequest_answers haddr tl
    have hunasked : Unasked (id :: tl) := by
      intro asked hasked hhead
      obtain rfl : id = asked := Option.some.inj hhead
      simp [requestIds, h01, h05, h07, h09] at hasked
    have hnone : expectedAnswer env s addr (id :: tl) = none := by
      unfold expectedAnswer
      dsimp only
      rw [if_neg h01, if_neg h05, if_neg h07, if_neg h09]
    exact answers_none hnone ((handlePacket_handling s (id :: tl)).answers hunasked hframed)

theorem framed_apply (h : Framed s) (event : ServerEvent) : Framed (event.apply env parse s) := by
  have hturns : ∀ {x y : Serving}, Turns env parse x y → Framed x.state → Framed y.state := by
    intro x y hturns hx
    induction hturns with
    | refl => exact hx
    | tail _ hturn ih => exact hturn.framed ih
  exact hturns (runServer_turns env parse [] s [event]) h

theorem apply_answers (parse : Str → Option SocketAddr) (hframed : Framed s)
    (hinformed : Informed s) (hconfig : env.config.Fits) (hstuck : s.stuck = false)
    {event : ServerEvent} (hevent : event.Proper) :
    ∃ new, (event.apply env parse s).answers = s.answers ++ new ∧
      readAnswers new = (event.expected env s).map fun e => (e.1, some e.2) := by
  cases event with
  | datagram addr data =>
    obtain ⟨new, hanswers, hread⟩ := handlePacket_answers hframed hinformed hconfig hevent data
    refine ⟨new, ?_, ?_⟩
    · unfold ServerEvent.apply
      dsimp only
      rw [if_neg (by simp [hstuck])]
      exact hanswers
    · rw [hread]
      unfold ServerEvent.expected
      rw [List.map_map]
      rfl
  | worker => exact ⟨[], (answers_resendRound hframed).trans (List.append_nil _).symm, rfl⟩

theorem runServer_answers (hconfig : env.config.Fits) (hfallback : IsField env.fallbackVersion)
    {events : List ServerEvent} (hevents : ∀ event ∈ events, event.Proper) (hframed : Framed s)
    (hinformed : Informed s) (hend : (runServer env parse s events).stuck = false) :
    ∃ new, (runServer env parse s events).answers = s.answers ++ new ∧
      readAnswers new = (expectedAnswers env parse s events).map fun e => (e.1, some e.2) := by
  induction events generalizing s with
  | nil => exact ⟨[], (List.append_nil _).symm, rfl⟩
  | cons event events ih =>
    obtain ⟨new, hanswers, hread⟩ := apply_answers parse hframed hinformed hconfig
      (unstuck_of_run (event :: events) hend) (hevents event List.mem_cons_self)
    obtain ⟨later, hlater, hreadLater⟩ :=
      ih (fun e he => hevents e (List.mem_cons_of_mem _ he)) (framed_apply hframed event)
        (informed_apply hfallback hinformed event) hend
    refine ⟨new ++ later, ?_, ?_⟩
    · refine hlater.trans ?_
      rw [hanswers, List.append_assoc]
    · unfold readAnswers at hread hreadLater ⊢
      rw [List.map_append, hread, hreadLater, ← List.map_append]
      rfl

/-- In a run with fewer than `2 ^ 32` files, every ping and every request to open a connection is
answered once, in the order in which they arrive, and the client reads in the answer what it is to
be told; there are no other answers. -/
theorem requests_answered (env : ServerEnv) (parse : Str → Option SocketAddr) (fs : FileSystem)
    (events : List ServerEvent) (he : env.engines.Shrink) (hconfig : env.config.Fits)
    (hversion : Tells env.config.protocolVersion env.config.version)
    (hfallback : IsField env.fallbackVersion) (hevents : ∀ event ∈ events, event.Proper)
    (paths : Finset Str) (hpaths : ∀ path,
      (runServer env parse (.new env.config fs) events).fs.pathExists path = true → path ∈ paths)
    (hfew : paths.card < 2 ^ 32) :
    readAnswers (runServer env parse (.new env.config fs) events).answers =
      (expectedAnswers env parse (.new env.config fs) events).map fun e => (e.1, some e.2) := by
  have hturns := runServer_turns env parse [] (.new env.config fs) events
  have hframed : Framed (.new env.config fs) := fun peer seq frame hwaiting => by cases hwaiting
  have hinformed : Informed (.new env.config fs) := ⟨hversion, fun peer c hc => by cases hc⟩
  obtain ⟨new, hanswers, hread⟩ := runServer_answers hconfig hfallback hevents hframed hinformed
    (turns_unstuck he hturns paths hpaths hfew)
  rw [hanswers]
  exact hread

/-- A ping, the two requests that open a connection, and a request for it, which comes twice. -/
def openingEvents : List ServerEvent :=
  [.datagram loopback (0x01 :: (beBytes 8 77 ++ (magic ++ beBytes 8 5))),
    .datagram loopback (0x05 :: (magic ++ [11])), .worker,
    .datagram loopback (0x07 :: (magic ++ [4, 127])),
    .datagram loopback (0x09 :: (beBytes 8 5 ++ beBytes 8 99)),
    .datagram loopback (0x09 :: (beBytes 8 5 ++ beBytes 8 99))]

theorem loopback_proper : loopback.Proper := ⟨rfl, by decide⟩

theorem requests_answered_opening :
    readAnswers (runServer (.quiet 1492) (fun _ => none) (.new (ServerEnv.quiet 1492).config .empty)
        openingEvents).answers =
      (expectedAnswers (.quiet 1492) (fun _ => none) (.new (ServerEnv.quiet 1492).config .empty)
        openingEvents).map fun e => (e.1, some e.2) := by
  refine requests_answered (.quiet 1492) (fun _ => none) .empty openingEvents strictEngines_shrink
    ⟨by decide, by decide, by decide⟩ ⟨by decide, by decide, by decide⟩ ⟨by decide, by decide⟩ ?_ ∅
    (fun path hpath => ?_) (by decide)
  · intro event hevent
    simp only [openingEvents, List.mem_cons, List.not_mem_nil, or_false] at hevent
    rcases hevent with rfl | rfl | rfl | rfl | rfl | rfl
    · exact loopback_proper
    · exact loopback_proper
    · trivial
    · exact loopback_proper
    · exact loopback_proper
    · exact loopback_proper
  · cases hpath

end SkinGetBE.RakNet
