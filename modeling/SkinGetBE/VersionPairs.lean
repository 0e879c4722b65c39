import SkinGetBE.RakNetSteps
import SkinGetBE.OrderedDelivery

/-!
# A protocol and its version

A session and the server itself each hold a protocol number with the version it
resolves to. A request for the network settings and a login store the low 16 bits
of a number next to the version of all 32 bits, so the pair matches when both
resolve alike. A login keeps its session for a while behind that, so the states
that count are those between two effects of a handler, when other handlers run.
-/
namespace SkinGetBE.RakNet
open Octets Text Tables Relation

/-- The number resolves to the same version before and after it is narrowed. -/
def ResolvesNarrowed (env : ServerEnv) (proto : ℕ) : Prop :=
  resolveVersion env.fallbackVersion proto = resolveVersion env.fallbackVersion (proto % 2 ^ 16)

def ClientSession.Paired (env : ServerEnv) (c : ClientSession) : Prop :=
  c.bedrockVersion = resolveVersion env.fallbackVersion c.bedrockProtocol

/-- The version of the server is the one of its protocol, a 16-bit number. -/
structure RuntimePaired (env : ServerEnv) (s : ServerState) : Prop where
  version : s.runtimeVersion = resolveVersion env.fallbackVersion s.runtimeProtocolVersion
  narrow : s.runtimeProtocolVersion < 2 ^ 16

/-- The server and all of its sessions are paired. -/
structure VersionsPaired (env : ServerEnv) (s : ServerState) : Prop extends
    RuntimePaired env s where
  sessions : ∀ peer c, s.connections.lookup peer = some c → c.Paired env

variable {env : ServerEnv} {addr : SocketAddr} {stored : ℕ → Prop} {s s' : ServerState}

theorem resolvesNarrowed_of_lt {proto : ℕ} (h : proto < 2 ^ 16) : ResolvesNarrowed env proto := by
  unfold ResolvesNarrowed
  rw [Nat.mod_eq_of_lt h]

instance (env : ServerEnv) (proto : ℕ) : Decidable (ResolvesNarrowed env proto) :=
  inferInstanceAs (Decidable (_ = _))

/-- A request leaves a matching pair exactly when its number resolves alike. -/
theorem negotiated_paired_iff (proto : ℕ) (c : ClientSession) :
    (c.negotiated env proto).Paired env ↔ ResolvesNarrowed env proto := Iff.rfl

/-- And so does a login that was captured. -/
theorem captured_paired_iff (proto : ℕ) (c : ClientSession) (name : Str) (path : Option Str) :
    (c.captured name path (proto % 2 ^ 16) (resolveVersion env.fallbackVersion proto)).Paired env ↔
      ResolvesNarrowed env proto := Iff.rfl

theorem Step.runtimePaired (hstep : Step env addr stored s s') (h : RuntimePaired env s) :
    RuntimePaired env s' := by
  cases hstep with
  | aside haside =>
    refine ⟨?_, ?_⟩
    · rw [haside.runtimeVersion, haside.runtimeProtocolVersion]
      exact h.version
    · rw [haside.runtimeProtocolVersion]
      exact h.narrow
  | sync protocol hp => exact ⟨rfl, hp⟩
  | transmit reliability flags body =>
    have hremember : ∀ (t : ServerState) (seq : ℕ) (frame : Bytes), RuntimePaired env t →
        RuntimePaired env (rememberReliable env t addr reliability seq frame) := by
      intro t seq frame ht
      unfold rememberReliable
      by_cases hr : hasReliable reliability
      · rw [if_pos hr]
        exact ⟨ht.version, ht.narrow⟩
      · rw [if_neg hr]
        exact ht
    have hsent := hremember (s.allocate addr reliability).2 (s.allocate addr reliability).1.seq
      (frameDatagram flags reliability (s.allocate addr reliability).1 body) ⟨h.version, h.narrow⟩
    exact ⟨hsent.version, hsent.narrow⟩
  | _ => exact ⟨h.version, h.narrow⟩

theorem Steps.runtimePaired (hsteps : Steps env addr stored s s') (h : RuntimePaired env s) :
    RuntimePaired env s' := by
  induction hsteps with
  | refl => exact h
  | tail _ hstep ih => exact hstep.runtimePaired ih

/-- All sessions are paired, in a table that differs in the one of the peer at most. -/
theorem sessions_of_lookup (addr : SocketAddr)
    (h : ∀ peer c, s.connections.lookup peer = some c → c.Paired env)
    (hothers : ∀ peer, peer ≠ addr.display →
      s'.connections.lookup peer = s.connections.lookup peer)
    (hpeer : ∀ c, s'.connections.lookup addr.display = some c → c.Paired env) :
    ∀ peer c, s'.connections.lookup peer = some c → c.Paired env := by
  intro peer c hc
  by_cases hp : peer = addr.display
  · exact hpeer c (hp ▸ hc)
  · exact h peer c ((hothers peer hp).symm.trans hc)

theorem sessions_modify (h : ∀ peer c, s.connections.lookup peer = some c → c.Paired env)
    {f : ClientSession → ClientSession} (hf : ∀ c, c.Paired env → (f c).Paired env) :
    ∀ peer c, (s.modifySession addr f).connections.lookup peer = some c → c.Paired env := by
  refine sessions_of_lookup addr h (fun peer hp => ?_) fun c hc => ?_
  · rw [ServerState.lookup_modifySession, if_neg hp]
  · rw [ServerState.lookup_modifySession, if_pos rfl, Option.map_eq_some_iff] at hc
    obtain ⟨c₀, hc₀, rfl⟩ := hc
    exact hf c₀ (h addr.display c₀ hc₀)

/-- A session that is made takes the pair of the server. -/
theorem paired_getOr (h : VersionsPaired env s) (connected : Bool) (protocol : ℕ) :
    (getOr addr.display (s.createSession connected protocol) s.connections).Paired env := by
  unfold getOr
  cases hc : s.connections.lookup addr.display with
  | some c => exact h.sessions addr.display c hc
  | none => exact h.version

theorem acknowledge_pair (now : ℕ) (c : ClientSession) (seqs : List ℕ) :
    (seqs.foldl (ClientSession.acknowledge now) c).bedrockProtocol = c.bedrockProtocol ∧
      (seqs.foldl (ClientSession.acknowledge now) c).bedrockVersion = c.bedrockVersion := by
  induction seqs generalizing c with
  | nil => exact ⟨rfl, rfl⟩
  | cons seq seqs ih =>
    obtain ⟨hproto, hversion⟩ := ih (c.acknowledge now seq)
    have hone : (c.acknowledge now seq).bedrockProtocol = c.bedrockProtocol ∧
        (c.acknowledge now seq).bedrockVersion = c.bedrockVersion := by
      unfold ClientSession.acknowledge
      cases c.pendingMessages.lookup seq with
      | none => exact ⟨rfl, rfl⟩
      | some msg => exact ⟨rfl, rfl⟩
    exact ⟨hproto.trans hone.1, hversion.trans hone.2⟩

theorem Paired.of_eq {c c' : ClientSession} (h : c.Paired env)
    (hproto : c'.bedrockProtocol = c.bedrockProtocol)
    (hversion : c'.bedrockVersion = c.bedrockVersion) : c'.Paired env := by
  unfold ClientSession.Paired
  rw [hproto, hversion]
  exact h

theorem sessions_transmit (h : VersionsPaired env s) (reliability : ℕ) (flags : UInt8)
    (body : Bytes) : ∀ peer c,
      (transmit env s addr reliability flags body).2.connections.lookup peer = some c →
        c.Paired env := by
  have hothers := (keeps_transmit env s addr reliability flags body).others
  refine sessions_of_lookup addr h.sessions hothers fun c hc => ?_
  have hallocated : (allocateSequence (s.sessionOf addr) reliability).2.Paired env :=
    paired_getOr h true 0
  rw [lookup_transmit, Option.some.injEq] at hc
  subst hc
  by_cases hr : hasReliable reliability
  · rw [if_pos hr]
    exact hallocated
  · rw [if_neg hr]
    exact hallocated

/-- A step that stores numbers which resolve alike keeps every pair. -/
theorem Step.versionsPaired (hstep : Step env addr stored s s')
    (hstored : ∀ proto, stored proto → ResolvesNarrowed env proto) (h : VersionsPaired env s) :
    VersionsPaired env s' := by
  refine ⟨hstep.runtimePaired h.toRuntimePaired, ?_⟩
  cases hstep with
  | aside haside =>
    rw [haside.connections]
    exact h.sessions
  | sync protocol hp => exact h.sessions
  | ensure connected protocol =>
    refine sessions_of_lookup addr h.sessions (fun peer hp => ?_) fun c hc => ?_
    · rw [ServerState.lookup_ensureSession, if_neg hp]
    · rw [ServerState.lookup_ensureSession, if_pos rfl, Option.some.injEq] at hc
      rw [← hc]
      exact paired_getOr h connected protocol
  | update f hf =>
    exact sessions_modify h.sessions fun c hc =>
      Paired.of_eq hc (hf c).bedrockProtocol (hf c).bedrockVersion
  | replace c hb =>
    refine sessions_of_lookup addr h.sessions
      (fun peer hp => AList.lookup_insert_ne hp) fun c' hc => ?_
    rw [AList.lookup_insert, Option.some.injEq] at hc
    have hof : (s.sessionOf addr).Paired env := paired_getOr h true 0
    exact hc ▸ Paired.of_eq hof hb.bedrockProtocol hb.bedrockVersion
  | transmit reliability flags body => exact sessions_transmit h reliability flags body
  | negotiate proto hp =>
    exact sessions_modify h.sessions fun c _ =>
      (negotiated_paired_iff proto c).mpr (hstored proto hp)
  | capture name path protocol hp =>
    exact sessions_modify h.sessions fun c _ =>
      (captured_paired_iff protocol c name path).mpr (hstored protocol hp)
  | acknowledge now seqs =>
    refine sessions_modify h.sessions fun c hc => ?_
    obtain ⟨hproto, hversion⟩ := acknowledge_pair now c seqs
    exact Paired.of_eq hc hproto hversion
  | resend now seq msg hm => exact sessions_modify h.sessions fun c hc => hc
  | drop =>
    have hdrops := drops_dropConnectionState s addr
    refine sessions_of_lookup addr h.sessions hdrops.others fun c hc => ?_
    rw [hdrops.absent] at hc
    cases hc

theorem Steps.versionsPaired (hsteps : Steps env addr stored s s')
    (hstored : ∀ proto, stored proto → ResolvesNarrowed env proto) (h : VersionsPaired env s) :
    VersionsPaired env s' := by
  induction hsteps with
  | refl => exact h
  | tail _ hstep ih => exact hstep.versionsPaired hstored ih

/-- What a peer can send in order to open a session, negotiate or log in. A packet is one of
the game, decompressed and cut out of its batch. -/
inductive ClientPacket
  | openConnectionRequest1 (addr : SocketAddr) (data : Bytes)
  | openConnectionRequest2 (addr : SocketAddr) (data : Bytes)
  | packet (addr : SocketAddr) (data : Bytes)

def ClientPacket.sender : ClientPacket → SocketAddr
  | openConnectionRequest1 addr _ => addr
  | openConnectionRequest2 addr _ => addr
  | packet addr _ => addr

def arrive (env : ServerEnv) (s : ServerState) : ClientPacket → ServerState
  | .openConnectionRequest1 addr data => (handleOpenConnectionRequest1 env addr s data).2
  | .openConnectionRequest2 addr data => (handleOpenConnectionRequest2 env addr s data).2
  | .packet addr data => processSingleBedrockPacket env addr s data

/-- The number is the one of a login that parses, or of a request for the settings. A request that
is cut short stands for a number of the server, which has 16 bits. -/
def ClientPacket.Carries (env : ServerEnv) : ClientPacket → ℕ → Prop
  | openConnectionRequest1 _ _, _ => False
  | openConnectionRequest2 _ _, _ => False
  | packet _ [], _ => False
  | packet _ (first :: tl), proto =>
    let read := NetherSession.readPacketId first (first :: tl)
    if read.1 = 0x01 then
      ∃ parsed, parseLoginPacket env.engines read.2.readRemaining.1 = some (.ok (some parsed)) ∧
        proto = parsed.protocol
    else if read.1 = 0xc1 then
      match read.2.readU32.1 with
      | .ok asked => proto = asked
      | .error _ => proto < 2 ^ 16
    else False

/-- The server, with the packets whose handlers have begun. -/
structure Handlers where
  begun : List ClientPacket
  state : ServerState

/-- A handler begins, or one that has begun gets to its next effect, whatever the others have done
since. The numbers that are stored are those of its packet, and `allowed`. -/
inductive HandlerStep (env : ServerEnv) (allowed : ℕ → Prop) : Handlers → Handlers → Prop
  | begin (x : Handlers) (packet : ClientPacket) :
      HandlerStep env allowed x { x with begun := packet :: x.begun }
  | effect (x : Handlers) (packet : ClientPacket) (s : ServerState) (hbegun : packet ∈ x.begun)
      (h : Step env packet.sender (fun proto => packet.Carries env proto ∧ allowed proto)
        x.state s) :
      HandlerStep env allowed x { x with state := s }

abbrev HandlerSteps (env : ServerEnv) (allowed : ℕ → Prop) : Handlers → Handlers → Prop :=
  ReflTransGen (HandlerStep env allowed)

variable {allowed : ℕ → Prop} {x x' : Handlers}

theorem HandlerStep.versionsPaired (hstep : HandlerStep env allowed x x')
    (hallowed : ∀ proto, allowed proto → ResolvesNarrowed env proto)
    (h : VersionsPaired env x.state) : VersionsPaired env x'.state := by
  cases hstep with
  | begin packet => exact h
  | effect packet s hbegun hstep =>
    exact hstep.versionsPaired (fun proto hproto => hallowed proto hproto.2) h

theorem HandlerSteps.versionsPaired (hsteps : HandlerSteps env allowed x x')
    (hallowed : ∀ proto, allowed proto → ResolvesNarrowed env proto)
    (h : VersionsPaired env x.state) : VersionsPaired env x'.state := by
  induction hsteps with
  | refl => exact h
  | tail _ hstep ih => exact hstep.versionsPaired hallowed ih

/-- A packet of the game stores what it carries. -/
theorem processSingleBedrockPacket_carried (s : ServerState)
    (hnarrow : s.runtimeProtocolVersion < 2 ^ 16) (data : Bytes)
    (hstored : ∀ proto, (ClientPacket.packet addr data).Carries env proto → stored proto) :
    Steps env addr stored s (processSingleBedrockPacket env addr s data) := by
  unfold processSingleBedrockPacket
  cases data with
  | nil => exact .refl
  | cons first tl =>
    unfold ClientPacket.Carries at hstored
    dsimp only at hstored ⊢
    by_cases hactive : s.isActiveConnection addr = false
    · rw [if_pos hactive]
    · rw [if_neg hactive]
      generalize NetherSession.readPacketId first (first :: tl) = read at hstored
      by_cases hlogin : read.1 = 0x01
      · rw [if_pos hlogin]
        exact handleLoginPacket_steps s _ fun parsed hparse =>
          hstored _ (by rw [if_pos hlogin]; exact ⟨parsed, hparse, rfl⟩)
      · rw [if_neg hlogin]
        by_cases hsettings : read.1 = 0xc1
        · rw [if_pos hsettings]
          refine handleRequestNetworkSettings_steps s _ (hstored _ ?_)
          rw [if_neg hlogin, if_pos hsettings]
          unfold requestedProtocol
          cases read.2.readU32.1 with
          | ok asked => rfl
          | error e => exact hnarrow
        · rw [if_neg hsettings]

theorem arrive_steps (s : ServerState) (hnarrow : s.runtimeProtocolVersion < 2 ^ 16)
    (packet : ClientPacket) (hstored : ∀ proto, packet.Carries env proto → stored proto) :
    Steps env packet.sender stored s (arrive env s packet) := by
  cases packet with
  | openConnectionRequest1 addr data => exact handleOpenConnectionRequest1_steps s data
  | openConnectionRequest2 addr data => exact handleOpenConnectionRequest2_steps s data
  | packet addr data => exact processSingleBedrockPacket_carried s hnarrow data hstored

/-- A handler that nothing interrupts is a run of its effects. -/
theorem arrive_handlerSteps (x : Handlers) (hnarrow : x.state.runtimeProtocolVersion < 2 ^ 16)
    (packet : ClientPacket) (hallowed : ∀ proto, packet.Carries env proto → allowed proto) :
    HandlerSteps env allowed x ⟨packet :: x.begun, arrive env x.state packet⟩ := by
  have hsteps : Steps env packet.sender (fun proto => packet.Carries env proto ∧ allowed proto)
      x.state (arrive env x.state packet) :=
    arrive_steps x.state hnarrow packet fun proto hproto => ⟨hproto, hallowed proto hproto⟩
  refine .head (.begin x packet) ?_
  generalize arrive env x.state packet = s' at hsteps
  induction hsteps with
  | refl => exact .refl
  | tail _ hstep ih =>
    exact ih.tail (.effect ⟨packet :: x.begun, _⟩ packet _ List.mem_cons_self hstep)

/-- So is a sequence of packets, each of which is handled before the next one. -/
theorem arrivals_handlerSteps (packets : List ClientPacket) (x : Handlers)
    (h : RuntimePaired env x.state)
    (hallowed : ∀ packet ∈ packets, ∀ proto, packet.Carries env proto → allowed proto) :
    HandlerSteps env allowed x
      ⟨packets.reverse ++ x.begun, packets.foldl (arrive env) x.state⟩ := by
  induction packets generalizing x with
  | nil => exact .refl
  | cons packet packets ih =>
    have hfirst := hallowed packet List.mem_cons_self
    have hnext : RuntimePaired env (arrive env x.state packet) :=
      (arrive_steps x.state h.narrow packet hfirst).runtimePaired h
    have hrest := ih ⟨packet :: x.begun, arrive env x.state packet⟩ hnext fun p hp =>
      hallowed p (List.mem_cons_of_mem packet hp)
    rw [List.reverse_cons, List.append_assoc]
    exact (arrive_handlerSteps x h.narrow packet hfirst).trans hrest

theorem versionsPaired_new (env : ServerEnv) (fs : FileSystem)
    (hnarrow : env.config.protocolVersion < 2 ^ 16)
    (hconfig : env.config.version =
      resolveVersion env.fallbackVersion env.config.protocolVersion) :
    VersionsPaired env (.new env.config fs) where
  version := hconfig
  narrow := hnarrow
  sessions peer c hc := by
    have hnone : (ServerState.new env.config fs).connections.lookup peer = none :=
      AList.lookup_empty peer
    rw [hnone] at hc
    cases hc

/-- What a peer is told is paired, whether it has a session or not. -/
theorem advertised_paired (h : VersionsPaired env s) (addr : SocketAddr) :
    (s.advertised addr).2 = resolveVersion env.fallbackVersion (s.advertised addr).1 := by
  unfold ServerState.advertised ServerState.session
  cases hc : s.connections.lookup addr.display with
  | some c => exact h.sessions addr.display c hc
  | none => exact h.version

/-- As long as the numbers that are stored resolve alike, every session, the server and every pong
pair a protocol with its own version, also between two effects of a handler. -/
theorem versions_stay_paired (env : ServerEnv) (fs : FileSystem)
    (hnarrow : env.config.protocolVersion < 2 ^ 16)
    (hconfig : env.config.version =
      resolveVersion env.fallbackVersion env.config.protocolVersion)
    (x : Handlers)
    (hrun : HandlerSteps env (ResolvesNarrowed env) ⟨[], .new env.config fs⟩ x) :
    (∀ peer c, x.state.connections.lookup peer = some c →
      c.bedrockVersion = resolveVersion env.fallbackVersion c.bedrockProtocol) ∧
    x.state.runtimeVersion = resolveVersion env.fallbackVersion x.state.runtimeProtocolVersion ∧
    ∀ addr data, 25 ≤ data.length → ∃ seconds protocol,
      (handleUnconnectedPing env addr x.state data).2.sent =
        x.state.sent ++ [(addr, unconnectedPong env.config ((data.drop 1).take 8)
          (motd env.config seconds protocol (resolveVersion env.fallbackVersion protocol)))] := by
  have h : VersionsPaired env x.state :=
    hrun.versionsPaired (fun _ => id) (versionsPaired_new env fs hnarrow hconfig)
  refine ⟨h.sessions, h.version, fun addr data hlen => ?_⟩
  refine ⟨env.systemMillis x.state.tick / 1000, (x.state.advertised addr).1, ?_⟩
  unfold handleUnconnectedPing
  rw [if_neg (by omega), ← advertised_paired h addr]
  rfl

/-- A session is opened and asks for the settings with a 32-bit number. -/
def requestSettings (proto : ℕ) : List ClientPacket :=
  [.openConnectionRequest1 loopback (0x05 :: (magic ++ [11])),
    .packet loopback (0xC1 :: 0x01 :: beBytes 4 proto)]

theorem requestSettings_resolves : ∀ packet ∈ requestSettings 975, ∀ proto,
    packet.Carries (.quiet 1492) proto → ResolvesNarrowed (.quiet 1492) proto := by
  intro packet hpacket proto hproto
  rcases List.mem_cons.mp hpacket with rfl | hpacket
  · exact hproto.elim
  · rw [List.mem_singleton.mp hpacket] at hproto
    have hasked : proto = 975 := hproto
    rw [hasked]
    exact resolvesNarrowed_of_lt (by decide)

theorem versions_stay_paired_settings :
    let s := (requestSettings 975).foldl (arrive (.quiet 1492))
      (.new (ServerEnv.quiet 1492).config .empty)
    (∀ peer c, s.connections.lookup peer = some c →
      c.bedrockVersion = resolveVersion [] c.bedrockProtocol) ∧
    s.runtimeVersion = resolveVersion [] s.runtimeProtocolVersion ∧
    ∀ addr data, 25 ≤ data.length → ∃ seconds protocol,
      (handleUnconnectedPing (.quiet 1492) addr s data).2.sent = s.sent ++ [(addr, unconnectedPong
        (ServerEnv.quiet 1492).config ((data.drop 1).take 8) (motd (ServerEnv.quiet 1492).config
          seconds protocol (resolveVersion [] protocol)))] := by
  have hpaired : (ServerEnv.quiet 1492).config.version = resolveVersion [] 924 := by decide +kernel
  have hrun : HandlerSteps (.quiet 1492) (ResolvesNarrowed (.quiet 1492))
      ⟨[], .new (ServerEnv.quiet 1492).config .empty⟩ _ :=
    arrivals_handlerSteps (requestSettings 975) _ ⟨hpaired, by decide⟩ requestSettings_resolves
  exact versions_stay_paired (.quiet 1492) .empty (by decide) hpaired _ hrun

/-- The low 16 bits of 66460 are 924, which has a version of its own. -/
theorem versions_unpaired_wide :
    let s := (requestSettings 66460).foldl (arrive (.quiet 1492))
      (.new (ServerEnv.quiet 1492).config .empty)
    (ServerEnv.quiet 1492).config.version = resolveVersion [] 924 ∧
      (s.session loopback).map (fun c => (c.bedrockProtocol, c.bedrockVersion)) =
        some (924, "26.60".toList) ∧ resolveVersion [] 924 = "1.26.0".toList := by
  decide +kernel

end SkinGetBE.RakNet
