import SkinGetBE.SentNumbers
import SkinGetBE.ServerFiles

/-!
# One acknowledgement for each accepted datagram

The server acknowledges the frame sets that it accepts, each once and in the order in
which they are accepted, and nothing else. No datagram of another kind that it sends
can be taken for an acknowledgement.
-/
namespace SkinGetBE.RakNet
open Octets Text Tables Relation

/-- The acknowledgements among what was sent. -/
def ServerState.acknowledgements (s : ServerState) : List (SocketAddr × Bytes) :=
  s.sent.filter fun e => e.2.head? == some 0xC0

/-- The acknowledgement that the event calls for. -/
def ServerEvent.due (s : ServerState) : ServerEvent → List (SocketAddr × Bytes)
  | datagram addr data =>
    match acceptedFrameSet s addr data with
    | some frameset => [(addr, ackDatagram frameset.seq)]
    | none => []
  | worker => []

/-- The acknowledgements that are called for in a run. -/
def dueAcknowledgements (env : ServerEnv) (parse : Str → Option SocketAddr) :
    ServerState → List ServerEvent → List (SocketAddr × Bytes)
  | _, [] => []
  | s, event :: events =>
    event.due s ++ dueAcknowledgements env parse (event.apply env parse s) events

variable {env : ServerEnv} {parse : Str → Option SocketAddr} {addr : SocketAddr}
  {datagram : Bytes} {s s' : ServerState} {x y : Serving}

theorem filter_sent {kind : SocketAddr × Bytes → Bool} {new : List (SocketAddr × Bytes)}
    (hsent : s'.sent = s.sent ++ new) (hnew : ∀ e ∈ new, kind e = false) :
    s'.sent.filter kind = s.sent.filter kind := by
  have hnone : new.filter kind = [] :=
    List.filter_eq_nil_iff.mpr fun e he => by simp [hnew e he]
  rw [hsent, List.filter_append, hnone, List.append_nil]

theorem acknowledgements_append {new : List (SocketAddr × Bytes)} (hsent : s'.sent = s.sent ++ new)
    (hnew : ∀ e ∈ new, e.2.head? ≠ some 0xC0) : s'.acknowledgements = s.acknowledgements :=
  filter_sent hsent fun e he => beq_false_of_ne (hnew e he)

theorem Effects.acknowledgements (h : Effects env addr datagram s s') (hs : Framed s) :
    s'.acknowledgements = s.acknowledgements ∧ Framed s' := by
  induction h with
  | refl => exact ⟨rfl, hs⟩
  | tail _ heffect ih =>
    obtain ⟨hsame, hframed⟩ := ih
    obtain ⟨new, htraffic⟩ := heffect.traffic
    have hkinds := fun e he => ((htraffic.submitted e he).spoken hframed).2
    exact ⟨(acknowledgements_append htraffic.sent hkinds).trans hsame, htraffic.framed hframed⟩

theorem worker_acknowledgements (hs : Framed s) :
    (resendRound env parse s).acknowledgements = s.acknowledgements := by
  obtain ⟨due, hsent, hdue⟩ := resendRound_sent_eq env parse s
  refine acknowledgements_append hsent fun e he => ?_
  obtain ⟨peer, seq, -, hwaiting⟩ := hdue e he
  exact (hs peer seq e.2 hwaiting).ne_ack

theorem sendAck_acknowledgements (env : ServerEnv) (s : ServerState) (addr : SocketAddr) (seq : ℕ) :
    (s.sendTo env addr (ackDatagram seq)).2.acknowledgements =
      s.acknowledgements ++ [(addr, ackDatagram seq)] :=
  List.filter_append _ _

/-- What is stuck stays stuck. -/
theorem Turn.stuck (h : Turn env parse x y) (hx : x.state.stuck = true) : y.state.stuck = true := by
  have hfiling := h.filing
  generalize y.state = s' at hfiling
  cases hfiling with
  | kept hsame => exact hsame.stuck.trans hx
  | saved parsed skin result fs hskin hsave => exact hx
  | halted parsed skin hskin hsave => rfl

theorem Turns.stuck (h : Turns env parse x y) (hx : x.state.stuck = true) :
    y.state.stuck = true := by
  induction h with
  | refl => exact hx
  | tail _ hturn ih => exact hturn.stuck ih

theorem apply_acknowledgements (event : ServerEvent) (hs : Framed s)
    (hend : (event.apply env parse s).stuck = false) (hstuck : s.stuck = false) :
    (event.apply env parse s).acknowledgements = s.acknowledgements ++ event.due s ∧
      Framed (event.apply env parse s) := by
  cases event with
  | datagram addr data =>
    unfold ServerEvent.apply ServerEvent.due at *
    dsimp only at *
    rw [if_neg (by rw [hstuck]; decide)] at hend ⊢
    have hhandling : Handling env addr data s (acceptedFrameSet s addr data)
        (handlePacket env addr s data).2 := handlePacket_handling s data
    generalize (handlePacket env addr s data).2 = s' at *
    generalize acceptedFrameSet s addr data = accepted at *
    cases hhandling with
    | passed h =>
      rw [List.append_nil]
      exact Effects.acknowledgements h hs
    | interrupted frameset h hinterrupted =>
      rw [hend] at hinterrupted
      cases hinterrupted
    | acknowledged frameset hparse h _ =>
      obtain ⟨hsame, hframed⟩ := Effects.acknowledgements h hs
      refine ⟨?_, hframed⟩
      rw [sendAck_acknowledgements, hsame]
  | worker =>
    refine ⟨(worker_acknowledgements hs).trans (List.append_nil _).symm, ?_⟩
    exact Turn.framed (.worker ⟨[], s⟩) hs

/-- A run that is not stuck at its end never was. -/
theorem unstuck_of_run (events : List ServerEvent)
    (h : (runServer env parse s events).stuck = false) : s.stuck = false := by
  refine Bool.eq_false_of_not_eq_true fun hstuck => ?_
  have hrest := Turns.stuck (runServer_turns env parse [] s events) hstuck
  rw [h] at hrest
  cases hrest

theorem runServer_acknowledgements (events : List ServerEvent) (hs : Framed s)
    (hend : (runServer env parse s events).stuck = false) :
    (runServer env parse s events).acknowledgements =
      s.acknowledgements ++ dueAcknowledgements env parse s events := by
  induction events generalizing s with
  | nil => exact (List.append_nil _).symm
  | cons event events ih =>
    obtain ⟨hone, hframed⟩ :=
      apply_acknowledgements event hs (unstuck_of_run events hend)
        (unstuck_of_run (event :: events) hend)
    refine (ih hframed hend).trans ?_
    rw [hone, List.append_assoc]
    rfl

/-- In a run with fewer than `2 ^ 32` files, every datagram that is accepted is acknowledged once,
in the order of acceptance, and there are no other acknowledgements. -/
theorem accepted_acknowledged (env : ServerEnv) (parse : Str → Option SocketAddr) (fs : FileSystem)
    (events : List ServerEvent) (he : env.engines.Shrink) (paths : Finset Str)
    (hpaths : ∀ path,
      (runServer env parse (.new env.config fs) events).fs.pathExists path = true → path ∈ paths)
    (hfew : paths.card < 2 ^ 32) :
    (runServer env parse (.new env.config fs) events).acknowledgements =
      dueAcknowledgements env parse (.new env.config fs) events := by
  have hturns := runServer_turns env parse [] (.new env.config fs) events
  have hframed : Framed (.new env.config fs) := fun peer seq frame hwaiting => by cases hwaiting
  exact runServer_acknowledgements events hframed (turns_unstuck he hturns paths hpaths hfew)

theorem quietServing_fs (h : (quietServing parse openAndConnect).state.fs = .empty) :
    ∀ path, (quietServing parse openAndConnect).state.fs.pathExists path = true →
      path ∈ (∅ : Finset Str) := by
  intro path hpath
  rw [h] at hpath
  cases hpath

theorem accepted_acknowledged_connect :
    let s := (quietServing (fun _ => some loopback) openAndConnect).state
    s.acknowledgements = dueAcknowledgements (.quiet 1492) (fun _ => some loopback)
        (.new (ServerEnv.quiet 1492).config .empty) openAndConnect ∧
      s.acknowledgements = [(loopback, ackDatagram 0)] :=
  ⟨accepted_acknowledged (.quiet 1492) (fun _ => some loopback) .empty openAndConnect
    strictEngines_shrink ∅ (quietServing_fs rfl) (by decide), by decide +kernel⟩

end SkinGetBE.RakNet
