import SkinGetBE.ServerCapture

/-!
# One dialogue behind two transports

The program speaks with a player over NetherNet and over RakNet. What is common to the
two is a dialogue: a request for the network settings turns compression on, and a login
is saved and ends it. The receive loop of a NetherNet session and the dispatcher of the
RakNet server are shown to carry it on. They differ in what follows when a login cannot
be saved: the session ends all the same, while the server goes on listening.
-/
namespace SkinGetBE
open Octets NetherSession

/-- What a packet asks for. -/
inductive Request
  | nothing
  | networkSettings
  | login (parsed : ParsedLoginPacket)

/-- Where a dialogue stands; `stuck` is a call that panics or does not return. -/
inductive Dialogue
  | talking (compressionEnabled : Bool) (fs : FileSystem)
  | closed (fs : FileSystem)
  | stuck

def requestOf (env : SessionEnv) (pkt : Bytes) : Request :=
  match pkt with
  | [] => .nothing
  | first :: _ =>
    let (packetId, buf) := readPacketId first pkt
    if packetId = 0xc1 then .networkSettings
    else if packetId = 0x01 then
      match parseLoginPacket env.engines buf.readRemaining.1 with
      | some (.ok (some parsed)) => .login parsed
      | _ => .nothing
    else .nothing

/-- The packets behind the marker of a message; `none` when it holds no batch. -/
def readMessage (flate : Flate2) (compressionEnabled : Bool) (body : Bytes) : Option (List Bytes) :=
  match decompressBatch flate body compressionEnabled with
  | .error _ => none
  | .ok batch => (parseBatch batch).toOption

namespace Dialogue

/-- A login that was not saved. -/
def refuse (lenient compressionEnabled : Bool) (fs : FileSystem) : Dialogue :=
  if lenient then .talking compressionEnabled fs else .closed fs

def save (env : SessionEnv) (lenient compressionEnabled : Bool) (fs : FileSystem)
    (parsed : ParsedLoginPacket) : Dialogue :=
  match ExtractedSkin.new parsed.skinWidth parsed.skinHeight parsed.skinData with
  | .error _ => refuse lenient compressionEnabled fs
  | .ok skin =>
    match saveLoginCapture env.tools fs env.baseDir (captureOf parsed skin) env.savemode with
    | none => .stuck
    | some (.error _, fs) => refuse lenient compressionEnabled fs
    | some (.ok _, fs) => .closed fs

def hear (env : SessionEnv) (lenient : Bool) (d : Dialogue) (pkt : Bytes) : Dialogue :=
  match d with
  | .talking compressionEnabled fs =>
    match requestOf env pkt with
    | .nothing => .talking compressionEnabled fs
    | .networkSettings => .talking true fs
    | .login parsed => save env lenient compressionEnabled fs parsed
  | .closed fs => .closed fs
  | .stuck => .stuck

def listen (env : SessionEnv) (lenient : Bool) (d : Dialogue) (body : Bytes) : Dialogue :=
  match d with
  | .talking compressionEnabled fs =>
    match readMessage env.tools.flate compressionEnabled body with
    | none => .talking compressionEnabled fs
    | some packets => packets.foldl (hear env lenient) (.talking compressionEnabled fs)
  | .closed fs => .closed fs
  | .stuck => .stuck

end Dialogue

/-- The login is accepted, and saving it succeeds. -/
def Saved (env : SessionEnv) (fs : FileSystem) (parsed : ParsedLoginPacket) : Prop :=
  ∃ skin path fs', ExtractedSkin.new parsed.skinWidth parsed.skinHeight parsed.skinData = .ok skin ∧
    saveLoginCapture env.tools fs env.baseDir (captureOf parsed skin) env.savemode =
      some (.ok path, fs')

/-- A message that is a batch has a packet, and the logins in it can be saved. -/
structure Clear (env : SessionEnv) (compressionEnabled : Bool) (fs : FileSystem) (body : Bytes) :
    Prop where
  packets : ∀ batch, decompressBatch env.tools.flate body compressionEnabled = .ok batch →
    ∃ first rest, parseBatch batch = .ok (first :: rest)
  logins : ∀ packets, readMessage env.tools.flate compressionEnabled body = some packets →
    ∀ pkt ∈ packets, ∀ parsed, requestOf env pkt = .login parsed → Saved env fs parsed

/-- Every message is clear where the dialogue has got to when it arrives. -/
def ClearFrom (env : SessionEnv) : Dialogue → List Bytes → Prop
  | _, [] => True
  | d, body :: bodies =>
    (∀ compressionEnabled fs, d = .talking compressionEnabled fs →
      Clear env compressionEnabled fs body) ∧
    ClearFrom env (d.listen env true body) bodies

variable {env : SessionEnv} {lenient : Bool} {d : Dialogue} {fs : FileSystem}
  {compressionEnabled : Bool}

theorem Dialogue.hear_done (h : ∀ c fs, d ≠ .talking c fs) (pkt : Bytes) :
    d.hear env lenient pkt = d := by
  cases d with
  | talking c fs => exact absurd rfl (h c fs)
  | closed fs => rfl
  | stuck => rfl

theorem Dialogue.foldl_hear_done (h : ∀ c fs, d ≠ .talking c fs) (packets : List Bytes) :
    packets.foldl (hear env lenient) d = d := by
  induction packets with
  | nil => rfl
  | cons pkt packets ih => rw [List.foldl_cons, hear_done h, ih]

theorem Dialogue.listen_done (h : ∀ c fs, d ≠ .talking c fs) (body : Bytes) :
    d.listen env lenient body = d := by
  cases d with
  | talking c fs => exact absurd rfl (h c fs)
  | closed fs => rfl
  | stuck => rfl

theorem Dialogue.save_saved {parsed : ParsedLoginPacket} (h : Saved env fs parsed) :
    ∃ fs', ∀ lenient compressionEnabled,
      save env lenient compressionEnabled fs parsed = .closed fs' := by
  obtain ⟨skin, path, fs', hskin, hsave⟩ := h
  refine ⟨fs', fun lenient compressionEnabled => ?_⟩
  unfold save
  rw [hskin]
  dsimp only
  rw [hsave]

theorem Dialogue.foldl_hear_clear {packets : List Bytes}
    (h : ∀ pkt ∈ packets, ∀ parsed, requestOf env pkt = .login parsed → Saved env fs parsed) :
    packets.foldl (hear env false) (.talking compressionEnabled fs) =
      packets.foldl (hear env true) (.talking compressionEnabled fs) := by
  induction packets generalizing compressionEnabled with
  | nil => rfl
  | cons pkt packets ih =>
    have hrest : ∀ {c}, packets.foldl (hear env false) (.talking c fs) =
        packets.foldl (hear env true) (.talking c fs) :=
      ih fun q hq => h q (List.mem_cons_of_mem _ hq)
    rw [List.foldl_cons, List.foldl_cons]
    cases hrequest : requestOf env pkt with
    | nothing =>
      have hhear : ∀ lenient, hear env lenient (.talking compressionEnabled fs) pkt =
          .talking compressionEnabled fs := fun _ => by simp only [hear, hrequest]
      rw [hhear, hhear, hrest]
    | networkSettings =>
      have hhear : ∀ lenient, hear env lenient (.talking compressionEnabled fs) pkt =
          .talking true fs := fun _ => by simp only [hear, hrequest]
      rw [hhear, hhear, hrest]
    | login parsed =>
      obtain ⟨fs', hsave⟩ := save_saved (h pkt List.mem_cons_self parsed hrequest)
      have hhear : ∀ lenient, hear env lenient (.talking compressionEnabled fs) pkt =
          .closed fs' := fun _ => by simp only [hear, hrequest, hsave]
      have hdone : ∀ c fs, (Dialogue.closed fs') ≠ .talking c fs := fun _ _ => nofun
      rw [hhear, hhear, foldl_hear_done hdone, foldl_hear_done hdone]

theorem Dialogue.listen_clear {body : Bytes}
    (h : ∀ compressionEnabled fs, d = .talking compressionEnabled fs →
      Clear env compressionEnabled fs body) :
    d.listen env false body = d.listen env true body := by
  cases d with
  | talking compressionEnabled fs =>
    have hclear := h compressionEnabled fs rfl
    unfold listen
    dsimp only
    cases hread : readMessage env.tools.flate compressionEnabled body with
    | none => rfl
    | some packets => exact foldl_hear_clear (hclear.logins packets hread)
  | closed fs => rfl
  | stuck => rfl

theorem Dialogue.foldl_listen_clear {bodies : List Bytes} (h : ClearFrom env d bodies) :
    bodies.foldl (listen env false) d = bodies.foldl (listen env true) d := by
  induction bodies generalizing d with
  | nil => rfl
  | cons body bodies ih =>
    obtain ⟨hclear, hrest⟩ := h
    rw [List.foldl_cons, List.foldl_cons, listen_clear hclear]
    exact ih hrest

end SkinGetBE
