import SkinGetBE.SessionBatch
import SkinGetBE.Skin

/-!
# The session of the running program

The answers come first: a packet is its identifier as a variable-length number, then the
fields. The transport is an arbitrary sequence of receptions on the two channels. A
message counts as sent when it is submitted: the result of the transport is
only logged by the program. The trace also records which packets were handled
and which captures were attempted.
-/
namespace SkinGetBE
open Octets Text

def buildPlayStatus (status : ℕ) : Bytes :=
  ((Buffer.new.writeVarInt 0x02).writeU32Le status).data

def buildDisconnect (reason : ℤ) (message : Str) : Bytes :=
  (((((Buffer.new.writeVarInt 0x05).writeSignedVarInt reason).writeBool false).writeVarString
    message).writeVarString message).data

/-- The throttle rate is the number zero, whose bit pattern is zero. -/
def buildNetworkSettings : Bytes :=
  ((((((Buffer.new.writeVarInt 0x8f).writeU16Le 1).writeU16Le 0).writeBool false).writeU8
    0).writeU32Le 0).data

example : buildNetworkSettings = [0x8f, 0x01, 1, 0, 0, 0, 0, 0, 0, 0, 0, 0] := by decide

end SkinGetBE

namespace SkinGetBE.NetherSession
open Octets Text

structure SessionEnv where
  engines : Base64Engines
  tools : CaptureTools
  baseDir : Str
  savemode : ℕ

inductive Action
  | handle (packetId : ℕ)
  | capture (parsed : ParsedLoginPacket)
  | rejected (error : Error)
  | saved (result : Except Error (Option Str))
  | send (message : Bytes)
  | sleep (millis : ℕ)
  | close

/-- `ended` and `failed` are the two ends of the receive loop, `captured` the
return after a capture, `stuck` a call that panics or does not return. -/
inductive Status
  | running
  | ended
  | failed (message : String)
  | captured
  | stuck
  deriving DecidableEq, Repr

structure SessionState where
  compressionEnabled : Bool
  reliableOpen : Bool
  unreliableOpen : Bool
  status : Status
  fs : FileSystem
  trace : List Action

inductive Channel
  | reliable
  | unreliable
  deriving DecidableEq, Repr

inductive Received
  | data (bytes : Bytes)
  | closed
  | failed (message : String)
  deriving DecidableEq, Repr

def SessionState.start (fs : FileSystem) : SessionState :=
  ⟨false, true, true, .running, fs, []⟩

def SessionState.record (s : SessionState) (actions : List Action) : SessionState :=
  { s with trace := s.trace ++ actions }

def captureMessage : Str := "Skin captured".toList

def closingPackets : List Bytes := [buildPlayStatus 0, buildDisconnect 0 captureMessage]

/-- The bundle, half a second of waiting, and the return out of both loops. -/
def sendBundle (env : SessionEnv) (s : SessionState) : SessionState :=
  match buildBatch env.tools.flate closingPackets s.compressionEnabled with
  | none => { s with status := .stuck }
  | some bundle => { s.record [.send bundle, .sleep 500, .close] with status := .captured }

def captureLogin (env : SessionEnv) (s : SessionState) (parsed : ParsedLoginPacket) :
    SessionState :=
  let s := s.record [.capture parsed]
  match ExtractedSkin.new parsed.skinWidth parsed.skinHeight parsed.skinData with
  | .error e => sendBundle env (s.record [.rejected e])
  | .ok skin =>
    match saveLoginCapture env.tools s.fs env.baseDir
        ⟨parsed.playerName, parsed.skinId, parsed.metadata, skin⟩ env.savemode with
    | none => { s with status := .stuck }
    | some (result, fs) => sendBundle env ({ s with fs := fs }.record [.saved result])

def handleLogin (env : SessionEnv) (s : SessionState) (remaining : Bytes) : SessionState :=
  match parseLoginPacket env.engines remaining with
  | none => { s with status := .stuck }
  | some (.ok (some parsed)) => captureLogin env s parsed
  | some (.ok none) => s
  | some (.error _) => s

/-- The packet identifier, or the first octet when no number can be read. -/
def readPacketId (first : UInt8) (pkt : Bytes) : ℕ × Buffer :=
  match (Buffer.ofBytes pkt).readVarInt with
  | (.ok packetId, buf) => (packetId, buf)
  | (.error _, buf) => (first.toNat, buf)

def handleNetworkSettings (env : SessionEnv) (s : SessionState) : SessionState :=
  let s := { s with compressionEnabled := true }
  match buildSingleBatch env.tools.flate buildNetworkSettings false with
  | none => { s with status := .stuck }
  | some resp => s.record [.send resp]

def handlePacket (env : SessionEnv) (s : SessionState) (pkt : Bytes) : SessionState :=
  match pkt with
  | [] => s
  | first :: _ =>
    let (packetId, buf) := readPacketId first pkt
    let s := s.record [.handle packetId]
    if packetId = 0xc1 then handleNetworkSettings env s
    else if packetId = 0x01 then handleLogin env s buf.readRemaining.1
    else s

/-- The inner loop; a capture returns out of it. -/
def handlePackets (env : SessionEnv) (s : SessionState) : List Bytes → SessionState
  | [] => s
  | pkt :: packets =>
    let s := handlePacket env s pkt
    if s.status = .running then handlePackets env s packets else s

def handleMessage (env : SessionEnv) (s : SessionState) (bytes : Bytes) : SessionState :=
  match openMessage env.tools.flate s.compressionEnabled bytes with
  | none => s
  | some packets => handlePackets env s packets

def SessionState.isOpen (s : SessionState) : Channel → Bool
  | .reliable => s.reliableOpen
  | .unreliable => s.unreliableOpen

def SessionState.closeChannel (s : SessionState) : Channel → SessionState
  | .reliable => { s with reliableOpen := false }
  | .unreliable => { s with unreliableOpen := false }

/-- One round of the outer loop: a channel that is closed is no longer polled. -/
def step (env : SessionEnv) (s : SessionState) (event : Channel × Received) : SessionState :=
  if s.status ≠ .running ∨ s.isOpen event.1 = false then s
  else
    match event.2 with
    | .failed message => { s with status := .failed message }
    | .closed =>
      let s := s.closeChannel event.1
      if s.reliableOpen || s.unreliableOpen then s else { s with status := .ended }
    | .data bytes => handleMessage env s bytes

def handleSession (env : SessionEnv) (s : SessionState) (events : List (Channel × Received)) :
    SessionState :=
  events.foldl (step env) s

def handledIds (trace : List Action) : List ℕ :=
  trace.filterMap fun | .handle packetId => some packetId | _ => none

def sentMessages (trace : List Action) : List Bytes :=
  trace.filterMap fun | .send message => some message | _ => none

def captures (trace : List Action) : List ParsedLoginPacket :=
  trace.filterMap fun | .capture parsed => some parsed | _ => none

@[simp] theorem handledIds_append (a b : List Action) :
    handledIds (a ++ b) = handledIds a ++ handledIds b := List.filterMap_append

@[simp] theorem sentMessages_append (a b : List Action) :
    sentMessages (a ++ b) = sentMessages a ++ sentMessages b := List.filterMap_append

@[simp] theorem captures_append (a b : List Action) :
    captures (a ++ b) = captures a ++ captures b := List.filterMap_append

theorem closingPackets_size :
    (closingPackets.flatMap packetFrame).length ≤ maxDecompressedSize := by
  have h1 : (buildPlayStatus 0).length = 5 := by decide
  have h2 : (buildDisconnect 0 captureMessage).length = 31 := by decide
  simp [closingPackets, packetFrame, h1, h2, leb128_of_lt, maxDecompressedSize]

end SkinGetBE.NetherSession
