import SkinGetBE.NetherSession
import SkinGetBE.RakNetFrames

/-!
# Game packets of the RakNet server

The answers of the server and the capture of a login. The fallback for a login
that does not parse reads on in a buffer that the parser has already drained, so
it ends at once.
-/
namespace SkinGetBE.RakNet
open Octets Text Tables NetherSession

/-- The loop over the list, left as soon as a call does not return. -/
def forEach {α : Type} (f : ServerState → α → ServerState) : ServerState → List α → ServerState
  | s, [] => s
  | s, x :: xs => if s.stuck then s else forEach f (f s x) xs

/-- A packet behind its length, seven bits an octet. -/
def wrapWithLength (packet : Bytes) : Bytes := leb128 packet.length ++ packet

def bedrockResponseBody (flate : Flate2) (packet : Bytes) (compressionEnabled : Bool) : Bytes :=
  if compressionEnabled then
    match compressBatch flate (wrapWithLength packet) with
    | .ok compressed => 0xfe :: compressed
    | .error _ => 0xfe :: wrapWithLength packet
  else 0xfe :: wrapWithLength packet

def bedrockBundleBody (flate : Flate2) (packets : List Bytes) (compressionEnabled : Bool) : Bytes :=
  let combined := (writePackets packets).data
  if compressionEnabled then
    match compressBatch flate combined with
    | .ok compressed => 0xfe :: compressed
    | .error _ => 0xfe :: 0x00 :: combined
  else 0xfe :: combined

def sendBedrockResponse (env : ServerEnv) (s : ServerState) (packet : Bytes) (dest : SocketAddr)
    (forceUncompressed : Bool) : ServerState :=
  let compressionEnabled := if forceUncompressed then false else s.compressionEnabled dest
  (sendFrame env s (bedrockResponseBody env.tools.flate packet compressionEnabled) 3 dest).2

def sendBedrockBundle (env : ServerEnv) (s : ServerState) (packets : List Bytes)
    (dest : SocketAddr) : ServerState :=
  (sendFrame env s (bedrockBundleBody env.tools.flate packets (s.compressionEnabled dest)) 3
    dest).2

def sendLoginSuccessBundle (env : ServerEnv) (s : ServerState) (dest : SocketAddr) : ServerState :=
  sendBedrockBundle env s [buildPlayStatus 0, buildDisconnect 0 captureMessage] dest

def sendDisconnectResponse (env : ServerEnv) (s : ServerState) (reason : ℤ) (message : Str)
    (dest : SocketAddr) : ServerState :=
  sendBedrockResponse env s (buildDisconnect reason message) dest false

def sendRaknetDisconnectNotification (env : ServerEnv) (s : ServerState) (dest : SocketAddr) :
    ServerState :=
  (sendFrame env s [0x15] 3 dest).2

def sendNetworkSettingsResponse (env : ServerEnv) (s : ServerState) (dest : SocketAddr) :
    ServerState :=
  sendBedrockResponse env s buildNetworkSettings dest true

def syncClientVersion (env : ServerEnv) (s : ServerState) (protocol : ℕ) : ServerState :=
  { s with
    runtimeProtocolVersion := protocol
    runtimeVersion := resolveVersion env.fallbackVersion protocol }

/-- What the session learns from a capture. -/
def ClientSession.captured (session : ClientSession) (playerName : Str) (path : Option Str)
    (protocol : ℕ) (version : Str) : ClientSession :=
  { session with
    username := some playerName
    skinPath := path
    bedrockProtocol := protocol
    bedrockVersion := version
    connected := true }

/-- The end of a captured login: the answers, and the session is removed. -/
def finishCapture (env : ServerEnv) (s : ServerState) (parsed : ParsedLoginPacket)
    (path : Option Str) (addr : SocketAddr) : ServerState :=
  let s := s.modifySession addr fun c => c.captured parsed.playerName path
    (parsed.protocol % 2 ^ 16) (resolveVersion env.fallbackVersion parsed.protocol)
  let s := sendLoginSuccessBundle env s addr
  let s := sendDisconnectResponse env s 0 captureMessage addr
  let s := sendRaknetDisconnectNotification env s addr
  let s := s.modifySession addr fun c => { c with connected := false }
  s.removeConnection addr

def captureLogin (env : ServerEnv) (s : ServerState) (parsed : ParsedLoginPacket)
    (addr : SocketAddr) : ServerState :=
  let s := syncClientVersion env s (parsed.protocol % 2 ^ 16)
  match ExtractedSkin.new parsed.skinWidth parsed.skinHeight parsed.skinData with
  | .error _ => s
  | .ok skin =>
    match saveLoginCapture env.tools s.fs env.baseDir
        ⟨parsed.playerName, parsed.skinId, parsed.metadata, skin⟩ env.config.savemode with
    | none => { s with stuck := true }
    | some (.error _, fs) => { s with fs := fs }
    | some (.ok path, fs) => finishCapture env { s with fs := fs } parsed path addr

def handleLoginPacket (env : ServerEnv) (s : ServerState) (remaining : Bytes)
    (addr : SocketAddr) : ServerState :=
  match parseLoginPacket env.engines remaining with
  | none => { s with stuck := true }
  | some (.ok (some parsed)) => captureLogin env s parsed addr
  | some (.ok none) => s
  | some (.error _) => s

def handleRequestNetworkSettings (env : ServerEnv) (s : ServerState) (buf : Buffer)
    (addr : SocketAddr) : ServerState :=
  let proto := match buf.readU32.1 with
    | .ok proto => proto
    | .error _ => s.runtimeProtocolVersion
  let s := s.modifySession addr fun c => { c with
    bedrockProtocol := proto % 2 ^ 16
    bedrockVersion := resolveVersion env.fallbackVersion proto
    compressionEnabled := true
    compressionAlgo := none }
  sendNetworkSettingsResponse env s addr

def processSingleBedrockPacket (env : ServerEnv) (addr : SocketAddr) (s : ServerState)
    (data : Bytes) : ServerState :=
  match data with
  | [] => s
  | first :: _ =>
    if s.isActiveConnection addr = false then s
    else
      let (packetId, buf) := readPacketId first data
      if packetId = 0x01 then handleLoginPacket env s buf.readRemaining.1 addr
      else if packetId = 0xc1 then handleRequestNetworkSettings env s buf addr
      else s

end SkinGetBE.RakNet
