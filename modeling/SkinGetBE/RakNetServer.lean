import SkinGetBE.RakNetBedrock

/-!
# The receive path of the RakNet server

A datagram of frames is handled in three steps: the queues of the peer are
pruned, each frame is put into its place, and what that releases is dispatched
before the next frame is looked at.
-/
namespace SkinGetBE.RakNet
open Octets Text Tables

/-- The address in the format of the protocol, an IPv4 address with its bits inverted. -/
def writeRaknetIpv4 (ip : IpAddr) (port : ℕ) : Bytes :=
  0x04 :: ((match ip with
    | .v4 octets => octets.map fun b => ~~~b
    | .v6 _ => [~~~127, ~~~0, ~~~0, ~~~1]) ++ beBytes 2 port)

def connectionRequestAccepted (addr : SocketAddr) (requestTimestamp acceptedTime : ℕ) : Bytes :=
  0x10 :: (writeRaknetIpv4 addr.ip addr.port ++ (beBytes 2 0 ++
    ((List.replicate 10 (writeRaknetIpv4 (.v4 [127, 0, 0, 1]) 0)).flatten ++
      (leBytes 8 requestTimestamp ++ leBytes 8 acceptedTime))))

/-- The session of the peer exists and is connected. -/
def markConnected (s : ServerState) (addr : SocketAddr) : ServerState :=
  (s.ensureSession addr true 0).modifySession addr fun c => { c with connected := true }

def dispatchConnectionRequest (env : ServerEnv) (s : ServerState) (data : Bytes)
    (addr : SocketAddr) : ServerState :=
  let requestTimestamp := if data.length ≥ 17 then beValue ((data.drop 9).take 8) else 0
  let response := connectionRequestAccepted addr requestTimestamp (env.systemMillis s.tick)
  (sendFrame env (markConnected s.advance addr) response 3 addr).2

def connectedPong (env : ServerEnv) (timestamp : ℕ) : Bytes :=
  0x03 :: (beBytes 8 timestamp ++ beBytes 8 env.config.serverGuid)

/-- A packet of nine octets is a ping; any other is tried as the body of a batch. -/
def dispatchConnectedPing (env : ServerEnv) (s : ServerState) (data : Bytes)
    (addr : SocketAddr) : ServerState :=
  if data.length = 9 then
    (sendFrame env s (connectedPong env (beValue (data.drop 1))) 0 addr).2
  else if s.compressionEnabled addr then
    match decompressBatch env.tools.flate data true with
    | .error _ => s
    | .ok decompressed =>
      match parseBatch decompressed with
      | .ok packets => forEach (processSingleBedrockPacket env addr) s packets
      | .error _ => s
  else s

/-- A login and a request for the settings have a least size. -/
def isPlausibleFirst (packet : Bytes) : Bool :=
  match packet with
  | [] => false
  | 0x01 :: _ => packet.length ≥ 16
  | 0xC1 :: _ => packet.length ≥ 5
  | _ => true

/-- The batch is read again from a few octets further on. -/
def recoverShifted (decompressed : Bytes) : List ℕ → Option (List Bytes)
  | [] => none
  | shift :: shifts =>
    if decompressed.length ≤ shift then none
    else
      match parseBatch (decompressed.drop shift) with
      | .ok (first :: packets) =>
        if isPlausibleFirst first then some (first :: packets)
        else recoverShifted decompressed shifts
      | .ok [] => recoverShifted decompressed shifts
      | .error _ => recoverShifted decompressed shifts

def batchPackets (decompressed : Bytes) : List Bytes :=
  match parseBatch decompressed with
  | .ok (first :: packets) => first :: packets
  | .ok [] => (recoverShifted decompressed [1, 2, 3]).getD []
  | .error _ => (recoverShifted decompressed [1, 2, 3]).getD []

def dispatchBatch (env : ServerEnv) (s : ServerState) (data : Bytes) (addr : SocketAddr) :
    ServerState :=
  if data.length ≤ 1 then s
  else
    match decompressBatch env.tools.flate (data.drop 1) (s.compressionEnabled addr) with
    | .error _ => s
    | .ok decompressed =>
      forEach (processSingleBedrockPacket env addr) s (batchPackets decompressed)

def dispatchRaknetPacket (env : ServerEnv) (s : ServerState) (data : Bytes) (addr : SocketAddr) :
    ServerState :=
  match data with
  | [] => s
  | packetId :: _ =>
    if packetId = 0x09 then dispatchConnectionRequest env s data addr
    else if packetId = 0x13 then s.modifySession addr fun c => { c with connected := true }
    else if packetId = 0x15 then s.dropConnectionState addr
    else if packetId = 0x00 then dispatchConnectedPing env s data addr
    else if packetId = 0xfe then dispatchBatch env s data addr
    else s

/-- The ordered buffer of the session takes the payload and releases what is due. -/
def deliver (env : ServerEnv) (s : ServerState) (addr : SocketAddr) (payload : Bytes)
    (orderIndex orderChannel : Option ℕ) : ServerState × List Emitted :=
  let buffered := bufferOrderedPayload (s.sessionOf addr) payload orderIndex orderChannel
    (env.instant s.tick)
  ({ s.advance with connections := s.connections.insert addr.display buffered.1 }, buffered.2)

/-- A complete entry leaves the table before its payload is delivered. -/
def completeSplit (env : ServerEnv) (s : ServerState) (addr : SocketAddr) (sid : ℕ)
    (entry : SplitBuffer) : ServerState × List Emitted :=
  let full := entry.fragments.flatten
  let s := { s with
    splitBuffers := s.splitBuffers.erase (addr.display, sid)
    assembled := s.assembled ++ [⟨addr.display, sid, entry.count, full⟩] }
  deliver env s addr full entry.orderIndex entry.orderChannel

def storeFragment (env : ServerEnv) (s : ServerState) (addr : SocketAddr) (sid : ℕ)
    (entry : SplitBuffer) (idx : ℕ) (payload : Bytes) : ServerState × List Emitted :=
  if h : entry.received[idx]? = some false then
    let stored := entry.store idx payload h
    if stored.receivedCount = stored.count then completeSplit env s addr sid stored
    else ({ s with splitBuffers := s.splitBuffers.insert (addr.display, sid) stored }, [])
  else ({ s with splitBuffers := s.splitBuffers.insert (addr.display, sid) entry }, [])

def receiveSplit (env : ServerEnv) (s : ServerState) (addr : SocketAddr) (frame : RakNetFrame) :
    ServerState × List Emitted :=
  match frame.splitId with
  | none => (s, [])
  | some sid =>
    let count := frame.splitCount.getD 0
    if count = 0 then (s, [])
    else if count > maxSplitParts then (s, [])
    else
      let entry := getOr (addr.display, sid) (.new count (env.instant s.tick) frame) s.splitBuffers
      storeFragment env s.advance addr sid entry (frame.splitIndex.getD 0) frame.payload

/-- A frame up to the payloads that it releases. -/
def receiveFrame (env : ServerEnv) (s : ServerState) (addr : SocketAddr) (frame : RakNetFrame) :
    ServerState × List Emitted :=
  let s := s.ensureSession addr true 0
  if frame.isSplit then receiveSplit env s addr frame
  else deliver env s addr frame.payload frame.orderIndex frame.orderChannel

def dispatchEmitted (env : ServerEnv) (addr : SocketAddr) (s : ServerState) (e : Emitted) :
    ServerState :=
  dispatchRaknetPacket env { s with dispatched := s.dispatched ++ [⟨addr.display, e⟩] } e.payload
    addr

def handleFrame (env : ServerEnv) (addr : SocketAddr) (s : ServerState) (frame : RakNetFrame) :
    ServerState :=
  let received := receiveFrame env s addr frame
  forEach (dispatchEmitted env addr) received.1 received.2

def pruneQueues (env : ServerEnv) (s : ServerState) (addr : SocketAddr) : ServerState :=
  let s := pruneSplitBuffersForPeer env s addr
  (s.modifySession addr fun c => pruneSessionQueues c (env.instant s.tick)).advance

def ackDatagram (seq : ℕ) : Bytes :=
  0xC0 :: (beBytes 2 1 ++ (1 :: (leBytes 3 seq ++ leBytes 3 seq)))

def handleFrameSet (env : ServerEnv) (s : ServerState) (frameset : FrameSet)
    (addr : SocketAddr) : ServerState :=
  let s := forEach (handleFrame env addr) (markConnected s addr) frameset.frames
  if s.stuck then s else (s.sendTo env addr (ackDatagram frameset.seq)).2

def handleGamePacket (env : ServerEnv) (addr : SocketAddr) (s : ServerState) (data : Bytes) :
    ServerState :=
  if s.isActiveConnection addr = false then s
  else
    let s := pruneQueues env s addr
    if data.length < 4 then s
    else
      match parseFrameSet data with
      | none => { s with stuck := true }
      | some (.error _) => s
      | some (.ok frameset) => handleFrameSet env s frameset addr

/-- The frames that a datagram is read as, none when it is refused. -/
def framesOf (data : Bytes) : List RakNetFrame :=
  match parseFrameSet data with
  | some (.ok frameset) => frameset.frames
  | some (.error _) => []
  | none => []

/-- One datagram after the other from one peer. -/
def handleGamePackets (env : ServerEnv) (addr : SocketAddr) (s : ServerState)
    (datagrams : List Bytes) : ServerState :=
  forEach (handleGamePacket env addr) s datagrams

end SkinGetBE.RakNet
