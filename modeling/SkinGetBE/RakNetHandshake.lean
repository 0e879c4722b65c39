import SkinGetBE.RakNetServer

/-!
# The handshake, acknowledgements and resending

Datagrams outside of a frame set: pings, the open-connection requests, and the
ranges that a peer acknowledges or asks for again. The worker that resends what
stays unacknowledged acts on every session.
-/
namespace SkinGetBE.RakNet
open Octets Text Tables

def magic : Bytes :=
  [0x00, 0xff, 0xff, 0x00, 0xfe, 0xfe, 0xfe, 0xfe, 0xfd, 0xfd, 0xfd, 0xfd, 0x12, 0x34, 0x56, 0x78]

/-- A triad; what cannot be read counts as zero. -/
def readTriad (buf : Buffer) : ℕ × Buffer :=
  let read := buf.readU24Le
  (match read.1 with
    | .ok v => v
    | .error _ => 0, read.2)

/-- The sequence numbers of `start..=stop`. -/
def sequenceRange (start stop : ℕ) : List ℕ := List.range' start (stop + 1 - start)

/-- The number of ranges of an acknowledgement and the buffer behind it. -/
def readSegmentCount (data : Bytes) : ℕ × Buffer :=
  let count := (Buffer.ofBytes data).readU8.2.readU16
  (match count.1 with
    | .ok v => v
    | .error _ => 0, count.2.readU8.2)

def smoothRtt (smoothed : Option ℕ) (rtt : ℕ) : ℕ :=
  match smoothed with
  | some prev => if rtt ≥ prev then prev + (rtt - prev) / 8 else prev - (prev - rtt) / 8
  | none => rtt

def growWindow (session : ClientSession) (sizeBytes : ℕ) : ℕ :=
  if session.congestionWindowBytes < session.slowStartThresholdBytes then
    saturatingSum session.congestionWindowBytes (max sizeBytes 1)
  else saturatingSum session.congestionWindowBytes (max (max sizeBytes 1 / 2) 1)

/-- The entry leaves the table, and its octets are no longer in flight. -/
def ClientSession.acknowledge (now : ℕ) (session : ClientSession) (seq : ℕ) : ClientSession :=
  match session.pendingMessages.lookup seq with
  | none => session
  | some msg =>
    let smoothed := smoothRtt session.smoothedRtt (now - msg.lastSent)
    { session with
      pendingMessages := session.pendingMessages.erase seq
      inFlightBytes := session.inFlightBytes - msg.sizeBytes
      smoothedRtt := some smoothed
      retransmitTimeout :=
        min (max (min (smoothed * 2) durationMax) (millis 150)) (millis 2000)
      congestionWindowBytes := growWindow session msg.sizeBytes }

def acknowledgeSegments (now : ℕ) (addr : SocketAddr) : ℕ → Buffer → ServerState → ServerState
  | 0, _, s => s
  | left + 1, buf, s =>
    let start := readTriad buf
    let stop := readTriad start.2
    acknowledgeSegments now addr left stop.2 (s.modifySession addr fun c =>
      (sequenceRange start.1 stop.1).foldl (ClientSession.acknowledge now) c)

def handleAckPacket (env : ServerEnv) (addr : SocketAddr) (s : ServerState) (data : Bytes) :
    ServerState :=
  let segments := readSegmentCount data
  acknowledgeSegments (env.instant s.tick) addr segments.1 segments.2 s.advance

/-- One more attempt is noted, and the sender slows down. -/
def ClientSession.resend (now : ℕ) (session : ClientSession) (seq : ℕ) (msg : PendingMessage) :
    ClientSession :=
  let threshold := max (session.congestionWindowBytes / 2) 1024
  { session with
    pendingMessages := session.pendingMessages.insert seq
      { msg with attempts := min (msg.attempts + 1) (2 ^ 32 - 1), lastSent := now }
    slowStartThresholdBytes := threshold
    congestionWindowBytes := max threshold 1024
    retransmitTimeout := min (session.retransmitTimeout * 2) (millis 2000) }

namespace ServerState

def pendingOf (s : ServerState) (addr : SocketAddr) (seq : ℕ) : Option PendingMessage :=
  match s.session addr with
  | some session => session.pendingMessages.lookup seq
  | none => none

/-- The submissions of a loop that ignores what the socket answers. -/
def sendAll (env : ServerEnv) (s : ServerState) : List (SocketAddr × Bytes) → ServerState
  | [] => s
  | (dest, frame) :: rest => (s.sendTo env dest frame).2.sendAll env rest

end ServerState

/-- A requested number, with the frames that are collected for it. -/
def nackSequence (env : ServerEnv) (addr : SocketAddr)
    (collected : ServerState × List (SocketAddr × Bytes)) (seq : ℕ) :
    ServerState × List (SocketAddr × Bytes) :=
  match collected.1.pendingOf addr seq with
  | none => collected
  | some msg =>
    let now := env.instant collected.1.tick
    ((collected.1.modifySession addr fun c => c.resend now seq msg).advance,
      collected.2 ++ [(addr, msg.frame)])

def nackSegments (env : ServerEnv) (addr : SocketAddr) :
    ℕ → Buffer → ServerState × List (SocketAddr × Bytes) → ServerState × List (SocketAddr × Bytes)
  | 0, _, collected => collected
  | left + 1, buf, collected =>
    let start := readTriad buf
    let stop := readTriad start.2
    nackSegments env addr left stop.2
      ((sequenceRange start.1 stop.1).foldl (nackSequence env addr) collected)

def handleNackPacket (env : ServerEnv) (addr : SocketAddr) (s : ServerState) (data : Bytes) :
    ServerState :=
  let segments := readSegmentCount data
  let collected := nackSegments env addr segments.1 segments.2 (s, [])
  collected.1.sendAll env collected.2

/-- The numbers that have waited longer than the timeout and may be tried again. -/
def dueKeys (now : ℕ) (session : ClientSession) : List ℕ :=
  (session.pendingMessages.entries.filter fun e =>
    now - e.2.lastSent > session.retransmitTimeout && e.2.attempts < 5).map fun e => e.1

def resendKey (now : ℕ) (collected : ClientSession × List Bytes) (seq : ℕ) :
    ClientSession × List Bytes :=
  match collected.1.pendingMessages.lookup seq with
  | none => collected
  | some msg => (collected.1.resend now seq msg, collected.2 ++ [msg.frame])

def resendDue (now : ℕ) (session : ClientSession) : ClientSession × List Bytes :=
  (dueKeys now session).foldl (resendKey now) (session, [])

/-- One round of the background worker. A key that is no address is passed over. -/
def resendRound (env : ServerEnv) (parse : Str → Option SocketAddr) (s : ServerState) :
    ServerState :=
  let now := env.instant s.tick
  let due := s.connections.entries.flatMap fun e =>
    match parse e.1 with
    | some addr => (resendDue now e.2).2.map fun frame => (addr, frame)
    | none => []
  let sessions := filterMap (fun key session =>
    some (match parse key with
      | some _ => (resendDue now session).1
      | none => session)) s.connections
  { s.advance with connections := sessions }.sendAll env due

def motdTitle (seconds : ℕ) : Str :=
  match seconds / 5 % 3 with
  | 0 => "Skin acquisition software!!".toList
  | 1 => "SkinGetBE".toList
  | _ => "Created by androidprod".toList

/-- The text of a pong, with the protocol and the version that it advertises. -/
def motd (config : RakNetConfig) (seconds protocol : ℕ) (version : Str) : Str :=
  let port := Nat.toDigits 10 config.serverPort
  let guid := Nat.toDigits 10 config.serverGuid
  "MCPE;".toList ++ motdTitle seconds ++ ";".toList ++ Nat.toDigits 10 protocol ++ ";".toList ++
    version ++ ";0;100;".toList ++ guid ++ ";".toList ++ guid ++ ";Creative;1;".toList ++ port ++
    ";".toList ++ port ++ ";".toList

def unconnectedPong (config : RakNetConfig) (time : Bytes) (text : Str) : Bytes :=
  0x1C :: (time ++ (beBytes 8 config.serverGuid ++ (magic ++
    (beBytes 2 ((asBytes text).length % 2 ^ 16) ++ asBytes text))))

/-- The protocol and the version that a peer is told. -/
def ServerState.advertised (s : ServerState) (addr : SocketAddr) : ℕ × Str :=
  match s.session addr with
  | some session => (session.bedrockProtocol, session.bedrockVersion)
  | none => (s.runtimeProtocolVersion, s.runtimeVersion)

def handleUnconnectedPing (env : ServerEnv) (addr : SocketAddr) (s : ServerState) (data : Bytes) :
    Except Error Unit × ServerState :=
  if data.length < 25 then (.error (.protocolError "Ping packet too short"), s)
  else
    let told := s.advertised addr
    let text := motd env.config (env.systemMillis s.tick / 1000) told.1 told.2
    s.advance.sendTo env addr (unconnectedPong env.config ((data.drop 1).take 8) text)

/-- The octet behind the packet id and the magic. -/
def extractOpenConnectionProtocol (data : Bytes) : Option ℕ :=
  data[1 + magic.length]?.map UInt8.toNat

def openConnectionReply1 (config : RakNetConfig) : Bytes :=
  0x06 :: (magic ++ (beBytes 8 config.serverGuid ++ (0 :: beBytes 2 config.mtuSize)))

def handleOpenConnectionRequest1 (env : ServerEnv) (addr : SocketAddr) (s : ServerState)
    (data : Bytes) : Except Error Unit × ServerState :=
  if data.length < 17 then (.error (.protocolError "OCR1 packet too short"), s)
  else
    let opened := match extractOpenConnectionProtocol data with
      | some protocol => (s.ensureSession addr false protocol).modifySession addr fun c =>
          { c with raknetProtocol := protocol }
      | none => s
    opened.sendTo env addr (openConnectionReply1 env.config)

def openConnectionReply2 (config : RakNetConfig) (addr : SocketAddr) : Bytes :=
  0x08 :: (magic ++ (beBytes 8 config.serverGuid ++ ((match addr.ip with
    | .v4 octets => 0x04 :: octets
    | .v6 octets => 0x06 :: octets) ++ (beBytes 2 addr.port ++ (beBytes 2 config.mtuSize ++ [0])))))

def handleOpenConnectionRequest2 (env : ServerEnv) (addr : SocketAddr) (s : ServerState)
    (data : Bytes) : Except Error Unit × ServerState :=
  if data.length < 19 then (.error (.protocolError "OCR2 packet too short"), s)
  else s.sendTo env addr (openConnectionReply2 env.config addr)

/-- The answer outside of a frame; its ten spare addresses are inverted zeros. -/
def connectionRequestReply (addr : SocketAddr) (requestTimestamp acceptedTimestamp : ℕ) : Bytes :=
  0x10 :: (writeRaknetIpv4 addr.ip addr.port ++
    ((List.replicate 10 (writeRaknetIpv4 (.v4 [0, 0, 0, 0]) 0)).flatten ++
      (beBytes 8 requestTimestamp ++ beBytes 8 acceptedTimestamp)))

def handleConnectionRequest (env : ServerEnv) (addr : SocketAddr) (s : ServerState)
    (data : Bytes) : Except Error Unit × ServerState :=
  let requestTimestamp := if data.length ≥ 17 then beValue ((data.drop 9).take 8) else 0
  let reply := connectionRequestReply addr requestTimestamp (env.systemMillis s.tick)
  (s.advance.ensureSession addr true 0).sendTo env addr reply

def isFrameSetId (id : UInt8) : Bool := 0x80 ≤ id && id ≤ 0x8d

def handlePacket (env : ServerEnv) (addr : SocketAddr) (s : ServerState) (data : Bytes) :
    Except Error Unit × ServerState :=
  match data with
  | [] => (.error (.invalidData "Empty packet"), s)
  | packetId :: _ =>
    if packetId = 0x01 then handleUnconnectedPing env addr s data
    else if packetId = 0x05 then handleOpenConnectionRequest1 env addr s data
    else if packetId = 0x07 then handleOpenConnectionRequest2 env addr s data
    else if packetId = 0x09 then handleConnectionRequest env addr s data
    else if isFrameSetId packetId then (.ok (), handleGamePacket env addr s data)
    else if packetId = 0xC0 then (.ok (), handleAckPacket env addr s data)
    else if packetId = 0xA0 then (.ok (), handleNackPacket env addr s data)
    else (.ok (), s)

end SkinGetBE.RakNet
