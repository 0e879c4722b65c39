import SkinGetBE.Packages
import SkinGetBE.RakNetProtocol
import SkinGetBE.Tables
import SkinGetBE.Versions

/-!
# Sessions of the RakNet server

The state of the server and the operations on its tables. Everything outside of
the program is read through an environment: the clock in nanoseconds, random
numbers and the socket, each answer selected by a counter of the state. The
state also lists what was submitted to the socket, what was reassembled and what
was handed to the dispatcher.
-/
namespace SkinGetBE.RakNet
open Octets Text Tables

inductive IpAddr
  | v4 (octets : Bytes)
  | v6 (octets : Bytes)
  deriving DecidableEq, Repr

/-- A peer address; `display` is the text that the tables are keyed by. -/
structure SocketAddr where
  display : Str
  ip : IpAddr
  port : ℕ
  deriving DecidableEq

structure RakNetConfig where
  serverGuid : ℕ
  protocolVersion : ℕ
  mtuSize : ℕ
  serverPort : ℕ
  version : Str
  savemode : ℕ

/-- Each field after the first six answers the reading with the given number. -/
structure ServerEnv where
  config : RakNetConfig
  engines : Base64Engines
  tools : CaptureTools
  baseDir : Str
  fallbackVersion : Str
  instant : ℕ → ℕ
  systemMillis : ℕ → ℕ
  random : ℕ → ℕ
  sendFails : ℕ → Option String

/-- An environment in which nothing fails and a reading takes one nanosecond. The
compression package stores what it is given. -/
def ServerEnv.quiet (mtuSize : ℕ) : ServerEnv where
  config := ⟨0x1234567812345678, 924, mtuSize, 19132, "1.26.0".toList, 2⟩
  engines := strictEngines
  tools := sampleTools
  baseDir := []
  fallbackVersion := []
  instant n := n
  systemMillis n := n
  random n := n
  sendFails _ := none

def millis (n : ℕ) : ℕ := n * 10 ^ 6

/-- The sum of two 64-bit words; it stays at the greatest one. -/
def saturatingSum (a b : ℕ) : ℕ := min (a + b) (2 ^ 64 - 1)

/-- The longest duration, in nanoseconds. -/
def durationMax : ℕ := 2 ^ 64 * 10 ^ 9 - 1

def maxSplitParts : ℕ := 512

def sessionQueueTtl : ℕ := millis (30 * 1000)

/-- The reassembly of one split message. The counter is the number of the flags that are set. -/
structure SplitBuffer where
  count : ℕ
  receivedCount : ℕ
  createdAt : ℕ
  fragments : List Bytes
  received : List Bool
  reliability : ℕ
  orderIndex : Option ℕ
  orderChannel : Option ℕ
  fragments_length : fragments.length = count
  received_length : received.length = count
  counted : receivedCount = received.count true

/-- A buffer for `count` fragments, with what its first frame says about the order. -/
def SplitBuffer.new (count createdAt : ℕ) (frame : RakNetFrame) : SplitBuffer where
  count := count
  receivedCount := 0
  createdAt := createdAt
  fragments := List.replicate count []
  received := List.replicate count false
  reliability := frame.reliability
  orderIndex := frame.orderIndex
  orderChannel := frame.orderChannel
  fragments_length := List.length_replicate
  received_length := List.length_replicate
  counted := by simp [List.count_replicate]

/-- A fragment that had not been received is stored, flagged and counted. -/
def SplitBuffer.store (entry : SplitBuffer) (idx : ℕ) (payload : Bytes)
    (h : entry.received[idx]? = some false) : SplitBuffer :=
  { entry with
    fragments := entry.fragments.set idx payload
    received := entry.received.set idx true
    receivedCount := entry.receivedCount + 1
    fragments_length := by rw [List.length_set, entry.fragments_length]
    received_length := by rw [List.length_set, entry.received_length]
    counted := by
      obtain ⟨hlt, hget⟩ := List.getElem?_eq_some_iff.mp h
      rw [List.count_set hlt, entry.counted, hget]
      simp }

structure OrderedChannel where
  nextIndex : ℕ
  buffer : Table ℕ (Bytes × ℕ)

structure PendingMessage where
  frame : Bytes
  sizeBytes : ℕ
  lastSent : ℕ
  attempts : ℕ

structure ClientSession where
  connected : Bool
  packetSeq : ℕ
  reliableSeq : ℕ
  orderIndex : ℕ
  raknetProtocol : ℕ
  bedrockProtocol : ℕ
  bedrockVersion : Str
  smoothedRtt : Option ℕ
  retransmitTimeout : ℕ
  congestionWindowBytes : ℕ
  slowStartThresholdBytes : ℕ
  inFlightBytes : ℕ
  compressionEnabled : Bool
  compressionAlgo : Option ℕ
  username : Option Str
  skinPath : Option Str
  orderedChannels : Table ℕ OrderedChannel
  pendingMessages : Table ℕ PendingMessage

def ClientSession.new (connected : Bool) (raknetProtocol bedrockProtocol : ℕ)
    (bedrockVersion : Str) : ClientSession where
  connected := connected
  packetSeq := 1
  reliableSeq := 0
  orderIndex := 0
  raknetProtocol := raknetProtocol
  bedrockProtocol := bedrockProtocol
  bedrockVersion := bedrockVersion
  smoothedRtt := none
  retransmitTimeout := millis 300
  congestionWindowBytes := 16 * 1024
  slowStartThresholdBytes := 64 * 1024
  inFlightBytes := 0
  compressionEnabled := false
  compressionAlgo := none
  username := none
  skinPath := none
  orderedChannels := ∅
  pendingMessages := ∅

/-- A payload on its way to the dispatcher, with the channel and the index under
which it was buffered. -/
structure Emitted where
  order : Option (ℕ × ℕ)
  payload : Bytes
  deriving DecidableEq, Repr

structure Dispatch where
  peer : Str
  emitted : Emitted
  deriving DecidableEq

/-- A message put together from its fragments. -/
structure Assembly where
  peer : Str
  splitId : ℕ
  count : ℕ
  payload : Bytes
  deriving DecidableEq

/-- `stuck` is a call that panicked or does not return. -/
structure ServerState where
  connections : Table Str ClientSession
  splitBuffers : Table (Str × ℕ) SplitBuffer
  runtimeProtocolVersion : ℕ
  runtimeVersion : Str
  fs : FileSystem
  stuck : Bool
  tick : ℕ
  sent : List (SocketAddr × Bytes)
  assembled : List Assembly
  dispatched : List Dispatch

def ServerState.new (config : RakNetConfig) (fs : FileSystem) : ServerState :=
  ⟨∅, ∅, config.protocolVersion, config.version, fs, false, 0, [], [], []⟩

namespace ServerState

def advance (s : ServerState) : ServerState := { s with tick := s.tick + 1 }

def createSession (s : ServerState) (connected : Bool) (raknetProtocol : ℕ) : ClientSession :=
  .new connected raknetProtocol s.runtimeProtocolVersion s.runtimeVersion

def session (s : ServerState) (addr : SocketAddr) : Option ClientSession :=
  s.connections.lookup addr.display

/-- The session of `addr`, or the one that would be made for it. -/
def sessionOf (s : ServerState) (addr : SocketAddr) : ClientSession :=
  getOr addr.display (s.createSession true 0) s.connections

/-- The session of `addr`, made when it is missing. -/
def ensureSession (s : ServerState) (addr : SocketAddr) (connected : Bool)
    (raknetProtocol : ℕ) : ServerState :=
  { s with connections :=
      orInsert addr.display (s.createSession connected raknetProtocol) s.connections }

/-- `get_mut` and a change of what it finds. -/
def modifySession (s : ServerState) (addr : SocketAddr) (f : ClientSession → ClientSession) :
    ServerState :=
  { s with connections := modify addr.display f s.connections }

def isActiveConnection (s : ServerState) (addr : SocketAddr) : Bool := (s.session addr).isSome

def compressionEnabled (s : ServerState) (addr : SocketAddr) : Bool :=
  match s.session addr with
  | some session => session.compressionEnabled
  | none => false

/-- Both tables lose what they hold for the peer. -/
def dropConnectionState (s : ServerState) (addr : SocketAddr) : ServerState :=
  { s with
    connections := s.connections.erase addr.display
    splitBuffers := retain (fun key _ => key.1 != addr.display) s.splitBuffers }

/-- The key is the text of an address, so it reads back as that address. -/
def removeConnection (s : ServerState) (addr : SocketAddr) : ServerState :=
  s.dropConnectionState addr

end ServerState

/-- `duration_since` is zero for a later instant. -/
def isFresh (now since : ℕ) : Bool := now - since ≤ sessionQueueTtl

def pruneSplitBuffersForPeer (env : ServerEnv) (s : ServerState) (addr : SocketAddr) :
    ServerState :=
  { s.advance with
    splitBuffers := retain (fun key split =>
      key.1 != addr.display || isFresh (env.instant s.tick) split.createdAt) s.splitBuffers }

/-- A channel whose buffer is empty is dropped, with the index it had reached. -/
def pruneChannel (now : ℕ) (channel : OrderedChannel) : Option OrderedChannel :=
  let buffer := retain (fun _ entry => isFresh now entry.2) channel.buffer
  if size buffer = 0 then none else some { channel with buffer := buffer }

def pruneSessionQueues (session : ClientSession) (now : ℕ) : ClientSession :=
  { session with
    orderedChannels := filterMap (fun _ channel => pruneChannel now channel)
      session.orderedChannels
    pendingMessages := retain (fun _ pending => isFresh now pending.lastSent)
      session.pendingMessages }

/-- Release of what is contiguous from the next index on. A round takes one entry
out of the buffer, so its size is a sufficient budget. -/
def flushChannel : ℕ → OrderedChannel → OrderedChannel × List (ℕ × Bytes)
  | 0, channel => (channel, [])
  | fuel + 1, channel =>
    match channel.buffer.lookup channel.nextIndex with
    | none => (channel, [])
    | some (p, _) =>
      let rest := flushChannel fuel
        ⟨(channel.nextIndex + 1) % 2 ^ 32, channel.buffer.erase channel.nextIndex⟩
      (rest.1, (channel.nextIndex, p) :: rest.2)

/-- A channel that holds nothing else and has not begun adopts the index. -/
def insertOrdered (channel : OrderedChannel) (idx : ℕ) (payload : Bytes) (now : ℕ) :
    OrderedChannel :=
  let buffer := channel.buffer.insert idx (payload, now)
  ⟨if size buffer = 1 ∧ channel.nextIndex = 0 then idx else channel.nextIndex, buffer⟩

def bufferOrderedPayload (session : ClientSession) (payload : Bytes) (orderIndex : Option ℕ)
    (orderChannel : Option ℕ) (now : ℕ) : ClientSession × List Emitted :=
  match orderIndex with
  | none => (session, [⟨none, payload⟩])
  | some idx =>
    let ch := orderChannel.getD 0
    let channel := insertOrdered (getOr ch ⟨0, ∅⟩ session.orderedChannels) idx payload now
    let flushed := flushChannel (size channel.buffer) channel
    ({ session with orderedChannels := session.orderedChannels.insert ch flushed.1 },
      flushed.2.map fun e => ⟨some (ch, e.1), e.2⟩)

namespace ServerState

/-- The ordered channels of a peer, none without a session. -/
def channels (s : ServerState) (peer : Str) : Table ℕ OrderedChannel :=
  match s.connections.lookup peer with
  | some session => session.orderedChannels
  | none => ∅

theorem channels_eq {s : ServerState} {peer : Str} {session : ClientSession}
    (h : s.connections.lookup peer = some session) : s.channels peer = session.orderedChannels := by
  unfold channels
  rw [h]

theorem channels_eq_empty {s : ServerState} {peer : Str} (h : s.connections.lookup peer = none) :
    s.channels peer = ∅ := by
  unfold channels
  rw [h]

theorem channels_sessionOf (s : ServerState) (addr : SocketAddr) :
    (s.sessionOf addr).orderedChannels = s.channels addr.display := by
  unfold sessionOf channels getOr
  cases s.connections.lookup addr.display with
  | some session => rfl
  | none => rfl

theorem isActiveConnection_iff {s : ServerState} {addr : SocketAddr} :
    s.isActiveConnection addr = true ↔ (s.connections.lookup addr.display).isSome := Iff.rfl

theorem lookup_ensureSession (s : ServerState) (addr : SocketAddr) (connected : Bool) (proto : ℕ)
    (peer : Str) : (s.ensureSession addr connected proto).connections.lookup peer =
      if peer = addr.display then
        some (getOr addr.display (s.createSession connected proto) s.connections)
      else s.connections.lookup peer :=
  lookup_orInsert _ _ _ _

theorem lookup_modifySession (s : ServerState) (addr : SocketAddr)
    (f : ClientSession → ClientSession) (peer : Str) :
    (s.modifySession addr f).connections.lookup peer =
      if peer = addr.display then (s.connections.lookup addr.display).map f
      else s.connections.lookup peer :=
  lookup_modify _ _ _ _

theorem ensureSession_eq_self {s : ServerState} {addr : SocketAddr} {connected : Bool} {proto : ℕ}
    (h : s.isActiveConnection addr) : s.ensureSession addr connected proto = s := by
  unfold ensureSession orInsert
  rw [if_pos (isActiveConnection_iff.mp h)]

/-- A session that had to be made has no channels yet. -/
theorem channels_ensureSession (s : ServerState) (addr : SocketAddr) (connected : Bool)
    (proto : ℕ) (peer : Str) :
    (s.ensureSession addr connected proto).channels peer = s.channels peer := by
  unfold channels
  rw [lookup_ensureSession]
  by_cases h : peer = addr.display
  · rw [if_pos h, h]
    unfold getOr
    cases s.connections.lookup addr.display with
    | some session => rfl
    | none => rfl
  · rw [if_neg h]

/-- A change that spares the channels. -/
theorem channels_modifySession (s : ServerState) (addr : SocketAddr)
    {f : ClientSession → ClientSession} (hf : ∀ c, (f c).orderedChannels = c.orderedChannels)
    (peer : Str) : (s.modifySession addr f).channels peer = s.channels peer := by
  unfold channels
  rw [lookup_modifySession]
  by_cases h : peer = addr.display
  · rw [if_pos h, h]
    cases s.connections.lookup addr.display with
    | some session => exact hf session
    | none => rfl
  · rw [if_neg h]

end ServerState

end SkinGetBE.RakNet
