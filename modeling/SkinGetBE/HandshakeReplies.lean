import SkinGetBE.ServerEffects

/-!
# What a client reads in an answer

The answers outside of a frame set, read by a client that takes them field by field.
Each is read as what it was built from: the time of the ping, the address the request
came from, and the identity and the limits of the server.
-/
namespace SkinGetBE.RakNet
open Octets Text Tables

/-- The pong, the two replies to the open-connection requests, and the acceptance. -/
inductive Answer
  | pong (time : Bytes) (guid : ℕ) (fields : List Str)
  | opened (guid mtuSize : ℕ)
  | addressed (guid : ℕ) (ip : IpAddr) (port mtuSize : ℕ)
  | accepted (ip : IpAddr) (port requestTimestamp acceptedTimestamp : ℕ)
  deriving DecidableEq

/-- The first octets and those behind them. -/
def takeField (n : ℕ) (data : Bytes) : Option (Bytes × Bytes) :=
  if n ≤ data.length then some (data.take n, data.drop n) else none

/-- A field that has to be as given. -/
def takeExactly (field data : Bytes) : Option Bytes :=
  (takeField field.length data).bind fun read => if read.1 = field then some read.2 else none

def takeNumber (n : ℕ) (data : Bytes) : Option (ℕ × Bytes) :=
  (takeField n data).map fun read => (beValue read.1, read.2)

/-- An address: a version, its octets and the port. -/
def takeAddress (data : Bytes) : Option (IpAddr × ℕ × Bytes) := do
  let (version, data) ← takeNumber 1 data
  let (octets, data) ← takeField (if version = 4 then 4 else 16) data
  let (port, data) ← takeNumber 2 data
  return (if version = 4 then .v4 octets else .v6 octets, port, data)

/-- An address of the first version, whose octets are inverted. -/
def takeInverted (data : Bytes) : Option (IpAddr × ℕ × Bytes) := do
  let data ← takeExactly [4] data
  let (octets, data) ← takeField 4 data
  let (port, data) ← takeNumber 2 data
  return (.v4 (octets.map fun b => ~~~b), port, data)

def readPong (data : Bytes) : Option Answer := do
  let (time, data) ← takeField 8 data
  let (guid, data) ← takeNumber 8 data
  let data ← takeExactly magic data
  let (size, data) ← takeNumber 2 data
  if data.length = size then (fromUtf8 data).map fun text => .pong time guid (text.splitOn ';')
  else none

def readOpened (data : Bytes) : Option Answer := do
  let data ← takeExactly magic data
  let (guid, data) ← takeNumber 8 data
  let data ← takeExactly [0] data
  let (mtuSize, data) ← takeNumber 2 data
  if data = [] then some (.opened guid mtuSize) else none

def readAddressed (data : Bytes) : Option Answer := do
  let data ← takeExactly magic data
  let (guid, data) ← takeNumber 8 data
  let (ip, port, data) ← takeAddress data
  let (mtuSize, data) ← takeNumber 2 data
  if data = [0] then some (.addressed guid ip port mtuSize) else none

/-- The ten spare addresses are passed over. -/
def readAccepted (data : Bytes) : Option Answer := do
  let (ip, port, data) ← takeInverted data
  let (_, data) ← takeField 70 data
  let (requestTimestamp, data) ← takeNumber 8 data
  let (acceptedTimestamp, data) ← takeNumber 8 data
  if data = [] then some (.accepted ip port requestTimestamp acceptedTimestamp) else none

def readAnswer (data : Bytes) : Option Answer :=
  match data with
  | [] => none
  | id :: fields =>
    if id = 0x1C then readPong fields
    else if id = 0x06 then readOpened fields
    else if id = 0x08 then readAddressed fields
    else if id = 0x10 then readAccepted fields
    else none

@[simp] theorem takeField_append {n : ℕ} {field : Bytes} (h : field.length = n) (rest : Bytes) :
    takeField n (field ++ rest) = some (field, rest) := by
  subst h
  unfold takeField
  rw [if_pos (by simp), List.take_left, List.drop_left]

@[simp] theorem takeExactly_append (field rest : Bytes) :
    takeExactly field (field ++ rest) = some rest := by
  unfold takeExactly
  rw [takeField_append rfl]
  exact if_pos rfl

theorem takeNumber_beBytes (n v : ℕ) (rest : Bytes) :
    takeNumber n (beBytes n v ++ rest) = some (v % 256 ^ n, rest) := by
  unfold takeNumber
  rw [takeField_append (beBytes_length n v)]
  simp [beValue, beBytes, leValue_leBytes]

theorem takeNumber_append {n v : ℕ} (h : v < 256 ^ n) (rest : Bytes) :
    takeNumber n (beBytes n v ++ rest) = some (v, rest) := by
  rw [takeNumber_beBytes, Nat.mod_eq_of_lt h]

theorem takeNumber_last (n v : ℕ) : takeNumber n (beBytes n v) = some (v % 256 ^ n, []) := by
  have hnothing := takeNumber_beBytes n v []
  rwa [List.append_nil] at hnothing

theorem takeNumber_cons (value : UInt8) (rest : Bytes) :
    takeNumber 1 (value :: rest) = some (value.toNat, rest) := by
  unfold takeNumber takeField
  rw [if_pos (by simp)]
  simp [beValue, leValue]

/-- An address as a socket has it. -/
structure SocketAddr.Proper (addr : SocketAddr) : Prop where
  octets : match addr.ip with
    | .v4 octets => octets.length = 4
    | .v6 octets => octets.length = 16
  port : addr.port < 2 ^ 16

theorem takeAddress_cons {version : UInt8} {octets : Bytes}
    (h : octets.length = if version.toNat = 4 then 4 else 16) {port : ℕ} (hport : port < 2 ^ 16)
    (rest : Bytes) : takeAddress (version :: (octets ++ (beBytes 2 port ++ rest))) =
      some (if version.toNat = 4 then .v4 octets else .v6 octets, port, rest) := by
  unfold takeAddress
  rw [takeNumber_cons]
  dsimp only [Option.bind_eq_bind, Option.bind_some]
  rw [takeField_append h]
  dsimp only [Option.bind_eq_bind, Option.bind_some]
  rw [takeNumber_append (n := 2) hport]
  rfl

theorem takeInverted_cons {octets : Bytes} (h : octets.length = 4) {port : ℕ}
    (hport : port < 2 ^ 16) (rest : Bytes) :
    takeInverted (4 :: (octets ++ (beBytes 2 port ++ rest))) =
      some (.v4 (octets.map fun b => ~~~b), port, rest) := by
  have hversion : ∀ data : Bytes, takeExactly [4] (4 :: data) = some data := takeExactly_append [4]
  unfold takeInverted
  rw [hversion]
  dsimp only [Option.bind_eq_bind, Option.bind_some]
  rw [takeField_append h]
  dsimp only [Option.bind_eq_bind, Option.bind_some]
  rw [takeNumber_append (n := 2) hport]
  rfl

/-- The address that the acceptance shows: another version than the first is not shown. -/
def IpAddr.shown : IpAddr → IpAddr
  | .v4 octets => .v4 octets
  | .v6 _ => .v4 [127, 0, 0, 1]

theorem takeInverted_append {addr : SocketAddr} (h : addr.Proper) (rest : Bytes) :
    takeInverted (writeRaknetIpv4 addr.ip addr.port ++ rest) =
      some (addr.ip.shown, addr.port, rest) := by
  have hoctets := h.octets
  unfold writeRaknetIpv4
  cases haddr : addr.ip with
  | v4 octets =>
    rw [haddr] at hoctets
    have hinverted : (octets.map fun b => ~~~b).length = 4 := by rw [List.length_map, hoctets]
    rw [List.cons_append, List.append_assoc, takeInverted_cons hinverted h.port]
    simp [IpAddr.shown, Function.comp_def]
  | v6 octets =>
    rw [List.cons_append, List.append_assoc, takeInverted_cons rfl h.port]
    rfl

/-- The numbers that the server announces fit their fields. -/
structure RakNetConfig.Fits (config : RakNetConfig) : Prop where
  serverGuid : config.serverGuid < 2 ^ 64
  mtuSize : config.mtuSize < 2 ^ 16
  serverPort : config.serverPort < 2 ^ 16

variable {config : RakNetConfig} {addr : SocketAddr}

theorem readAnswer_openConnectionReply1 (h : config.Fits) :
    readAnswer (openConnectionReply1 config) = some (.opened config.serverGuid config.mtuSize) := by
  have hguid : ∀ rest, takeNumber 8 (beBytes 8 config.serverGuid ++ rest) =
      some (config.serverGuid, rest) := takeNumber_append h.serverGuid
  have hmtu : takeNumber 2 (beBytes 2 config.mtuSize) = some (config.mtuSize, []) := by
    rw [takeNumber_last, Nat.mod_eq_of_lt (show config.mtuSize < 256 ^ 2 from h.mtuSize)]
  have hsecurity : ∀ data : Bytes, takeExactly [0] (0 :: data) = some data :=
    takeExactly_append [0]
  unfold openConnectionReply1 readAnswer readOpened
  simp [hguid, hsecurity, hmtu]

theorem readAnswer_openConnectionReply2 (h : config.Fits) (haddr : addr.Proper) :
    readAnswer (openConnectionReply2 config addr) =
      some (.addressed config.serverGuid addr.ip addr.port config.mtuSize) := by
  have hguid : ∀ rest, takeNumber 8 (beBytes 8 config.serverGuid ++ rest) =
      some (config.serverGuid, rest) := takeNumber_append h.serverGuid
  have hmtu : ∀ rest, takeNumber 2 (beBytes 2 config.mtuSize ++ rest) =
      some (config.mtuSize, rest) := takeNumber_append h.mtuSize
  unfold openConnectionReply2 readAnswer readAddressed
  dsimp only
  rw [if_neg (by decide), if_neg (by decide), if_pos rfl, takeExactly_append,
    Option.bind_eq_bind, Option.bind_some, hguid]
  dsimp only [Option.bind_eq_bind, Option.bind_some]
  have hoctets := haddr.octets
  cases hip : addr.ip with
  | v4 octets =>
    rw [hip] at hoctets
    dsimp only [List.cons_append]
    rw [takeAddress_cons hoctets haddr.port]
    dsimp only [Option.bind_eq_bind, Option.bind_some]
    rw [hmtu]
    rfl
  | v6 octets =>
    rw [hip] at hoctets
    dsimp only [List.cons_append]
    rw [takeAddress_cons hoctets haddr.port]
    dsimp only [Option.bind_eq_bind, Option.bind_some]
    rw [hmtu]
    rfl

theorem readAnswer_connectionRequestReply (haddr : addr.Proper)
    (requestTimestamp acceptedTimestamp : ℕ) :
    readAnswer (connectionRequestReply addr requestTimestamp acceptedTimestamp) =
      some (.accepted addr.ip.shown addr.port (requestTimestamp % 2 ^ 64)
        (acceptedTimestamp % 2 ^ 64)) := by
  have hspare : (List.replicate 10 (writeRaknetIpv4 (.v4 [0, 0, 0, 0]) 0)).flatten.length = 70 := by
    decide
  unfold connectionRequestReply readAnswer readAccepted
  dsimp only
  rw [if_neg (by decide), if_neg (by decide), if_neg (by decide), if_pos rfl,
    takeInverted_append haddr]
  dsimp only [Option.bind_eq_bind, Option.bind_some]
  rw [takeField_append hspare]
  dsimp only [Option.bind_eq_bind, Option.bind_some]
  rw [takeNumber_beBytes]
  dsimp only [Option.bind_eq_bind, Option.bind_some]
  rw [takeNumber_last]
  rfl

/-- The fields of the text of a pong; it ends in a separator. -/
def motdFields (config : RakNetConfig) (seconds protocol : ℕ) (version : Str) : List Str :=
  let port := Nat.toDigits 10 config.serverPort
  let guid := Nat.toDigits 10 config.serverGuid
  ["MCPE".toList, motdTitle seconds, Nat.toDigits 10 protocol, version, ['0'], "100".toList, guid,
    guid, "Creative".toList, ['1'], port, port, []]

/-- A protocol of 16 bits and a version that is a short field of the text. -/
structure Tells (protocol : ℕ) (version : Str) : Prop where
  protocol : protocol < 2 ^ 16
  short : byteLen version ≤ 2 ^ 15
  field : ';' ∉ version

theorem motdTitle_mem (seconds : ℕ) : motdTitle seconds ∈
    ["Skin acquisition software!!".toList, "SkinGetBE".toList,
      "Created by androidprod".toList] := by
  unfold motdTitle
  split
  · simp
  · simp
  · simp

theorem separator_toDigits (n : ℕ) : ';' ∉ Nat.toDigits 10 n := by
  intro h
  have := Nat.isDigit_of_mem_toDigits (by decide) (by decide) h
  revert this
  decide

theorem separator_motdFields {protocol : ℕ} {version : Str} (h : ';' ∉ version) (seconds : ℕ) :
    ∀ field ∈ motdFields config seconds protocol version, ';' ∉ field := by
  have htitle : ∀ title ∈ ["Skin acquisition software!!".toList, "SkinGetBE".toList,
      "Created by androidprod".toList], ';' ∉ title := by decide
  unfold motdFields
  simp only [List.forall_mem_cons]
  refine ⟨by decide, htitle _ (motdTitle_mem seconds), separator_toDigits _, h, by decide,
    by decide, separator_toDigits _, separator_toDigits _, by decide, by decide,
    separator_toDigits _, separator_toDigits _, List.not_mem_nil, ?_⟩
  exact fun field hfield => absurd hfield List.not_mem_nil

theorem motd_eq_intercalate (config : RakNetConfig) (seconds protocol : ℕ) (version : Str) :
    motd config seconds protocol version =
      [';'].intercalate (motdFields config seconds protocol version) := by
  have hstart : "MCPE;".toList = "MCPE".toList ++ [';'] := rfl
  have hcount : ";0;100;".toList = [';', '0', ';'] ++ "100".toList ++ [';'] := rfl
  have hmode : ";Creative;1;".toList = [';'] ++ "Creative".toList ++ [';', '1', ';'] := rfl
  have hone : ";".toList = [';'] := rfl
  unfold motd motdFields
  dsimp only
  rw [hstart, hcount, hmode, hone]
  simp only [List.intercalate, List.intersperse_cons_cons, List.intersperse_singleton,
    List.flatten_cons, List.flatten_nil, List.append_assoc, List.cons_append, List.nil_append,
    List.append_nil]

theorem motd_fields {protocol : ℕ} {version : Str} (h : ';' ∉ version) (seconds : ℕ) :
    (motd config seconds protocol version).splitOn ';' =
      motdFields config seconds protocol version := by
  rw [motd_eq_intercalate]
  exact List.splitOn_intercalate _ (separator_motdFields h seconds) (List.cons_ne_nil _ _)

theorem byteLen_toDigits {n k : ℕ} (hk : 0 < k) (h : n < 10 ^ k) :
    byteLen (Nat.toDigits 10 n) ≤ k := by
  have hone : ∀ c ∈ Nat.toDigits 10 n, c.utf8Size = 1 := by
    intro c hc
    have hdigit := Nat.isDigit_of_mem_toDigits (by decide) (by decide) hc
    simp only [Char.isDigit, Bool.and_eq_true, decide_eq_true_eq] at hdigit
    have hnine : '9'.val ≤ 127 := by decide
    exact Char.utf8Size_eq_one_iff.mpr (UInt32.le_trans hdigit.2 hnine)
  rw [byteLen_eq_length hone]
  exact (Nat.length_toDigits_le_iff (by decide) hk).mpr h

/-- The length field of the pong holds the length of its text. -/
theorem motd_short (h : config.Fits) {protocol : ℕ} {version : Str} (ht : Tells protocol version)
    (seconds : ℕ) : (asBytes (motd config seconds protocol version)).length < 2 ^ 16 := by
  have hport := byteLen_toDigits (k := 5) (by decide) (h.serverPort.trans (by decide))
  have hguid := byteLen_toDigits (k := 20) (by decide) (h.serverGuid.trans (by decide))
  have hprotocol := byteLen_toDigits (k := 5) (by decide) (ht.protocol.trans (by decide))
  have htitles : ∀ title ∈ ["Skin acquisition software!!".toList, "SkinGetBE".toList,
      "Created by androidprod".toList], byteLen title ≤ 27 := by decide
  have htitle := htitles _ (motdTitle_mem seconds)
  have hversion := ht.short
  have hstart : byteLen "MCPE;".toList = 5 := by decide
  have hcount : byteLen ";0;100;".toList = 7 := by decide
  have hmode : byteLen ";Creative;1;".toList = 12 := by decide
  have hone : byteLen ";".toList = 1 := by decide
  rw [asBytes_length]
  unfold motd
  simp only [byteLen_append, hstart, hcount, hmode, hone]
  omega

theorem readAnswer_unconnectedPong (h : config.Fits) {time : Bytes} (htime : time.length = 8)
    {protocol : ℕ} {version : Str} (ht : Tells protocol version) (seconds : ℕ) :
    readAnswer (unconnectedPong config time (motd config seconds protocol version)) =
      some (.pong time config.serverGuid (motdFields config seconds protocol version)) := by
  have hshort := motd_short h ht seconds
  unfold unconnectedPong readAnswer readPong
  dsimp only
  rw [if_pos rfl, takeField_append htime]
  dsimp only [Option.bind_eq_bind, Option.bind_some]
  rw [takeNumber_append (n := 8) h.serverGuid]
  dsimp only [Option.bind_eq_bind, Option.bind_some]
  rw [takeExactly_append]
  dsimp only [Option.bind_eq_bind, Option.bind_some]
  rw [Nat.mod_eq_of_lt hshort, takeNumber_append (n := 2) hshort]
  dsimp only [Option.bind_eq_bind, Option.bind_some]
  rw [if_pos rfl, fromUtf8_asBytes, Option.map_some, motd_fields ht.field]

end SkinGetBE.RakNet
