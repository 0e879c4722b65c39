import SkinGetBE.RakNetBedrock

/-!
# The fallback for a login without a known layout

The server tries an older layout when the parser has failed, on the buffer from
which the parser took all that was left. As in the JWT module, a result `none`
of a function that slices text is a panic.
-/
namespace SkinGetBE
open Octets Text

/-- `left` tokens behind their lengths; a text that does not decode is passed over. A buffer
that ends before the last token has no value. -/
def readLegacyTokens (engines : Base64Engines) :
    ℕ → Buffer → List Str → Option (Option (List Str × Buffer))
  | 0, buf, jwtPayloads => some (some (jwtPayloads, buf))
  | left + 1, buf, jwtPayloads =>
    match buf.readVarInt with
    | (.error _, _) => some none
    | (.ok len, buf) =>
      match buf.readBytes len with
      | (.error _, _) => some none
      | (.ok tokenBytes, buf) =>
        match fromUtf8 tokenBytes with
        | none => readLegacyTokens engines left buf jwtPayloads
        | some tokenStr => do
          match ← JWT.getPayload engines tokenStr with
          | .ok payloadJson => readLegacyTokens engines left buf (jwtPayloads ++ [payloadJson])
          | .error _ => readLegacyTokens engines left buf jwtPayloads

def readClientData (buf : Buffer) : Option Str :=
  match buf.readVarInt with
  | (.error _, _) => none
  | (.ok len, buf) =>
    match buf.readBytes len with
    | (.error _, _) => none
    | (.ok bytes, _) => fromUtf8 bytes

def decodeSkinBytes (engines : Base64Engines) (val : Str) : Option Bytes :=
  let trimmed := trim (trimMatches (· == '"') val)
  match engines.urlSafeNoPad trimmed with
  | .ok decoded => some decoded
  | .error _ => (engines.standard trimmed).toOption

def legacyNameKeys : List Str :=
  ["displayName".toList, "extraData.displayName".toList, "username".toList]

def legacySkinKeys : List Str :=
  ["SkinData".toList, "skinData".toList, "Skin".toList, "skin".toList, "SkinImage".toList,
    "textures".toList]

/-- The first name is kept, a skin gives way to a later one; the scan ends when both are there. -/
def scanLegacyPayloads (engines : Base64Engines) :
    List Str → Option Str → Option Bytes → Option (Option Str × Option Bytes)
  | [], username, skinBytes => some (username, skinBytes)
  | payload :: payloads, username, skinBytes => do
    let username ← match username with
      | some name => some (some name)
      | none => extractFirst some legacyNameKeys [payload]
    let decoded ← extractFirst (decodeSkinBytes engines) legacySkinKeys [payload]
    let skinBytes := decoded.or skinBytes
    if skinBytes.isSome && username.isSome then some (username, skinBytes)
    else scanLegacyPayloads engines payloads username skinBytes

/-- The payloads of the chain in the client data, none when there is no such data. -/
def clientDataPayloads (engines : Base64Engines) (clientData : Option Str) : Option (List Str) :=
  match clientData with
  | none => some []
  | some text => do
    match ← parseAuthChain engines text with
    | .ok list => some list
    | .error _ => some []

def extractLegacyLoginFields (engines : Base64Engines) (random : ℕ) (buf : Buffer) :
    Option (Option (Str × Bytes)) :=
  match buf.readVarInt with
  | (.error _, _) => some none
  | (.ok jwtCount, buf) => do
    match ← readLegacyTokens engines jwtCount buf [] with
    | none => some none
    | some (jwtPayloads, buf) =>
      let fromClient ← clientDataPayloads engines (readClientData buf)
      let (username, skinBytes) ←
        scanLegacyPayloads engines (jwtPayloads ++ fromClient) none none
      let skinBytes ← match skinBytes with
        | some bytes => some (some bytes)
        | none => extractFirst (decodeSkinBytes engines) legacySkinKeys fromClient
      let name := username.getD ("player_".toList ++ Nat.toDigits 10 (random % 2 ^ 32 % 10000))
      some (skinBytes.map fun bytes => (name, bytes))

def minSkinBytes : ℕ := 64 * 32 * 4

def extractSkin (data : Bytes) : Except Error ExtractedSkin :=
  if data.length < minSkinBytes then
    .error (.invalidData
      s!"Skin data too small: {data.length} bytes (minimum {minSkinBytes})")
  else .ok ⟨(inferDimensions (data.length / 4)).1, (inferDimensions (data.length / 4)).2, data⟩

/-- `Path::parent` for a path that has a slash. -/
def parentOf (path : Str) : Str :=
  ((path.reverse.dropWhile (· != '/')).dropWhile (· == '/')).reverse

def saveSkin (tools : CaptureTools) (fs : FileSystem) (skin : ExtractedSkin) (path : Str) :
    Option (Except Error Unit × FileSystem) :=
  match fs.createDirAll (parentOf path) with
  | .error e => some (.error e, fs)
  | .ok () => do
    match ← encodePngRgba tools skin.data skin.width skin.height with
    | .error e => some (.error e, fs)
    | .ok pngBytes =>
      match fs.write path pngBytes with
      | .error e => some (.error e, fs)
      | .ok fs => some (.ok (), fs)

namespace RakNet
open Tables

def sendPlayStatusResponse (env : ServerEnv) (s : ServerState) (status : ℕ) (dest : SocketAddr) :
    ServerState :=
  sendBedrockResponse env s (buildPlayStatus status) dest false

/-- The name goes into the path as it was sent. -/
def legacySkinPath (name : Str) (seconds : ℕ) : Str :=
  "skins/".toList ++ name ++ '_' :: (Nat.toDigits 10 seconds ++ ".png".toList)

def ClientSession.named (session : ClientSession) (name path : Str) : ClientSession :=
  { session with
    username := some name
    skinPath := some path }

/-- A PNG file is written as it came, also when its directory could not be made. -/
def saveLegacySkin (env : ServerEnv) (s : ServerState) (name path : Str) (skinBytes : Bytes)
    (addr : SocketAddr) : ServerState :=
  if skinBytes.length > 4 ∧ skinBytes.take 4 = [0x89, 0x50, 0x4E, 0x47] then
    let fs := match s.fs.write path skinBytes with
      | .ok fs => fs
      | .error _ => s.fs
    { s with fs := fs }.modifySession addr fun c => c.named name path
  else if skinBytes.length % 4 = 0 then
    match extractSkin skinBytes with
    | .error _ => s
    | .ok extracted =>
      match saveSkin env.tools s.fs extracted path with
      | none => { s with stuck := true }
      | some (.error _, fs) => { s with fs := fs }
      | some (.ok (), fs) => { s with fs := fs }.modifySession addr fun c => c.named name path
  else s

def legacyFallback (env : ServerEnv) (s : ServerState) (buf : Buffer) (addr : SocketAddr) :
    ServerState :=
  match extractLegacyLoginFields env.engines (env.random s.tick) buf with
  | none => { s with stuck := true }
  | some none => s
  | some (some (name, skinBytes)) =>
    let path := legacySkinPath name (env.systemMillis s.tick / 1000)
    let s := saveLegacySkin env s.advance name path skinBytes addr
    if s.stuck then s
    else
      let s := sendPlayStatusResponse env s 2 addr
      let s := s.modifySession addr fun c => { c with
        compressionEnabled := true
        compressionAlgo := none }
      sendNetworkSettingsResponse env s addr

/-- A login as the server handles it, with the fallback on what the parser left of the buffer. -/
def handleLoginPacketOn (env : ServerEnv) (s : ServerState) (buf : Buffer) (addr : SocketAddr) :
    ServerState :=
  let (remaining, buf) := buf.readRemaining
  match parseLoginPacket env.engines remaining with
  | none => { s with stuck := true }
  | some (.ok (some parsed)) => captureLogin env s parsed addr
  | some (.ok none) => legacyFallback env s buf addr
  | some (.error _) => legacyFallback env s buf addr

end RakNet

/-- Without octets there is no number of tokens. -/
theorem extractLegacyLoginFields_drained {buf : Buffer} (h : buf.rest = [])
    (engines : Base64Engines) (random : ℕ) :
    extractLegacyLoginFields engines random buf = some none := by
  have hread : buf.readU8 = (.error Buffer.overflow, buf) := by
    have hend : ¬ buf.position < buf.data.length := by
      rw [Buffer.rest, List.drop_eq_nil_iff] at h
      exact Nat.not_lt.mpr h
    exact dif_neg hend
  unfold extractLegacyLoginFields Buffer.readVarInt Buffer.readVarIntLoop
  rw [hread]

namespace RakNet

theorem legacyFallback_drained {buf : Buffer} (h : buf.rest = []) (env : ServerEnv)
    (s : ServerState) (addr : SocketAddr) : legacyFallback env s buf addr = s := by
  unfold legacyFallback
  rw [extractLegacyLoginFields_drained h]

/-- The fallback changes nothing, so a login may be handled without it. -/
theorem handleLoginPacketOn_eq (env : ServerEnv) (s : ServerState) (buf : Buffer)
    (addr : SocketAddr) :
    handleLoginPacketOn env s buf addr = handleLoginPacket env s buf.readRemaining.1 addr := by
  have hdrained := legacyFallback_drained buf.rest_readRemaining env s addr
  unfold handleLoginPacketOn handleLoginPacket
  dsimp only
  cases parseLoginPacket env.engines buf.readRemaining.1 with
  | none => rfl
  | some result =>
    cases result with
    | error e => exact hdrained
    | ok found =>
      cases found with
      | none => exact hdrained
      | some parsed => rfl

end RakNet
end SkinGetBE
