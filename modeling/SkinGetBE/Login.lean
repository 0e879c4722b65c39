import SkinGetBE.Jwt

/-!
# The Bedrock Login packet

The six layouts are probed in order and the first one that fits wins. As in the
JWT module, a result `none` of a function that slices text is a panic, and the
last section shows that no input causes one.
-/
namespace SkinGetBE
open Octets Text

structure LoginMetadata where
  xuid : Option Str
  deviceOs : Option ℤ
  deviceModel : Option Str
  playfabId : Option Str
  clientRandomId : Option Str
  skinGeometry : Option Str
  geometryDataEngineVersion : Option Str
  animationData : Option Str
  capeData : Option Str
  deriving DecidableEq

structure ParsedLoginPacket where
  protocol : ℕ
  playerName : Str
  skinId : Str
  chainJson : Str
  skinJwt : Str
  skinJson : Str
  skinData : Bytes
  skinWidth : ℕ
  skinHeight : ℕ
  metadata : LoginMetadata
  deriving DecidableEq

inductive ProtocolEncoding
  | u32Le
  | u32Be
  | varInt
  deriving DecidableEq, Repr

structure LoginFields where
  protocol : ℕ
  chainJson : Str
  skinJwt : Str
  chainLen : ℕ
  skinLen : ℕ
  layout : String
  deriving DecidableEq

/-- The operator `.ok()?` on a read: the buffer of a failed read is dropped. -/
def okRead {α : Type} : Except Error α × Buffer → Option (α × Buffer)
  | (.ok a, b) => some (a, b)
  | (.error _, _) => none

def readProtocol (encoding : ProtocolEncoding) (tmp : Buffer) : Except Error ℕ × Buffer :=
  match encoding with
  | .u32Le => tmp.readU32Le
  | .u32Be => tmp.readU32
  | .varInt => tmp.readVarInt

/-- The optional length prefix: it must be positive and fit in what is left. -/
def checkPayloadLength (hasPayloadLength : Bool) (tmp : Buffer) : Option Buffer :=
  if hasPayloadLength then do
    let (payloadLen, tmp) ← okRead tmp.readVarInt
    if payloadLen = 0 ∨ payloadLen > tmp.remaining then none else some tmp
  else some tmp

/-- A `u32` length followed by that many octets of UTF-8 text. -/
def readToken (tmp : Buffer) : Option (Str × ℕ × Buffer) := do
  let (len, tmp) ← okRead tmp.readU32Le
  if len = 0 ∨ tmp.remaining < len then none
  else
    let (bytes, tmp) ← okRead (tmp.readBytes len)
    let text ← fromUtf8 bytes
    some (text, len, tmp)

def tryParseLogin (source : Bytes) (encoding : ProtocolEncoding) (hasPayloadLength : Bool)
    (layout : String) : Option LoginFields := do
  let tmp := Buffer.ofBytes source
  let (protocol, tmp) ← okRead (readProtocol encoding tmp)
  if protocol = 0 ∨ protocol > 100000 then none
  else
    let tmp ← checkPayloadLength hasPayloadLength tmp
    let (chainJson, chainLen, tmp) ← readToken tmp
    let (skinJwt, skinLen, _) ← readToken tmp
    if '{' ∉ chainJson then none
    else if skinJwt.count '.' ≠ 2 then none
    else some ⟨protocol, chainJson, skinJwt, chainLen, skinLen, layout⟩

/-- The chain of `or_else` calls at the head of `parse_login_packet`. -/
def selectLayout (data : Bytes) : Option LoginFields :=
  tryParseLogin data .u32Le false "u32_le"
    <|> tryParseLogin data .u32Be false "u32_be"
    <|> tryParseLogin data .varInt false "varint"
    <|> tryParseLogin data .u32Le true "u32_le+payload_len"
    <|> tryParseLogin data .u32Be true "u32_be+payload_len"
    <|> tryParseLogin data .varInt true "varint+payload_len"

def isBase64Char (c : Char) : Bool := isAsciiAlphanumeric c || c == '+' || c == '/' || c == '='

def decodeLooseBase64 (engines : Base64Engines) (input : Str) : Option Bytes :=
  let cleaned := input.filter isBase64Char
  if cleaned.isEmpty then none else (engines.standard (padLoop 3 cleaned)).toOption

def sanitizeChar (c : Char) : Char :=
  match c with
  | '/' | '\\' | ':' | '*' | '?' | '"' | '<' | '>' | '|' => '_'
  | _ => c

def sanitizeComponent (value : Str) : Str := value.map sanitizeChar

/-- The first value that `accept` takes, over the keys within each payload in turn. -/
def extractFirst {α : Type} (accept : Str → Option α) (keys : List Str) :
    List Str → Option (Option α)
  | [] => some none
  | payload :: payloads => do
    match ← go payload keys with
    | some found => some (some found)
    | none => extractFirst accept keys payloads
where
  go (payload : Str) : List Str → Option (Option α)
  | [] => some none
  | key :: keys => do
    match (← JWT.getJsonValue payload key).bind accept with
    | some found => some (some found)
    | none => go payload keys

def acceptNonempty (value : Str) : Option Str :=
  if value.isEmpty then none else some (sanitizeComponent value)

def extractString (payloads : List Str) (keys : List Str) : Option (Option Str) :=
  extractFirst acceptNonempty keys payloads

def extractI32 (payloads : List Str) (keys : List Str) : Option (Option ℤ) :=
  extractFirst parseI32 keys payloads

def playerNameKeys : List Str :=
  ["xname".toList, "ThirdPartyName".toList, "displayName".toList]

/-- One round per quoted token; the length of the text is a sufficient budget. -/
def extractPlayerNameLoop (engines : Base64Engines) (chainJson : Str) :
    ℕ → ℕ → List Str → Option Str
  | 0, _, _ => none
  | fuel + 1, searchPos, seen => do
    let fromPos ← sliceFrom chainJson searchPos
    match findChar (· == '"') fromPos with
    | none => some "UnknownPlayer".toList
    | some startQuote =>
      let tokenStart := searchPos + startQuote + 1
      let fromToken ← sliceFrom chainJson tokenStart
      match findChar (· == '"') fromToken with
      | none => some "UnknownPlayer".toList
      | some endQuoteRel =>
        let tokenEnd := tokenStart + endQuoteRel
        let next := tokenEnd + 1
        let token ← slice chainJson tokenStart tokenEnd
        if byteLen token = 50 ∨ token.count '.' ≠ 2 then
          extractPlayerNameLoop engines chainJson fuel next seen
        else if token ∈ seen then extractPlayerNameLoop engines chainJson fuel next seen
        else
          match ← JWT.getPayload engines token with
          | .error _ => extractPlayerNameLoop engines chainJson fuel next (token :: seen)
          | .ok payload =>
            match ← extractFirst acceptNonempty playerNameKeys [payload] with
            | some name => some name
            | none => extractPlayerNameLoop engines chainJson fuel next (token :: seen)

def extractPlayerName (engines : Base64Engines) (chainJson : Str) : Option Str :=
  extractPlayerNameLoop engines chainJson (chainJson.length + 1) 0 []

def collectMetadata (payloads : List Str) : Option LoginMetadata := do
  let str := fun keys : List String => extractString payloads (keys.map String.toList)
  let xuid ← str ["XUID", "xuid"]
  let deviceOs ← extractI32 payloads ["DeviceOS".toList, "device_os".toList]
  let deviceModel ← str ["DeviceModel", "device_model"]
  let playfabId ← str ["PlayFabId", "playfabId"]
  let clientRandomId ← str ["ClientRandomId", "clientRandomId"]
  let skinGeometry ← str ["SkinGeometryData", "SkinGeometry", "geometryData"]
  let geometryDataEngineVersion ←
    str ["geometryDataEngineVersion", "GeometryDataEngineVersion"]
  let animationData ← str ["animationData", "AnimationData"]
  let capeData ← str ["capeData", "CapeData"]
  some { xuid, deviceOs, deviceModel, playfabId, clientRandomId, skinGeometry,
         geometryDataEngineVersion, animationData, capeData }

/-- The standard sizes, then a width of 64 and as many full rows as fit. -/
def inferDimensions (pixels : ℕ) : ℕ × ℕ :=
  if pixels = 64 * 32 then (64, 32)
  else if pixels = 64 * 64 then (64, 64)
  else if pixels = 128 * 64 then (128, 64)
  else if pixels = 128 * 128 then (128, 128)
  else
    let height := pixels % 2 ^ 32 / 64
    (64, if height = 0 then 64 else height)

/-- Declared dimensions are kept only when they are positive and match the pixel count. -/
def skinDimensions (imgW imgH pixels : ℕ) : ℕ × ℕ :=
  if imgW = 0 ∨ imgH = 0 ∨ imgW * imgH ≠ pixels then inferDimensions pixels else (imgW, imgH)

/-- A declared dimension; a missing or unparsable one counts as zero. -/
def declaredDimension (skinJson key : Str) : Option ℕ := do
  let value ← JWT.getJsonValue skinJson key
  some ((value.bind parseU32).getD 0)

/-- The decoded pixels of `SkinData`, when there is at least one whole pixel. -/
def readSkinData (engines : Base64Engines) (skinJson : Str) : Option (Option Bytes) := do
  match ← JWT.getJsonValue skinJson "SkinData".toList with
  | none => some none
  | some value =>
    if value.isEmpty then some none
    else
      match decodeLooseBase64 engines value with
      | none => some none
      | some bytes =>
        some (if ¬ bytes.isEmpty ∧ bytes.length % 4 = 0 then some bytes else none)

def parseLoginPacket (engines : Base64Engines) (data : Bytes) :
    Option (Except Error (Option ParsedLoginPacket)) :=
  match selectLayout data with
  | none => some (.ok none)
  | some parsed => do
    let playerName ← extractPlayerName engines parsed.chainJson
    match ← JWT.getPayload engines parsed.skinJwt with
    | .error _ => some (.ok none)
    | .ok skinJson =>
      let chainPayloads := match ← parseAuthChain engines parsed.chainJson with
        | .ok payloads => payloads
        | .error _ => []
      let metadata ← collectMetadata (chainPayloads ++ [skinJson])
      let skinId := ((← JWT.getJsonValue skinJson "SkinId".toList).map sanitizeComponent).getD []
      match ← readSkinData engines skinJson with
      | none => some (.ok none)
      | some skinData =>
        let imgW ← declaredDimension skinJson "SkinImageWidth".toList
        let imgH ← declaredDimension skinJson "SkinImageHeight".toList
        let (skinWidth, skinHeight) := skinDimensions imgW imgH (skinData.length / 4)
        some (.ok (some { protocol := parsed.protocol, playerName, skinId,
                          chainJson := parsed.chainJson, skinJwt := parsed.skinJwt, skinJson,
                          skinData, skinWidth, skinHeight, metadata }))

/-- The first value under one of the keys that `accept` takes. -/
def firstAccepted {α : Type} (accept : Str → Option α) (keys : List Str) (payload : Str) :
    Option α :=
  keys.findSome? fun key => (JWT.getJsonValue payload key).bind (·.bind accept)

theorem extractFirst_go_eq {α : Type} (accept : Str → Option α) (payload : Str)
    (keys : List Str) :
    extractFirst.go accept payload keys = some (firstAccepted accept keys payload) := by
  induction keys with
  | nil => rfl
  | cons key keys ih =>
    obtain ⟨r, hr⟩ := Option.isSome_iff_exists.mp (JWT.getJsonValue_isSome payload key)
    simp only [extractFirst.go, firstAccepted, List.findSome?_cons, hr, Option.bind_eq_bind,
      Option.bind_some]
    cases r.bind accept with
    | none => exact ih
    | some found => rfl

theorem extractFirst_eq {α : Type} (accept : Str → Option α) (keys payloads : List Str) :
    extractFirst accept keys payloads = some (payloads.findSome? (firstAccepted accept keys)) := by
  induction payloads with
  | nil => rfl
  | cons payload payloads ih =>
    simp only [extractFirst, extractFirst_go_eq, List.findSome?_cons, Option.bind_eq_bind,
      Option.bind_some]
    cases firstAccepted accept keys payload with
    | none => exact ih
    | some found => rfl

theorem extractFirst_singleton {α : Type} (accept : Str → Option α) (keys : List Str)
    (payload : Str) :
    extractFirst accept keys [payload] = some (firstAccepted accept keys payload) := by
  rw [extractFirst_eq, List.findSome?_singleton]

/-- The name in a payload, as it is returned. -/
def payloadName : Str → Option Str := firstAccepted acceptNonempty playerNameKeys

/-- The name that a quoted text gives. A text of 50 octets is passed over. -/
def tokenName (engines : Base64Engines) (token : Str) : Option Str :=
  if byteLen token = 50 then none else (authPayload engines token).bind payloadName

theorem extractPlayerNameLoop_eq (engines : Base64Engines) {json before tail : Str}
    (hjson : json = before ++ tail) {fuel : ℕ} (hf : tail.length < fuel) {seen : List Str}
    (hseen : ∀ token ∈ seen, tokenName engines token = none) :
    extractPlayerNameLoop engines json fuel (byteLen before) seen =
      some (((quoted tail).findSome? (tokenName engines)).getD "UnknownPlayer".toList) := by
  induction fuel generalizing before tail seen with
  | zero => omega
  | succ fuel ih =>
    have hfrom : sliceFrom json (byteLen before) = some tail := by
      rw [hjson]
      exact sliceFrom_append _ _
    cases scanRound hjson with
    | done hfind hquoted => simp [extractPlayerNameLoop, hfrom, hfind, hquoted]
    | unclosed opening body hfind hbody hclose hquoted =>
      simp [extractPlayerNameLoop, hfrom, hfind, hbody, hclose, hquoted]
    | token opening body closing token before' after hfind hbody hclose htoken hnext hpos hquoted
        hshort =>
      obtain ⟨result, hresult⟩ :=
        Option.isSome_iff_exists.mp (JWT.getPayload_isSome engines token)
      have hskip {seen : List Str} (hseen : ∀ t ∈ seen, tokenName engines t = none) :
          extractPlayerNameLoop engines json fuel (byteLen before + opening + 1 + closing + 1)
            seen =
            some (((quoted after).findSome? (tokenName engines)).getD "UnknownPlayer".toList) := by
        rw [← hpos]
        exact ih hnext (by omega) hseen
      simp only [extractPlayerNameLoop, hfrom, hfind, hbody, hclose, htoken, hresult,
        extractFirst_singleton, Option.bind_eq_bind, Option.bind_some, hquoted, List.findSome?_cons]
      by_cases hshape : byteLen token = 50 ∨ token.count '.' ≠ 2
      · have hnone : tokenName engines token = none := by
          unfold tokenName authPayload
          rcases hshape with h50 | hdots
          · rw [if_pos h50]
          · rw [if_neg hdots, Option.bind_none, ite_self]
        rw [if_pos hshape, hskip hseen, hnone]
      rw [if_neg hshape]
      by_cases hmem : token ∈ seen
      · rw [if_pos hmem, hskip hseen, hseen token hmem]
      rw [if_neg hmem]
      rw [not_or, not_not] at hshape
      have hname : tokenName engines token = result.toOption.bind payloadName := by
        rw [tokenName, if_neg hshape.1, authPayload, if_pos hshape.2, decodedPayload, hresult,
          Option.bind_some]
      -- a token that gave no name is not looked at again
      have hseen' (hnone : tokenName engines token = none) :
          ∀ t ∈ token :: seen, tokenName engines t = none := by
        simpa [hnone] using hseen
      cases result with
      | error e =>
        dsimp only
        rw [hskip (hseen' hname), hname]
        rfl
      | ok payload =>
        have hpayload : tokenName engines token =
            firstAccepted acceptNonempty playerNameKeys payload := hname
        dsimp only
        rw [← hpayload]
        cases hfound : tokenName engines token with
        | none => exact hskip (hseen' hfound)
        | some name => rfl

/-- The name of the first quoted text that gives one. -/
def playerNameOf (engines : Base64Engines) (chainJson : Str) : Str :=
  ((quoted chainJson).findSome? (tokenName engines)).getD "UnknownPlayer".toList

theorem extractPlayerName_eq (engines : Base64Engines) (json : Str) :
    extractPlayerName engines json = some (playerNameOf engines json) :=
  extractPlayerNameLoop_eq engines (List.nil_append json).symm (Nat.lt_succ_self _) (by simp)

theorem collectMetadata_isSome (payloads : List Str) : (collectMetadata payloads).isSome := by
  simp [collectMetadata, extractString, extractI32, extractFirst_eq]

theorem declaredDimension_isSome (skinJson key : Str) :
    (declaredDimension skinJson key).isSome := by
  obtain ⟨r, hr⟩ := Option.isSome_iff_exists.mp (JWT.getJsonValue_isSome skinJson key)
  simp [declaredDimension, hr]

theorem readSkinData_isSome (engines : Base64Engines) (skinJson : Str) :
    (readSkinData engines skinJson).isSome := by
  obtain ⟨r, hr⟩ := Option.isSome_iff_exists.mp
    (JWT.getJsonValue_isSome skinJson "SkinData".toList)
  simp only [readSkinData, hr, Option.bind_eq_bind, Option.bind_some]
  cases r with
  | none => rfl
  | some value => dsimp only; split_ifs <;> [rfl; (split <;> rfl)]

theorem parseLoginPacket_of_error {engines : Base64Engines} {data : Bytes} {fields : LoginFields}
    {e : Error} (hf : selectLayout data = some fields)
    (hs : JWT.getPayload engines fields.skinJwt = some (.error e)) :
    parseLoginPacket engines data = some (.ok none) := by
  simp [parseLoginPacket, hf, extractPlayerName_eq, hs]

/-- What the parser returns once a layout is selected and the skin payload is decoded. -/
theorem parseLoginPacket_of_payload (engines : Base64Engines) (data : Bytes) (fields : LoginFields)
    (skinJson : Str) (hf : selectLayout data = some fields)
    (hs : JWT.getPayload engines fields.skinJwt = some (.ok skinJson)) :
    ∃ metadata skinData skinId imgW imgH,
      readSkinData engines skinJson = some skinData ∧
      JWT.getJsonValue skinJson "SkinId".toList = some skinId ∧
      declaredDimension skinJson "SkinImageWidth".toList = some imgW ∧
      declaredDimension skinJson "SkinImageHeight".toList = some imgH ∧
      parseLoginPacket engines data = some (.ok (skinData.map fun bytes =>
        { protocol := fields.protocol, playerName := playerNameOf engines fields.chainJson
          skinId := (skinId.map sanitizeComponent).getD []
          chainJson := fields.chainJson, skinJwt := fields.skinJwt, skinJson
          skinData := bytes
          skinWidth := (skinDimensions imgW imgH (bytes.length / 4)).1
          skinHeight := (skinDimensions imgW imgH (bytes.length / 4)).2
          metadata })) := by
  obtain ⟨metadata, hmeta⟩ := Option.isSome_iff_exists.mp (collectMetadata_isSome
    ((quoted fields.chainJson).filterMap (authPayload engines) ++ [skinJson]))
  obtain ⟨skinData, hdata⟩ := Option.isSome_iff_exists.mp (readSkinData_isSome engines skinJson)
  obtain ⟨skinId, hid⟩ := Option.isSome_iff_exists.mp
    (JWT.getJsonValue_isSome skinJson "SkinId".toList)
  obtain ⟨imgW, hw⟩ := Option.isSome_iff_exists.mp
    (declaredDimension_isSome skinJson "SkinImageWidth".toList)
  obtain ⟨imgH, hh⟩ := Option.isSome_iff_exists.mp
    (declaredDimension_isSome skinJson "SkinImageHeight".toList)
  refine ⟨metadata, skinData, skinId, imgW, imgH, hdata, hid, hw, hh, ?_⟩
  simp only [parseLoginPacket, hf, extractPlayerName_eq, hs, parseAuthChain_eq, hmeta, hid, hdata,
    hw, hh, Option.bind_eq_bind, Option.bind_some]
  cases skinData <;> rfl

/-- Where the fields of a parsed packet come from. -/
theorem parsed_fields {engines : Base64Engines} {data : Bytes} {p : ParsedLoginPacket}
    (h : parseLoginPacket engines data = some (.ok (some p))) :
    ∃ (fields : LoginFields) (skinId : Option Str) (imgW imgH : ℕ),
      selectLayout data = some fields ∧
      JWT.getPayload engines fields.skinJwt = some (.ok p.skinJson) ∧
      readSkinData engines p.skinJson = some (some p.skinData) ∧
      declaredDimension p.skinJson "SkinImageWidth".toList = some imgW ∧
      declaredDimension p.skinJson "SkinImageHeight".toList = some imgH ∧
      p.playerName = playerNameOf engines p.chainJson ∧
      p.skinId = (skinId.map sanitizeComponent).getD [] ∧
      (p.skinWidth, p.skinHeight) = skinDimensions imgW imgH (p.skinData.length / 4) := by
  cases hf : selectLayout data with
  | none => simp [parseLoginPacket, hf] at h
  | some fields =>
    obtain ⟨r, hr⟩ := Option.isSome_iff_exists.mp (JWT.getPayload_isSome engines fields.skinJwt)
    cases r with
    | error e => simp [parseLoginPacket_of_error hf hr] at h
    | ok skinJson =>
      obtain ⟨_, _, skinId, imgW, imgH, hdata, -, hw, hh, hparse⟩ :=
        parseLoginPacket_of_payload engines data fields skinJson hf hr
      rw [hparse, Option.some.injEq, Except.ok.injEq, Option.map_eq_some_iff] at h
      obtain ⟨bytes, rfl, rfl⟩ := h
      exact ⟨fields, skinId, imgW, imgH, rfl, hr, hdata, hw, hh, rfl, rfl, rfl⟩

/-- The parser returns for every input, and never with an error. -/
theorem parseLoginPacket_ok (engines : Base64Engines) (data : Bytes) :
    ∃ r, parseLoginPacket engines data = some (.ok r) := by
  cases hf : selectLayout data with
  | none => exact ⟨none, by simp [parseLoginPacket, hf]⟩
  | some fields =>
    obtain ⟨r, hr⟩ := Option.isSome_iff_exists.mp (JWT.getPayload_isSome engines fields.skinJwt)
    cases r with
    | error e => exact ⟨none, parseLoginPacket_of_error hf hr⟩
    | ok skinJson =>
      obtain ⟨_, _, _, _, _, -, -, -, -, h⟩ :=
        parseLoginPacket_of_payload engines data fields skinJson hf hr
      exact ⟨_, h⟩

end SkinGetBE
