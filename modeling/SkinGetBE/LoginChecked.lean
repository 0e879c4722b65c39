import SkinGetBE.BufferChecked
import SkinGetBE.LoginCapture

/-!
# The Login parser with its faults

The parser once more, on a machine: every sum, index and slice may be a fault, a loop
may run out of rounds, and a scan for quotes must move forward in each round. For no
packet does the parser meet a fault, and it returns what the plain one does.
-/
namespace SkinGetBE.Checked
open Octets Text Machine

def okRead {α : Type} (read : Run (Except Error α × RawBuffer)) : Run (Option (α × RawBuffer)) := do
  match ← read with
  | (.ok a, b) => .ok (some (a, b))
  | (.error _, _) => .ok none

def readProtocol (encoding : ProtocolEncoding) (tmp : RawBuffer) :
    Run (Except Error ℕ × RawBuffer) :=
  match encoding with
  | .u32Le => tmp.readU32Le
  | .u32Be => tmp.readU32
  | .varInt => tmp.readVarInt

def checkPayloadLength (hasPayloadLength : Bool) (tmp : RawBuffer) : Run (Option RawBuffer) :=
  if hasPayloadLength then
    ifSome (okRead tmp.readVarInt) fun (payloadLen, tmp) => do
      let remaining ← tmp.remaining
      if payloadLen = 0 ∨ payloadLen > remaining then .ok none else .ok (some tmp)
  else .ok (some tmp)

def readToken (tmp : RawBuffer) : Run (Option (Str × ℕ × RawBuffer)) :=
  ifSome (okRead tmp.readU32Le) fun (len, tmp) => do
    let remaining ← tmp.remaining
    if len = 0 ∨ remaining < len then .ok none
    else
      ifSome (okRead (tmp.readBytes len)) fun (bytes, tmp) =>
        .ok ((fromUtf8 bytes).map fun text => (text, len, tmp))

def tryParseLogin (source : Bytes) (encoding : ProtocolEncoding) (hasPayloadLength : Bool)
    (layout : String) : Run (Option LoginFields) :=
  ifSome (okRead (readProtocol encoding (.ofBytes source))) fun (protocol, tmp) =>
    if protocol = 0 ∨ protocol > 100000 then .ok none
    else
      ifSome (checkPayloadLength hasPayloadLength tmp) fun tmp =>
      ifSome (readToken tmp) fun (chainJson, chainLen, tmp) =>
      ifSome (readToken tmp) fun (skinJwt, skinLen, _) =>
        if '{' ∉ chainJson then .ok none
        else if skinJwt.count '.' ≠ 2 then .ok none
        else .ok (some ⟨protocol, chainJson, skinJwt, chainLen, skinLen, layout⟩)

/-- The operator `.or_else`: the second probe runs only when the first gives up. -/
def orElse {α : Type} (first : Run (Option α)) (second : Unit → Run (Option α)) :
    Run (Option α) := do
  match ← first with
  | some a => .ok (some a)
  | none => second ()

def selectLayout (data : Bytes) : Run (Option LoginFields) :=
  orElse (tryParseLogin data .u32Le false "u32_le") fun _ =>
  orElse (tryParseLogin data .u32Be false "u32_be") fun _ =>
  orElse (tryParseLogin data .varInt false "varint") fun _ =>
  orElse (tryParseLogin data .u32Le true "u32_le+payload_len") fun _ =>
  orElse (tryParseLogin data .u32Be true "u32_be+payload_len") fun _ =>
    tryParseLogin data .varInt true "varint+payload_len"

def padLoop : ℕ → Str → Run Str
  | 0, _ => .error .rounds
  | fuel + 1, padded =>
    if byteLen padded % 4 = 0 then .ok padded else padLoop fuel (padded ++ ['='])

def decodeBase64 (engines : Base64Engines) (encoded : Str) : Run (Except Error Str) := do
  let decoded ← match engines.urlSafeNoPad encoded with
    | .ok bytes => Except.ok (Except.ok bytes)
    | .error _ => do
      let padded ← padLoop 4 encoded
      Except.ok (engines.urlSafeNoPad padded)
  match decoded with
  | .error e => .ok (.error (.cryptoError s!"JWT decode error: {e}"))
  | .ok bytes =>
    match fromUtf8 bytes with
    | some text => .ok (.ok text)
    | none => .ok (.error (.cryptoError "UTF-8 decode error: invalid utf-8 sequence"))

def getPayload (engines : Base64Engines) (token : Str) : Run (Except Error Str) :=
  match findChar (· == '.') token with
  | none => .ok (.error (.cryptoError "Invalid JWT: missing first dot"))
  | some firstDot => do
    let start ← add 64 firstDot 1
    let afterFirst ← cut (sliceFrom token start)
    match findChar (· == '.') afterFirst with
    | none => .ok (.error (.cryptoError "Invalid JWT: missing second dot"))
    | some i =>
      let sum ← add 64 i firstDot
      let secondDot ← add 64 sum 1
      let start ← add 64 firstDot 1
      let payloadB64 ← cut (slice token start secondDot)
      decodeBase64 engines payloadB64

def getJsonValue (json key : Str) : Run (Option Str) :=
  match findStr (JWT.searchKey key) json with
  | none => .ok none
  | some pos => do
    let startPos ← add 64 pos (byteLen (JWT.searchKey key))
    let rest ← cut (sliceFrom json startPos)
    .ok (JWT.valueAt (trimStart rest))

def parseAuthChainLoop (engines : Base64Engines) (chainJson : Str) :
    ℕ → ℕ → List Str → Run (List Str)
  | 0, _, _ => .error .rounds
  | fuel + 1, searchPos, tokens => do
    let fromPos ← cut (sliceFrom chainJson searchPos)
    match findChar (· == '"') fromPos with
    | none => .ok tokens
    | some quotePos =>
      let quote ← add 64 searchPos quotePos
      let tokenStart ← add 64 quote 1
      let fromToken ← cut (sliceFrom chainJson tokenStart)
      match findChar (· == '"') fromToken with
      | none => .ok tokens
      | some tokenEnd =>
        let stop ← add 64 tokenStart tokenEnd
        let token ← cut (slice chainJson tokenStart stop)
        let tokens ←
          if token.count '.' = 2 then do
            match ← getPayload engines token with
            | .ok payload => Except.ok (tokens ++ [payload])
            | .error _ => Except.ok tokens
          else Except.ok tokens
        let stop ← add 64 tokenStart tokenEnd
        let next ← add 64 stop 1
        let next ← advance searchPos next
        parseAuthChainLoop engines chainJson fuel next tokens

def parseAuthChain (engines : Base64Engines) (chainJson : Str) :
    Run (Except Error (List Str)) := do
  let tokens ← parseAuthChainLoop engines chainJson (chainJson.length + 1) 0 []
  .ok (.ok tokens)

def extractFirst {α : Type} (accept : Str → Option α) (keys : List Str) :
    List Str → Run (Option α)
  | [] => .ok none
  | payload :: payloads => do
    match ← go payload keys with
    | some found => .ok (some found)
    | none => extractFirst accept keys payloads
where
  go (payload : Str) : List Str → Run (Option α)
  | [] => .ok none
  | key :: keys => do
    match (← getJsonValue payload key).bind accept with
    | some found => .ok (some found)
    | none => go payload keys

def extractPlayerNameLoop (engines : Base64Engines) (chainJson : Str) :
    ℕ → ℕ → List Str → Run Str
  | 0, _, _ => .error .rounds
  | fuel + 1, searchPos, seen => do
    let fromPos ← cut (sliceFrom chainJson searchPos)
    match findChar (· == '"') fromPos with
    | none => .ok "UnknownPlayer".toList
    | some startQuote =>
      let quote ← add 64 searchPos startQuote
      let tokenStart ← add 64 quote 1
      let fromToken ← cut (sliceFrom chainJson tokenStart)
      match findChar (· == '"') fromToken with
      | none => .ok "UnknownPlayer".toList
      | some endQuoteRel =>
        let tokenEnd ← add 64 tokenStart endQuoteRel
        let next ← add 64 tokenEnd 1
        let next ← advance searchPos next
        let token ← cut (slice chainJson tokenStart tokenEnd)
        if byteLen token = 50 ∨ token.count '.' ≠ 2 then
          extractPlayerNameLoop engines chainJson fuel next seen
        else if seen.contains token then extractPlayerNameLoop engines chainJson fuel next seen
        else
          match ← getPayload engines token with
          | .error _ => extractPlayerNameLoop engines chainJson fuel next (token :: seen)
          | .ok payload =>
            match ← extractFirst acceptNonempty playerNameKeys [payload] with
            | some name => .ok name
            | none => extractPlayerNameLoop engines chainJson fuel next (token :: seen)

def extractPlayerName (engines : Base64Engines) (chainJson : Str) : Run Str :=
  extractPlayerNameLoop engines chainJson (chainJson.length + 1) 0 []

def collectMetadata (payloads : List Str) : Run LoginMetadata := do
  let str := fun keys : List String =>
    extractFirst acceptNonempty (keys.map String.toList) payloads
  let xuid ← str ["XUID", "xuid"]
  let deviceOs ← extractFirst parseI32 ["DeviceOS".toList, "device_os".toList] payloads
  let deviceModel ← str ["DeviceModel", "device_model"]
  let playfabId ← str ["PlayFabId", "playfabId"]
  let clientRandomId ← str ["ClientRandomId", "clientRandomId"]
  let skinGeometry ← str ["SkinGeometryData", "SkinGeometry", "geometryData"]
  let geometryDataEngineVersion ←
    str ["geometryDataEngineVersion", "GeometryDataEngineVersion"]
  let animationData ← str ["animationData", "AnimationData"]
  let capeData ← str ["capeData", "CapeData"]
  .ok { xuid, deviceOs, deviceModel, playfabId, clientRandomId, skinGeometry,
        geometryDataEngineVersion, animationData, capeData }

def decodeLooseBase64 (engines : Base64Engines) (input : Str) : Run (Option Bytes) :=
  let cleaned := input.filter isBase64Char
  if cleaned.isEmpty then .ok none
  else do
    let padded ← padLoop 4 cleaned
    .ok (engines.standard padded).toOption

def readSkinData (engines : Base64Engines) (skinJson : Str) : Run (Option Bytes) := do
  match ← getJsonValue skinJson "SkinData".toList with
  | none => .ok none
  | some value =>
    if value.isEmpty then .ok none
    else
      match ← decodeLooseBase64 engines value with
      | none => .ok none
      | some bytes => .ok (if ¬ bytes.isEmpty ∧ bytes.length % 4 = 0 then some bytes else none)

def declaredDimension (skinJson key : Str) : Run ℕ := do
  let value ← getJsonValue skinJson key
  .ok ((value.bind parseU32).getD 0)

/-- The product is formed only when both sizes are positive. -/
def skinDimensions (imgW imgH pixels : ℕ) : Run (ℕ × ℕ) :=
  if imgW = 0 ∨ imgH = 0 then .ok (inferDimensions pixels)
  else do
    let product ← mul 64 imgW imgH
    if product ≠ pixels then .ok (inferDimensions pixels) else .ok (imgW, imgH)

def parseLoginPacket (engines : Base64Engines) (data : Bytes) :
    Run (Except Error (Option ParsedLoginPacket)) := do
  match ← selectLayout data with
  | none => .ok (.ok none)
  | some parsed =>
    let playerName ← extractPlayerName engines parsed.chainJson
    match ← getPayload engines parsed.skinJwt with
    | .error _ => .ok (.ok none)
    | .ok skinJson =>
      let chainPayloads := match ← parseAuthChain engines parsed.chainJson with
        | .ok payloads => payloads
        | .error _ => []
      let metadata ← collectMetadata (chainPayloads ++ [skinJson])
      let skinId := ((← getJsonValue skinJson "SkinId".toList).map sanitizeComponent).getD []
      match ← readSkinData engines skinJson with
      | none => .ok (.ok none)
      | some skinData =>
        let imgW ← declaredDimension skinJson "SkinImageWidth".toList
        let imgH ← declaredDimension skinJson "SkinImageHeight".toList
        let (skinWidth, skinHeight) ← skinDimensions imgW imgH (skinData.length / 4)
        .ok (.ok (some { protocol := parsed.protocol, playerName, skinId,
                         chainJson := parsed.chainJson, skinJwt := parsed.skinJwt, skinJson,
                         skinData, skinWidth, skinHeight, metadata }))

theorem okRead_agrees {α : Type} {checked : RawBuffer → Run (Except Error α × RawBuffer)}
    {plain : Buffer → Except Error α × Buffer} (h : Buffer.Agrees checked plain) {b : Buffer}
    (hb : b.Fits) :
    okRead (checked b.raw) = .ok ((SkinGetBE.okRead (plain b)).map (Prod.map id Buffer.raw)) := by
  rw [okRead, (h b hb).1, ok_bind]
  cases plain b with
  | mk result b' => cases result <;> rfl

theorem okRead_fits {α : Type} {checked : RawBuffer → Run (Except Error α × RawBuffer)}
    {plain : Buffer → Except Error α × Buffer} (h : Buffer.Agrees checked plain) {b b' : Buffer}
    (hb : b.Fits) {a : α} (hread : SkinGetBE.okRead (plain b) = some (a, b')) : b'.Fits := by
  have hfits := (h b hb).2
  rwa [okRead_eq_some.mp hread] at hfits

theorem readProtocol_agrees (encoding : ProtocolEncoding) :
    Buffer.Agrees (readProtocol encoding) (SkinGetBE.readProtocol encoding) := by
  cases encoding with
  | u32Le => exact Buffer.readU32Le_agrees
  | u32Be => exact Buffer.readU32_agrees
  | varInt => exact Buffer.readVarInt_agrees

theorem checkPayloadLength_eq (hasPayloadLength : Bool) {b : Buffer} (hb : b.Fits) :
    checkPayloadLength hasPayloadLength b.raw =
      .ok ((SkinGetBE.checkPayloadLength hasPayloadLength b).map Buffer.raw) := by
  cases hasPayloadLength with
  | false => rfl
  | true =>
    refine ifSome_eq (okRead_agrees Buffer.readVarInt_agrees hb) fun ⟨payloadLen, tmp⟩ _ => ?_
    simp only [Prod.map_apply, id_eq, Buffer.raw_remaining, ok_bind]
    split_ifs <;> rfl

theorem checkPayloadLength_fits {hasPayloadLength : Bool} {b b' : Buffer} (hb : b.Fits)
    (h : SkinGetBE.checkPayloadLength hasPayloadLength b = some b') : b'.Fits := by
  cases hasPayloadLength with
  | false =>
    obtain rfl : b = b' := by simpa [SkinGetBE.checkPayloadLength] using h
    exact hb
  | true =>
    obtain ⟨⟨payloadLen, tmp⟩, hread, h⟩ := Option.bind_eq_some_iff.mp h
    dsimp only at h
    split_ifs at h
    obtain rfl := Option.some.inj h
    exact okRead_fits Buffer.readVarInt_agrees hb hread

/-- A length that has passed the check is no longer than the data. -/
theorem length_lt_of_remaining {b : Buffer} (hb : b.Fits) {len : ℕ}
    (h : ¬ (len = 0 ∨ b.remaining < len)) : len < 2 ^ 63 := by
  have hlt : b.data.length < 2 ^ 63 := hb
  have hrest := b.rest_length
  rw [not_or, not_lt, Buffer.remaining_eq] at h
  omega

theorem readToken_eq {b : Buffer} (hb : b.Fits) :
    readToken b.raw = .ok ((SkinGetBE.readToken b).map (Prod.map id (Prod.map id Buffer.raw))) := by
  refine ifSome_eq (okRead_agrees Buffer.readU32Le_agrees hb) fun ⟨len, tmp⟩ hread => ?_
  have htmp := okRead_fits Buffer.readU32Le_agrees hb hread
  simp only [Prod.map_apply, id_eq, Buffer.raw_remaining, ok_bind]
  split_ifs with hlen
  · rfl
  have hbytes := Buffer.readBytes_agrees (length_lt_of_remaining htmp hlen)
  refine ifSome_eq (okRead_agrees hbytes htmp) fun ⟨bytes, tmp⟩ _ => ?_
  simp only [Prod.map_apply, id_eq]
  cases fromUtf8 bytes <;> rfl

theorem readToken_fits {b b' : Buffer} {text : Str} {len : ℕ} (hb : b.Fits)
    (h : SkinGetBE.readToken b = some (text, len, b')) : b'.Fits := by
  obtain ⟨⟨len, tmp⟩, hread, h⟩ := Option.bind_eq_some_iff.mp h
  have htmp := okRead_fits Buffer.readU32Le_agrees hb hread
  dsimp only at h
  split_ifs at h with hlen
  obtain ⟨⟨bytes, tmp'⟩, hread', h⟩ := Option.bind_eq_some_iff.mp h
  obtain ⟨text', -, htext⟩ := Option.bind_eq_some_iff.mp h
  obtain ⟨-, -, rfl⟩ : text' = text ∧ len = _ ∧ tmp' = b' := by simpa using htext
  exact okRead_fits (Buffer.readBytes_agrees (length_lt_of_remaining htmp hlen)) htmp hread'

theorem tryParseLogin_eq {data : Bytes} (hd : data.length < 2 ^ 63) (encoding : ProtocolEncoding)
    (hasPayloadLength : Bool) (layout : String) :
    tryParseLogin data encoding hasPayloadLength layout =
      .ok (SkinGetBE.tryParseLogin data encoding hasPayloadLength layout) := by
  have hb : (Buffer.ofBytes data).Fits := hd
  rw [← Option.map_id_apply (x := SkinGetBE.tryParseLogin data encoding hasPayloadLength layout)]
  refine ifSome_eq (okRead_agrees (readProtocol_agrees encoding) hb) fun ⟨protocol, t0⟩ h0 => ?_
  have hb0 := okRead_fits (readProtocol_agrees encoding) hb h0
  simp only [Prod.map_apply, id_eq]
  split_ifs
  · rfl
  refine ifSome_eq (checkPayloadLength_eq hasPayloadLength hb0) fun t1 h1 => ?_
  have hb1 := checkPayloadLength_fits hb0 h1
  refine ifSome_eq (readToken_eq hb1) fun ⟨chainJson, chainLen, t2⟩ h2 => ?_
  have hb2 := readToken_fits hb1 h2
  refine ifSome_eq (readToken_eq hb2) fun ⟨skinJwt, skinLen, t3⟩ _ => ?_
  simp only [Prod.map_apply, id_eq]
  split_ifs <;> rfl

theorem orElse_eq {α : Type} {first : Run (Option α)} {second : Unit → Run (Option α)}
    {a b : Option α} (hfirst : first = .ok a) (hsecond : second () = .ok b) :
    orElse first second = .ok (a <|> b) := by
  rw [orElse, hfirst, ok_bind]
  cases a with
  | none => simpa using hsecond
  | some x => rfl

theorem selectLayout_eq {data : Bytes} (hd : data.length < 2 ^ 63) :
    selectLayout data = .ok (SkinGetBE.selectLayout data) := by
  have probe := tryParseLogin_eq hd
  refine orElse_eq (probe _ _ _) (orElse_eq (probe _ _ _) (orElse_eq (probe _ _ _) ?_))
  exact orElse_eq (probe _ _ _) (orElse_eq (probe _ _ _) (probe _ _ _))

/-- Three rounds are enough, so the fourth one ends the loop. -/
theorem padLoop_eq {fuel : ℕ} {s : Str} (h : (4 - byteLen s % 4) % 4 ≤ fuel) :
    padLoop (fuel + 1) s = .ok (SkinGetBE.padLoop fuel s) := by
  induction fuel generalizing s with
  | zero => rw [padLoop, if_pos (by omega), SkinGetBE.padLoop]
  | succ fuel ih =>
    have hpad : byteLen (s ++ ['=']) = byteLen s + 1 := by
      rw [byteLen_append]
      rfl
    rw [padLoop, SkinGetBE.padLoop]
    split_ifs with hmod
    · rfl
    · exact ih (by omega)

theorem decodeBase64_eq (engines : Base64Engines) (encoded : Str) :
    decodeBase64 engines encoded = .ok (JWT.decodeBase64 engines encoded) := by
  have hpad : padLoop 4 encoded = .ok (SkinGetBE.padLoop 3 encoded) := padLoop_eq (by omega)
  unfold decodeBase64 JWT.decodeBase64
  cases engines.urlSafeNoPad encoded with
  | ok bytes =>
    dsimp only [ok_bind]
    cases fromUtf8 bytes <;> simp
  | error e =>
    dsimp only
    rw [hpad, ok_bind, ok_bind]
    cases engines.urlSafeNoPad (SkinGetBE.padLoop 3 encoded) with
    | error e' => rfl
    | ok bytes =>
      dsimp only
      cases fromUtf8 bytes <;> simp

theorem getPayload_eq (engines : Base64Engines) {token : Str} (ht : byteLen token < 2 ^ 63)
    {result : Except Error Str} (h : JWT.getPayload engines token = some result) :
    getPayload engines token = .ok result := by
  unfold getPayload
  unfold JWT.getPayload at h
  cases hfirst : findChar (· == '.') token with
  | none =>
    simp only [hfirst, Option.some.injEq] at h
    rw [← h]
  | some firstDot =>
    simp only [hfirst, Option.bind_eq_bind] at h
    obtain ⟨afterFirst, hafter, h⟩ := Option.bind_eq_some_iff.mp h
    obtain ⟨pre, htoken, hpre⟩ := sliceFrom_eq_some hafter
    have hlen := congrArg byteLen htoken
    rw [byteLen_append] at hlen
    have hstart : add 64 firstDot 1 = .ok (firstDot + 1) := add_eq (by omega)
    simp only [hstart, ok_bind, hafter, cut_some]
    cases hsecond : findChar (· == '.') afterFirst with
    | none =>
      simp only [hsecond, Option.map_none, Option.some.injEq] at h
      rw [← h]
    | some i =>
      simp only [hsecond, Option.map_some] at h
      obtain ⟨payload, hslice, h⟩ := Option.bind_eq_some_iff.mp h
      obtain ⟨pre', post, htoken', hpre', hstop⟩ := slice_eq_some hslice
      have hlen' := congrArg byteLen htoken'
      rw [byteLen_append, byteLen_append] at hlen'
      have hsum : add 64 i firstDot = .ok (i + firstDot) := add_eq (by omega)
      have hdot : add 64 (i + firstDot) 1 = .ok (i + firstDot + 1) := add_eq (by omega)
      simp only [hsum, hdot, ok_bind, hslice, cut_some, decodeBase64_eq]
      rw [Option.some.inj h]

theorem getJsonValue_eq {json key : Str} (hj : byteLen json < 2 ^ 63) {value : Option Str}
    (h : JWT.getJsonValue json key = some value) : getJsonValue json key = .ok value := by
  unfold getJsonValue
  unfold JWT.getJsonValue at h
  cases hfind : findStr (JWT.searchKey key) json with
  | none =>
    simp only [hfind, Option.some.injEq] at h
    rw [← h]
  | some pos =>
    simp only [hfind, Option.bind_eq_bind] at h
    obtain ⟨rest, hrest, h⟩ := Option.bind_eq_some_iff.mp h
    obtain ⟨pre, hjson, hpre⟩ := sliceFrom_eq_some hrest
    have hlen := congrArg byteLen hjson
    rw [byteLen_append] at hlen
    have hstart : add 64 pos (byteLen (JWT.searchKey key)) =
        .ok (pos + byteLen (JWT.searchKey key)) := add_eq (by omega)
    simp only [hstart, ok_bind, hrest, cut_some]
    rw [Option.some.inj h]

theorem extractFirst_go_eq {α : Type} (accept : Str → Option α) {payload : Str}
    (hp : byteLen payload < 2 ^ 63) (keys : List Str) :
    extractFirst.go accept payload keys = .ok (firstAccepted accept keys payload) := by
  induction keys with
  | nil => rfl
  | cons key keys ih =>
    obtain ⟨r, hr⟩ := Option.isSome_iff_exists.mp (JWT.getJsonValue_isSome payload key)
    simp only [extractFirst.go, firstAccepted, List.findSome?_cons, getJsonValue_eq hp hr, hr,
      ok_bind, Option.bind_some]
    cases r.bind accept with
    | none => exact ih
    | some found => rfl

theorem extractFirst_eq {α : Type} (accept : Str → Option α) (keys : List Str) {payloads : List Str}
    (hp : ∀ payload ∈ payloads, byteLen payload < 2 ^ 63) :
    extractFirst accept keys payloads =
      .ok (payloads.findSome? (firstAccepted accept keys)) := by
  induction payloads with
  | nil => rfl
  | cons payload payloads ih =>
    have hrest := ih fun p hmem => hp p (List.mem_cons_of_mem _ hmem)
    simp only [extractFirst, extractFirst_go_eq accept (hp payload List.mem_cons_self),
      List.findSome?_cons, ok_bind]
    cases firstAccepted accept keys payload with
    | none => exact hrest
    | some found => rfl

/-- The position behind an opening quote lies in the text. -/
theorem opening_eq {text body : Str} (ht : byteLen text < 2 ^ 63) {pos opening : ℕ}
    (hbody : sliceFrom text (pos + opening + 1) = some body) :
    add 64 pos opening = .ok (pos + opening) ∧
      add 64 (pos + opening) 1 = .ok (pos + opening + 1) := by
  obtain ⟨pre, rfl, hpre⟩ := sliceFrom_eq_some hbody
  rw [byteLen_append] at ht
  exact ⟨add_eq (by omega), add_eq (by omega)⟩

/-- The position behind a closing quote lies in the text, and further on than the round began. -/
theorem closing_eq {text before after : Str} (ht : byteLen text < 2 ^ 63)
    (hnext : text = before ++ after) {pos opening closing : ℕ}
    (hpos : byteLen before = pos + opening + 1 + closing + 1) :
    add 64 (pos + opening + 1) closing = .ok (pos + opening + 1 + closing) ∧
      add 64 (pos + opening + 1 + closing) 1 = .ok (pos + opening + 1 + closing + 1) ∧
      advance pos (pos + opening + 1 + closing + 1) = .ok (pos + opening + 1 + closing + 1) := by
  rw [hnext, byteLen_append] at ht
  exact ⟨add_eq (by omega), add_eq (by omega), advance_eq (by omega)⟩

theorem parseAuthChainLoop_eq (engines : Base64Engines) {json before tail : Str}
    (hlen : byteLen json < 2 ^ 63) (hjson : json = before ++ tail) {fuel : ℕ}
    (hf : tail.length < fuel) (tokens : List Str) :
    parseAuthChainLoop engines json fuel (byteLen before) tokens =
      .ok (tokens ++ (quoted tail).filterMap (authPayload engines)) := by
  induction fuel generalizing before tail tokens with
  | zero => omega
  | succ fuel ih =>
    have hfrom : sliceFrom json (byteLen before) = some tail := by
      rw [hjson]
      exact sliceFrom_append _ _
    cases scanRound hjson with
    | done hfind hquoted => simp [parseAuthChainLoop, hfrom, hfind, hquoted]
    | unclosed opening body hfind hbody hclose hquoted =>
      obtain ⟨hquote, hstart⟩ := opening_eq hlen hbody
      simp [parseAuthChainLoop, hfrom, hfind, hquote, hstart, hbody, hclose, hquoted]
    | token opening body closing token before' after hfind hbody hclose htoken hnext hpos hquoted
        hshort =>
      obtain ⟨hquote, hstart⟩ := opening_eq hlen hbody
      obtain ⟨hstop, hbehind, hadvance⟩ := closing_eq hlen hnext hpos
      obtain ⟨pre, post, htext, -, -⟩ := slice_eq_some htoken
      have htokenLen : byteLen token < 2 ^ 63 := by
        rw [htext, byteLen_append, byteLen_append] at hlen
        omega
      obtain ⟨result, hresult⟩ :=
        Option.isSome_iff_exists.mp (JWT.getPayload_isSome engines token)
      have hrest := ih hnext (by omega)
      rw [hpos] at hrest
      simp only [parseAuthChainLoop, hfrom, cut_some, hfind, hquote, hstart, hbody, hclose, hstop,
        htoken, hbehind, hadvance, getPayload_eq engines htokenLen hresult, ok_bind, hquoted,
        List.filterMap_cons, authPayload, decodedPayload, hresult, Option.bind_some]
      by_cases hdots : token.count '.' = 2
      · rw [if_pos hdots, if_pos hdots]
        cases result with
        | ok payload => simp [hrest, Except.toOption]
        | error e => simp [hrest, Except.toOption]
      · rw [if_neg hdots, if_neg hdots, hrest]

theorem parseAuthChain_eq (engines : Base64Engines) {json : Str} (hlen : byteLen json < 2 ^ 63) :
    parseAuthChain engines json = .ok (.ok ((quoted json).filterMap (authPayload engines))) := by
  have h := parseAuthChainLoop_eq engines hlen (List.nil_append json).symm (Nat.lt_succ_self _) []
  rw [byteLen_nil, List.nil_append] at h
  rw [parseAuthChain, h, ok_bind]

theorem extractPlayerNameLoop_eq {engines : Base64Engines} (he : engines.Shrink)
    {json before tail : Str} (hlen : byteLen json + 3 < 2 ^ 63) (hjson : json = before ++ tail)
    {fuel : ℕ} (hf : tail.length < fuel) {seen : List Str} {name : Str}
    (h : SkinGetBE.extractPlayerNameLoop engines json fuel (byteLen before) seen = some name) :
    extractPlayerNameLoop engines json fuel (byteLen before) seen = .ok name := by
  induction fuel generalizing before tail seen with
  | zero => omega
  | succ fuel ih =>
    have hfrom : sliceFrom json (byteLen before) = some tail := by
      rw [hjson]
      exact sliceFrom_append _ _
    cases scanRound hjson with
    | done hfind hquoted =>
      simp only [SkinGetBE.extractPlayerNameLoop, hfrom, hfind, Option.bind_eq_bind,
        Option.bind_some, Option.some.injEq] at h
      simp [extractPlayerNameLoop, hfrom, hfind, h]
    | unclosed opening body hfind hbody hclose hquoted =>
      obtain ⟨hquote, hstart⟩ := opening_eq (by omega) hbody
      simp only [SkinGetBE.extractPlayerNameLoop, hfrom, hfind, hbody, hclose,
        Option.bind_eq_bind, Option.bind_some, Option.some.injEq] at h
      simp [extractPlayerNameLoop, hfrom, hfind, hquote, hstart, hbody, hclose, h]
    | token opening body closing token before' after hfind hbody hclose htoken hnext hpos hquoted
        hshort =>
      obtain ⟨hquote, hstart⟩ := opening_eq (by omega) hbody
      obtain ⟨hstop, hbehind, hadvance⟩ := closing_eq (by omega) hnext hpos
      obtain ⟨pre, post, htext, -, -⟩ := slice_eq_some htoken
      have htokenLen : byteLen token ≤ byteLen json := by
        rw [htext, byteLen_append, byteLen_append]
        omega
      obtain ⟨result, hresult⟩ :=
        Option.isSome_iff_exists.mp (JWT.getPayload_isSome engines token)
      have hpayload := getPayload_eq engines (show byteLen token < 2 ^ 63 by omega) hresult
      have hrest {seen : List Str} (h : SkinGetBE.extractPlayerNameLoop engines json fuel
          (byteLen before + opening + 1 + closing + 1) seen = some name) :
          extractPlayerNameLoop engines json fuel (byteLen before + opening + 1 + closing + 1)
            seen =
            .ok name := by
        rw [← hpos] at h ⊢
        exact ih hnext (by omega) h
      simp only [SkinGetBE.extractPlayerNameLoop, hfrom, hfind, hbody, hclose, htoken, hresult,
        Option.bind_eq_bind, Option.bind_some] at h
      simp only [extractPlayerNameLoop, hfrom, cut_some, hfind, hquote, hstart, hbody, hclose,
        hstop, htoken, hbehind, hadvance, hpayload, ok_bind, List.contains_iff_mem]
      split_ifs at h ⊢ with hshape hseen
      · exact hrest h
      · exact hrest h
      cases result with
      | error e => exact hrest h
      | ok payload =>
        have hsize := getPayload_byteLen_le he hresult
        have hpayloads : ∀ p ∈ [payload], byteLen p < 2 ^ 63 := by
          intro p hp
          rw [List.mem_singleton.mp hp]
          omega
        have hfirst := extractFirst_eq acceptNonempty playerNameKeys hpayloads
        dsimp only at h ⊢
        rw [SkinGetBE.extractFirst_eq, Option.bind_some] at h
        rw [hfirst, ok_bind]
        cases hfound : [payload].findSome? (firstAccepted acceptNonempty playerNameKeys) with
        | none =>
          rw [hfound] at h
          exact hrest h
        | some found =>
          rw [hfound] at h
          rw [← Option.some.inj h]

theorem extractPlayerName_eq {engines : Base64Engines} (he : engines.Shrink) {json : Str}
    (hlen : byteLen json + 3 < 2 ^ 63) :
    extractPlayerName engines json = .ok (playerNameOf engines json) :=
  extractPlayerNameLoop_eq he hlen (List.nil_append json).symm (Nat.lt_succ_self _)
    (SkinGetBE.extractPlayerName_eq engines json)

/-- A payload of the chain is hardly longer than the chain. -/
theorem authPayload_byteLen_le {engines : Base64Engines} (he : engines.Shrink) {json payload : Str}
    (h : payload ∈ (quoted json).filterMap (authPayload engines)) :
    byteLen payload ≤ byteLen json + 3 := by
  obtain ⟨token, htoken, hpayload⟩ := List.mem_filterMap.mp h
  have hle := quoted_byteLen_le htoken
  unfold authPayload decodedPayload at hpayload
  split_ifs at hpayload
  obtain ⟨result, hresult, hok⟩ := Option.bind_eq_some_iff.mp hpayload
  cases result with
  | error e => simp [Except.toOption] at hok
  | ok text =>
    obtain rfl : text = payload := by simpa [Except.toOption] using hok
    have := getPayload_byteLen_le he hresult
    omega

theorem collectMetadata_eq {payloads : List Str}
    (hp : ∀ payload ∈ payloads, byteLen payload < 2 ^ 63) {metadata : LoginMetadata}
    (h : SkinGetBE.collectMetadata payloads = some metadata) :
    collectMetadata payloads = .ok metadata := by
  simp only [SkinGetBE.collectMetadata, extractString, extractI32, SkinGetBE.extractFirst_eq,
    Option.bind_eq_bind, Option.bind_some, Option.some.injEq] at h
  rw [← h]
  simp only [collectMetadata, extractFirst_eq _ _ hp, ok_bind]

theorem decodeLooseBase64_eq (engines : Base64Engines) (input : Str) :
    decodeLooseBase64 engines input = .ok (SkinGetBE.decodeLooseBase64 engines input) := by
  have hpad : padLoop 4 (input.filter isBase64Char) =
      .ok (SkinGetBE.padLoop 3 (input.filter isBase64Char)) := padLoop_eq (by omega)
  unfold decodeLooseBase64 SkinGetBE.decodeLooseBase64
  dsimp only
  split_ifs
  · rfl
  · rw [hpad, ok_bind]

theorem readSkinData_eq (engines : Base64Engines) {skinJson : Str}
    (hj : byteLen skinJson < 2 ^ 63) {skinData : Option Bytes}
    (h : SkinGetBE.readSkinData engines skinJson = some skinData) :
    readSkinData engines skinJson = .ok skinData := by
  obtain ⟨r, hr⟩ := Option.isSome_iff_exists.mp
    (JWT.getJsonValue_isSome skinJson "SkinData".toList)
  simp only [SkinGetBE.readSkinData, hr, Option.bind_eq_bind, Option.bind_some] at h
  simp only [readSkinData, getJsonValue_eq hj hr, ok_bind]
  cases r with
  | none => rw [← Option.some.inj h]
  | some value =>
    dsimp only at h ⊢
    split_ifs at h ⊢
    · rw [← Option.some.inj h]
    · rw [decodeLooseBase64_eq, ok_bind]
      cases hd : SkinGetBE.decodeLooseBase64 engines value with
      | none =>
        rw [hd] at h
        rw [← Option.some.inj h]
      | some bytes =>
        rw [hd] at h
        rw [← Option.some.inj h]

/-- A declared size is a 32-bit number. -/
theorem declaredDimension_eq {skinJson key : Str} (hj : byteLen skinJson < 2 ^ 63) {size : ℕ}
    (h : SkinGetBE.declaredDimension skinJson key = some size) :
    declaredDimension skinJson key = .ok size ∧ size < 2 ^ 32 := by
  obtain ⟨value, hvalue, h⟩ := Option.bind_eq_some_iff.mp h
  obtain rfl := Option.some.inj h
  refine ⟨?_, ?_⟩
  · rw [declaredDimension, getJsonValue_eq hj hvalue, ok_bind]
  · cases hparse : value.bind parseU32 with
    | none => exact Nat.two_pow_pos 32
    | some n =>
      obtain ⟨text, -, htext⟩ := Option.bind_eq_some_iff.mp hparse
      simpa using (Option.filter_eq_some_iff.mp htext).2

theorem skinDimensions_eq {imgW imgH : ℕ} (hw : imgW < 2 ^ 32) (hh : imgH < 2 ^ 32) (pixels : ℕ) :
    skinDimensions imgW imgH pixels = .ok (SkinGetBE.skinDimensions imgW imgH pixels) := by
  have hmul : mul 64 imgW imgH = .ok (imgW * imgH) := mul_eq (by
    calc imgW * imgH < 2 ^ 32 * 2 ^ 32 := Nat.mul_lt_mul'' hw hh
      _ = 2 ^ 64 := rfl)
  unfold skinDimensions SkinGetBE.skinDimensions
  by_cases hzero : imgW = 0 ∨ imgH = 0
  · rw [if_pos hzero, if_pos (hzero.imp_right .inl)]
  rw [if_neg hzero, hmul, ok_bind]
  by_cases hprod : imgW * imgH ≠ pixels
  · rw [if_pos hprod, if_pos (.inr (.inr hprod))]
  · rw [if_neg hprod, if_neg (by tauto)]

/-- For no packet that fits in memory does the parser meet a fault or return an error. -/
theorem parseLoginPacket_no_fault (engines : Base64Engines) (he : engines.Shrink) (data : Bytes)
    (hd : data.length < 2 ^ 63) : ∃ p, parseLoginPacket engines data = .ok (.ok p) ∧
      SkinGetBE.parseLoginPacket engines data = some (.ok p) := by
  cases hf : SkinGetBE.selectLayout data with
  | none =>
    refine ⟨none, ?_, by simp [SkinGetBE.parseLoginPacket, hf]⟩
    rw [parseLoginPacket, selectLayout_eq hd, hf, ok_bind]
  | some fields =>
    obtain ⟨hchain, hskin⟩ := selectLayout_byteLen_lt hf
    have hname := extractPlayerName_eq he (show byteLen fields.chainJson + 3 < 2 ^ 63 by omega)
    obtain ⟨result, hresult⟩ :=
      Option.isSome_iff_exists.mp (JWT.getPayload_isSome engines fields.skinJwt)
    have hpayload := getPayload_eq engines (show byteLen fields.skinJwt < 2 ^ 63 by omega) hresult
    cases result with
    | error e =>
      refine ⟨none, ?_, parseLoginPacket_of_error hf hresult⟩
      simp only [parseLoginPacket, selectLayout_eq hd, hf, ok_bind, hname, hpayload]
    | ok skinJson =>
      have hle := getPayload_byteLen_le he hresult
      have hjson : byteLen skinJson < 2 ^ 63 := by omega
      have hpayloads : ∀ payload ∈ (quoted fields.chainJson).filterMap (authPayload engines) ++
          [skinJson], byteLen payload < 2 ^ 63 := by
        intro payload hmem
        rcases List.mem_append.mp hmem with hmem | hmem
        · have := authPayload_byteLen_le he hmem
          omega
        · rwa [List.mem_singleton.mp hmem]
      obtain ⟨metadata, hmeta⟩ := Option.isSome_iff_exists.mp (collectMetadata_isSome
        ((quoted fields.chainJson).filterMap (authPayload engines) ++ [skinJson]))
      obtain ⟨skinData, hdata⟩ :=
        Option.isSome_iff_exists.mp (readSkinData_isSome engines skinJson)
      obtain ⟨skinId, hid⟩ := Option.isSome_iff_exists.mp
        (JWT.getJsonValue_isSome skinJson "SkinId".toList)
      obtain ⟨imgW, hw⟩ := Option.isSome_iff_exists.mp
        (declaredDimension_isSome skinJson "SkinImageWidth".toList)
      obtain ⟨imgH, hh⟩ := Option.isSome_iff_exists.mp
        (declaredDimension_isSome skinJson "SkinImageHeight".toList)
      obtain ⟨hcw, hwlt⟩ := declaredDimension_eq hjson hw
      obtain ⟨hch, hhlt⟩ := declaredDimension_eq hjson hh
      simp only [parseLoginPacket, selectLayout_eq hd, hf, ok_bind, hname, hpayload,
        parseAuthChain_eq engines (show byteLen fields.chainJson < 2 ^ 63 by omega),
        collectMetadata_eq hpayloads hmeta, getJsonValue_eq hjson hid,
        readSkinData_eq engines hjson hdata, hcw, hch, skinDimensions_eq hwlt hhlt,
        SkinGetBE.parseLoginPacket, SkinGetBE.extractPlayerName_eq, hresult,
        SkinGetBE.parseAuthChain_eq, hmeta, hid, hdata, hw, hh, Option.bind_eq_bind,
        Option.bind_some]
      cases skinData with
      | none => exact ⟨none, rfl, rfl⟩
      | some bytes => exact ⟨some _, rfl, rfl⟩

theorem parseLoginPacket_no_fault_onePixel : ∃ p,
    parseLoginPacket strictEngines NetherSession.onePixelLogin = .ok (.ok p) ∧
      SkinGetBE.parseLoginPacket strictEngines NetherSession.onePixelLogin = some (.ok p) :=
  parseLoginPacket_no_fault strictEngines strictEngines_shrink _ (by decide +kernel)

end SkinGetBE.Checked
