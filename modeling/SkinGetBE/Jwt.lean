import SkinGetBE.Base64
import SkinGetBE.Buffer
import SkinGetBE.QuoteScan

/-!
# JWT payloads and substring JSON lookup

The base64 decoders belong to a third-party package and are parameters. A
result `none` of a function below is a panic of the source: a text sliced off a
character boundary. The theorems of the last section exclude it for every
input.
-/
namespace SkinGetBE
open Octets Text

/-- The decoders of the two base64 engines that the program uses; an error
carries its display text. -/
structure Base64Engines where
  urlSafeNoPad : Str → Except String Bytes
  standard : Str → Except String Bytes

/-- Strict decoders: the first refuses padding, the second requires it. -/
def strictEngines : Base64Engines where
  urlSafeNoPad s :=
    match Base64.urlSafe.decode s with
    | some bytes => .ok bytes
    | none => .error "Invalid symbol or length"
  standard s :=
    match Base64.standard.decodePadded s with
    | some bytes => .ok bytes
    | none => .error "Invalid symbol, length or padding"

/-- The loop `while len % 4 != 0 { push('=') }`; three rounds always suffice. -/
def padLoop : ℕ → Str → Str
  | 0, padded => padded
  | fuel + 1, padded =>
    if byteLen padded % 4 = 0 then padded else padLoop fuel (padded ++ ['='])

namespace JWT

def decodeBase64 (engines : Base64Engines) (encoded : Str) : Except Error Str :=
  let decoded : Except String Bytes :=
    match engines.urlSafeNoPad encoded with
    | .ok bytes => .ok bytes
    | .error _ => engines.urlSafeNoPad (padLoop 3 encoded)
  match decoded with
  | .error e => .error (.cryptoError s!"JWT decode error: {e}")
  | .ok bytes =>
    match fromUtf8 bytes with
    | some text => .ok text
    | none => .error (.cryptoError "UTF-8 decode error: invalid utf-8 sequence")

def getPayload (engines : Base64Engines) (token : Str) : Option (Except Error Str) :=
  match findChar (· == '.') token with
  | none => some (.error (.cryptoError "Invalid JWT: missing first dot"))
  | some firstDot => do
    let afterFirst ← sliceFrom token (firstDot + 1)
    match (findChar (· == '.') afterFirst).map (· + firstDot + 1) with
    | none => some (.error (.cryptoError "Invalid JWT: missing second dot"))
    | some secondDot => do
      let payloadB64 ← slice token (firstDot + 1) secondDot
      some (decodeBase64 engines payloadB64)

/-- Characters up to the first quote that no backslash escapes. -/
def stringValueLoop : Str → Str → Bool → Option Str
  | [], _, _ => none
  | c :: rest, value, prevBackslash =>
    if c == '"' && !prevBackslash then some value
    else stringValueLoop rest (value ++ [c]) (c == '\\' && !prevBackslash)

def isDelimiter (c : Char) : Bool := c == ',' || c == '}' || c == ']' || c == ' '

/-- The value at the start of the text that follows a key and its colon. -/
def valueAt (content : Str) : Option Str :=
  match content with
  | '"' :: inner => stringValueLoop inner [] false
  | _ =>
    let value := content.takeWhile (!isDelimiter ·)
    if value.isEmpty then none else some value

def searchKey (key : Str) : Str := '"' :: (key ++ ['"', ':'])

def getJsonValue (json key : Str) : Option (Option Str) :=
  match findStr (searchKey key) json with
  | none => some none
  | some pos => do
    let rest ← sliceFrom json (pos + byteLen (searchKey key))
    some (valueAt (trimStart rest))

end JWT

/-- One round per quoted token; the length of the text is a sufficient budget. -/
def parseAuthChainLoop (engines : Base64Engines) (chainJson : Str) :
    ℕ → ℕ → List Str → Option (List Str)
  | 0, _, _ => none
  | fuel + 1, searchPos, tokens => do
    let fromPos ← sliceFrom chainJson searchPos
    match findChar (· == '"') fromPos with
    | none => some tokens
    | some quotePos =>
      let tokenStart := searchPos + quotePos + 1
      let fromToken ← sliceFrom chainJson tokenStart
      match findChar (· == '"') fromToken with
      | none => some tokens
      | some tokenEnd =>
        let token ← slice chainJson tokenStart (tokenStart + tokenEnd)
        let next := tokenStart + tokenEnd + 1
        if token.count '.' = 2 then
          match ← JWT.getPayload engines token with
          | .ok payload => parseAuthChainLoop engines chainJson fuel next (tokens ++ [payload])
          | .error _ => parseAuthChainLoop engines chainJson fuel next tokens
        else parseAuthChainLoop engines chainJson fuel next tokens

def parseAuthChain (engines : Base64Engines) (chainJson : Str) :
    Option (Except Error (List Str)) :=
  (parseAuthChainLoop engines chainJson (chainJson.length + 1) 0 []).map .ok

/-- A text around one character found in it. -/
theorem sliceFrom_after (pre post : Str) (c : Char) (hc : c.utf8Size = 1) :
    sliceFrom (pre ++ c :: post) (byteLen pre + 1) = some post := by
  have h := sliceFrom_append (pre ++ [c]) post
  simpa [hc] using h

namespace JWT

theorem getPayload_of_two_dots (engines : Base64Engines) (header payload tail : Str)
    (hh : '.' ∉ header) (hp : '.' ∉ payload) :
    getPayload engines (header ++ '.' :: (payload ++ '.' :: tail)) =
      some (decodeBase64 engines payload) := by
  have notDot {s : Str} (hs : '.' ∉ s) : ∀ x ∈ s, (x == '.') = false := by
    intro x hx
    simp only [beq_eq_false_iff_ne]
    exact fun he => hs (he ▸ hx)
  have hfirst : findChar (· == '.') (header ++ '.' :: (payload ++ '.' :: tail)) =
      some (byteLen header) := findChar_append (by simp) (notDot hh)
  have hsecond : findChar (· == '.') (payload ++ '.' :: tail) = some (byteLen payload) :=
    findChar_append (by simp) (notDot hp)
  have hslice : slice (header ++ '.' :: (payload ++ '.' :: tail)) (byteLen header + 1)
      (byteLen payload + byteLen header + 1) = some payload := by
    have h := slice_append (header ++ ['.']) payload ('.' :: tail)
    have hd : '.'.utf8Size = 1 := rfl
    simp only [byteLen_append, byteLen_cons, byteLen_nil, hd, List.append_assoc,
      List.singleton_append] at h
    rw [← h]
    congr 1
    omega
  simp only [getPayload, hfirst, sliceFrom_after header _ '.' rfl, hsecond, Option.bind_eq_bind,
    Option.bind_some, Option.map_some, hslice]

/-- A token without two dots is an error; otherwise what is between them is decoded. -/
theorem getPayload_cases (engines : Base64Engines) (token : Str) :
    (∃ e, getPayload engines token = some (.error e)) ∨
      ∃ header payload tail, token = header ++ '.' :: (payload ++ '.' :: tail) ∧
        getPayload engines token = some (decodeBase64 engines payload) := by
  cases hfirst : findChar (· == '.') token with
  | none =>
    left
    simp [getPayload, hfirst]
  | some i =>
    obtain ⟨header, c, rest, rfl, rfl, hc, hh⟩ := findChar_eq_some hfirst
    obtain rfl : c = '.' := by simpa using hc
    cases hsecond : findChar (· == '.') rest with
    | none =>
      left
      simp only [getPayload, hfirst, sliceFrom_after header _ '.' rfl, hsecond,
        Option.bind_eq_bind, Option.bind_some, Option.map_none]
      exact ⟨_, rfl⟩
    | some j =>
      obtain ⟨payload, c, tail, rfl, rfl, hc, hp⟩ := findChar_eq_some hsecond
      obtain rfl : c = '.' := by simpa using hc
      have notMem {s : Str} (hs : ∀ x ∈ s, (x == '.') = false) : '.' ∉ s :=
        fun hm => by simpa using hs _ hm
      exact .inr ⟨header, payload, tail, rfl,
        getPayload_of_two_dots engines header payload tail (notMem hh) (notMem hp)⟩

theorem getPayload_isSome (engines : Base64Engines) (token : Str) :
    (getPayload engines token).isSome := by
  rcases getPayload_cases engines token with ⟨e, h⟩ | ⟨header, payload, tail, -, h⟩
  · rw [h]
    rfl
  · rw [h]
    rfl

theorem getJsonValue_isSome (json key : Str) : (getJsonValue json key).isSome := by
  cases h : findStr (searchKey key) json with
  | none => simp [getJsonValue, h]
  | some pos =>
    obtain ⟨pre, post, rfl, rfl⟩ := findStr_eq_some h
    have hs := sliceFrom_append (pre ++ searchKey key) post
    rw [byteLen_append, List.append_assoc] at hs
    simp [getJsonValue, h, hs]

end JWT

/-- The payload of a token, when it can be decoded. -/
def decodedPayload (engines : Base64Engines) (token : Str) : Option Str :=
  (JWT.getPayload engines token).bind Except.toOption

/-- The payload that a quoted text adds to the chain. -/
def authPayload (engines : Base64Engines) (token : Str) : Option Str :=
  if token.count '.' = 2 then decodedPayload engines token else none

theorem parseAuthChainLoop_eq (engines : Base64Engines) {json before tail : Str}
    (hjson : json = before ++ tail) {fuel : ℕ} (hf : tail.length < fuel) (tokens : List Str) :
    parseAuthChainLoop engines json fuel (byteLen before) tokens =
      some (tokens ++ (quoted tail).filterMap (authPayload engines)) := by
  induction fuel generalizing before tail tokens with
  | zero => omega
  | succ fuel ih =>
    have hfrom : sliceFrom json (byteLen before) = some tail := by
      rw [hjson]
      exact sliceFrom_append _ _
    cases scanRound hjson with
    | done hfind hquoted => simp [parseAuthChainLoop, hfrom, hfind, hquoted]
    | unclosed opening body hfind hbody hclose hquoted =>
      simp [parseAuthChainLoop, hfrom, hfind, hbody, hclose, hquoted]
    | token opening body closing token before' after hfind hbody hclose htoken hnext hpos hquoted
        hshort =>
      obtain ⟨result, hresult⟩ :=
        Option.isSome_iff_exists.mp (JWT.getPayload_isSome engines token)
      have hrest := ih hnext (by omega)
      rw [hpos] at hrest
      simp only [parseAuthChainLoop, hfrom, hfind, hbody, hclose, htoken, hresult,
        Option.bind_eq_bind, Option.bind_some, hrest, hquoted, List.filterMap_cons, authPayload,
        decodedPayload]
      by_cases hdots : token.count '.' = 2
      · rw [if_pos hdots, if_pos hdots]
        cases result with
        | ok payload => simp [Except.toOption]
        | error e => simp [Except.toOption]
      · rw [if_neg hdots, if_neg hdots]

theorem parseAuthChain_eq (engines : Base64Engines) (json : Str) :
    parseAuthChain engines json = some (.ok ((quoted json).filterMap (authPayload engines))) := by
  have h := parseAuthChainLoop_eq engines (List.nil_append json).symm (Nat.lt_succ_self _) []
  rw [byteLen_nil, List.nil_append] at h
  rw [parseAuthChain, h]
  rfl

end SkinGetBE
