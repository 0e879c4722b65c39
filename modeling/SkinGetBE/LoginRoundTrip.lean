import SkinGetBE.FlatJson
import SkinGetBE.LoginLayout

/-!
# A skin survives the Login packet

The skin is written into a flat JSON object, the object into a token and the
token into a packet. The parser finds the layout, then the token, then each
member by its key.
-/
namespace SkinGetBE
open Octets Text

/-- The decoders of the package invert its encoders. -/
structure Base64Engines.Invert (engines : Base64Engines) : Prop where
  standard : ∀ d, engines.standard (Base64.standard.encodePadded d) = .ok d
  urlSafeNoPad : ∀ d, engines.urlSafeNoPad (Base64.urlSafe.encode d) = .ok d

theorem strictEngines_invert : strictEngines.Invert where
  standard d := by simp [strictEngines, Base64.Alphabet.decodePadded_encodePadded]
  urlSafeNoPad d := by simp [strictEngines, Base64.Alphabet.decode_encode]

/-- The object has a string under `key`, with the given items between its quotes. -/
def HasString (members : List JsonText.Member) (key : String) (items : List JsonText.Item) :
    Prop :=
  ∃ m ∈ members, m.key.text = key.toList ∧ m.value = .string items

/-- The object has a string under `key` whose text between the quotes is `text`.
A text without quotes, backslashes and control characters denotes itself. -/
def HasText (members : List JsonText.Member) (key : String) (text : Str) : Prop :=
  ∃ items, HasString members key items ∧ JsonText.renderItems items = text

/-- The object has the decimal number `n` under `key`. -/
def HasDecimal (members : List JsonText.Member) (key : String) (n : ℕ) : Prop :=
  ∃ m ∈ members, m.key.text = key.toList ∧
    ∃ lexeme : JsonText.Lexeme, lexeme.text = Nat.toDigits 10 n ∧ m.value = .number lexeme

/-- Standard base64 of the octets, padded or not; any symbol may be escaped, as
the slash often is. -/
def WritesBase64 (items : List JsonText.Item) (data : Bytes) : Prop :=
  items.map JsonText.Item.char = Base64.standard.encode data ∨
    items.map JsonText.Item.char = Base64.standard.encodePadded data

theorem getJsonValue_string {members : List JsonText.Member}
    (hkeys : (members.map (·.key.text)).Nodup) {key : String} {items : List JsonText.Item}
    (h : HasString members key items) :
    JWT.getJsonValue (JsonText.render members) key.toList =
      some (some (JsonText.renderItems items)) := by
  obtain ⟨m, hm, hkey, hvalue⟩ := h
  rw [← hkey, getJsonValue_member hkeys hm, hvalue]
  rfl

theorem declaredDimension_decimal {members : List JsonText.Member}
    (hkeys : (members.map (·.key.text)).Nodup) {key : String} {n : ℕ} (hn : n < 2 ^ 32)
    (h : HasDecimal members key n) :
    declaredDimension (JsonText.render members) key.toList = some n := by
  obtain ⟨m, hm, hkey, lexeme, htext, hvalue⟩ := h
  unfold declaredDimension
  rw [← hkey, getJsonValue_member hkeys hm, hvalue]
  simp [JsonText.Value.raw, htext, parseU32_toDigits hn]

theorem isBase64Char_standard : ∀ c ∈ Base64.standard.symbols, isBase64Char c = true := by
  have h : Base64.standard.symbols.all isBase64Char = true := by decide +kernel
  exact List.all_eq_true.mp h

/-- Dropping what is not base64 also drops the backslashes of escaped symbols. -/
theorem filter_renderItems (items : List JsonText.Item)
    (h : ∀ c ∈ items.map JsonText.Item.char, isBase64Char c = true) :
    (JsonText.renderItems items).filter isBase64Char = items.map JsonText.Item.char := by
  induction items with
  | nil => rfl
  | cons i items ih =>
    rw [List.map_cons] at h
    have hi := h i.char List.mem_cons_self
    have htail := ih fun c hc => h c (List.mem_cons_of_mem _ hc)
    have hb : isBase64Char '\\' = false := rfl
    cases i with
    | plain c hq hbs =>
      simp only [JsonText.Item.char] at hi
      simp [JsonText.Item.render, JsonText.Item.char, hi, htail]
    | escaped c =>
      simp only [JsonText.Item.char] at hi
      simp [JsonText.Item.render, JsonText.Item.char, hi, hb, htail]

theorem padLoop_eq_padding (fuel : ℕ) (s : Str) (h : (4 - byteLen s % 4) % 4 ≤ fuel) :
    padLoop fuel s = s ++ Base64.Alphabet.padding (byteLen s) := by
  unfold Base64.Alphabet.padding
  induction fuel generalizing s with
  | zero =>
    rw [Nat.le_zero.mp h]
    simp [padLoop]
  | succ fuel ih =>
    unfold padLoop
    split_ifs with h0
    · simp [h0]
    · have hbyte : byteLen (s ++ ['=']) = byteLen s + 1 := by
        rw [byteLen_append]
        rfl
      have hcount : (4 - byteLen s % 4) % 4 = (4 - (byteLen s + 1) % 4) % 4 + 1 := by omega
      rw [ih (s ++ ['=']) (by rw [hbyte]; omega), hbyte, hcount, List.replicate_succ,
        List.append_assoc]
      rfl

theorem utf8Size_standard : ∀ c ∈ '=' :: Base64.standard.symbols, c.utf8Size = 1 := by
  have h : ('=' :: Base64.standard.symbols).all (fun c => c.utf8Size == 1) = true := by
    decide +kernel
  intro c hc
  simpa using List.all_eq_true.mp h c hc

/-- Both padding styles are completed to the padded text. -/
theorem decodeLooseBase64_items {engines : Base64Engines} (he : engines.Invert)
    {items : List JsonText.Item} {data : Bytes} (hne : data ≠ []) (h : WritesBase64 items data) :
    decodeLooseBase64 engines (JsonText.renderItems items) = some data := by
  have hmem : ∀ c ∈ items.map JsonText.Item.char, c ∈ '=' :: Base64.standard.symbols := by
    intro c hc
    rcases h with h | h
    · exact List.mem_cons_of_mem _ (Base64.standard.mem_encode (h ▸ hc))
    · exact Base64.standard.mem_encodePadded (h ▸ hc)
  have hclean := filter_renderItems items fun c hc => by
    rcases List.mem_cons.mp (hmem c hc) with rfl | hs
    · rfl
    · exact isBase64Char_standard c hs
  have hbyte := byteLen_eq_length fun c hc => utf8Size_standard c (hmem c hc)
  have hpad : padLoop 3 (items.map JsonText.Item.char) = Base64.standard.encodePadded data := by
    rw [padLoop_eq_padding 3 _ (by omega), hbyte]
    rcases h with h | h
    · rw [h]
      rfl
    · have hlen : (Base64.standard.encodePadded data).length % 4 = 0 := by
        simp only [Base64.Alphabet.encodePadded, Base64.Alphabet.padding, List.length_append,
          List.length_replicate]
        omega
      rw [h, Base64.Alphabet.padding, hlen]
      simp
  have hsome : (items.map JsonText.Item.char).isEmpty = false := by
    have henc := Base64.standard.encode_ne_nil hne
    rw [List.isEmpty_eq_false_iff]
    rcases h with h | h
    · rwa [h]
    · rw [h, Base64.Alphabet.encodePadded]
      simp [henc]
  unfold decodeLooseBase64
  simp [hclean, hsome, hpad, he.standard, Except.toOption]

/-- The token around a JSON payload. -/
def skinToken (header signature : Str) (members : List JsonText.Member) : Str :=
  header ++ '.' :: (Base64.urlSafe.encode (asBytes (JsonText.render members)) ++ '.' :: signature)

theorem getPayload_skinToken {engines : Base64Engines} (he : engines.Invert)
    {header : Str} (hh : '.' ∉ header) (signature : Str) (members : List JsonText.Member) :
    JWT.getPayload engines (skinToken header signature members) =
      some (.ok (JsonText.render members)) := by
  unfold skinToken
  rw [JWT.getPayload_of_two_dots engines _ _ _ hh
    (Base64.urlSafe.encode_notMem (by decide +kernel) _)]
  unfold JWT.decodeBase64
  rw [he.urlSafeNoPad]
  simp only [fromUtf8_asBytes]

/-- Tokens whose skin payload is a flat object. -/
def skinTokens (chainTail header signature : Str) (members : List JsonText.Member)
    (hchain : '\x00' ∉ chainTail) (hh : '.' ∉ header ∧ '\x00' ∉ header)
    (hs : '.' ∉ signature ∧ '\x00' ∉ signature) : LoginTokens where
  chainTail := chainTail
  skinJwt := skinToken header signature members
  chain_noNul := hchain
  skin_noNul := by
    have := Base64.urlSafe.encode_notMem (c := '\x00') (by decide +kernel)
      (asBytes (JsonText.render members))
    simp [skinToken, hh.2, hs.2, this]
  skin_dots := by
    have := Base64.urlSafe.encode_notMem (c := '.') (by decide +kernel)
      (asBytes (JsonText.render members))
    simp [skinToken, List.count_append, List.count_eq_zero_of_not_mem, hh.1, hs.1, this]

/-- A skin written into a flat object, and that into any layout, is parsed back. -/
theorem parseLoginPacket_skinToken (engines : Base64Engines) (he : engines.Invert)
    (protocol : ℕ) (hp : 1 ≤ protocol) (hp' : protocol ≤ 100000) (encoding : ProtocolEncoding)
    (hasPayloadLength : Bool) (chainJson header signature : Str)
    (hbrace : chainJson.head? = some '{') (hchain : '\x00' ∉ chainJson)
    (hheader : '.' ∉ header ∧ '\x00' ∉ header) (hsignature : '.' ∉ signature ∧ '\x00' ∉ signature)
    (members : List JsonText.Member) (hkeys : (members.map (·.key.text)).Nodup)
    (rgba : Bytes) (width height : ℕ) (hwidth : 1 ≤ width ∧ width < 2 ^ 32)
    (hheight : 1 ≤ height ∧ height < 2 ^ 32) (hsize : width * height * 4 = rgba.length)
    (skinId : Str) (hid : HasText members "SkinId" skinId) (dataItems : List JsonText.Item)
    (hdata : HasString members "SkinData" dataItems) (hbase64 : WritesBase64 dataItems rgba)
    (himgW : HasDecimal members "SkinImageWidth" width)
    (himgH : HasDecimal members "SkinImageHeight" height)
    (hlen : (loginPayload protocol encoding hasPayloadLength chainJson
      (skinToken header signature members)).length < 2 ^ 24) :
    ∃ p, parseLoginPacket engines (loginPayload protocol encoding hasPayloadLength chainJson
        (skinToken header signature members)) = some (.ok (some p)) ∧
      p.skinData = rgba ∧ p.skinWidth = width ∧ p.skinHeight = height ∧
      p.skinId = sanitizeComponent skinId := by
  obtain ⟨tail, rfl⟩ : ∃ tail, chainJson = '{' :: tail := by
    cases chainJson with
    | nil => contradiction
    | cons c cs => exact ⟨cs, by simpa using hbrace⟩
  have hnul : '\x00' ∉ tail := fun h => hchain (List.mem_cons_of_mem _ h)
  obtain ⟨f, hf, -, hjwt⟩ := LoginTokens.finds_selectLayout
    (t := skinTokens tail header signature members hnul hheader hsignature) hp hp' encoding
    hasPayloadLength hlen
  have hpayload : JWT.getPayload engines f.skinJwt = some (.ok (JsonText.render members)) := by
    rw [hjwt]
    exact getPayload_skinToken he hheader.1 signature members
  obtain ⟨idItems, hid, rfl⟩ := hid
  obtain ⟨metadata, skinData, found, imgW, imgH, hd, hi, hw, hh, hparse⟩ :=
    parseLoginPacket_of_payload engines _ f _ hf hpayload
  have hpos : 0 < width * height := Nat.mul_pos hwidth.1 hheight.1
  have hne : rgba ≠ [] := List.length_pos_iff.mp (by omega)
  have hread : readSkinData engines (JsonText.render members) = some (some rgba) := by
    have hvalue : (JsonText.renderItems dataItems).isEmpty = false := by
      by_contra hv
      have hnil : JsonText.renderItems dataItems = [] := by simpa using hv
      have h := decodeLooseBase64_items he hne hbase64
      rw [hnil] at h
      contradiction
    have hgood : ¬ rgba.isEmpty = true ∧ rgba.length % 4 = 0 := ⟨by simpa using hne, by omega⟩
    simp only [readSkinData, getJsonValue_string hkeys hdata, Option.bind_eq_bind,
      Option.bind_some, hvalue, Bool.false_eq_true, if_false,
      decodeLooseBase64_items he hne hbase64,
      if_pos hgood]
  have hdims : skinDimensions width height (rgba.length / 4) = (width, height) := by
    unfold skinDimensions
    rw [if_neg (by omega)]
  rw [hread, Option.some.injEq] at hd
  rw [getJsonValue_string hkeys hid, Option.some.injEq] at hi
  rw [declaredDimension_decimal hkeys hwidth.2 himgW, Option.some.injEq] at hw
  rw [declaredDimension_decimal hkeys hheight.2 himgH, Option.some.injEq] at hh
  subst hd hi hw hh
  refine ⟨_, hparse, rfl, ?_, ?_, rfl⟩
  · dsimp only
    rw [hdims]
  · dsimp only
    rw [hdims]

/-- One white pixel, its base64 unpadded and with escaped slashes. -/
def pixelMembers : List JsonText.Member :=
  [⟨⟨"SkinImageHeight".toList, by decide, by decide⟩, .number ⟨['1'], by decide, by decide⟩⟩,
   ⟨⟨"SkinData".toList, by decide, by decide⟩, .string (List.replicate 5 (.escaped '/') ++
      [.plain 'w' (by decide) (by decide)])⟩,
   ⟨⟨"CapeData".toList, by decide, by decide⟩, .string [.escaped '"', .escaped '\\']⟩,
   ⟨⟨"SkinId".toList, by decide, by decide⟩, .string [.plain ':' (by decide) (by decide)]⟩,
   ⟨⟨"SkinImageWidth".toList, by decide, by decide⟩, .number ⟨['1'], by decide, by decide⟩⟩]

theorem parseLoginPacket_skinToken_pixel : ∃ p,
    parseLoginPacket strictEngines (loginPayload 975 .varInt true "{}".toList
      (skinToken "h".toList "s".toList pixelMembers)) = some (.ok (some p)) ∧
    p.skinData = [0xff, 0xff, 0xff, 0xff] ∧ p.skinWidth = 1 ∧ p.skinHeight = 1 ∧
    p.skinId = sanitizeComponent [':'] := by
  refine parseLoginPacket_skinToken strictEngines strictEngines_invert 975 (by decide) (by decide)
    .varInt true "{}".toList "h".toList "s".toList (by decide) (by decide) (by decide) (by decide)
    pixelMembers (by decide) [0xff, 0xff, 0xff, 0xff] 1 1 (by decide) (by decide) rfl
    [':'] ?_ (List.replicate 5 (.escaped '/') ++ [.plain 'w' (by decide) (by decide)])
    ?_ ?_ ?_ ?_ ?_
  · exact ⟨_, ⟨_, .tail _ (.tail _ (.tail _ (.head _))), rfl, rfl⟩, rfl⟩
  · exact ⟨_, .tail _ (.head _), rfl, rfl⟩
  · exact .inl (by decide +kernel)
  · exact ⟨_, .tail _ (.tail _ (.tail _ (.tail _ (.head _)))), rfl, _, by decide +kernel, rfl⟩
  · exact ⟨_, .head _, rfl, _, by decide +kernel, rfl⟩
  · decide +kernel

end SkinGetBE
