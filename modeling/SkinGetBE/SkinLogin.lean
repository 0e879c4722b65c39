import SkinGetBE.LoginRoundTrip
import SkinGetBE.SavedCaptures

/-!
# The login of a player

A client writes its skin into a token and the token into a login, in one of the layouts.
The login is parsed as that skin, and when the disk takes it, the save leaves one image
that is read back as the skin, and its sidecar.
-/
namespace SkinGetBE
open Octets Text

/-- What a client logs in with. The sizes of the skin are written as decimals, its data as base64,
among any other members, and the packet is not too long. -/
structure SkinLogin where
  protocol : ℕ
  encoding : ProtocolEncoding
  hasPayloadLength : Bool
  chainTail : Str
  header : Str
  signature : Str
  members : List JsonText.Member
  skinId : Str
  dataItems : List JsonText.Item
  skin : ExtractedSkin
  protocol_range : 1 ≤ protocol ∧ protocol ≤ 100000
  chain_noNul : '\x00' ∉ chainTail
  header_plain : '.' ∉ header ∧ '\x00' ∉ header
  signature_plain : '.' ∉ signature ∧ '\x00' ∉ signature
  keys : (members.map (·.key.text)).Nodup
  id_member : HasText members "SkinId" skinId
  data_member : HasString members "SkinData" dataItems
  data_items : WritesBase64 dataItems skin.data
  width_member : HasDecimal members "SkinImageWidth" skin.width
  height_member : HasDecimal members "SkinImageHeight" skin.height
  width_range : 1 ≤ skin.width ∧ skin.width < 2 ^ 32
  height_range : 1 ≤ skin.height ∧ skin.height < 2 ^ 32
  sizes : skin.width * skin.height * 4 = skin.data.length
  short : (loginPayload protocol encoding hasPayloadLength ('{' :: chainTail)
    (skinToken header signature members)).length < 2 ^ 24

namespace SkinLogin

def chainJson (l : SkinLogin) : Str := '{' :: l.chainTail

def payload (l : SkinLogin) : Bytes :=
  loginPayload l.protocol l.encoding l.hasPayloadLength l.chainJson
    (skinToken l.header l.signature l.members)

/-- The payload behind the identifier of the packet. -/
def packet (l : SkinLogin) : Bytes := 0x01 :: l.payload

def tokens (l : SkinLogin) : LoginTokens :=
  skinTokens l.chainTail l.header l.signature l.members l.chain_noNul l.header_plain
    l.signature_plain

variable {engines : Base64Engines}

theorem data_ne_nil (l : SkinLogin) : l.skin.data ≠ [] := by
  have hpos : 0 < l.skin.width * l.skin.height := Nat.mul_pos l.width_range.1 l.height_range.1
  have hsizes := l.sizes
  exact List.length_pos_iff.mp (by omega)

theorem readSkinData_member (l : SkinLogin) (he : engines.Invert) :
    readSkinData engines (JsonText.render l.members) = some (some l.skin.data) := by
  have hdecoded := decodeLooseBase64_items he l.data_ne_nil l.data_items
  have hvalue : (JsonText.renderItems l.dataItems).isEmpty = false := by
    rw [Bool.eq_false_iff, Ne, List.isEmpty_iff]
    intro hnil
    rw [hnil] at hdecoded
    contradiction
  have hgood : ¬ l.skin.data.isEmpty = true ∧ l.skin.data.length % 4 = 0 := by
    have hsizes := l.sizes
    exact ⟨by simpa using l.data_ne_nil, by omega⟩
  unfold readSkinData
  rw [getJsonValue_string l.keys l.data_member, Option.bind_eq_bind, Option.bind_some]
  dsimp only
  rw [hvalue, if_neg Bool.false_ne_true, hdecoded]
  exact congrArg some (if_pos hgood)

/-- The login is parsed, and as the skin it was written from. -/
theorem parsed (l : SkinLogin) (he : engines.Invert) (hs : engines.Shrink) : ∃ p,
    parseLoginPacket engines l.payload = some (.ok (some p)) ∧ ParsedSkin engines p l.skin ∧
      p.playerName = playerNameOf engines l.chainJson ∧ p.skinId = sanitizeComponent l.skinId := by
  obtain ⟨f, hf, hchain, hjwt⟩ := LoginTokens.finds_selectLayout (t := l.tokens)
    l.protocol_range.1 l.protocol_range.2 l.encoding l.hasPayloadLength l.short
  have hpayload : JWT.getPayload engines f.skinJwt = some (.ok (JsonText.render l.members)) := by
    rw [hjwt]
    exact getPayload_skinToken he l.header_plain.1 l.signature l.members
  obtain ⟨idItems, hid, htext⟩ := l.id_member
  obtain ⟨metadata, skinData, found, imgW, imgH, hd, hi, hw, hh, hparse⟩ :=
    parseLoginPacket_of_payload engines _ f _ hf hpayload
  rw [l.readSkinData_member he, Option.some.injEq] at hd
  rw [getJsonValue_string l.keys hid, Option.some.injEq] at hi
  rw [declaredDimension_decimal l.keys l.width_range.2 l.width_member, Option.some.injEq] at hw
  rw [declaredDimension_decimal l.keys l.height_range.2 l.height_member, Option.some.injEq] at hh
  subst hd hi hw hh
  have hdims : skinDimensions l.skin.width l.skin.height (l.skin.data.length / 4) =
      (l.skin.width, l.skin.height) := by
    have hw := l.width_range.1
    have hh := l.height_range.1
    have hsizes := l.sizes
    unfold skinDimensions
    rw [if_neg (by omega)]
  have hnew : ExtractedSkin.new l.skin.width l.skin.height l.skin.data = .ok l.skin := by
    obtain ⟨-, -, -, -, -, -, hsmall⟩ := carriesSkin_of_parsed hs hparse
    have hexact : usize l.skin.data.length = l.skin.data.length :=
      Nat.mod_eq_of_lt (hsmall.trans (by decide))
    unfold ExtractedSkin.new
    rw [l.sizes, hexact, if_neg (not_not.mpr rfl)]
  refine ⟨_, hparse, ⟨⟨_, hparse⟩, ?_⟩, ?_, ?_⟩
  · dsimp only
    rw [hdims]
    exact hnew
  · exact congrArg (playerNameOf engines) hchain
  · dsimp only
    rw [Option.map_some, Option.getD_some, htext]

end SkinLogin

/-- The image of the skin and its sidecar are added under the name of the capture, which begins
a free one when captures are numbered. -/
structure SavedAs (tools : CaptureTools) (baseDir : Str) (savemode : ℕ) (capture : LoginCapture)
    (fs fs' : FileSystem) (stem : Str) : Prop where
  files : ∃ png text, Adds fs fs' [(pngPath (skinsDirOf baseDir) stem, png),
      (jsonPath (skinsDirOf baseDir) stem, text)] ∧ Depicts png capture.skin ∧
    tools.toVecPretty ⟨capture.playerName, capture.skinId, capture.skin.width,
      capture.skin.height, capture.metadata⟩ = .ok text
  overwrites : savemode = 1 → stem = captureBaseName capture.playerName capture.skinId
  numbered : savemode ≠ 1 → FirstFreeStem fs (skinsDirOf baseDir)
    (captureBaseName capture.playerName capture.skinId) stem

theorem FileSystem.WritesSucceed.write {fs : FileSystem} (h : fs.WritesSucceed) (path : Str)
    (contents : Bytes) : fs.write path contents =
      .ok { fs with written := fs.written ++ [(path, contents)] } := by
  unfold FileSystem.write
  rw [h]

/-- Nothing stands in the way of a save in fewer than `2 ^ 32` files. -/
structure Roomy (fs : FileSystem) : Prop where
  writes : fs.WritesSucceed
  few : ∃ paths : Finset Str, (∀ path, fs.pathExists path = true → path ∈ paths) ∧
    paths.card < 2 ^ 32

/-- The packages are what they should be, and do not fail on the skin. -/
structure CaptureTools.Writes (tools : CaptureTools) (skin : ExtractedSkin) : Prop
    extends tools.Standard where
  rows : ∃ compressed,
    tools.flate.zlibEncode (Png.filterRows (skin.width * 4) skin.height skin.data) = .ok compressed
  sidecar : ∀ record, ∃ text, tools.toVecPretty record = .ok text

theorem ParsedSkin.savedAs {engines : Base64Engines} {parsed : ParsedLoginPacket}
    {skin : ExtractedSkin} (h : ParsedSkin engines parsed skin) (he : engines.Shrink)
    {tools : CaptureTools} (htools : tools.Writes skin) {fs : FileSystem}
    (hfs : Roomy fs) (baseDir : Str) {savemode : ℕ} (hmode : savemode ≠ 0) : ∃ stem fs',
      saveLoginCapture tools fs baseDir (captureOf parsed skin) savemode =
        some (.ok (some (pngPath (skinsDirOf baseDir) stem)), fs') ∧
      SavedAs tools baseDir savemode (captureOf parsed skin) fs fs' stem := by
  obtain ⟨paths, hpaths, hfew⟩ := hfs.few
  obtain ⟨⟨result, fs'⟩, hsave⟩ :=
    Option.ne_none_iff_exists'.mp (h.saves he hpaths hfew tools baseDir savemode)
  have hchosen := hsave
  rw [saveLoginCapture_eq hfs.writes _ _ hmode, Option.bind_eq_some_iff] at hchosen
  obtain ⟨stem, hstem, hwrite⟩ := hchosen
  have hadds : ∀ {png text : Bytes} {fs₁ fs₂ : FileSystem},
      fs.write (pngPath (skinsDirOf baseDir) stem) png = .ok fs₁ →
      fs₁.write (jsonPath (skinsDirOf baseDir) stem) text = .ok fs₂ →
      Adds fs fs₂ [(pngPath (skinsDirOf baseDir) stem, png),
        (jsonPath (skinsDirOf baseDir) stem, text)] :=
    fun himage hsidecar => (adds_write himage).trans (adds_write hsidecar)
  have hwrites : ∀ {path : Str} {contents : Bytes} {fs₁ : FileSystem} (other : Str) (text : Bytes),
      fs.write path contents = .ok fs₁ → ∀ e, fs₁.write other text ≠ .error e := by
    intro path contents fs₁ other text himage e herror
    rw [hfs.writes.write, Except.ok.injEq] at himage
    subst himage
    have hnone : FileSystem.WritesSucceed { fs with written := fs.written ++ [(path, contents)] } :=
      hfs.writes
    rw [hnone.write] at herror
    cases herror
  cases writeCapture_outcome hwrite with
  | unencoded e hencode =>
    obtain ⟨compressed, hz⟩ := htools.rows
    dsimp only [captureOf] at hencode
    rw [encodePngRgba_eq tools (h.sizes he).1 (h.room he), hz] at hencode
    cases hencode
  | imageRefused png e hencode himage =>
    rw [hfs.writes.write] at himage
    cases himage
  | untextual png fs₁ e hencode himage htext =>
    obtain ⟨text, hok⟩ := htools.sidecar ⟨parsed.playerName, parsed.skinId, skin.width, skin.height,
      parsed.metadata⟩
    cases hok.symm.trans htext
  | sidecarRefused png text fs₁ e hencode himage htext hsidecar =>
    exact absurd hsidecar (hwrites _ _ himage e)
  | written png text fs₁ fs₂ hencode himage htext hsidecar =>
    refine ⟨stem, fs', hsave,
      ⟨png, text, hadds himage hsidecar, h.depicts he htools.toStandard hencode, htext⟩,
      fun hone => ?_, fun hone => ?_⟩
    · rw [if_pos hone, Option.some.injEq] at hstem
      exact hstem.symm
    · rw [if_neg hone] at hstem
      exact (nextAvailableStem_eq_some_iff.mp hstem).first

def whitePixel : ExtractedSkin := ⟨1, 1, [0xff, 0xff, 0xff, 0xff]⟩

theorem w_ne_quote : 'w' ≠ '"' := by decide

theorem w_ne_backslash : 'w' ≠ '\\' := by decide

/-- Its data with escaped slashes and without padding. -/
def whiteItems : List JsonText.Item :=
  List.replicate 5 (.escaped '/') ++ [.plain 'w' w_ne_quote w_ne_backslash]

def whiteLogin : SkinLogin where
  protocol := 975
  encoding := .varInt
  hasPayloadLength := true
  chainTail := ['}']
  header := ['h']
  signature := ['s']
  members := pixelMembers
  skinId := [':']
  dataItems := whiteItems
  skin := whitePixel
  protocol_range := by decide
  chain_noNul := by decide
  header_plain := by decide
  signature_plain := by decide
  keys := by decide
  id_member := ⟨_, ⟨_, .tail _ (.tail _ (.tail _ (.head _))), rfl, rfl⟩, rfl⟩
  data_member := ⟨_, .tail _ (.head _), rfl, rfl⟩
  data_items := .inl (by decide +kernel)
  width_member :=
    ⟨_, .tail _ (.tail _ (.tail _ (.tail _ (.head _)))), rfl, _, by decide +kernel, rfl⟩
  height_member := ⟨_, .head _, rfl, _, by decide +kernel, rfl⟩
  width_range := by decide
  height_range := by decide
  sizes := rfl
  short := by decide +kernel

theorem sampleTools_writes (skin : ExtractedSkin) : sampleTools.Writes skin where
  toStandard := sampleTools_standard
  rows := ⟨_, rfl⟩
  sidecar _ := ⟨_, rfl⟩

theorem roomy_empty : Roomy .empty where
  writes _ := rfl
  few := ⟨∅, fun _ h => absurd h Bool.false_ne_true, by decide⟩

end SkinGetBE
