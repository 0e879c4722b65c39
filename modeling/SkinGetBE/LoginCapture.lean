import SkinGetBE.LoginLayout
import SkinGetBE.NetherSession

/-!
# When a parsed Login is saved

The declared sizes are kept when they match the pixels; otherwise the width is
64 and incomplete rows, or counts past 32 bits, leave a skin that the checks of
the capture refuse. All sizes are bounded by the 32-bit length of the skin token.
-/
namespace SkinGetBE
open Octets Text

/-- Decoding base64 never lengthens its input. -/
structure Base64Engines.Shrink (engines : Base64Engines) : Prop where
  urlSafeNoPad : ∀ s bytes, engines.urlSafeNoPad s = .ok bytes → bytes.length ≤ byteLen s
  standard : ∀ s bytes, engines.standard s = .ok bytes → bytes.length ≤ byteLen s

theorem strictEngines_shrink : strictEngines.Shrink where
  urlSafeNoPad s bytes h := by
    simp only [strictEngines] at h
    split at h
    · next b hb =>
      obtain rfl := Except.ok.inj h
      exact (Base64.urlSafe.decode_length_le hb).trans (length_le_byteLen s)
    · contradiction
  standard s bytes h := by
    simp only [strictEngines] at h
    split at h
    · next b hb =>
      obtain rfl := Except.ok.inj h
      exact (Base64.standard.decodePadded_length_le hb).trans (length_le_byteLen s)
    · contradiction

theorem padLoop_byteLen_le (fuel : ℕ) (s : Str) : byteLen (padLoop fuel s) ≤ byteLen s + fuel := by
  induction fuel generalizing s with
  | zero => exact le_rfl
  | succ fuel ih =>
    unfold padLoop
    split_ifs
    · omega
    · have h := ih (s ++ ['='])
      have h1 : '='.utf8Size = 1 := rfl
      rw [byteLen_append, byteLen_cons, byteLen_nil, h1] at h
      omega

theorem decodeBase64_byteLen_le {engines : Base64Engines} (he : engines.Shrink) {s text : Str}
    (h : JWT.decodeBase64 engines s = .ok text) : byteLen text ≤ byteLen s + 3 := by
  have key (bytes : Bytes) (hb : bytes.length ≤ byteLen s + 3)
      (ht : fromUtf8 bytes = some text) : byteLen text ≤ byteLen s + 3 := by
    rw [← asBytes_length, fromUtf8_eq_some_iff.mp ht]
    exact hb
  have hpad := padLoop_byteLen_le 3 s
  unfold JWT.decodeBase64 at h
  cases h1 : engines.urlSafeNoPad s with
  | ok bytes =>
    simp only [h1] at h
    split at h
    · next t ht =>
      obtain rfl := Except.ok.inj h
      exact key bytes (by have := he.urlSafeNoPad _ _ h1; omega) ht
    · contradiction
  | error e =>
    cases h2 : engines.urlSafeNoPad (padLoop 3 s) with
    | ok bytes =>
      simp only [h1, h2] at h
      split at h
      · next t ht =>
        obtain rfl := Except.ok.inj h
        exact key bytes (by have := he.urlSafeNoPad _ _ h2; omega) ht
      · contradiction
    | error e' =>
      simp only [h1, h2] at h
      contradiction

theorem getPayload_byteLen_le {engines : Base64Engines} (he : engines.Shrink) {token text : Str}
    (h : JWT.getPayload engines token = some (.ok text)) : byteLen text ≤ byteLen token + 3 := by
  rcases JWT.getPayload_cases engines token with ⟨e, herror⟩ | ⟨header, payload, tail, rfl, hdecode⟩
  · rw [herror] at h
    simp at h
  · rw [hdecode, Option.some.injEq] at h
    have := decodeBase64_byteLen_le he h
    simp only [byteLen_append, byteLen_cons]
    omega

theorem stringValueLoop_byteLen_le {rest value text : Str} {prev : Bool}
    (h : JWT.stringValueLoop rest value prev = some text) :
    byteLen text ≤ byteLen value + byteLen rest := by
  induction rest generalizing value prev with
  | nil => simp [JWT.stringValueLoop] at h
  | cons c rest ih =>
    unfold JWT.stringValueLoop at h
    split_ifs at h
    · obtain rfl := Option.some.inj h
      omega
    · have := ih h
      rw [byteLen_append, byteLen_cons, byteLen_nil] at this
      rw [byteLen_cons]
      omega

theorem valueAt_byteLen_le {content text : Str} (h : JWT.valueAt content = some text) :
    byteLen text ≤ byteLen content := by
  unfold JWT.valueAt at h
  split at h
  · have := stringValueLoop_byteLen_le h
    rw [byteLen_nil] at this
    rw [byteLen_cons]
    omega
  · dsimp only at h
    split_ifs at h
    obtain rfl := Option.some.inj h
    exact byteLen_le_of_sublist (List.takeWhile_sublist _)

theorem getJsonValue_byteLen_le {json key text : Str}
    (h : JWT.getJsonValue json key = some (some text)) : byteLen text ≤ byteLen json := by
  cases hf : findStr (JWT.searchKey key) json with
  | none => simp [JWT.getJsonValue, hf] at h
  | some pos =>
    obtain ⟨pre, post, rfl, rfl⟩ := findStr_eq_some hf
    have hs := sliceFrom_append (pre ++ JWT.searchKey key) post
    rw [byteLen_append, List.append_assoc] at hs
    simp only [JWT.getJsonValue, hf, hs, Option.bind_eq_bind, Option.bind_some,
      Option.some.injEq] at h
    have h1 := valueAt_byteLen_le h
    have h2 := byteLen_le_of_sublist (List.dropWhile_sublist isWhitespace (l := post))
    simp only [byteLen_append]
    unfold trimStart at h1
    omega

/-- Accepted pixels are whole ones, at least one, and no longer than the payload allows. -/
theorem readSkinData_spec {engines : Base64Engines} (he : engines.Shrink) {skinJson : Str}
    {bytes : Bytes} (h : readSkinData engines skinJson = some (some bytes)) :
    0 < bytes.length ∧ bytes.length % 4 = 0 ∧ bytes.length ≤ byteLen skinJson + 3 := by
  obtain ⟨r, hr⟩ := Option.isSome_iff_exists.mp
    (JWT.getJsonValue_isSome skinJson "SkinData".toList)
  simp only [readSkinData, hr, Option.bind_eq_bind, Option.bind_some] at h
  cases r with
  | none => simp at h
  | some value =>
    have hv : ¬ value.isEmpty = true := by
      intro hv
      simp [hv] at h
    dsimp only at h
    rw [if_neg hv] at h
    cases hd : decodeLooseBase64 engines value with
    | none => simp [hd] at h
    | some b =>
      simp only [hd, Option.some.injEq] at h
      split_ifs at h with hcond
      obtain rfl := Option.some.inj h
      refine ⟨List.length_pos_iff.mpr (by simpa using hcond.1), hcond.2, ?_⟩
      have hvalue := getJsonValue_byteLen_le hr
      unfold decodeLooseBase64 at hd
      dsimp only at hd
      split_ifs at hd
      have hclean := byteLen_le_of_sublist (List.filter_sublist (p := isBase64Char) (l := value))
      have hpad := padLoop_byteLen_le 3 (value.filter isBase64Char)
      cases hs : engines.standard (padLoop 3 (value.filter isBase64Char)) with
      | error e => simp [hs, Except.toOption] at hd
      | ok bytes =>
        obtain rfl : bytes = b := by simpa [hs, Except.toOption] using hd
        have := he.standard _ _ hs
        omega

/-- The declared sizes match the pixels, or full rows of 64 do. -/
def SizesFit (imgW imgH pixels : ℕ) : Prop :=
  (0 < imgW ∧ 0 < imgH ∧ imgW * imgH = pixels) ∨ (64 ∣ pixels ∧ pixels < 2 ^ 32)

theorem inferDimensions_fit_iff {pixels : ℕ} (hp : 0 < pixels) :
    (inferDimensions pixels).1 * (inferDimensions pixels).2 = pixels ↔
      64 ∣ pixels ∧ pixels < 2 ^ 32 := by
  unfold inferDimensions
  split_ifs with h1 h2 h3 h4
  · rw [h1]; decide
  · rw [h2]; decide
  · rw [h3]; decide
  · rw [h4]; decide
  · dsimp only
    split_ifs with h0
    · omega
    · omega

theorem skinDimensions_fit_iff (imgW imgH : ℕ) {pixels : ℕ} (hp : 0 < pixels) :
    (skinDimensions imgW imgH pixels).1 * (skinDimensions imgW imgH pixels).2 = pixels ↔
      SizesFit imgW imgH pixels := by
  unfold skinDimensions SizesFit
  split_ifs with h
  · rw [inferDimensions_fit_iff hp]
    constructor
    · exact .inr
    · rintro (⟨h1, h2, h3⟩ | h')
      · omega
      · exact h'
  · simp only [not_or, not_not] at h
    exact iff_of_true h.2.2 (.inl ⟨by omega, by omega, h.2.2⟩)

/-- What a Login carries about its skin: the two declared sizes, zero when they
are missing or not numbers, and the pixels. -/
def CarriesSkin (engines : Base64Engines) (data : Bytes) (imgW imgH : ℕ) (pixels : Bytes) :
    Prop :=
  ∃ fields skinJson, selectLayout data = some fields ∧
    JWT.getPayload engines fields.skinJwt = some (.ok skinJson) ∧
    readSkinData engines skinJson = some (some pixels) ∧
    declaredDimension skinJson "SkinImageWidth".toList = some imgW ∧
    declaredDimension skinJson "SkinImageHeight".toList = some imgH

/-- The sizes that the packet carries are consistent. -/
def LoginSizesFit (engines : Base64Engines) (data : Bytes) : Prop :=
  ∀ imgW imgH pixels, CarriesSkin engines data imgW imgH pixels →
    SizesFit imgW imgH (pixels.length / 4)

/-- A parsed Login carries its pixels, and its sizes are the declared or inferred ones. -/
theorem carriesSkin_of_parsed {engines : Base64Engines} (he : engines.Shrink) {data : Bytes}
    {p : ParsedLoginPacket} (hp : parseLoginPacket engines data = some (.ok (some p))) :
    ∃ imgW imgH, CarriesSkin engines data imgW imgH p.skinData ∧
      (p.skinWidth, p.skinHeight) = skinDimensions imgW imgH (p.skinData.length / 4) ∧
      0 < p.skinData.length ∧ p.skinData.length % 4 = 0 ∧ p.skinData.length < 2 ^ 62 := by
  obtain ⟨fields, _, imgW, imgH, hf, hr, hdata, hw, hh, -, -, hsize⟩ := parsed_fields hp
  obtain ⟨h1, h2, h3⟩ := readSkinData_spec he hdata
  have hjwt := (selectLayout_byteLen_lt hf).2
  have hjson := getPayload_byteLen_le he hr
  exact ⟨imgW, imgH, ⟨fields, p.skinJson, hf, hr, hdata, hw, hh⟩, hsize, h1, h2, by omega⟩

theorem loginSizesFit_iff {engines : Base64Engines} (he : engines.Shrink) {data : Bytes}
    {p : ParsedLoginPacket} (hp : parseLoginPacket engines data = some (.ok (some p))) :
    p.skinWidth * p.skinHeight * 4 = p.skinData.length ↔ LoginSizesFit engines data := by
  obtain ⟨imgW, imgH, hcarry, hdim, hpos, hmod, -⟩ := carriesSkin_of_parsed he hp
  rw [Prod.mk.injEq] at hdim
  have hfit := skinDimensions_fit_iff imgW imgH
    (show 0 < p.skinData.length / 4 by omega)
  rw [← hdim.1, ← hdim.2] at hfit
  have hdiv : p.skinWidth * p.skinHeight * 4 = p.skinData.length ↔
      p.skinWidth * p.skinHeight = p.skinData.length / 4 := by
    generalize p.skinWidth * p.skinHeight = a
    omega
  rw [hdiv, hfit]
  constructor
  · rintro h w' h' pixels ⟨fields', json', hf', hr', hd', hw', hh'⟩
    obtain ⟨fields, json, hf, hr, hd, hw, hh⟩ := hcarry
    obtain rfl : fields = fields' := Option.some.inj (hf.symm.trans hf')
    obtain rfl : json = json' := Except.ok.inj (Option.some.inj (hr.symm.trans hr'))
    rw [hd, Option.some.injEq, Option.some.injEq] at hd'
    rw [hw, Option.some.injEq] at hw'
    rw [hh, Option.some.injEq] at hh'
    rwa [← hd', ← hw', ← hh']
  · exact fun h => h _ _ _ hcarry

theorem writeCapture_ok {tools : CaptureTools} (ht : tools.Infallible) {fs : FileSystem}
    (hfs : fs.WritesSucceed) (skinsDir stem : Str) (capture : LoginCapture)
    (hpng : ∃ png, encodePngRgba tools capture.skin.data capture.skin.width capture.skin.height =
      some (.ok png)) :
    ∃ fs', writeCapture tools fs skinsDir stem capture =
      some (.ok (some (pngPath skinsDir stem)), fs') := by
  obtain ⟨png, hpng⟩ := hpng
  obtain ⟨text, htext⟩ := ht.sidecar ⟨capture.playerName, capture.skinId, capture.skin.width,
    capture.skin.height, capture.metadata⟩
  unfold writeCapture
  simp [hpng, FileSystem.write, hfs _, htext]

/-- The stem that a save mode chooses, when one is found. -/
theorem saveLoginCapture_eq {tools : CaptureTools} {fs : FileSystem} (hfs : fs.WritesSucceed)
    (baseDir : Str) (capture : LoginCapture) {savemode : ℕ} (hmode : savemode ≠ 0) :
    saveLoginCapture tools fs baseDir capture savemode =
      (if savemode = 1 then some (captureBaseName capture.playerName capture.skinId)
        else nextAvailableStem fs (skinsDirOf baseDir)
          (captureBaseName capture.playerName capture.skinId)).bind fun stem =>
        writeCapture tools fs (skinsDirOf baseDir) stem capture := by
  unfold saveLoginCapture
  rw [if_neg hmode]
  simp only [FileSystem.createDirAll, hfs _, Option.bind_eq_bind]
  split_ifs <;> rfl

namespace NetherSession

/-- The whole of what a parsed Login should lead to: consistent sizes, the two
checks passed, and the file saved before the bundle is sent. -/
def CaptureSaved (env : SessionEnv) (s : SessionState) (data : Bytes) (p : ParsedLoginPacket) :
    Prop :=
  p.skinWidth * p.skinHeight * 4 = p.skinData.length ∧
  (∃ skin, ExtractedSkin.new p.skinWidth p.skinHeight p.skinData = .ok skin) ∧
  (∃ png, encodePngRgba env.tools p.skinData p.skinWidth p.skinHeight = some (.ok png)) ∧
  ∃ path bundle, (handleLogin env s data).trace =
    s.trace ++ [.capture p, .saved (.ok (some path)), .send bundle, .sleep 500, .close]

theorem sendBundle_trace {env : SessionEnv} (hz : env.tools.flate.DeflateInverts)
    (s : SessionState) : ∃ bundle, (sendBundle env s).trace =
      s.trace ++ [.send bundle, .sleep 500, .close] := by
  obtain ⟨m, hm, -⟩ := buildBatch_decodes hz (by simp [closingPackets]) closingPackets_size
    s.compressionEnabled
  unfold sendBundle
  rw [hm]
  exact ⟨m, rfl⟩

/-- A parsed Login is saved exactly when its sizes are consistent and, for
numbered files, a name is left. -/
theorem captureSaved_iff (env : SessionEnv) (he : env.engines.Shrink) (ht : env.tools.Infallible)
    (hz : env.tools.flate.DeflateInverts) (s : SessionState) (hfs : s.fs.WritesSucceed)
    (hmode : env.savemode = 1 ∨ env.savemode = 2) (data : Bytes) (p : ParsedLoginPacket)
    (hp : parseLoginPacket env.engines data = some (.ok (some p))) :
    CaptureSaved env s data p ↔ LoginSizesFit env.engines data ∧
      (env.savemode = 2 → HasFreeStem s.fs (skinsDirOf env.baseDir)
        (captureBaseName p.playerName p.skinId)) := by
  have hfit := loginSizesFit_iff he hp
  obtain ⟨-, -, -, -, hpos, -, hlen⟩ := carriesSkin_of_parsed he hp
  have hlogin : handleLogin env s data = captureLogin env s p := by
    unfold handleLogin
    rw [hp]
  have hmode0 : env.savemode ≠ 0 := by omega
  constructor
  · rintro ⟨hprod, ⟨skin, hskin⟩, -, path, bundle, htrace⟩
    refine ⟨hfit.mp hprod, fun h2 => by_contra fun hfree => ?_⟩
    have hnone : nextAvailableStem s.fs (skinsDirOf env.baseDir)
        (captureBaseName p.playerName p.skinId) = none := by
      rw [← Option.not_isSome_iff_eq_none, nextAvailableStem_isSome_iff]
      exact hfree
    have hsave : saveLoginCapture env.tools s.fs env.baseDir
        ⟨p.playerName, p.skinId, p.metadata, skin⟩ env.savemode = none := by
      rw [saveLoginCapture_eq hfs _ _ hmode0, if_neg (by omega), hnone]
      rfl
    rw [hlogin] at htrace
    simp [captureLogin, hskin, SessionState.record, hsave] at htrace
  · rintro ⟨hsizes, hfree⟩
    have hprod := hfit.mpr hsizes
    have hw : 0 < p.skinWidth := by
      rcases Nat.eq_zero_or_pos p.skinWidth with h0 | h0
      · rw [h0, Nat.zero_mul, Nat.zero_mul] at hprod
        omega
      · exact h0
    have hexp : p.skinData.length = usize (p.skinWidth * p.skinHeight * 4) := by
      rw [hprod]
      exact (Nat.mod_eq_of_lt (by omega)).symm
    have hpng := encodePngRgba_isOk ht hw hprod hlen
    have hskin : ExtractedSkin.new p.skinWidth p.skinHeight p.skinData =
        .ok ⟨p.skinWidth, p.skinHeight, p.skinData⟩ := if_neg (not_not.mpr hexp)
    have hstem : ∃ stem, (if env.savemode = 1 then some (captureBaseName p.playerName p.skinId)
        else nextAvailableStem s.fs (skinsDirOf env.baseDir)
          (captureBaseName p.playerName p.skinId)) = some stem := by
      rcases hmode with h1 | h2
      · exact ⟨_, if_pos h1⟩
      · rw [if_neg (by omega)]
        exact Option.isSome_iff_exists.mp ((nextAvailableStem_isSome_iff _ _ _).mpr (hfree h2))
    obtain ⟨stem, hstem⟩ := hstem
    obtain ⟨fs', hwrite⟩ := writeCapture_ok ht hfs (skinsDirOf env.baseDir) stem
      ⟨p.playerName, p.skinId, p.metadata, ⟨p.skinWidth, p.skinHeight, p.skinData⟩⟩ hpng
    have hsave : saveLoginCapture env.tools s.fs env.baseDir
        ⟨p.playerName, p.skinId, p.metadata, ⟨p.skinWidth, p.skinHeight, p.skinData⟩⟩
          env.savemode = some (.ok (some (pngPath (skinsDirOf env.baseDir) stem)), fs') := by
      rw [saveLoginCapture_eq hfs _ _ hmode0, hstem]
      exact hwrite
    refine ⟨hprod, ⟨_, hskin⟩, hpng, ?_⟩
    obtain ⟨bundle, hb⟩ := sendBundle_trace hz
      ({ s.record [.capture p] with fs := fs' }.record
        [.saved (.ok (some (pngPath (skinsDirOf env.baseDir) stem)))])
    refine ⟨pngPath (skinsDirOf env.baseDir) stem, bundle, ?_⟩
    rw [hlogin]
    unfold captureLogin
    simp only [hskin, SessionState.record, hsave]
    simpa [SessionState.record] using hb

/-- A Login whose skin token has the given payload. -/
def loginOf (skinJson : String) : Bytes :=
  loginPayload 975 .u32Le false "{}".toList
    ("h.".toList ++ Base64.urlSafe.encode (asBytes skinJson.toList) ++ ".s".toList)

/-- The pixel `[1, 2, 3, 4]` with both sizes declared. -/
def onePixelLogin : Bytes := loginOf
  "\x7b\"SkinId\":\"a\",\"SkinData\":\"AQIDBA==\",\"SkinImageWidth\":1,\"SkinImageHeight\":1\x7d"

/-- The same pixel without sizes. -/
def unsizedLogin : Bytes := loginOf "\x7b\"SkinId\":\"a\",\"SkinData\":\"AQIDBA==\"\x7d"

def onePixelEnv : SessionEnv where
  engines := strictEngines
  tools := sampleTools
  baseDir := ".".toList
  savemode := 2

/-- What a parsed Login says about its image. -/
def imageOf : Option (Except Error (Option ParsedLoginPacket)) → Option (ℕ × ℕ × Bytes)
  | some (.ok (some p)) => some (p.skinWidth, p.skinHeight, p.skinData)
  | _ => none

theorem exists_of_imageOf {r : Option (Except Error (Option ParsedLoginPacket))} {w h : ℕ}
    {bytes : Bytes} (hr : imageOf r = some (w, h, bytes)) : ∃ p, r = some (.ok (some p)) ∧
      p.skinWidth = w ∧ p.skinHeight = h ∧ p.skinData = bytes := by
  unfold imageOf at hr
  split at hr
  · next p =>
    simp only [Option.some.injEq, Prod.mk.injEq] at hr
    exact ⟨p, rfl, hr⟩
  · contradiction

theorem captureSaved_iff_onePixel : ∃ p,
    parseLoginPacket strictEngines onePixelLogin = some (.ok (some p)) ∧
    (CaptureSaved onePixelEnv (.start .empty) onePixelLogin p ↔
      LoginSizesFit strictEngines onePixelLogin ∧
      ((2 : ℕ) = 2 → HasFreeStem .empty (skinsDirOf ".".toList)
        (captureBaseName p.playerName p.skinId))) := by
  have himage : imageOf (parseLoginPacket strictEngines onePixelLogin) =
      some (1, 1, [1, 2, 3, 4]) := by decide +kernel
  obtain ⟨p, hp, -⟩ := exists_of_imageOf himage
  exact ⟨p, hp, captureSaved_iff onePixelEnv strictEngines_shrink sampleTools_infallible
    sampleFlate_inverts (.start .empty) (fun _ => rfl) (.inr rfl) onePixelLogin p hp⟩

/-- One pixel without sizes is parsed as a skin of 64 by 64, which is never saved. -/
theorem captureSaved_unsized : ∃ p,
    parseLoginPacket strictEngines unsizedLogin = some (.ok (some p)) ∧
    p.skinWidth * p.skinHeight * 4 = 16384 ∧ p.skinData.length = 4 ∧
    ¬ CaptureSaved onePixelEnv (.start .empty) unsizedLogin p := by
  have himage : imageOf (parseLoginPacket strictEngines unsizedLogin) =
      some (64, 64, [1, 2, 3, 4]) := by decide +kernel
  obtain ⟨p, hp, hw, hh, hd⟩ := exists_of_imageOf himage
  refine ⟨p, hp, by rw [hw, hh], by rw [hd]; rfl, fun hsaved => ?_⟩
  have hprod := hsaved.1
  rw [hw, hh, hd] at hprod
  exact absurd hprod (by decide)

end NetherSession

end SkinGetBE
