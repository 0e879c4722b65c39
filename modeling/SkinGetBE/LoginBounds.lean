import SkinGetBE.LoginNames

/-!
# What a declared payload length bounds

The length in front of the tokens is compared with what is left of the packet, and
then it is not used again. The lengths of the tokens are compared with what is left
of the packet as well.
-/
namespace SkinGetBE
open Octets Text

/-- Wherever these octets come next, the read takes them and returns the value. -/
def Takes (read : Buffer → Except Error ℕ × Buffer) (w : Bytes) (v : ℕ) : Prop :=
  ∀ (c : Buffer) (tl : Bytes), c.rest = w ++ tl → read c = (.ok v, c.advance w.length)

theorem readVarInt_takes {b b' : Buffer} {v : ℕ} (h : b.readVarInt = (.ok v, b')) :
    ∃ w, b.rest = w ++ b'.rest ∧ Takes Buffer.readVarInt w v := by
  obtain ⟨init, last, tl, hrest, hinit, hlast, hlen, rfl, rfl⟩ := Buffer.readVarInt_ok_iff.mp h
  have hw : (init ++ [last]).length = init.length + 1 := by simp
  refine ⟨init ++ [last], ?_, ?_⟩
  · rw [Buffer.rest_advance, hrest, List.append_cons, ← hw, List.drop_left]
  · intro c tl hc
    refine Buffer.readVarInt_ok_iff.mpr ⟨init, last, tl, ?_, hinit, hlast, hlen, rfl, by rw [hw]⟩
    rw [hc, List.append_assoc, List.singleton_append]

theorem readProtocol_takes {encoding : ProtocolEncoding} {b b' : Buffer} {protocol : ℕ}
    (h : readProtocol encoding b = (.ok protocol, b')) :
    ∃ w, b.rest = w ++ b'.rest ∧ Takes (readProtocol encoding) w protocol := by
  by_cases hl : 4 ≤ b.rest.length
  · obtain ⟨x0, x1, x2, x3, tl, hr⟩ := exists_four_of_length hl
    have hdrop : b.rest = [x0, x1, x2, x3] ++ (b.advance 4).rest := by
      rw [Buffer.rest_advance, hr]
      rfl
    cases encoding with
    | varInt => exact readVarInt_takes h
    | u32Le =>
      rw [readProtocol, Buffer.readU32Le_cons hr, Prod.mk.injEq] at h
      obtain ⟨hp, rfl⟩ := h
      refine ⟨_, hdrop, fun c tl hc => ?_⟩
      rw [← hp]
      exact Buffer.readU32Le_cons hc
    | u32Be =>
      rw [readProtocol, Buffer.readU32_cons hr, Prod.mk.injEq] at h
      obtain ⟨hp, rfl⟩ := h
      refine ⟨_, hdrop, fun c tl hc => ?_⟩
      rw [← hp]
      exact Buffer.readU32_cons hc
  · rw [not_le] at hl
    cases encoding with
    | varInt => exact readVarInt_takes h
    | u32Le => simp [readProtocol, Buffer.readU32Le_short hl] at h
    | u32Be => simp [readProtocol, Buffer.readU32_short hl] at h

/-- The layouts whose probes read a payload length. -/
def payloadLengthLayouts : List String :=
  ["u32_le+payload_len", "u32_be+payload_len", "varint+payload_len"]

theorem selectLayout_payloadLength {data : Bytes} {f : LoginFields}
    (h : selectLayout data = some f) (hlayout : f.layout ∈ payloadLengthLayouts) :
    ∃ encoding, tryParseLogin data encoding true f.layout = some f := by
  obtain ⟨⟨encoding, hasPayloadLength, layout⟩, hmem, hprobe⟩ := selectLayout_probe h
  have hnamed : ∀ probe ∈ loginProbes, probe.2.2 ∈ payloadLengthLayouts → probe.2.1 = true := by
    decide
  obtain ⟨rfl, -⟩ := tryParseLogin_layout hprobe
  obtain rfl : hasPayloadLength = true := hnamed _ hmem hlayout
  exact ⟨encoding, hprobe⟩

/-- Everything that a probe with a payload length has read. -/
theorem tryParseLogin_payload {source : Bytes} {encoding : ProtocolEncoding} {layout : String}
    {f : LoginFields} (h : tryParseLogin source encoding true layout = some f) :
    ∃ t0 t1 payloadLen tail, readProtocol encoding (.ofBytes source) = (.ok f.protocol, t0) ∧
      t0.readVarInt = (.ok payloadLen, t1) ∧ 0 < payloadLen ∧ payloadLen ≤ t1.rest.length ∧
      t1.rest = loginBody f.chainJson f.skinJwt ++ tail ∧
      f.chainLen = byteLen f.chainJson ∧ byteLen f.chainJson < 2 ^ 32 ∧
      f.skinLen = byteLen f.skinJwt ∧ byteLen f.skinJwt < 2 ^ 32 := by
  obtain ⟨t0, t1, t2, t3, h0, -, -, h1, h2, h3⟩ := tryParseLogin_eq_some h
  obtain ⟨hclen, -, hchain, hr1⟩ := readToken_takes h2
  obtain ⟨hslen, -, hskin, hr2⟩ := readToken_takes h3
  simp only [checkPayloadLength, if_true, Option.bind_eq_bind, Option.bind_eq_some_iff,
    Prod.exists] at h1
  obtain ⟨payloadLen, t1', hread, h1⟩ := h1
  split at h1
  · contradiction
  next hrange =>
  obtain rfl := Option.some.inj h1
  rw [Buffer.remaining_eq, not_or] at hrange
  refine ⟨t0, t1', payloadLen, t3.rest, h0, okRead_eq_some.mp hread, by omega, by omega, ?_, hclen,
    hchain, hslen, hskin⟩
  rw [hr1, hr2, loginBody_eq]
  simp only [List.append_assoc]

/-- A probe of a packet with a payload length, put together from its reads. -/
theorem tryParseLogin_of_body {start field tail : Bytes} {encoding : ProtocolEncoding}
    {f : LoginFields} {payloadLen : ℕ} (hstart : Takes (readProtocol encoding) start f.protocol)
    (hfield : Takes Buffer.readVarInt field payloadLen) (hp : 0 < f.protocol ∧ f.protocol ≤ 100000)
    (hpos : 0 < payloadLen) (hle : payloadLen ≤ (loginBody f.chainJson f.skinJwt ++ tail).length)
    (hclen : f.chainLen = byteLen f.chainJson) (hslen : f.skinLen = byteLen f.skinJwt)
    (hsize : byteLen f.chainJson < 2 ^ 32 ∧ byteLen f.skinJwt < 2 ^ 32)
    (hbrace : '{' ∈ f.chainJson) (hdots : f.skinJwt.count '.' = 2) :
    tryParseLogin (start ++ (field ++ (loginBody f.chainJson f.skinJwt ++ tail))) encoding true
      f.layout = some f := by
  set body := loginBody f.chainJson f.skinJwt ++ tail
  have h0 := hstart (.ofBytes (start ++ (field ++ body))) _ rfl
  set t0 := (Buffer.ofBytes (start ++ (field ++ body))).advance start.length
  have hr0 : t0.rest = field ++ body := by
    rw [Buffer.rest_advance, Buffer.rest_ofBytes, List.drop_left]
  have h1 := hfield t0 _ hr0
  set t1 := t0.advance field.length
  have hr1 : t1.rest = body := by
    rw [Buffer.rest_advance, hr0, List.drop_left]
  have hcheck : checkPayloadLength true t0 = some t1 := by
    simp only [checkPayloadLength, if_true, h1, okRead, Option.bind_eq_bind, Option.bind_some,
      Buffer.remaining_eq, hr1]
    rw [if_neg (by omega)]
  have hne : f.chainJson ≠ [] := List.ne_nil_of_mem hbrace
  have hskin : f.skinJwt ≠ [] := by
    intro hnil
    rw [hnil] at hdots
    contradiction
  have hbody : t1.rest = leBytes 4 (byteLen f.chainJson % 2 ^ 32) ++ (asBytes f.chainJson ++
      (leBytes 4 (byteLen f.skinJwt % 2 ^ 32) ++ (asBytes f.skinJwt ++ tail))) := by
    simp [hr1, body, loginBody_eq]
  obtain ⟨t2, h2, hr2⟩ := readToken_token hne hsize.1 hbody
  obtain ⟨t3, h3, -⟩ := readToken_token hskin hsize.2 hr2
  have hrange : ¬ (f.protocol = 0 ∨ f.protocol > 100000) := by omega
  simp only [tryParseLogin, h0, okRead, Option.bind_eq_bind, Option.bind_some, if_neg hrange,
    hcheck, h2, h3, hbrace, not_true_eq_false, if_false, hdots, ne_eq, ← hclen, ← hslen]

/-- The tokens lie in the packet behind the length. They lie in the declared payload exactly when
nothing behind the payload is needed to read them. -/
theorem selectLayout_payload_bounds (data : Bytes) (f : LoginFields)
    (hf : selectLayout data = some f) (hlayout : f.layout ∈ payloadLengthLayouts) :
    ∃ encoding start payloadLen t0 t1, data = start ++ t1.rest ∧
      readProtocol encoding (.ofBytes data) = (.ok f.protocol, t0) ∧
      t0.readVarInt = (.ok payloadLen, t1) ∧
      0 < payloadLen ∧ payloadLen ≤ t1.rest.length ∧
      (∃ tail, t1.rest = loginBody f.chainJson f.skinJwt ++ tail) ∧
      4 + f.chainLen + 4 + f.skinLen ≤ t1.rest.length ∧
      (4 + f.chainLen + 4 + f.skinLen ≤ payloadLen ↔
        tryParseLogin (start ++ t1.rest.take payloadLen) encoding true f.layout = some f) := by
  obtain ⟨encoding, hprobe⟩ := selectLayout_payloadLength hf hlayout
  obtain ⟨-, -, -, -, -, hprotocol, hprotocol', -⟩ := tryParseLogin_eq_some hprobe
  obtain ⟨-, hbrace, hdots⟩ := tryParseLogin_layout hprobe
  obtain ⟨t0, t1, payloadLen, tail, h0, h1, hpos, hle, hrest, hclen, hchain, hslen, hskin⟩ :=
    tryParseLogin_payload hprobe
  obtain ⟨start, hstart, htakes⟩ := readProtocol_takes h0
  obtain ⟨field, hfield, hlength⟩ := readVarInt_takes h1
  rw [Buffer.rest_ofBytes] at hstart
  have hbody := loginBody_length f.chainJson f.skinJwt
  have hlen := congrArg List.length hrest
  rw [List.length_append] at hlen
  have hcut : (start ++ field) ++ t1.rest.take payloadLen =
      start ++ (field ++ t1.rest.take payloadLen) := List.append_assoc _ _ _
  refine ⟨encoding, start ++ field, payloadLen, t0, t1, ?_, h0, h1, hpos, hle, ⟨tail, hrest⟩,
    by omega, ?_⟩
  · rw [hstart, hfield, List.append_assoc]
  rw [hcut]
  constructor
  · intro hin
    have htake : t1.rest.take payloadLen = loginBody f.chainJson f.skinJwt ++
        tail.take (payloadLen - (loginBody f.chainJson f.skinJwt).length) := by
      rw [hrest, List.take_append, List.take_of_length_le (by omega)]
    have hlong : payloadLen ≤ (t1.rest.take payloadLen).length := by
      rw [List.length_take, Nat.min_eq_left hle]
    rw [htake] at hlong ⊢
    exact tryParseLogin_of_body htakes hlength ⟨hprotocol, hprotocol'⟩ hpos hlong hclen hslen
      ⟨hchain, hskin⟩ hbrace hdots
  · intro hparse
    obtain ⟨u0, u1, n, tail', g0, g1, -, -, gbody, -⟩ := tryParseLogin_payload hparse
    -- both probes take the same octets in front of the tokens
    have hsame := htakes (.ofBytes (start ++ (field ++ t1.rest.take payloadLen))) _ rfl
    rw [g0, Prod.mk.injEq] at hsame
    have hu0 : u0.rest = field ++ t1.rest.take payloadLen := by
      rw [hsame.2, Buffer.rest_advance, Buffer.rest_ofBytes, List.drop_left]
    have hsame' := hlength u0 _ hu0
    rw [g1, Prod.mk.injEq] at hsame'
    have hu1 : u1.rest = t1.rest.take payloadLen := by
      rw [hsame'.2, Buffer.rest_advance, hu0, List.drop_left]
    have hlen' := congrArg List.length (hu1.symm.trans gbody)
    rw [List.length_take, List.length_append] at hlen'
    omega

/-- A Login that declares one octet of payload. -/
def oneOctetPayload : Bytes :=
  leBytes 4 975 ++ leb128 1 ++ loginBody "\x7b\x7d".toList
    ("h.".toList ++ Base64.urlSafe.encode (asBytes "\x7b\"SkinData\":\"AQIDBA==\"\x7d".toList) ++
      ".s".toList)

theorem selectLayout_payload_bounds_one : ∃ f encoding start payloadLen, ∃ t1 : Buffer,
    selectLayout oneOctetPayload = some f ∧ oneOctetPayload = start ++ t1.rest ∧
      4 + f.chainLen + 4 + f.skinLen ≤ t1.rest.length ∧
      (4 + f.chainLen + 4 + f.skinLen ≤ payloadLen ↔
        tryParseLogin (start ++ t1.rest.take payloadLen) encoding true f.layout = some f) := by
  have hselect : ∃ f ∈ selectLayout oneOctetPayload, f.layout = "u32_le+payload_len" := by
    decide +kernel
  obtain ⟨f, hf, hlayout⟩ := hselect
  have hmem : f.layout ∈ payloadLengthLayouts := by
    rw [hlayout]
    exact List.mem_cons_self
  obtain ⟨encoding, start, payloadLen, t0, t1, hdata, -, -, -, -, -, hpacket, hpayload⟩ :=
    selectLayout_payload_bounds oneOctetPayload f hf hmem
  exact ⟨f, encoding, start, payloadLen, t1, hf, hdata, hpacket, hpayload⟩

/-- The tokens of an accepted Login lie behind the one octet that it declares. -/
theorem parseLoginPacket_oneOctet : ∃ f p t1,
    selectLayout oneOctetPayload = some f ∧ f.layout = "u32_le+payload_len" ∧
      parseLoginPacket strictEngines oneOctetPayload = some (.ok (some p)) ∧
      p.chainJson = f.chainJson ∧ p.skinJwt = f.skinJwt ∧
      (Buffer.ofBytes (oneOctetPayload.drop 4)).readVarInt = (.ok 1, t1) ∧
      1 < 4 + f.chainLen + 4 + f.skinLen := by
  have hselect : ∃ f ∈ selectLayout oneOctetPayload, ∃ p ∈ returned
      (parseLoginPacket strictEngines oneOctetPayload), f.layout = "u32_le+payload_len" ∧
        p.chainJson = f.chainJson ∧ p.skinJwt = f.skinJwt := by decide +kernel
  obtain ⟨f, hf, p, hp, hlayout, hchain, hskin⟩ := hselect
  have hrest : (Buffer.ofBytes (oneOctetPayload.drop 4)).rest =
      leb128 1 ++ oneOctetPayload.drop 5 := by decide +kernel
  have hread := Buffer.readVarInt_leb128 (by decide) hrest
  exact ⟨f, p, _, hf, hlayout, eq_of_returned hp, hchain, hskin, hread, by omega⟩

end SkinGetBE
