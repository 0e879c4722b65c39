import SkinGetBE.Login

/-!
# The layout probing finds the encoded tokens

A packet written in one of the six layouts is offered to the probes in order.
Probes before the right one read the chain length at a shifted offset; each of
them either refuses the packet or stands at the same offset as the right one.
-/
namespace SkinGetBE
open Octets Text

/-- The chain and the skin token, each after its length. -/
def loginBody (chainJson skinJwt : Str) : Bytes :=
  ((((Buffer.new.writeU32Le (byteLen chainJson % 2 ^ 32)).writeBytes
    (asBytes chainJson)).writeU32Le (byteLen skinJwt % 2 ^ 32)).writeBytes (asBytes skinJwt)).data

def writeProtocol (encoding : ProtocolEncoding) (protocol : ℕ) (out : Buffer) : Buffer :=
  match encoding with
  | .u32Le => out.writeU32Le protocol
  | .u32Be => out.writeU32 protocol
  | .varInt => out.writeVarInt protocol

/-- The packet body that the tests' `login_payload` builds. -/
def loginPayload (protocol : ℕ) (encoding : ProtocolEncoding) (hasPayloadLength : Bool)
    (chainJson skinJwt : Str) : Bytes :=
  let body := loginBody chainJson skinJwt
  let out := writeProtocol encoding protocol Buffer.new
  let out := if hasPayloadLength then out.writeVarInt (body.length % 2 ^ 32) else out
  (out.writeBytes body).data

theorem okRead_eq_some {α : Type} {r : Except Error α × Buffer} {a : α} {b : Buffer} :
    okRead r = some (a, b) ↔ r = (.ok a, b) := by
  obtain ⟨x, b'⟩ := r
  cases x <;> simp [okRead]

theorem exists_four_of_length {l : Bytes} (h : 4 ≤ l.length) :
    ∃ x0 x1 x2 x3 tl, l = x0 :: x1 :: x2 :: x3 :: tl := by
  match l, h with
  | x0 :: x1 :: x2 :: x3 :: tl, _ => exact ⟨x0, x1, x2, x3, tl, rfl⟩

theorem readToken_eq_some {tmp tmp' : Buffer} {text : Str} {len : ℕ}
    (h : readToken tmp = some (text, len, tmp')) :
    ∃ x0 x1 x2 x3 tl, tmp.rest = x0 :: x1 :: x2 :: x3 :: tl ∧ len = leValue [x0, x1, x2, x3] ∧
      0 < len ∧ len ≤ tl.length ∧ asBytes text = tl.take len ∧ tmp'.rest = tl.drop len := by
  by_cases hl : 4 ≤ tmp.rest.length
  · obtain ⟨x0, x1, x2, x3, tl, hr⟩ := exists_four_of_length hl
    simp only [readToken, Buffer.readU32Le_cons hr, okRead, Option.bind_eq_bind,
      Option.bind_some] at h
    set n := leValue [x0, x1, x2, x3]
    have hrest : (tmp.advance 4).rest = tl := by simp [hr]
    split at h
    · contradiction
    · next hc =>
      rw [Buffer.remaining_eq, hrest, not_or] at hc
      have hsplit : (tmp.advance 4).rest = tl.take n ++ tl.drop n := by
        rw [hrest, List.take_append_drop]
      have hlen : (tl.take n).length = n := by rw [List.length_take]; omega
      have hb := Buffer.readBytes_append hsplit
      rw [hlen] at hb
      simp only [hb, Option.bind_some, Option.bind_eq_some_iff, Option.some.injEq,
        Prod.mk.injEq] at h
      obtain ⟨text', ht, rfl, rfl, rfl⟩ := h
      refine ⟨x0, x1, x2, x3, tl, hr, rfl, by omega, by omega, fromUtf8_eq_some_iff.mp ht, ?_⟩
      rw [Buffer.rest_advance, hrest]
  · have hs : tmp.rest.length < 4 := by omega
    simp [readToken, Buffer.readU32Le_short hs, okRead] at h

theorem tryParseLogin_eq_some {source : Bytes} {encoding : ProtocolEncoding}
    {hasPayloadLength : Bool} {layout : String} {f : LoginFields}
    (h : tryParseLogin source encoding hasPayloadLength layout = some f) :
    ∃ t0 t1 t2 t3, readProtocol encoding (.ofBytes source) = (.ok f.protocol, t0) ∧
      0 < f.protocol ∧ f.protocol ≤ 100000 ∧ checkPayloadLength hasPayloadLength t0 = some t1 ∧
      readToken t1 = some (f.chainJson, f.chainLen, t2) ∧
      readToken t2 = some (f.skinJwt, f.skinLen, t3) := by
  simp only [tryParseLogin, Option.bind_eq_bind, Option.bind_eq_some_iff, Prod.exists] at h
  obtain ⟨protocol, t0, h0, h⟩ := h
  split at h
  · contradiction
  · next hp =>
    simp only [Option.bind_eq_some_iff, Prod.exists] at h
    obtain ⟨t1, h1, chain, clen, t2, h2, skin, slen, t3, h3, h⟩ := h
    split_ifs at h
    have hpos : 0 < protocol := by omega
    have hle : protocol ≤ 100000 := by omega
    obtain rfl := Option.some.inj h
    exact ⟨t0, t1, t2, t3, okRead_eq_some.mp h0, hpos, hle, h1, h2, h3⟩

theorem tryParseLogin_layout {source : Bytes} {encoding : ProtocolEncoding}
    {hasPayloadLength : Bool} {layout : String} {f : LoginFields}
    (h : tryParseLogin source encoding hasPayloadLength layout = some f) :
    f.layout = layout ∧ '{' ∈ f.chainJson ∧ f.skinJwt.count '.' = 2 := by
  simp only [tryParseLogin, Option.bind_eq_bind, Option.bind_eq_some_iff, Prod.exists] at h
  obtain ⟨protocol, t0, -, h⟩ := h
  split at h
  · contradiction
  simp only [Option.bind_eq_some_iff, Prod.exists] at h
  obtain ⟨t1, -, chain, clen, t2, -, skin, slen, t3, -, h⟩ := h
  split_ifs at h with hbrace hdots
  obtain rfl := Option.some.inj h
  exact ⟨rfl, hbrace, not_not.mp hdots⟩

/-- The probes in their order: encoding, whether a length follows, name. -/
def loginProbes : List (ProtocolEncoding × Bool × String) :=
  [(.u32Le, false, "u32_le"), (.u32Be, false, "u32_be"), (.varInt, false, "varint"),
    (.u32Le, true, "u32_le+payload_len"), (.u32Be, true, "u32_be+payload_len"),
    (.varInt, true, "varint+payload_len")]

/-- The layout that is selected belongs to one of the probes. -/
theorem selectLayout_probe {data : Bytes} {f : LoginFields} (h : selectLayout data = some f) :
    ∃ probe ∈ loginProbes, tryParseLogin data probe.1 probe.2.1 probe.2.2 = some f := by
  have hcons (probe : ProtocolEncoding × Bool × String)
      (probes : List (ProtocolEncoding × Bool × String)) :
      (probe :: probes).findSome? (fun p => tryParseLogin data p.1 p.2.1 p.2.2) =
        (tryParseLogin data probe.1 probe.2.1 probe.2.2 <|>
          probes.findSome? fun p => tryParseLogin data p.1 p.2.1 p.2.2) := by
    rw [List.findSome?_cons]
    cases tryParseLogin data probe.1 probe.2.1 probe.2.2 <;> rfl
  have hfind : loginProbes.findSome? (fun p => tryParseLogin data p.1 p.2.1 p.2.2) = some f := by
    rw [← h, selectLayout, loginProbes]
    simp only [hcons, List.findSome?_nil]
    simp
  exact List.exists_of_findSome?_eq_some hfind

/-- A token that has been read, with its length in front. -/
theorem readToken_takes {b b' : Buffer} {text : Str} {len : ℕ}
    (h : readToken b = some (text, len, b')) :
    len = byteLen text ∧ text ≠ [] ∧ byteLen text < 2 ^ 32 ∧
      b.rest = leBytes 4 (byteLen text % 2 ^ 32) ++ (asBytes text ++ b'.rest) := by
  obtain ⟨x0, x1, x2, x3, tl, hr, hlen, hpos, hle, htext, hrest⟩ := readToken_eq_some h
  have hbytes : byteLen text = len := by
    rw [← asBytes_length, htext, List.length_take]
    omega
  have hlt := leValue_lt [x0, x1, x2, x3]
  simp only [List.length_cons, List.length_nil, ← hlen] at hlt
  have hword : leBytes 4 len = [x0, x1, x2, x3] := by
    rw [hlen]
    exact leBytes_leValue [x0, x1, x2, x3]
  refine ⟨hbytes.symm, ?_, by omega, ?_⟩
  · rintro rfl
    rw [byteLen_nil] at hbytes
    omega
  · rw [hbytes, Nat.mod_eq_of_lt (by omega), hword, htext, hrest, List.take_append_drop, hr]
    rfl

theorem selectLayout_byteLen_lt {data : Bytes} {f : LoginFields} (h : selectLayout data = some f) :
    byteLen f.chainJson < 2 ^ 32 ∧ byteLen f.skinJwt < 2 ^ 32 := by
  obtain ⟨probe, -, hprobe⟩ := selectLayout_probe h
  obtain ⟨-, t1, t2, t3, -, -, -, -, h2, h3⟩ := tryParseLogin_eq_some hprobe
  exact ⟨(readToken_takes h2).2.2.1, (readToken_takes h3).2.2.1⟩

/-- The protocol field of a fixed-width probe is the first four octets. -/
theorem readProtocol_word {encoding : ProtocolEncoding} (he : encoding ≠ .varInt) {source : Bytes}
    {protocol : ℕ} {t0 : Buffer}
    (h : readProtocol encoding (.ofBytes source) = (.ok protocol, t0)) :
    ∃ x0 x1 x2 x3 tl, source = x0 :: x1 :: x2 :: x3 :: tl ∧ t0.rest = tl ∧
      protocol = if encoding = .u32Le then leValue [x0, x1, x2, x3]
        else beValue [x0, x1, x2, x3] := by
  by_cases hl : 4 ≤ source.length
  · obtain ⟨x0, x1, x2, x3, tl, rfl⟩ := exists_four_of_length hl
    have hr : (Buffer.ofBytes (x0 :: x1 :: x2 :: x3 :: tl)).rest = x0 :: x1 :: x2 :: x3 :: tl := rfl
    refine ⟨x0, x1, x2, x3, tl, rfl, ?_⟩
    cases encoding with
    | varInt => exact absurd rfl he
    | u32Le =>
      rw [readProtocol, Buffer.readU32Le_cons hr, Prod.mk.injEq] at h
      obtain ⟨hp, rfl⟩ := h
      exact ⟨by simp, by simpa using (Except.ok.inj hp).symm⟩
    | u32Be =>
      rw [readProtocol, Buffer.readU32_cons hr, Prod.mk.injEq] at h
      obtain ⟨hp, rfl⟩ := h
      exact ⟨by simp, by simpa using (Except.ok.inj hp).symm⟩
  · have hs : (Buffer.ofBytes source).rest.length < 4 := by
      rw [Buffer.rest_ofBytes]; omega
    cases encoding with
    | varInt => exact absurd rfl he
    | u32Le => simp [readProtocol, Buffer.readU32Le_short hs] at h
    | u32Be => simp [readProtocol, Buffer.readU32_short hs] at h

theorem readToken_none_of_long {tmp : Buffer} {x0 x1 x2 x3 : UInt8} {tl : Bytes}
    (hr : tmp.rest = x0 :: x1 :: x2 :: x3 :: tl)
    (h : tmp.rest.length < leValue [x0, x1, x2, x3] + 4) : readToken tmp = none := by
  rw [Option.eq_none_iff_forall_ne_some]
  rintro ⟨text, len, tmp'⟩ hs
  obtain ⟨y0, y1, y2, y3, tl', hr', rfl, -, hle, -⟩ := readToken_eq_some hs
  rw [hr] at hr' h
  simp only [List.cons.injEq] at hr'
  obtain ⟨rfl, rfl, rfl, rfl, rfl⟩ := hr'
  simp only [List.length_cons] at h
  omega

theorem readToken_none_of_fourth {tmp : Buffer} {x0 x1 x2 x3 : UInt8} {tl : Bytes}
    (hr : tmp.rest = x0 :: x1 :: x2 :: x3 :: tl) (hx : x3 ≠ 0) (hl : tmp.rest.length < 2 ^ 24) :
    readToken tmp = none := by
  have h := le_leValue_of_fourth_ne_zero (a := x0) (b := x1) (c := x2) hx
  exact readToken_none_of_long hr (by omega)

/-- No length below `2 ^ 24` can be read from text without a zero octet. -/
theorem readToken_none_of_noZero {tmp : Buffer} (hz : (0 : UInt8) ∉ tmp.rest)
    (hl : tmp.rest.length < 2 ^ 24) : readToken tmp = none := by
  rw [Option.eq_none_iff_forall_ne_some]
  rintro ⟨text, len, tmp'⟩ hs
  obtain ⟨x0, x1, x2, x3, tl, hr, -⟩ := readToken_eq_some hs
  have hx : x3 ≠ 0 := fun h => hz (by simp [hr, h])
  rw [readToken_none_of_fourth hr hx hl] at hs
  contradiction

theorem loginBody_eq (chainJson skinJwt : Str) :
    loginBody chainJson skinJwt = leBytes 4 (byteLen chainJson % 2 ^ 32) ++
      (asBytes chainJson ++ (leBytes 4 (byteLen skinJwt % 2 ^ 32) ++ asBytes skinJwt)) := by
  simp [loginBody]

/-- The octets of the protocol field. -/
def protocolBytes (encoding : ProtocolEncoding) (protocol : ℕ) : Bytes :=
  match encoding with
  | .u32Le => leBytes 4 protocol
  | .u32Be => beBytes 4 protocol
  | .varInt => leb128 protocol

theorem writeProtocol_data (encoding : ProtocolEncoding) {protocol : ℕ} (h : protocol < 2 ^ 32) :
    (writeProtocol encoding protocol Buffer.new).data = protocolBytes encoding protocol := by
  cases encoding
  · simp [writeProtocol, protocolBytes]
  · simp [writeProtocol, protocolBytes]
  · simp [writeProtocol, protocolBytes, Buffer.data_writeVarInt h]

/-- The octets of the optional length prefix. -/
def lengthBytes (hasPayloadLength : Bool) (n : ℕ) : Bytes :=
  if hasPayloadLength then leb128 n else []

theorem loginPayload_eq (protocol : ℕ) (encoding : ProtocolEncoding) (hasPayloadLength : Bool)
    (chainJson skinJwt : Str) (h : protocol < 2 ^ 32) :
    loginPayload protocol encoding hasPayloadLength chainJson skinJwt =
      protocolBytes encoding protocol ++
        (lengthBytes hasPayloadLength ((loginBody chainJson skinJwt).length % 2 ^ 32) ++
          loginBody chainJson skinJwt) := by
  have hm := Nat.mod_lt (loginBody chainJson skinJwt).length (show 2 ^ 32 > 0 by decide)
  cases hasPayloadLength
  · simp [loginPayload, lengthBytes, writeProtocol_data encoding h]
  · simp only [loginPayload, lengthBytes, if_true, Buffer.data_writeBytes,
      Buffer.data_writeVarInt hm, writeProtocol_data encoding h, List.append_assoc]

theorem readProtocol_protocolBytes (encoding : ProtocolEncoding) {protocol : ℕ}
    (h : protocol < 2 ^ 32) (tl : Bytes) :
    ∃ t0, readProtocol encoding (.ofBytes (protocolBytes encoding protocol ++ tl)) =
      (.ok protocol, t0) ∧ t0.rest = tl := by
  have hr : (Buffer.ofBytes (protocolBytes encoding protocol ++ tl)).rest =
      protocolBytes encoding protocol ++ tl := rfl
  refine ⟨(Buffer.ofBytes (protocolBytes encoding protocol ++ tl)).advance
    (protocolBytes encoding protocol).length, ?_, ?_⟩
  · cases encoding with
    | u32Le => exact Buffer.readU32Le_leBytes h hr
    | u32Be => exact Buffer.readU32_beBytes h hr
    | varInt => exact Buffer.readVarInt_leb128 h hr
  · rw [Buffer.rest_advance, hr, List.drop_left]

theorem readToken_token {tmp : Buffer} {text : Str} {tl : Bytes} (hne : text ≠ [])
    (hlt : byteLen text < 2 ^ 32)
    (hr : tmp.rest = leBytes 4 (byteLen text % 2 ^ 32) ++ (asBytes text ++ tl)) :
    ∃ tmp', readToken tmp = some (text, byteLen text, tmp') ∧ tmp'.rest = tl := by
  have hpos : 0 < byteLen text := by
    have := length_le_byteLen text
    have := List.length_pos_iff.mpr hne
    omega
  rw [Nat.mod_eq_of_lt hlt] at hr
  have hread : tmp.readU32Le = (.ok (byteLen text), tmp.advance 4) :=
    Buffer.readU32Le_leBytes hlt hr
  have hrest : (tmp.advance 4).rest = asBytes text ++ tl := by
    rw [Buffer.rest_advance, hr]; rfl
  have hbytes : (tmp.advance 4).readBytes (byteLen text) =
      (.ok (asBytes text), (tmp.advance 4).advance (byteLen text)) := by
    rw [← asBytes_length]; exact Buffer.readBytes_append hrest
  refine ⟨(tmp.advance 4).advance (byteLen text), ?_, ?_⟩
  · have hrem : ¬ (byteLen text = 0 ∨ (tmp.advance 4).remaining < byteLen text) := by
      rw [Buffer.remaining_eq, hrest, List.length_append, asBytes_length]; omega
    simp only [readToken, hread, okRead, Option.bind_eq_bind, Option.bind_some, if_neg hrem,
      hbytes, fromUtf8_asBytes]
  · rw [Buffer.rest_advance, hrest, ← asBytes_length, List.drop_left]

theorem loginBody_length (chainJson skinJwt : Str) :
    (loginBody chainJson skinJwt).length = 8 + byteLen chainJson + byteLen skinJwt := by
  simp only [loginBody_eq, List.length_append, leBytes_length, asBytes_length]
  omega

/-- Tokens that encode unambiguously: the chain starts with a brace, the skin
token has exactly two dots, neither contains the NUL character. -/
structure LoginTokens where
  chainTail : Str
  skinJwt : Str
  chain_noNul : '\x00' ∉ chainTail
  skin_noNul : '\x00' ∉ skinJwt
  skin_dots : skinJwt.count '.' = 2

namespace LoginTokens

def chainJson (t : LoginTokens) : Str := '{' :: t.chainTail

def body (t : LoginTokens) : Bytes := loginBody t.chainJson t.skinJwt

theorem skin_ne_nil (t : LoginTokens) : t.skinJwt ≠ [] := by
  intro h
  have := t.skin_dots
  rw [h] at this
  contradiction

theorem chain_byteLen (t : LoginTokens) : byteLen t.chainJson = 1 + byteLen t.chainTail := by
  rw [chainJson, byteLen_cons]
  rfl

theorem body_length (t : LoginTokens) :
    t.body.length = 9 + byteLen t.chainTail + byteLen t.skinJwt := by
  rw [body, loginBody_length, chain_byteLen]
  omega

/-- The body with its first length and the brace spelled out. -/
theorem body_eq (t : LoginTokens) (hl : t.body.length < 2 ^ 24) :
    t.body = .ofNat ((1 + byteLen t.chainTail) % 256) ::
      .ofNat ((1 + byteLen t.chainTail) / 256 % 256) ::
      .ofNat ((1 + byteLen t.chainTail) / 256 / 256 % 256) :: 0 :: 0x7B ::
      (asBytes t.chainTail ++ (leBytes 4 (byteLen t.skinJwt) ++ asBytes t.skinJwt)) := by
  have hb := t.body_length
  have hc : (1 + byteLen t.chainTail) % 2 ^ 32 = 1 + byteLen t.chainTail :=
    Nat.mod_eq_of_lt (by omega)
  have hs : byteLen t.skinJwt % 2 ^ 32 = byteLen t.skinJwt := Nat.mod_eq_of_lt (by omega)
  have h3 : (1 + byteLen t.chainTail) / 256 / 256 / 256 % 256 = 0 := by omega
  rw [body, loginBody_eq, chain_byteLen, hc, hs]
  simp only [leBytes, h3, chainJson, asBytes_cons]
  rfl

/-- At the offset of the body both tokens are recovered, whatever was read before. -/
theorem readTokens_body (t : LoginTokens) (hl : t.body.length < 2 ^ 24) {tmp : Buffer}
    (hr : tmp.rest = t.body) :
    ∃ t2 t3, readToken tmp = some (t.chainJson, byteLen t.chainJson, t2) ∧
      readToken t2 = some (t.skinJwt, byteLen t.skinJwt, t3) := by
  have hb := t.body_length
  have hc := t.chain_byteLen
  rw [body, loginBody_eq] at hr
  obtain ⟨t2, h2, hr2⟩ := readToken_token (List.cons_ne_nil '{' t.chainTail)
    (by rw [← chainJson]; omega) hr
  have hr3 : t2.rest = leBytes 4 (byteLen t.skinJwt % 2 ^ 32) ++ (asBytes t.skinJwt ++ []) := by
    rw [hr2, List.append_nil]
  obtain ⟨t3, h3, -⟩ := readToken_token t.skin_ne_nil (by omega) hr3
  exact ⟨t2, t3, h2, h3⟩

/-- A chain length read where the payload length begins exceeds the packet. -/
theorem readToken_at_length (t : LoginTokens) (hl : t.body.length < 2 ^ 24) {tmp : Buffer}
    (hr : tmp.rest = leb128 t.body.length ++ t.body) : readToken tmp = none := by
  have hb := t.body_length
  have hlen : tmp.rest.length = (leb128 t.body.length).length + t.body.length := by
    rw [hr, List.length_append]
  have hbody := t.body_eq hl
  generalize t.body.length = n at *
  have cont (m : ℕ) : (UInt8.ofNat (m % 128 + 128)).toNat = m % 128 + 128 :=
    toNat_ofNat_lt (by omega)
  rcases leb128_cases (v := n) (by omega) with ⟨h, he⟩ | ⟨h, h', he⟩ | ⟨h, h', he⟩ | ⟨h, he⟩
  all_goals
    rw [he] at hr hlen
    rw [hbody] at hr
    simp only [List.length_cons, List.length_nil] at hlen
    refine readToken_none_of_long hr ?_
    simp only [leValue, cont]
  · simp only [UInt8.toNat_ofNat']
    omega
  · simp only [UInt8.toNat_ofNat']
    omega
  · rw [toNat_ofNat_lt (n := n / 128 / 128) (by omega)]
    omega
  · rw [toNat_ofNat_lt (n := n / 128 / 128 / 128) (by omega)]
    omega

/-- A probe that cannot win with other tokens. -/
def Harmless (t : LoginTokens) (probe : Option LoginFields) : Prop :=
  ∀ f, probe = some f → f.chainJson = t.chainJson ∧ f.skinJwt = t.skinJwt

variable {t : LoginTokens} {source : Bytes} {encoding : ProtocolEncoding} {layout : String}

/-- The tokens are right when both token reads start at the body. -/
theorem tokens_eq_of_rest (hl : t.body.length < 2 ^ 24) {t1 t2 t3 : Buffer} (hr : t1.rest = t.body)
    {chain skin : Str} {m n : ℕ} (h2 : readToken t1 = some (chain, m, t2))
    (h3 : readToken t2 = some (skin, n, t3)) : chain = t.chainJson ∧ skin = t.skinJwt := by
  obtain ⟨u2, u3, e2, e3⟩ := t.readTokens_body hl hr
  simp only [h2, Option.some.injEq, Prod.mk.injEq] at e2
  obtain ⟨rfl, rfl, rfl⟩ := e2
  simp only [h3, Option.some.injEq, Prod.mk.injEq] at e3
  exact ⟨rfl, e3.1⟩

theorem harmless_of_refused {probe : Option LoginFields} (h : probe = none) : t.Harmless probe := by
  intro f hf
  rw [h] at hf
  contradiction

/-- The two tokens that a probe without length prefix has read. -/
theorem tokens_of_unprefixed {t0 : Buffer} {protocol : ℕ} {f : LoginFields}
    (hread : readProtocol encoding (.ofBytes source) = (.ok protocol, t0))
    (hf : tryParseLogin source encoding false layout = some f) :
    ∃ t2 t3, readToken t0 = some (f.chainJson, f.chainLen, t2) ∧
      readToken t2 = some (f.skinJwt, f.skinLen, t3) := by
  obtain ⟨u0, u1, u2, u3, h0, -, -, h1, h2, h3⟩ := tryParseLogin_eq_some hf
  rw [hread, Prod.mk.injEq] at h0
  obtain ⟨-, rfl⟩ := h0
  obtain rfl : t0 = u1 := by simpa [checkPayloadLength] using h1
  exact ⟨u2, u3, h2, h3⟩

/-- A probe without length prefix that stands at the body finds the tokens. -/
theorem harmless_of_rest {t0 : Buffer} {protocol : ℕ} (hl : t.body.length < 2 ^ 24)
    (hread : readProtocol encoding (.ofBytes source) = (.ok protocol, t0))
    (hr : t0.rest = t.body) : t.Harmless (tryParseLogin source encoding false layout) := by
  intro f hf
  obtain ⟨t2, t3, h2, h3⟩ := tokens_of_unprefixed hread hf
  exact tokens_eq_of_rest hl hr h2 h3

/-- A probe without length prefix refuses what has no second token. -/
theorem refuses_of_second {t0 : Buffer} {protocol : ℕ}
    (hread : readProtocol encoding (.ofBytes source) = (.ok protocol, t0))
    (h : ∀ text n t2, readToken t0 = some (text, n, t2) → readToken t2 = none) :
    tryParseLogin source encoding false layout = none := by
  rw [Option.eq_none_iff_forall_ne_some]
  intro f hf
  obtain ⟨t2, t3, h2, h3⟩ := tokens_of_unprefixed hread hf
  rw [h _ _ _ h2] at h3
  contradiction

theorem refuses_of_none {t0 : Buffer} {protocol : ℕ}
    (hread : readProtocol encoding (.ofBytes source) = (.ok protocol, t0))
    (h : readToken t0 = none) : tryParseLogin source encoding false layout = none :=
  refuses_of_second hread fun _ _ _ hs => by rw [h] at hs; contradiction

/-- A probe with length prefix that stands at the prefix finds the tokens. -/
theorem harmless_of_length {t0 : Buffer} {protocol : ℕ} (hl : t.body.length < 2 ^ 24)
    (hread : readProtocol encoding (.ofBytes source) = (.ok protocol, t0))
    (hr : t0.rest = leb128 t.body.length ++ t.body) :
    t.Harmless (tryParseLogin source encoding true layout) := by
  intro f hf
  obtain ⟨u0, u1, u2, u3, h0, -, -, h1, h2, h3⟩ := tryParseLogin_eq_some hf
  rw [hread, Prod.mk.injEq] at h0
  obtain ⟨-, rfl⟩ := h0
  have hlen := Buffer.readVarInt_leb128 (by omega) hr
  have hrest : (t0.advance (leb128 t.body.length).length).rest = t.body := by
    rw [Buffer.rest_advance, hr, List.drop_left]
  simp only [checkPayloadLength, if_true, hlen, okRead, Option.bind_eq_bind,
    Option.bind_some] at h1
  split at h1
  · contradiction
  · obtain rfl := Option.some.inj h1
    exact tokens_eq_of_rest hl hrest h2 h3

/-- A probe whose protocol number is out of range refuses the packet. -/
theorem refuses_of_protocol {hasPayloadLength : Bool}
    (h : ∀ protocol t0, readProtocol encoding (.ofBytes source) = (.ok protocol, t0) →
      protocol = 0 ∨ 100000 < protocol) :
    tryParseLogin source encoding hasPayloadLength layout = none := by
  rw [Option.eq_none_iff_forall_ne_some]
  intro f hf
  obtain ⟨u0, -, -, -, h0, hpos, hle, -⟩ := tryParseLogin_eq_some hf
  rcases h _ _ h0 with h | h <;> omega

/-- A variable-length protocol begins with a nonzero octet, which a big-endian
probe reads as the most significant one. -/
theorem bigEndian_refuses {protocol : ℕ} (hp : 0 < protocol) (hp' : protocol ≤ 100000)
    {hasPayloadLength : Bool} (tl : Bytes) :
    tryParseLogin (leb128 protocol ++ tl) .u32Be hasPayloadLength layout = none := by
  refine refuses_of_protocol fun q t0 h => .inr ?_
  obtain ⟨x0, x1, x2, x3, tl', hs, -, hq⟩ := readProtocol_word (by decide) h
  have hx : x0 ≠ 0 := by
    obtain ⟨b, bs, hb⟩ := List.exists_cons_of_ne_nil (leb128_ne_nil protocol)
    have hz := zero_notMem_leb128 (v := protocol) (by omega)
    rw [hb, List.cons_append, List.cons.injEq] at hs
    rw [hb, hs.1, List.mem_cons, not_or] at hz
    exact Ne.symm hz.1
  have hge := le_leValue_of_fourth_ne_zero (a := x3) (b := x2) (c := x1) hx
  rw [hq, if_neg (by decide)]
  simp only [beValue, List.reverse_cons, List.reverse_nil, List.nil_append, List.cons_append]
  omega

/-- A big-endian protocol begins with a zero octet, which a variable-length
probe reads as protocol zero. -/
theorem varInt_refuses_of_be {protocol : ℕ} (hp' : protocol ≤ 100000)
    {hasPayloadLength : Bool} (tl : Bytes) :
    tryParseLogin (beBytes 4 protocol ++ tl) .varInt hasPayloadLength layout = none := by
  refine refuses_of_protocol fun q t0 h => .inl ?_
  have h3 : protocol / 256 / 256 / 256 % 256 = 0 := by omega
  have hb : beBytes 4 protocol ++ tl = 0 :: ((beBytes 4 protocol).drop 1 ++ tl) := by
    simp [beBytes, leBytes, h3]
  have hrest : (Buffer.ofBytes (beBytes 4 protocol ++ tl)).rest =
      leb128 0 ++ ((beBytes 4 protocol).drop 1 ++ tl) := by
    rw [Buffer.rest_ofBytes, hb, leb128_of_lt (by decide)]
    rfl
  have hz := Buffer.readVarInt_leb128 (by decide) hrest
  rw [readProtocol, hz, Prod.mk.injEq] at h
  exact (Except.ok.inj h.1).symm

/-- The first octets of a length prefix and body: two nonzero ones, then one
that is zero only in a short packet. -/
theorem length_prefix_shape (t : LoginTokens) (hl : t.body.length < 2 ^ 24) :
    ∃ n x y tl, leb128 t.body.length ++ t.body = n :: x :: y :: tl ∧ n ≠ 0 ∧ x ≠ 0 ∧
      (y ≠ 0 ∨ t.body.length < 2 ^ 14) := by
  have hb := t.body_length
  have hz := zero_notMem_leb128 (v := t.body.length) (by omega)
  have hbody := t.body_eq hl
  generalize t.body.length = m at *
  rcases leb128_cases (v := m) (by omega) with ⟨h, he⟩ | ⟨h, h', he⟩ | ⟨h, h', he⟩ | ⟨h, he⟩
  all_goals
    rw [he] at hz ⊢
    simp only [List.mem_cons, List.not_mem_nil, or_false, not_or] at hz
  · have hc : (0 : UInt8) ≠ .ofNat ((1 + byteLen t.chainTail) % 256) := by
      intro h0
      have := congrArg UInt8.toNat h0
      rw [toNat_ofNat_mod, UInt8.toNat_zero] at this
      omega
    rw [hbody]
    exact ⟨_, _, _, _, rfl, Ne.symm hz, Ne.symm hc, .inr (by omega)⟩
  · rw [hbody]
    exact ⟨_, _, _, _, rfl, Ne.symm hz.1, Ne.symm hz.2, .inr h'⟩
  · exact ⟨_, _, _, _, rfl, Ne.symm hz.1, Ne.symm hz.2.1, .inl (Ne.symm hz.2.2)⟩
  · exact ⟨_, _, _, _, rfl, Ne.symm hz.1, Ne.symm hz.2.1, .inl (Ne.symm hz.2.2.1)⟩

/-- A little-endian protocol read as a variable-length one leaves the probe in
front of the length prefix, with the zero octets of the protocol as low bits. -/
theorem varInt_refuses_of_le {protocol : ℕ} (hp' : protocol ≤ 100000)
    (hl : t.body.length < 2 ^ 24)
    (hsource : source = leBytes 4 protocol ++ (leb128 t.body.length ++ t.body))
    (hlen : source.length < 2 ^ 24) :
    tryParseLogin source .varInt false layout = none := by
  obtain ⟨n, x, y, tl, he, hn, hx, hy⟩ := t.length_prefix_shape hl
  have h3 : protocol / 256 / 256 / 256 % 256 = 0 := by omega
  have hrest : (Buffer.ofBytes source).rest = .ofNat (protocol % 256) ::
      .ofNat (protocol / 256 % 256) :: .ofNat (protocol / 256 / 256 % 256) :: 0 ::
      n :: x :: y :: tl := by
    rw [Buffer.rest_ofBytes, hsource, he]
    simp only [leBytes, h3]
    rfl
  have hshort (k : ℕ) : ((Buffer.ofBytes source).advance k).rest.length < 2 ^ 24 := by
    rw [Buffer.rest_advance, List.length_drop, Buffer.rest_ofBytes]
    omega
  have hdrop (k : ℕ) := (Buffer.rest_advance k (.ofBytes source)).trans (congrArg _ hrest)
  by_cases h0 : protocol % 256 < 128
  · have hr := Buffer.readVarInt_groups [] _ _ (by simp) (by simpa using h0) (by simp)
      (by simp [groupValue]; omega) hrest
    exact refuses_of_none hr (readToken_none_of_fourth (hdrop 1) hn (hshort _))
  by_cases h1 : protocol / 256 % 256 < 128
  · have hr := Buffer.readVarInt_groups [.ofNat (protocol % 256)] _ _ (by simp; omega)
      (by simpa using h1) (by simp) (by simp [groupValue]; omega) hrest
    exact refuses_of_none hr (readToken_none_of_fourth (hdrop 2) hx (hshort _))
  · have hr := Buffer.readVarInt_groups
      [.ofNat (protocol % 256), .ofNat (protocol / 256 % 256)] _ _ (by simp; omega)
      (by simp; omega) (by simp) (by simp [groupValue]; omega) hrest
    refine refuses_of_none hr ?_
    rcases hy with hy | hy
    · exact readToken_none_of_fourth (hdrop 3) hy (hshort _)
    -- A short packet: the length read here is at least `2 ^ 16`.
    · have hx' : x.toNat ≠ 0 := fun h => hx (UInt8.toNat_inj.mp h)
      have hlt := congrArg List.length he
      simp only [List.length_append, List.length_cons] at hlt
      have hw : (leb128 t.body.length).length ≤ 4 := by
        rcases leb128_cases (v := t.body.length) (by omega) with
          ⟨_, e⟩ | ⟨_, _, e⟩ | ⟨_, _, e⟩ | ⟨_, e⟩ <;> rw [e] <;> simp
      have hrl : ((Buffer.ofBytes source).advance 3).rest.length = tl.length + 4 := by
        rw [hdrop 3]; rfl
      refine readToken_none_of_long (hdrop 3) (lt_of_eq_of_lt hrl ?_)
      simp only [leValue, UInt8.toNat_zero]
      omega

/-- A length that is read across the brace and accepted reaches past the chain. -/
theorem chain_le_of_inside (t : LoginTokens) (hl : t.body.length < 2 ^ 24) {j : ℕ} (hj : 1 ≤ j)
    (hj' : j ≤ 3) {x0 x1 x2 x3 : UInt8} {tl : Bytes}
    (hr : t.body.drop j = x0 :: x1 :: x2 :: x3 :: tl)
    (hx : x3 = 0) : 5 + byteLen t.chainTail ≤ j + leValue [x0, x1, x2, x3] := by
  have hz := zero_notMem_asBytes t.chain_noNul
  have hlen := asBytes_length t.chainTail
  have hs : leBytes 4 (byteLen t.skinJwt) = [.ofNat (byteLen t.skinJwt % 256),
      .ofNat (byteLen t.skinJwt / 256 % 256), .ofNat (byteLen t.skinJwt / 256 / 256 % 256),
      .ofNat (byteLen t.skinJwt / 256 / 256 / 256 % 256)] := rfl
  rw [t.body_eq hl, hs] at hr
  generalize asBytes t.chainTail = chain at *
  have hbrace : UInt8.toNat 0x7B = 0x7B := rfl
  -- With the brace or a chain octet in the fourth place the length is not small.
  obtain rfl | rfl | rfl : j = 1 ∨ j = 2 ∨ j = 3 := by omega
  · obtain ⟨rfl, rfl, rfl, rfl, -⟩ := by
      simpa only [List.drop_succ_cons, List.drop_zero, List.cons.injEq] using hr
    contradiction
  · rcases chain with - | ⟨u, w⟩
    · obtain ⟨rfl, rfl, rfl, rfl, -⟩ := by
        simpa only [List.drop_succ_cons, List.drop_zero, List.nil_append, List.cons_append,
          List.cons.injEq] using hr
      simp only [List.length_nil, leValue, hbrace] at hlen ⊢
      omega
    · obtain ⟨rfl, rfl, rfl, rfl, -⟩ := by
        simpa only [List.drop_succ_cons, List.drop_zero, List.cons_append,
          List.cons.injEq] using hr
      simp [hx] at hz
  · rcases chain with - | ⟨u, - | ⟨v, w⟩⟩
    · obtain ⟨rfl, rfl, rfl, rfl, -⟩ := by
        simpa only [List.drop_succ_cons, List.drop_zero, List.nil_append, List.cons_append,
          List.cons.injEq] using hr
      simp only [List.length_nil, leValue, hbrace] at hlen ⊢
      omega
    · obtain ⟨rfl, rfl, rfl, rfl, -⟩ := by
        simpa only [List.drop_succ_cons, List.drop_zero, List.nil_append, List.cons_append,
          List.cons.injEq] using hr
      simp only [List.length_cons, List.length_nil, leValue, hbrace] at hlen ⊢
      omega
    · obtain ⟨rfl, rfl, rfl, rfl, -⟩ := by
        simpa only [List.drop_succ_cons, List.drop_zero, List.cons_append,
          List.cons.injEq] using hr
      simp [hx] at hz

/-- A chain read from inside the body ends in the skin token, where no length can be read. -/
theorem readToken_inside (t : LoginTokens) (hl : t.body.length < 2 ^ 24) {j : ℕ} (hj : 1 ≤ j)
    (hj' : j ≤ 3) {t0 t2 : Buffer} (hr : t0.rest = t.body.drop j) {text : Str} {n : ℕ}
    (h : readToken t0 = some (text, n, t2)) : readToken t2 = none := by
  obtain ⟨x0, x1, x2, x3, tl, he, rfl, -, -, -, ht⟩ := readToken_eq_some h
  have hshort : t0.rest.length < 2 ^ 24 := by rw [hr, List.length_drop]; omega
  have hx : x3 = 0 := by
    by_contra hx
    rw [readToken_none_of_fourth he hx hshort] at h
    contradiction
  have hreach := t.chain_le_of_inside hl hj hj' (hr.symm.trans he) hx
  generalize leValue [x0, x1, x2, x3] = n at *
  have hdrop : t2.rest = t.body.drop (j + 4 + n) := by
    rw [ht, ← List.drop_drop, ← List.drop_drop, ← hr, he]
    rfl
  have hskin : t.body.drop (j + 4 + n) =
      (asBytes t.skinJwt).drop (j + 4 + n - (9 + byteLen t.chainTail)) := by
    have hsplit : t.body = (leBytes 4 (byteLen t.chainJson % 2 ^ 32) ++ (asBytes t.chainJson ++
        leBytes 4 (byteLen t.skinJwt % 2 ^ 32))) ++ asBytes t.skinJwt := by
      simp only [body, loginBody_eq, List.append_assoc]
    rw [hsplit, List.drop_append, List.drop_eq_nil_of_le, List.nil_append]
    · simp only [List.length_append, leBytes_length, asBytes_length, chain_byteLen]
      congr 1
      omega
    · simp only [List.length_append, leBytes_length, asBytes_length, chain_byteLen]
      omega
  refine readToken_none_of_noZero ?_ ?_
  · rw [hdrop, hskin]
    exact fun hm => zero_notMem_asBytes t.skin_noNul (List.mem_of_mem_drop hm)
  · rw [hdrop, List.length_drop]
    omega

/-- A variable-length protocol of fewer than four octets read as a little-endian word
leaves the probe inside the body. -/
theorem wordLe_refuses_of_varInt {protocol : ℕ} (hp : protocol ≤ 100000)
    (hl : t.body.length < 2 ^ 24) :
    tryParseLogin (leb128 protocol ++ t.body) .u32Le false layout = none := by
  have key (w : Bytes) (hw : 1 ≤ w.length) (hw' : w.length ≤ 3) :
      tryParseLogin (w ++ t.body) .u32Le false layout = none := by
    rw [Option.eq_none_iff_forall_ne_some]
    intro f hf
    obtain ⟨t0, -, -, -, h0, -⟩ := tryParseLogin_eq_some hf
    obtain ⟨x0, x1, x2, x3, tl, hs, hrest, -⟩ := readProtocol_word (by decide) h0
    have hr : t0.rest = t.body.drop (4 - w.length) := by
      have hdrop := congrArg (List.drop 4) hs
      rw [List.drop_append, List.drop_eq_nil_of_le (by omega), List.nil_append] at hdrop
      rw [hrest, hdrop]
      rfl
    rw [refuses_of_second h0 fun _ _ _ h => t.readToken_inside hl (by omega) (by omega) hr h] at hf
    contradiction
  rcases leb128_cases (v := protocol) (by omega) with ⟨_, e⟩ | ⟨_, _, e⟩ | ⟨_, _, e⟩ | ⟨_, e⟩
  · exact key _ (by simp [e]) (by simp [e])
  · exact key _ (by simp [e]) (by simp [e])
  · exact key _ (by simp [e]) (by simp [e])
  · omega

/-- The first four octets are a number out of range, or the probe stands at two
zero octets in front of the brace of a packet with a one-octet chain. -/
theorem word_over_length_prefix (t : LoginTokens) {protocol : ℕ} (hp : 0 < protocol)
    (hp' : protocol ≤ 100000) (hl : t.body.length < 2 ^ 24) {x0 x1 x2 x3 : UInt8} {tl : Bytes}
    (hs : leb128 protocol ++ (leb128 t.body.length ++ t.body) = x0 :: x1 :: x2 :: x3 :: tl) :
    100000 < leValue [x0, x1, x2, x3] ∨
      (t.body.length < 128 ∧ ∃ x tl', tl = 0 :: 0 :: 0x7B :: x :: tl') := by
  have hb := t.body_length
  have hdots : 2 ≤ byteLen t.skinJwt := by
    have h1 := List.count_le_length (a := '.') (l := t.skinJwt)
    have h2 := length_le_byteLen t.skinJwt
    rw [t.skin_dots] at h1
    omega
  have hzp := zero_notMem_leb128 (v := protocol) (by omega)
  have hzn := zero_notMem_leb128 (v := t.body.length) (by omega)
  have hbody := t.body_eq hl
  generalize hm : t.body.length = m at *
  have fourth (h : x3 ≠ 0) : 100000 < leValue [x0, x1, x2, x3] :=
    lt_of_lt_of_le (by decide) (le_leValue_of_fourth_ne_zero h)
  rw [hbody] at hs
  rcases leb128_cases (v := protocol) (by omega) with ⟨_, ep⟩ | ⟨_, _, ep⟩ | ⟨_, _, ep⟩ | ⟨_, ep⟩
  · rcases leb128_cases (v := m) (by omega) with ⟨h, en⟩ | ⟨h, h', en⟩ | ⟨h, h', en⟩ | ⟨h, en⟩
    all_goals
      rw [ep, en] at hs
      rw [en] at hzn
      simp only [List.cons_append, List.nil_append, List.cons.injEq] at hs
      simp only [List.mem_cons, List.not_mem_nil, or_false, not_or] at hzn
    · obtain ⟨rfl, rfl, rfl, rfl, rfl⟩ := hs
      by_cases hc : byteLen t.chainTail = 0
      · have hnil : asBytes t.chainTail = [] := by
          rw [← List.length_eq_zero_iff, asBytes_length, hc]
        rw [hc, hnil]
        exact .inr ⟨by omega, _, _, rfl⟩
      · left
        simp only [leValue, toNat_ofNat_mod]
        omega
    · obtain ⟨rfl, rfl, rfl, rfl, -⟩ := hs
      left
      simp only [leValue, toNat_ofNat_mod, toNat_ofNat_lt (show m / 128 < 256 by omega)]
      omega
    · obtain ⟨rfl, rfl, rfl, rfl, -⟩ := hs
      exact .inl (fourth (Ne.symm hzn.2.2))
    · obtain ⟨rfl, rfl, rfl, rfl, -⟩ := hs
      exact .inl (fourth (Ne.symm hzn.2.2.1))
  · rcases leb128_cases (v := m) (by omega) with ⟨h, en⟩ | ⟨h, h', en⟩ | ⟨h, h', en⟩ | ⟨h, en⟩
    all_goals
      rw [ep, en] at hs
      rw [en] at hzn
      simp only [List.cons_append, List.nil_append, List.cons.injEq] at hs
      simp only [List.mem_cons, List.not_mem_nil, or_false, not_or] at hzn
      obtain ⟨rfl, rfl, rfl, rfl, -⟩ := hs
    · left
      simp only [leValue, toNat_ofNat_mod, toNat_ofNat_lt (show m < 256 by omega)]
      omega
    · exact .inl (fourth (Ne.symm hzn.2))
    · exact .inl (fourth (Ne.symm hzn.2.1))
    · exact .inl (fourth (Ne.symm hzn.2.1))
  · obtain ⟨n, bs, hn⟩ := List.exists_cons_of_ne_nil (leb128_ne_nil m)
    rw [ep, hn] at hs
    rw [hn, List.mem_cons, not_or] at hzn
    simp only [List.cons_append, List.nil_append, List.cons.injEq] at hs
    obtain ⟨rfl, rfl, rfl, rfl, -⟩ := hs
    exact .inl (fourth (Ne.symm hzn.1))
  · omega

theorem wordLe_refuses_of_varInt_length {protocol : ℕ} (hp : 0 < protocol)
    (hp' : protocol ≤ 100000) (hl : t.body.length < 2 ^ 24) (hasPayloadLength : Bool) :
    tryParseLogin (leb128 protocol ++ (leb128 t.body.length ++ t.body)) .u32Le hasPayloadLength
      layout = none := by
  rw [Option.eq_none_iff_forall_ne_some]
  intro f hf
  obtain ⟨t0, t1, t2, -, h0, -, hle, h1, h2, -⟩ := tryParseLogin_eq_some hf
  obtain ⟨x0, x1, x2, x3, tl, hs, hrest, hq⟩ := readProtocol_word (by decide) h0
  rw [if_pos rfl] at hq
  rcases t.word_over_length_prefix hp hp' hl hs with h | ⟨hshort, x, tl', rfl⟩
  · omega
  have hw : (leb128 protocol).length ≤ 3 := by
    rcases leb128_cases (v := protocol) (by omega) with ⟨_, e⟩ | ⟨_, _, e⟩ | ⟨_, _, e⟩ | ⟨_, e⟩
    · simp [e]
    · simp [e]
    · simp [e]
    · omega
  have hlen := congrArg List.length hs
  simp only [List.length_append, List.length_cons, leb128_of_lt hshort, List.length_nil] at hlen
  cases hasPayloadLength with
  | false =>
    obtain rfl : t0 = t1 := by simpa [checkPayloadLength] using h1
    have hbrace : UInt8.toNat 0x7B = 0x7B := rfl
    rw [readToken_none_of_long hrest] at h2
    · contradiction
    · simp only [hrest, List.length_cons, leValue, hbrace]
      omega
  | true =>
    have hz : t0.rest = leb128 0 ++ (0 :: 0x7B :: x :: tl') := by
      rw [hrest, leb128_of_lt (by decide)]
      rfl
    have hread := Buffer.readVarInt_leb128 (by decide) hz
    simp [checkPayloadLength, hread, okRead] at h1

/-- A probe that wins with the encoded tokens. -/
def Finds (t : LoginTokens) (probe : Option LoginFields) : Prop :=
  ∃ f, probe = some f ∧ f.chainJson = t.chainJson ∧ f.skinJwt = t.skinJwt

theorem finds_orElse_left {a b : Option LoginFields} (h : t.Finds a) : t.Finds (a <|> b) := by
  obtain ⟨f, rfl, hf⟩ := h
  exact ⟨f, rfl, hf⟩

theorem finds_orElse_right {a b : Option LoginFields} (ha : t.Harmless a) (hb : t.Finds b) :
    t.Finds (a <|> b) := by
  cases a with
  | none => simpa using hb
  | some f => exact ⟨f, rfl, ha f rfl⟩

theorem loginPayload_body {protocol : ℕ} (hp' : protocol ≤ 100000) (hl : t.body.length < 2 ^ 24)
    (encoding : ProtocolEncoding) (hasPayloadLength : Bool) :
    loginPayload protocol encoding hasPayloadLength t.chainJson t.skinJwt =
      protocolBytes encoding protocol ++
        (lengthBytes hasPayloadLength t.body.length ++ t.body) := by
  rw [loginPayload_eq _ _ _ _ _ (by omega), ← body, Nat.mod_eq_of_lt (by omega)]

/-- What a probe finds that reads all tokens where they were written. -/
def fields (t : LoginTokens) (protocol : ℕ) (layout : String) : LoginFields :=
  ⟨protocol, t.chainJson, t.skinJwt, byteLen t.chainJson, byteLen t.skinJwt, layout⟩

theorem own_layout {protocol : ℕ} (hp : 0 < protocol) (hp' : protocol ≤ 100000)
    (hl : t.body.length < 2 ^ 24) (hasPayloadLength : Bool) :
    tryParseLogin (protocolBytes encoding protocol ++
      (lengthBytes hasPayloadLength t.body.length ++ t.body)) encoding hasPayloadLength layout =
        some (t.fields protocol layout) := by
  obtain ⟨t0, h0, hr0⟩ := readProtocol_protocolBytes encoding (show protocol < 2 ^ 32 by omega)
    (lengthBytes hasPayloadLength t.body.length ++ t.body)
  have hcheck : ∃ t1, checkPayloadLength hasPayloadLength t0 = some t1 ∧ t1.rest = t.body := by
    cases hasPayloadLength with
    | false => exact ⟨t0, by simp [checkPayloadLength], hr0⟩
    | true =>
      have hread := Buffer.readVarInt_leb128 (show t.body.length < 2 ^ 32 by omega) hr0
      have hrest : (t0.advance (leb128 t.body.length).length).rest = t.body := by
        rw [Buffer.rest_advance, hr0]
        exact List.drop_left
      have hpos := t.body_length
      refine ⟨_, ?_, hrest⟩
      simp only [checkPayloadLength, if_true, hread, okRead, Option.bind_eq_bind,
        Option.bind_some, Buffer.remaining_eq, hrest]
      rw [if_neg (by omega)]
  obtain ⟨t1, h1, hr1⟩ := hcheck
  obtain ⟨t2, t3, h2, h3⟩ := t.readTokens_body hl hr1
  have hrange : ¬ (protocol = 0 ∨ protocol > 100000) := by omega
  have hbrace : '{' ∈ t.chainJson := List.mem_cons_self
  simp only [tryParseLogin, h0, okRead, Option.bind_eq_bind, Option.bind_some, if_neg hrange, h1,
    h2, h3, not_true_eq_false, hbrace, if_false, t.skin_dots, ne_eq]
  rfl

/-- A probe that reads the protocol to its end stands at the prefix or at the body. -/
theorem aligned_harmless (hl : t.body.length < 2 ^ 24) {q : ℕ} {t0 : Buffer}
    (hread : readProtocol encoding (.ofBytes source) = (.ok q, t0)) {hasPayloadLength : Bool}
    (hr : t0.rest = lengthBytes hasPayloadLength t.body.length ++ t.body) {probed : Bool}
    (hp : probed = true → hasPayloadLength = true) :
    t.Harmless (tryParseLogin source encoding probed layout) := by
  cases hasPayloadLength with
  | false =>
    obtain rfl : probed = false := by simpa using hp
    exact harmless_of_rest hl hread hr
  | true =>
    cases probed with
    | false => exact harmless_of_refused (refuses_of_none hread (t.readToken_at_length hl hr))
    | true => exact harmless_of_length hl hread hr

/-- A word probe goes on behind the first four octets. -/
theorem readProtocol_word_rest (he : encoding ≠ .varInt) {w tail : Bytes} (hw : w.length = 4)
    {protocol : ℕ} {t0 : Buffer}
    (h : readProtocol encoding (.ofBytes (w ++ tail)) = (.ok protocol, t0)) : t0.rest = tail := by
  obtain ⟨x0, x1, x2, x3, tl, hs, hrest, -⟩ := readProtocol_word he h
  have hdrop := congrArg (List.drop 4) hs
  rw [← hw, List.drop_left, hw] at hdrop
  exact hrest.trans hdrop.symm

/-- A word probe reads any four octets, whichever byte order they were written in. -/
theorem word_harmless (hl : t.body.length < 2 ^ 24) (he : encoding ≠ .varInt) {w : Bytes}
    (hw : w.length = 4) {hasPayloadLength probed : Bool}
    (hp : probed = true → hasPayloadLength = true) :
    t.Harmless (tryParseLogin (w ++ (lengthBytes hasPayloadLength t.body.length ++ t.body))
      encoding probed layout) := by
  intro f hf
  obtain ⟨t0, -, -, -, h0, -⟩ := tryParseLogin_eq_some hf
  exact aligned_harmless hl h0 (readProtocol_word_rest he hw h0) hp f hf

theorem body_length_lt {protocol : ℕ} (hp' : protocol ≤ 100000) {hasPayloadLength : Bool}
    (hlen : (loginPayload protocol encoding hasPayloadLength t.chainJson t.skinJwt).length
      < 2 ^ 24) : t.body.length < 2 ^ 24 := by
  rw [loginPayload_eq _ _ _ _ _ (by omega), ← body, List.length_append, List.length_append] at hlen
  omega

/-- Every layout is probed at the right offset, or refused, until its own turn. -/
theorem finds_selectLayout {protocol : ℕ} (hp : 0 < protocol) (hp' : protocol ≤ 100000)
    (encoding : ProtocolEncoding) (hasPayloadLength : Bool)
    (hlen : (loginPayload protocol encoding hasPayloadLength t.chainJson t.skinJwt).length
      < 2 ^ 24) :
    t.Finds (selectLayout
      (loginPayload protocol encoding hasPayloadLength t.chainJson t.skinJwt)) := by
  have hl := body_length_lt hp' hlen
  rw [loginPayload_body hp' hl] at hlen ⊢
  have own (layout : String) : t.Finds (tryParseLogin _ encoding hasPayloadLength layout) :=
    ⟨_, own_layout hp hp' hl hasPayloadLength, rfl, rfl⟩
  match encoding, hasPayloadLength with
  | .u32Le, false => exact finds_orElse_left (own _)
  | .u32Be, false =>
    exact finds_orElse_right (word_harmless hl (by decide) rfl (by simp)) <|
      finds_orElse_left (own _)
  | .varInt, false =>
    exact finds_orElse_right (harmless_of_refused (wordLe_refuses_of_varInt hp' hl)) <|
      finds_orElse_right (harmless_of_refused (bigEndian_refuses hp hp' _)) <|
      finds_orElse_left (own _)
  | .u32Le, true =>
    exact finds_orElse_right (word_harmless hl (by decide) rfl (by simp)) <|
      finds_orElse_right (word_harmless hl (by decide) rfl (by simp)) <|
      finds_orElse_right (harmless_of_refused (varInt_refuses_of_le hp' hl rfl hlen)) <|
      finds_orElse_left (own _)
  | .u32Be, true =>
    exact finds_orElse_right (word_harmless hl (by decide) rfl (by simp)) <|
      finds_orElse_right (word_harmless hl (by decide) rfl (by simp)) <|
      finds_orElse_right (harmless_of_refused (varInt_refuses_of_be hp' _)) <|
      finds_orElse_right (word_harmless hl (by decide) rfl (by simp)) <|
      finds_orElse_left (own _)
  | .varInt, true =>
    obtain ⟨t0, h0, hr0⟩ := readProtocol_protocolBytes .varInt (show protocol < 2 ^ 32 by omega)
      (lengthBytes true t.body.length ++ t.body)
    exact finds_orElse_right (harmless_of_refused (wordLe_refuses_of_varInt_length hp hp' hl
        false)) <|
      finds_orElse_right (harmless_of_refused (bigEndian_refuses hp hp' _)) <|
      finds_orElse_right (aligned_harmless hl h0 hr0 (by simp)) <|
      finds_orElse_right (harmless_of_refused (wordLe_refuses_of_varInt_length hp hp' hl true)) <|
      finds_orElse_right (harmless_of_refused (bigEndian_refuses hp hp' _)) (own _)

end LoginTokens

/-- The ordered probing recovers the encoded tokens, whichever layout carries them. -/
theorem selectLayout_loginPayload (protocol : ℕ) (encoding : ProtocolEncoding)
    (hasPayloadLength : Bool) (chainJson skinJwt : Str) (hp : 1 ≤ protocol)
    (hp' : protocol ≤ 100000) (hbrace : chainJson.head? = some '{') (hchain : '\x00' ∉ chainJson)
    (hskin : '\x00' ∉ skinJwt) (hdots : skinJwt.count '.' = 2)
    (hlen : (loginPayload protocol encoding hasPayloadLength chainJson skinJwt).length < 2 ^ 24) :
    ∃ f, selectLayout (loginPayload protocol encoding hasPayloadLength chainJson skinJwt) = some f ∧
      f.chainJson = chainJson ∧ f.skinJwt = skinJwt := by
  obtain ⟨tail, rfl⟩ := List.head?_eq_some_iff.mp hbrace
  have hnul : '\x00' ∉ tail := fun h => hchain (List.mem_cons_of_mem _ h)
  exact LoginTokens.finds_selectLayout (t := ⟨tail, skinJwt, hnul, hskin, hdots⟩) hp hp' encoding
    hasPayloadLength hlen

/-- The packet of the parser's own test: protocol 975, a variable-length prefix. -/
theorem selectLayout_loginPayload_test : ∃ f,
    selectLayout (loginPayload 975 .varInt true "{}".toList "h.p.s".toList) = some f ∧
      f.chainJson = "{}".toList ∧ f.skinJwt = "h.p.s".toList :=
  selectLayout_loginPayload 975 .varInt true "{}".toList "h.p.s".toList (by decide) (by decide)
    (by decide) (by decide) (by decide) (by decide) (by decide)

end SkinGetBE
