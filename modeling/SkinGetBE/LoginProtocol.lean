import SkinGetBE.LoginLayout

/-!
# The protocol number that the probing returns

The little-endian reading of a word comes first. A number that is in range in both
byte orders is therefore read in the little-endian one.
-/
namespace SkinGetBE
open Octets Text

/-- The number that a big-endian word has in the other order. -/
def swappedWord (protocol : ℕ) : ℕ := leValue (beBytes 4 protocol)

/-- The number that is read for the one that was sent. -/
def readAs (encoding : ProtocolEncoding) (protocol : ℕ) : ℕ :=
  if encoding = .u32Be ∧ protocol = 256 then 65536
  else if encoding = .u32Be ∧ protocol = 65536 then 256
  else protocol

theorem beBytes_eq_swapped (protocol : ℕ) :
    beBytes 4 protocol = leBytes 4 (swappedWord protocol) := by
  have hlength : (beBytes 4 protocol).length = 4 := rfl
  have h := leBytes_leValue (beBytes 4 protocol)
  rw [hlength] at h
  exact h.symm

theorem swappedWord_eq {low middle high : ℕ} (hlow : low < 256) (hmiddle : middle < 256)
    (hhigh : high < 2) : swappedWord (low + 256 * middle + 65536 * high) =
      256 * high + 65536 * middle + 16777216 * low := by
  have h0 : (low + 256 * middle + 65536 * high) % 256 = low := by omega
  have h1 : (low + 256 * middle + 65536 * high) / 256 = middle + 256 * high := by omega
  have h2 : (middle + 256 * high) % 256 = middle := by omega
  have h3 : (middle + 256 * high) / 256 = high := by omega
  have h4 : high % 256 = high := by omega
  have h5 : high / 256 = 0 := by omega
  simp only [swappedWord, beBytes, leBytes, h0, h1, h2, h3, h4, h5, List.reverse_cons,
    List.reverse_nil, List.nil_append, List.cons_append, leValue, toNat_ofNat_lt hlow,
    toNat_ofNat_lt hmiddle, toNat_ofNat_lt (show high < 256 by omega), Nat.zero_mod,
    show (UInt8.ofNat 0).toNat = 0 from rfl]
  omega

/-- Only two numbers in range become another one in range. -/
theorem swappedWord_cases {protocol : ℕ} (hp' : protocol ≤ 100000) :
    ((swappedWord protocol = 0 ∨ 100000 < swappedWord protocol) ∧
        readAs .u32Be protocol = protocol) ∨
      (0 < swappedWord protocol ∧ swappedWord protocol ≤ 100000 ∧
        swappedWord protocol = readAs .u32Be protocol) := by
  obtain ⟨low, middle, high, rfl, hlow, hmiddle, hhigh⟩ : ∃ low middle high,
      protocol = low + 256 * middle + 65536 * high ∧ low < 256 ∧ middle < 256 ∧ high < 2 :=
    ⟨protocol % 256, protocol / 256 % 256, protocol / 65536, by omega, by omega, by omega, by omega⟩
  rw [swappedWord_eq hlow hmiddle hhigh]
  unfold readAs
  split_ifs with h1 h2
  · right
    have hsent := h1.2
    omega
  · right
    have hsent := h2.2
    omega
  · have h256 : low + 256 * middle + 65536 * high ≠ 256 := fun h => h1 ⟨rfl, h⟩
    have h65536 : low + 256 * middle + 65536 * high ≠ 65536 := fun h => h2 ⟨rfl, h⟩
    -- a number that keeps its place has an octet of zeros at both ends
    rcases Nat.eq_zero_or_pos low with rfl | hpos
    · obtain rfl | rfl | hlarge : middle = 0 ∨ middle = 1 ∨ 2 ≤ middle := by omega
      · omega
      · omega
      · omega
    · omega

namespace LoginTokens

variable {t : LoginTokens} {encoding : ProtocolEncoding} {layout : String}

/-- A word probe without a length prefix refuses a packet that has one. -/
theorem word_refuses (hl : t.body.length < 2 ^ 24) (he : encoding ≠ .varInt) {w : Bytes}
    (hw : w.length = 4) : tryParseLogin (w ++ (lengthBytes true t.body.length ++ t.body)) encoding
      false layout = none := by
  rw [Option.eq_none_iff_forall_ne_some]
  intro f hf
  obtain ⟨t0, -, -, -, h0, -⟩ := tryParseLogin_eq_some hf
  have hr : t0.rest = leb128 t.body.length ++ t.body := readProtocol_word_rest he hw h0
  rw [refuses_of_none h0 (t.readToken_at_length hl hr)] at hf
  contradiction

/-- The little-endian reading of a big-endian word wins, or leaves the number as it was sent. -/
theorem swapped_layout {protocol : ℕ} (hp' : protocol ≤ 100000) (hl : t.body.length < 2 ^ 24)
    (hasPayloadLength : Bool) :
    (tryParseLogin (beBytes 4 protocol ++ (lengthBytes hasPayloadLength t.body.length ++ t.body))
        .u32Le hasPayloadLength layout = none ∧ readAs .u32Be protocol = protocol) ∨
      tryParseLogin (beBytes 4 protocol ++ (lengthBytes hasPayloadLength t.body.length ++ t.body))
        .u32Le hasPayloadLength layout = some (t.fields (readAs .u32Be protocol) layout) := by
  rcases swappedWord_cases hp' with ⟨hrange, hsame⟩ | ⟨hpos, hle, hswapped⟩
  · refine .inl ⟨refuses_of_protocol fun q t0 h => ?_, hsame⟩
    obtain ⟨x0, x1, x2, x3, tl, hs, -, hq⟩ := readProtocol_word (by decide) h
    have hparts : beBytes 4 protocol ++ (lengthBytes hasPayloadLength t.body.length ++ t.body) =
        [x0, x1, x2, x3] ++ tl := hs
    have hword : beBytes 4 protocol = [x0, x1, x2, x3] := (List.append_inj hparts rfl).1
    rw [if_pos rfl, ← hword] at hq
    rwa [hq]
  · rw [beBytes_eq_swapped, ← hswapped]
    right
    apply own_layout hpos hle hl

/-- A probe that wins with the encoded tokens and the number `q`. -/
def Reads (t : LoginTokens) (q : ℕ) (probe : Option LoginFields) : Prop :=
  ∃ layout, probe = some (t.fields q layout)

variable {q : ℕ} {a b : Option LoginFields}

theorem reads_orElse_left (h : t.Reads q a) : t.Reads q (a <|> b) := by
  obtain ⟨layout, rfl⟩ := h
  exact ⟨layout, rfl⟩

theorem reads_orElse_right (ha : a = none) (hb : t.Reads q b) : t.Reads q (a <|> b) := by
  rw [ha]
  exact hb

/-- Every layout that is probed before the own one refuses, or reads the swapped number. -/
theorem reads_selectLayout {protocol : ℕ} (hp : 0 < protocol) (hp' : protocol ≤ 100000)
    (encoding : ProtocolEncoding) (hasPayloadLength : Bool)
    (hlen : (loginPayload protocol encoding hasPayloadLength t.chainJson t.skinJwt).length
      < 2 ^ 24) :
    t.Reads (readAs encoding protocol)
      (selectLayout (loginPayload protocol encoding hasPayloadLength t.chainJson t.skinJwt)) := by
  have hl := body_length_lt hp' hlen
  rw [loginPayload_body hp' hl] at hlen ⊢
  have own (layout : String) :
      t.Reads protocol (tryParseLogin _ encoding hasPayloadLength layout) :=
    ⟨layout, own_layout hp hp' hl hasPayloadLength⟩
  cases hasPayloadLength with
  | false =>
    cases encoding with
    | u32Le => exact reads_orElse_left (own _)
    | u32Be =>
      rcases swapped_layout hp' hl false with ⟨hrefused, hsame⟩ | hread
      · rw [hsame]
        exact reads_orElse_right hrefused <| reads_orElse_left (own _)
      · exact reads_orElse_left ⟨_, hread⟩
    | varInt =>
      exact reads_orElse_right (wordLe_refuses_of_varInt hp' hl) <|
        reads_orElse_right (bigEndian_refuses hp hp' _) <|
        reads_orElse_left (own _)
  | true =>
    cases encoding with
    | u32Le =>
      exact reads_orElse_right (word_refuses hl (by decide) rfl) <|
        reads_orElse_right (word_refuses hl (by decide) rfl) <|
        reads_orElse_right (varInt_refuses_of_le hp' hl rfl hlen) <|
        reads_orElse_left (own _)
    | u32Be =>
      refine reads_orElse_right (word_refuses hl (by decide) rfl) <|
        reads_orElse_right (word_refuses hl (by decide) rfl) <|
        reads_orElse_right (varInt_refuses_of_be hp' _) ?_
      rcases swapped_layout hp' hl true with ⟨hrefused, hsame⟩ | hread
      · rw [hsame]
        exact reads_orElse_right hrefused <| reads_orElse_left (own _)
      · exact reads_orElse_left ⟨_, hread⟩
    | varInt =>
      obtain ⟨t0, h0, hr0⟩ := readProtocol_protocolBytes .varInt
        (show protocol < 2 ^ 32 by omega) (lengthBytes true t.body.length ++ t.body)
      exact reads_orElse_right (wordLe_refuses_of_varInt_length hp hp' hl false) <|
        reads_orElse_right (bigEndian_refuses hp hp' _) <|
        reads_orElse_right (refuses_of_none h0 (t.readToken_at_length hl hr0)) <|
        reads_orElse_right (wordLe_refuses_of_varInt_length hp hp' hl true) <|
        reads_orElse_right (bigEndian_refuses hp hp' _) (own _)

end LoginTokens

/-- The number that was sent is read, except for the two big-endian words that are in range in
both byte orders. -/
theorem selectLayout_protocol (protocol : ℕ) (encoding : ProtocolEncoding)
    (hasPayloadLength : Bool) (chainJson skinJwt : Str) (hp : 1 ≤ protocol)
    (hp' : protocol ≤ 100000) (hbrace : chainJson.head? = some '{') (hchain : '\x00' ∉ chainJson)
    (hskin : '\x00' ∉ skinJwt) (hdots : skinJwt.count '.' = 2)
    (hlen : (loginPayload protocol encoding hasPayloadLength chainJson skinJwt).length < 2 ^ 24) :
    ∃ f, selectLayout (loginPayload protocol encoding hasPayloadLength chainJson skinJwt) = some f ∧
      f.protocol = readAs encoding protocol := by
  obtain ⟨tail, rfl⟩ := List.head?_eq_some_iff.mp hbrace
  have hnul : '\x00' ∉ tail := fun h => hchain (List.mem_cons_of_mem _ h)
  obtain ⟨layout, hread⟩ := LoginTokens.reads_selectLayout
    (t := ⟨tail, skinJwt, hnul, hskin, hdots⟩)
    hp hp' encoding hasPayloadLength hlen
  exact ⟨_, hread, rfl⟩

/-- A big-endian number that has no other reading. -/
theorem selectLayout_protocol_975 : ∃ f,
    selectLayout (loginPayload 975 .u32Be true "{}".toList "h.p.s".toList) = some f ∧
      f.protocol = 975 :=
  selectLayout_protocol 975 .u32Be true "{}".toList "h.p.s".toList (by decide) (by decide)
    (by decide) (by decide) (by decide) (by decide) (by decide)

/-- The big-endian 256 is the little-endian 65536. -/
theorem selectLayout_protocol_256 : ¬ ∃ f,
    selectLayout (loginPayload 256 .u32Be false "{}".toList "h.p.s".toList) = some f ∧
      f.protocol = 256 := by
  have hread : (selectLayout (loginPayload 256 .u32Be false "{}".toList "h.p.s".toList)).map
      LoginFields.protocol = some 65536 := by decide +kernel
  rintro ⟨f, hf, hprotocol⟩
  rw [hf, Option.map_some, hprotocol] at hread
  cases hread

end SkinGetBE
