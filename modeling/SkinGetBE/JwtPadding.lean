import SkinGetBE.Jwt

/-!
# Padded payloads

The engine refuses padding. A text that it refuses is padded to a multiple of four
and given to the same engine again, which cannot help: a padded text stays padded.
-/
namespace SkinGetBE
open Octets Text

/-- The documented behaviour of the engine without padding. -/
structure Base64Engines.NoPad (engines : Base64Engines) : Prop where
  decodes : ∀ d, engines.urlSafeNoPad (Base64.urlSafe.encode d) = .ok d
  refuses : ∀ s, '=' ∈ s → ∃ e, engines.urlSafeNoPad s = .error e

theorem strictEngines_noPad : strictEngines.NoPad where
  decodes d := by simp [strictEngines, Base64.Alphabet.decode_encode]
  refuses s hs := by simp [strictEngines, Base64.urlSafe.decode_pad hs]

/-- The token of a payload that has been encoded. -/
def tokenOf (header encoded signature : Str) : Str :=
  header ++ '.' :: (encoded ++ '.' :: signature)

theorem mem_padLoop {c : Char} (fuel : ℕ) {s : Str} (h : c ∈ s) : c ∈ padLoop fuel s := by
  induction fuel generalizing s with
  | zero => exact h
  | succ fuel ih =>
    unfold padLoop
    split
    · exact h
    · exact ih (List.mem_append_left _ h)

variable {engines : Base64Engines} (he : engines.NoPad)

include he

theorem decodeBase64_encode (payload : Str) :
    JWT.decodeBase64 engines (Base64.urlSafe.encode (asBytes payload)) = .ok payload := by
  unfold JWT.decodeBase64
  rw [he.decodes]
  simp only [fromUtf8_asBytes]

/-- The retry is refused like the first attempt. -/
theorem decodeBase64_pad {encoded : Str} (hpad : '=' ∈ encoded) (payload : Str) :
    JWT.decodeBase64 engines encoded ≠ .ok payload := by
  obtain ⟨e, hfirst⟩ := he.refuses encoded hpad
  obtain ⟨e', hretry⟩ := he.refuses _ (mem_padLoop 3 hpad)
  unfold JWT.decodeBase64
  rw [hfirst]
  dsimp only
  rw [hretry]
  simp

/-- Both padding styles give the payload back exactly when they are the same text. -/
theorem getPayload_padding_iff (payload header signature : Str) (hh : '.' ∉ header) :
    (JWT.getPayload engines
        (tokenOf header (Base64.urlSafe.encode (asBytes payload)) signature) =
          some (.ok payload) ∧
      JWT.getPayload engines
        (tokenOf header (Base64.urlSafe.encodePadded (asBytes payload)) signature) =
          some (.ok payload)) ↔ byteLen payload % 3 = 0 := by
  have hdot : '.' ∉ Base64.urlSafe.encode (asBytes payload) :=
    Base64.urlSafe.encode_notMem (by decide +kernel) _
  have hdot' : '.' ∉ Base64.urlSafe.encodePadded (asBytes payload) := by
    intro h
    have hmem := Base64.urlSafe.mem_encodePadded h
    revert hmem
    decide +kernel
  unfold tokenOf
  rw [JWT.getPayload_of_two_dots engines _ _ _ hh hdot,
    JWT.getPayload_of_two_dots engines _ _ _ hh hdot', decodeBase64_encode he, Option.some.injEq,
    ← asBytes_length]
  constructor
  · rintro ⟨-, hpadded⟩
    by_contra hmod
    exact decodeBase64_pad he (Base64.urlSafe.pad_mem_encodePadded hmod) payload
      (Option.some.inj hpadded)
  · intro hmod
    rw [Base64.urlSafe.encodePadded_eq_encode hmod, decodeBase64_encode he]
    exact ⟨rfl, rfl⟩

omit he

theorem getPayload_padding_iff_abc :
    (JWT.getPayload strictEngines
        (tokenOf ['h'] (Base64.urlSafe.encode (asBytes "abc".toList)) ['s']) =
          some (.ok "abc".toList) ∧
      JWT.getPayload strictEngines
        (tokenOf ['h'] (Base64.urlSafe.encodePadded (asBytes "abc".toList)) ['s']) =
          some (.ok "abc".toList)) ↔ byteLen "abc".toList % 3 = 0 :=
  getPayload_padding_iff strictEngines_noPad "abc".toList ['h'] ['s'] (by decide)

/-- The payload `{}` is refused when its base64 is padded. -/
theorem getPayload_padded_braces :
    Base64.urlSafe.encodePadded (asBytes ['\x7b', '\x7d']) = "e30=".toList ∧
      JWT.getPayload strictEngines "h.e30=.s".toList ≠ some (.ok ['\x7b', '\x7d']) := by
  decide +kernel

end SkinGetBE
