import SkinGetBE.LoginRoundTrip

/-!
# The other base64 texts of a skin

A skin can be written in four ways: in the standard alphabet or in that for URLs, with
padding or without. The decoder of the login drops the two characters that only the
alphabet for URLs has. What remains is decoded when it happens to be an encoding.
-/
namespace SkinGetBE
open Octets Text

/-- The documented behaviour of the engine with padding. -/
structure Base64Engines.Strict (engines : Base64Engines) : Prop where
  standard : ∀ s d, engines.standard s = .ok d ↔ s = Base64.standard.encodePadded d

theorem strictEngines_strict : strictEngines.Strict where
  standard s d := by
    rw [← Base64.standard.decodePadded_eq_some_iff (by decide)]
    unfold strictEngines
    dsimp only
    cases Base64.standard.decodePadded s with
    | none => simp
    | some bytes => simp

/-- One of the four texts. -/
def base64Text (urlSafe padded : Bool) (d : Bytes) : Str :=
  let alphabet := if urlSafe then Base64.urlSafe else Base64.standard
  if padded then alphabet.encodePadded d else alphabet.encode d

/-- The groups whose symbols the two alphabets share. -/
def sharedGroups (d : Bytes) : List ℕ := (Base64.sextets d).filter fun n => decide (n < 62)

theorem symbol_urlSafe {n : ℕ} (h : n < 62) :
    Base64.urlSafe.symbol n = Base64.standard.symbol n := by
  have hall : ∀ n < 62, Base64.urlSafe.symbol n = Base64.standard.symbol n := by decide +kernel
  exact hall n h

theorem isBase64Char_urlSafe {n : ℕ} (h : n < 64) :
    isBase64Char (Base64.urlSafe.symbol n) = decide (n < 62) := by
  have hall : ∀ n < 64, isBase64Char (Base64.urlSafe.symbol n) = decide (n < 62) := by
    decide +kernel
  exact hall n h

theorem filter_urlSafe (l : List ℕ) (hl : ∀ n ∈ l, n < 64) :
    (l.map Base64.urlSafe.symbol).filter isBase64Char =
      (l.filter fun n => decide (n < 62)).map Base64.standard.symbol := by
  induction l with
  | nil => rfl
  | cons n l ih =>
    have hrest := ih fun m hm => hl m (List.mem_cons_of_mem _ hm)
    have hn := isBase64Char_urlSafe (hl n List.mem_cons_self)
    by_cases h : n < 62
    · rw [List.map_cons, List.filter_cons_of_pos (by simp [hn, h]),
        List.filter_cons_of_pos (by simp [h]), List.map_cons, hrest, symbol_urlSafe h]
    · rw [List.map_cons, List.filter_cons_of_neg (by simp [hn, h]),
        List.filter_cons_of_neg (by simp [h]), hrest]

theorem filter_standard (l : List ℕ) (hl : ∀ n ∈ l, n < 64) :
    (l.map Base64.standard.symbol).filter isBase64Char = l.map Base64.standard.symbol := by
  refine List.filter_eq_self.mpr fun c hc => ?_
  obtain ⟨n, hn, rfl⟩ := List.mem_map.mp hc
  exact isBase64Char_standard _ (Base64.standard.symbol_mem (hl n hn))

theorem filter_padding (count : ℕ) :
    (List.replicate count '=').filter isBase64Char = List.replicate count '=' :=
  List.filter_eq_self.mpr fun c hc => by
    rw [List.eq_of_mem_replicate hc]
    rfl

theorem append_padding_inj {s t : Str} (hs : '=' ∉ s) (ht : '=' ∉ t) {a b : ℕ} :
    s ++ List.replicate a '=' = t ++ List.replicate b '=' ↔ s = t ∧ a = b := by
  have hkeep {u : Str} (hu : '=' ∉ u) (k : ℕ) :
      (u ++ List.replicate k '=').filter (· != '=') = u := by
    rw [List.filter_append, List.filter_eq_self.mpr, List.filter_eq_nil_iff.mpr, List.append_nil]
    · intro c hc
      simp [List.eq_of_mem_replicate hc]
    · intro c hc
      have hne : c ≠ '=' := fun he => hu (he ▸ hc)
      simp [hne]
  constructor
  · intro h
    have hst : s = t := by
      rw [← hkeep hs a, h, hkeep ht b]
    subst hst
    have hlen := congrArg List.length (List.append_cancel_left h)
    rw [List.length_replicate, List.length_replicate] at hlen
    exact ⟨rfl, hlen⟩
  · rintro ⟨rfl, rfl⟩
    rfl

theorem map_symbol_injective {l l' : List ℕ} (hl : ∀ n ∈ l, n < 64) (hl' : ∀ n ∈ l', n < 64)
    (h : l.map Base64.standard.symbol = l'.map Base64.standard.symbol) : l = l' := by
  have hvalue := Base64.standard.mapM_value_map l hl
  rw [h, Base64.standard.mapM_value_map l' hl'] at hvalue
  exact (Option.some.inj hvalue).symm

theorem pad_notMem_map {l : List ℕ} (hl : ∀ n ∈ l, n < 64) :
    '=' ∉ l.map Base64.standard.symbol := by
  intro h
  obtain ⟨n, hn, hpad⟩ := List.mem_map.mp h
  exact Base64.standard.pad_notMem (hpad ▸ Base64.standard.symbol_mem (hl n hn))

theorem toOption_eq_some {ε α : Type} (x : Except ε α) (a : α) :
    x.toOption = some a ↔ x = .ok a := by
  cases x with
  | error e => simp [Except.toOption]
  | ok b => simp [Except.toOption]

/-- A text of which `pad` padding characters and the symbols of these groups are left is decoded
when the groups are those of some octets, and when they have room for the padding. -/
theorem decodeLooseBase64_eq_some_iff {engines : Base64Engines} (he : engines.Strict)
    {input : Str} {left : List ℕ} {pad : ℕ} (hleft : ∀ n ∈ left, n < 64)
    (hclean : input.filter isBase64Char =
      left.map Base64.standard.symbol ++ List.replicate pad '=') (r : Bytes) :
    decodeLooseBase64 engines input = some r ↔
      left ≠ [] ∧ Base64.sextets r = left ∧ pad ≤ (4 - left.length % 4) % 4 := by
  have hbyte : byteLen (left.map Base64.standard.symbol ++ List.replicate pad '=') =
      left.length + pad := by
    rw [byteLen_eq_length, List.length_append, List.length_map, List.length_replicate]
    intro c hc
    apply utf8Size_standard
    rcases List.mem_append.mp hc with hc | hc
    · obtain ⟨n, hn, rfl⟩ := List.mem_map.mp hc
      exact List.mem_cons_of_mem _ (Base64.standard.symbol_mem (hleft n hn))
    · rw [List.eq_of_mem_replicate hc]
      exact List.mem_cons_self
  have hpadded : padLoop 3 (left.map Base64.standard.symbol ++ List.replicate pad '=') =
      left.map Base64.standard.symbol ++
        List.replicate (pad + (4 - (left.length + pad) % 4) % 4) '=' := by
    rw [padLoop_eq_padding 3 _ (by omega), hbyte, Base64.Alphabet.padding, List.append_assoc,
      List.replicate_append_replicate]
  have htext : left.map Base64.standard.symbol ++
      List.replicate (pad + (4 - (left.length + pad) % 4) % 4) '=' =
        Base64.standard.encodePadded r ↔
      left = Base64.sextets r ∧
        pad + (4 - (left.length + pad) % 4) % 4 = (4 - left.length % 4) % 4 := by
    unfold Base64.Alphabet.encodePadded Base64.Alphabet.padding Base64.Alphabet.encode
    rw [append_padding_inj (pad_notMem_map hleft) (pad_notMem_map (Base64.sextets_lt r)),
      List.length_map]
    constructor
    · rintro ⟨hmap, hcount⟩
      have hsame := map_symbol_injective hleft (Base64.sextets_lt r) hmap
      exact ⟨hsame, by rw [hcount, hsame]⟩
    · rintro ⟨rfl, hcount⟩
      exact ⟨rfl, hcount⟩
  have hroom : pad + (4 - (left.length + pad) % 4) % 4 = (4 - left.length % 4) % 4 ↔
      pad ≤ (4 - left.length % 4) % 4 := by omega
  unfold decodeLooseBase64
  rw [hclean]
  dsimp only
  rw [hpadded]
  by_cases hempty : left = []
  · subst hempty
    refine iff_of_false ?_ fun h => h.1 rfl
    intro h
    split_ifs at h with hnone
    rw [toOption_eq_some, he.standard, htext, List.length_nil] at h
    refine hnone ?_
    rw [show pad = 0 by omega]
    rfl
  · have hsome : (left.map Base64.standard.symbol ++ List.replicate pad '=').isEmpty = false := by
      rw [List.isEmpty_eq_false_iff]
      simp [hempty]
    rw [hsome, if_neg Bool.false_ne_true, toOption_eq_some, he.standard, htext, hroom]
    constructor
    · rintro ⟨hgroups, hpad⟩
      exact ⟨hempty, hgroups.symm, hpad⟩
    · rintro ⟨-, hgroups, hpad⟩
      exact ⟨hgroups.symm, hpad⟩

/-- The padding of a text. -/
def padCount (padded : Bool) (d : Bytes) : ℕ :=
  if padded then (4 - (Base64.sextets d).length % 4) % 4 else 0

theorem base64Text_eq (urlSafe padded : Bool) (d : Bytes) :
    base64Text urlSafe padded d =
      (Base64.sextets d).map (if urlSafe then Base64.urlSafe else Base64.standard).symbol ++
        List.replicate (padCount padded d) '=' := by
  unfold base64Text padCount Base64.Alphabet.encodePadded Base64.Alphabet.padding
    Base64.Alphabet.encode
  cases padded with
  | false => simp
  | true => simp

theorem filter_base64Text (urlSafe padded : Bool) (d : Bytes) :
    (base64Text urlSafe padded d).filter isBase64Char =
      (if urlSafe then sharedGroups d else Base64.sextets d).map Base64.standard.symbol ++
        List.replicate (padCount padded d) '=' := by
  rw [base64Text_eq, List.filter_append, filter_padding]
  cases urlSafe with
  | false => rw [if_neg Bool.false_ne_true, filter_standard _ (Base64.sextets_lt d)]; rfl
  | true => rw [if_pos rfl, filter_urlSafe _ (Base64.sextets_lt d)]; rfl

theorem sharedGroups_lt (d : Bytes) : ∀ n ∈ sharedGroups d, n < 64 := fun n hn =>
  Base64.sextets_lt d n (List.mem_of_mem_filter hn)

/-- The text loses a character, and what is left of it happens to encode other octets: some
symbols are left, they are the groups of some octets, and the padding still fits them. -/
structure Misread (padded : Bool) (d : Bytes) : Prop where
  loses : sharedGroups d ≠ Base64.sextets d
  keeps : sharedGroups d ≠ []
  canonical : Base64.Canonical (sharedGroups d)
  room : padCount padded d ≤ (4 - (sharedGroups d).length % 4) % 4

/-- A skin's text in the standard alphabet is decoded to the skin or to nothing. So is one in the
alphabet for URLs, exactly when it is not misread. -/
theorem looseBase64_exact_iff {engines : Base64Engines} (he : engines.Strict)
    (urlSafe padded : Bool) (d : Bytes) :
    (∀ r, decodeLooseBase64 engines (base64Text urlSafe padded d) = some r → r = d) ↔
      (urlSafe = true → ¬ Misread padded d) := by
  cases urlSafe with
  | false =>
    refine iff_of_true ?_ fun h => absurd h Bool.false_ne_true
    intro r h
    rw [decodeLooseBase64_eq_some_iff he (Base64.sextets_lt d)
      (filter_base64Text false padded d)] at h
    exact Base64.sextets_injective h.2.1
  | true =>
    have hdecode := decodeLooseBase64_eq_some_iff he (sharedGroups_lt d)
      (filter_base64Text true padded d)
    constructor
    · rintro h - hmisread
      obtain ⟨r, hr⟩ := (Base64.exists_sextets_iff (sharedGroups_lt d)).mpr hmisread.canonical
      obtain rfl := h r ((hdecode r).mpr ⟨hmisread.keeps, hr, hmisread.room⟩)
      exact hmisread.loses hr.symm
    · intro h r hr
      obtain ⟨hkeeps, hgroups, hroom⟩ := (hdecode r).mp hr
      by_contra hne
      refine h rfl ⟨?_, hkeeps, ?_, hroom⟩
      · intro hsame
        exact hne (Base64.sextets_injective (hgroups.trans hsame))
      · exact (Base64.exists_sextets_iff (sharedGroups_lt d)).mp ⟨r, hgroups⟩

/-- Three opaque white pixels keep no symbol and are refused. -/
theorem looseBase64_exact_iff_white :
    ¬ Misread true (List.replicate 12 255) ∧
      ∀ r, decodeLooseBase64 strictEngines (base64Text true true (List.replicate 12 255)) =
        some r → r = List.replicate 12 255 := by
  have hwhite : ¬ Misread true (List.replicate 12 255) := fun h => h.keeps (by decide +kernel)
  exact ⟨hwhite, (looseBase64_exact_iff strictEngines_strict true true _).mpr fun _ => hwhite⟩

/-- Of three transparent pixels and three opaque white ones, the white ones are lost. -/
theorem looseBase64_loses_pixels :
    base64Text true true (List.replicate 12 0 ++ List.replicate 12 255) =
        "AAAAAAAAAAAAAAAA________________".toList ∧
      decodeLooseBase64 strictEngines
        (base64Text true true (List.replicate 12 0 ++ List.replicate 12 255)) =
          some (List.replicate 12 0) ∧
      List.replicate 12 (0 : UInt8) ≠ List.replicate 12 0 ++ List.replicate 12 255 := by
  decide +kernel

end SkinGetBE
