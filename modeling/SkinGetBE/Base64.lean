import SkinGetBE.Text

/-!
# Base64

Octets in groups of three become four symbols of six bits; a last group of one
or two octets becomes two or three symbols. Decoding is strict: the unused bits
of a short group are zero, and padding is either required or not allowed.
-/
namespace Base64
open Octets Text

def sextets : Bytes → List ℕ
  | [] => []
  | [a] => [a.toNat / 4, a.toNat % 4 * 16]
  | [a, b] => [a.toNat / 4, a.toNat % 4 * 16 + b.toNat / 16, b.toNat % 16 * 4]
  | a :: b :: c :: rest =>
    a.toNat / 4 :: (a.toNat % 4 * 16 + b.toNat / 16) :: (b.toNat % 16 * 4 + c.toNat / 64) ::
      c.toNat % 64 :: sextets rest

def octets : List ℕ → Option Bytes
  | [] => some []
  | [_] => none
  | [x, y] => if y % 16 = 0 then some [.ofNat (x * 4 + y / 16)] else none
  | [x, y, z] =>
    if z % 4 = 0 then some [.ofNat (x * 4 + y / 16), .ofNat (y % 16 * 16 + z / 4)] else none
  | x :: y :: z :: w :: rest =>
    (octets rest).map fun tail =>
      .ofNat (x * 4 + y / 16) :: .ofNat (y % 16 * 16 + z / 4) :: .ofNat (z % 4 * 64 + w) :: tail

theorem sextets_lt (d : Bytes) : ∀ n ∈ sextets d, n < 64 := by
  induction d using sextets.induct with
  | case1 => simp [sextets]
  | case2 a =>
    have := a.toNat_lt
    simp only [sextets, List.mem_cons, List.not_mem_nil, or_false]
    omega
  | case3 a b =>
    have := a.toNat_lt
    have := b.toNat_lt
    simp only [sextets, List.mem_cons, List.not_mem_nil, or_false]
    omega
  | case4 a b c rest ih =>
    have := a.toNat_lt
    have := b.toNat_lt
    have := c.toNat_lt
    simp only [sextets, List.mem_cons]
    rintro n (rfl | rfl | rfl | rfl | h)
    · omega
    · omega
    · omega
    · omega
    · exact ih n h

theorem sextets_length (d : Bytes) : (sextets d).length = (4 * d.length + 2) / 3 := by
  induction d using sextets.induct with
  | case1 => simp [sextets]
  | case2 x => simp [sextets]
  | case3 x y => simp [sextets]
  | case4 x y z rest ih =>
    simp only [sextets, List.length_cons, ih]
    omega

theorem ofNat_eq_of_toNat {n : ℕ} {a : UInt8} (h : n = a.toNat) : UInt8.ofNat n = a := by
  rw [h, UInt8.ofNat_toNat]

/-- Three octets are recovered from their four groups. -/
theorem octets_sextets (d : Bytes) : octets (sextets d) = some d := by
  induction d using sextets.induct with
  | case1 => rfl
  | case2 a =>
    have := a.toNat_lt
    simp only [sextets, octets]
    rw [if_pos (by omega), ofNat_eq_of_toNat (a := a) (by omega)]
  | case3 a b =>
    have := a.toNat_lt
    have := b.toNat_lt
    simp only [sextets, octets]
    rw [if_pos (by omega), ofNat_eq_of_toNat (a := a) (by omega),
      ofNat_eq_of_toNat (a := b) (by omega)]
  | case4 a b c rest ih =>
    have := a.toNat_lt
    have := b.toNat_lt
    have := c.toNat_lt
    simp only [sextets, octets, ih, Option.map_some]
    rw [ofNat_eq_of_toNat (a := a) (by omega), ofNat_eq_of_toNat (a := b) (by omega),
      ofNat_eq_of_toNat (a := c) (by omega)]

theorem octets_length_le : ∀ (l : List ℕ) {d : Bytes}, octets l = some d → d.length ≤ l.length
  | [], d, h => by
    obtain rfl := Option.some.inj h
    exact le_rfl
  | [x], d, h => by simp [octets] at h
  | [x, y], d, h => by
    simp only [octets] at h
    split_ifs at h
    obtain rfl := Option.some.inj h
    simp
  | [x, y, z], d, h => by
    simp only [octets] at h
    split_ifs at h
    obtain rfl := Option.some.inj h
    simp
  | x :: y :: z :: w :: rest, d, h => by
    simp only [octets, Option.map_eq_some_iff] at h
    obtain ⟨tail, ht, rfl⟩ := h
    have := octets_length_le rest ht
    simp only [List.length_cons]
    omega

/-- What is decoded is encoded as the same groups again. -/
theorem sextets_of_octets : ∀ (l : List ℕ), (∀ n ∈ l, n < 64) → ∀ {d : Bytes}, octets l = some d →
    sextets d = l
  | [], _, d, h => by
    obtain rfl := Option.some.inj h
    rfl
  | [x], _, d, h => by simp [octets] at h
  | [x, y], hl, d, h => by
    have hx := hl x (by simp)
    have hy := hl y (by simp)
    simp only [octets] at h
    split_ifs at h
    obtain rfl := Option.some.inj h
    have hfirst : (UInt8.ofNat (x * 4 + y / 16)).toNat = x * 4 + y / 16 :=
      UInt8.toNat_ofNat_of_lt' (show x * 4 + y / 16 < 2 ^ 8 by omega)
    simp only [sextets, hfirst, List.cons.injEq, and_true]
    omega
  | [x, y, z], hl, d, h => by
    have hx := hl x (by simp)
    have hy := hl y (by simp)
    have hz := hl z (by simp)
    simp only [octets] at h
    split_ifs at h
    obtain rfl := Option.some.inj h
    have hfirst : (UInt8.ofNat (x * 4 + y / 16)).toNat = x * 4 + y / 16 :=
      UInt8.toNat_ofNat_of_lt' (show x * 4 + y / 16 < 2 ^ 8 by omega)
    have hsecond : (UInt8.ofNat (y % 16 * 16 + z / 4)).toNat = y % 16 * 16 + z / 4 :=
      UInt8.toNat_ofNat_of_lt' (show y % 16 * 16 + z / 4 < 2 ^ 8 by omega)
    simp only [sextets, hfirst, hsecond, List.cons.injEq, and_true]
    omega
  | x :: y :: z :: w :: rest, hl, d, h => by
    have hx := hl x (by simp)
    have hy := hl y (by simp)
    have hz := hl z (by simp)
    have hw := hl w (by simp)
    simp only [octets, Option.map_eq_some_iff] at h
    obtain ⟨tail, ht, rfl⟩ := h
    have hrest := sextets_of_octets rest (fun n hn => hl n (by simp [hn])) ht
    have hfirst : (UInt8.ofNat (x * 4 + y / 16)).toNat = x * 4 + y / 16 :=
      UInt8.toNat_ofNat_of_lt' (show x * 4 + y / 16 < 2 ^ 8 by omega)
    have hsecond : (UInt8.ofNat (y % 16 * 16 + z / 4)).toNat = y % 16 * 16 + z / 4 :=
      UInt8.toNat_ofNat_of_lt' (show y % 16 * 16 + z / 4 < 2 ^ 8 by omega)
    have hthird : (UInt8.ofNat (z % 4 * 64 + w)).toNat = z % 4 * 64 + w :=
      UInt8.toNat_ofNat_of_lt' (show z % 4 * 64 + w < 2 ^ 8 by omega)
    simp only [sextets, hfirst, hsecond, hthird, hrest, List.cons.injEq, and_true]
    omega

/-- The groups that encode some octets: a short group at the end is not a single one, and its
unused bits are zero. -/
def Canonical (l : List ℕ) : Prop :=
  l.length % 4 ≠ 1 ∧ (l.length % 4 = 2 → l.getLast?.getD 0 % 16 = 0) ∧
    (l.length % 4 = 3 → l.getLast?.getD 0 % 4 = 0)

instance (l : List ℕ) : Decidable (Canonical l) := inferInstanceAs (Decidable (_ ∧ _))

theorem canonical_cons (x y z w : ℕ) (rest : List ℕ) :
    Canonical (x :: y :: z :: w :: rest) ↔ Canonical rest := by
  unfold Canonical
  cases rest with
  | nil => simp
  | cons v rest =>
    have hlen : (x :: y :: z :: w :: v :: rest).length % 4 = (v :: rest).length % 4 := by
      simp only [List.length_cons]
      omega
    rw [hlen, List.getLast?_cons_cons, List.getLast?_cons_cons, List.getLast?_cons_cons,
      List.getLast?_cons_cons]

theorem octets_isSome_iff : ∀ l : List ℕ, (octets l).isSome ↔ Canonical l
  | [] => by simp [octets, Canonical]
  | [x] => by simp [octets, Canonical]
  | [x, y] => by
    by_cases h : y % 16 = 0
    · simp [octets, Canonical, h]
    · simp [octets, Canonical, h]
  | [x, y, z] => by
    by_cases h : z % 4 = 0
    · simp [octets, Canonical, h]
    · simp [octets, Canonical, h]
  | x :: y :: z :: w :: rest => by
    rw [canonical_cons, ← octets_isSome_iff rest]
    simp [octets]

theorem exists_sextets_iff {l : List ℕ} (hl : ∀ n ∈ l, n < 64) :
    (∃ d, sextets d = l) ↔ Canonical l := by
  rw [← octets_isSome_iff]
  constructor
  · rintro ⟨d, rfl⟩
    rw [octets_sextets]
    rfl
  · intro h
    obtain ⟨d, hd⟩ := Option.isSome_iff_exists.mp h
    exact ⟨d, sextets_of_octets l hl hd⟩

theorem sextets_injective {d d' : Bytes} (h : sextets d = sextets d') : d = d' := by
  have hd := octets_sextets d
  rw [h, octets_sextets] at hd
  exact (Option.some.inj hd).symm

/-- Sixty-four one-octet symbols, none of them the padding character. -/
structure Alphabet where
  symbols : Str
  value_symbol : ∀ n < 64, symbols.idxOf? (symbols.getD n '=') = some n
  pad_notMem : '=' ∉ symbols

def standardSymbols : Str :=
  "ABCDEFGHIJKLMNOPQRSTUVWXYZabcdefghijklmnopqrstuvwxyz0123456789+/".toList

def urlSafeSymbols : Str :=
  "ABCDEFGHIJKLMNOPQRSTUVWXYZabcdefghijklmnopqrstuvwxyz0123456789-_".toList

def standard : Alphabet := ⟨standardSymbols, by decide +kernel, by decide +kernel⟩

def urlSafe : Alphabet := ⟨urlSafeSymbols, by decide +kernel, by decide +kernel⟩

namespace Alphabet
variable (a : Alphabet)

def symbol (n : ℕ) : Char := a.symbols.getD n '='

def value (c : Char) : Option ℕ := a.symbols.idxOf? c

def encode (d : Bytes) : Str := (sextets d).map a.symbol

def decode (s : Str) : Option Bytes := (s.mapM a.value).bind octets

/-- Padding up to a multiple of four symbols. -/
def padding (n : ℕ) : Str := List.replicate ((4 - n % 4) % 4) '='

def encodePadded (d : Bytes) : Str := a.encode d ++ padding (a.encode d).length

/-- At most two padding characters are taken off the end. -/
def stripPadding (s : Str) : Str :=
  match s.reverse with
  | '=' :: '=' :: rest => rest.reverse
  | '=' :: rest => rest.reverse
  | _ => s

def decodePadded (s : Str) : Option Bytes :=
  if s.length % 4 = 0 then a.decode (stripPadding s) else none

theorem mapM_value_map (l : List ℕ) (h : ∀ n ∈ l, n < 64) :
    (l.map a.symbol).mapM a.value = some l := by
  induction l with
  | nil => rfl
  | cons n l ih =>
    have hn : a.value (a.symbol n) = some n := a.value_symbol n (h n (by simp))
    simp [hn, ih fun m hm => h m (by simp [hm])]

theorem decode_encode (d : Bytes) : a.decode (a.encode d) = some d := by
  unfold decode encode
  rw [a.mapM_value_map _ (sextets_lt d)]
  exact octets_sextets d

theorem encode_ne_nil {d : Bytes} (h : d ≠ []) : a.encode d ≠ [] := by
  intro he
  have hd := a.decode_encode d
  rw [he] at hd
  exact h (Option.some.inj hd).symm

theorem encode_length (d : Bytes) : (a.encode d).length % 4 ≠ 1 := by
  rw [encode, List.length_map, sextets_length]
  omega

theorem symbol_mem {n : ℕ} (h : n < 64) : a.symbol n ∈ a.symbols := by
  have hv := a.value_symbol n h
  unfold symbol
  by_contra hm
  rw [List.idxOf?_eq_none_iff.mpr hm] at hv
  contradiction

theorem mem_encode {d : Bytes} {c : Char} (h : c ∈ a.encode d) : c ∈ a.symbols := by
  obtain ⟨n, hn, rfl⟩ := List.mem_map.mp h
  exact a.symbol_mem (sextets_lt d n hn)

theorem encode_notMem {c : Char} (hc : c ∉ a.symbols) (d : Bytes) : c ∉ a.encode d :=
  fun h => hc (a.mem_encode h)

theorem mem_encodePadded {d : Bytes} {c : Char} (h : c ∈ a.encodePadded d) :
    c ∈ '=' :: a.symbols := by
  unfold encodePadded padding at h
  rcases List.mem_append.mp h with h | h
  · exact List.mem_cons_of_mem _ (a.mem_encode h)
  · rw [List.eq_of_mem_replicate h]
    exact List.mem_cons_self

/-- Whole groups of three octets, and only these, become whole groups of four symbols. -/
theorem encode_length_mod (d : Bytes) : (a.encode d).length % 4 = 0 ↔ d.length % 3 = 0 := by
  rw [encode, List.length_map, sextets_length]
  omega

/-- Padding is added exactly when the octets are no whole groups of three. -/
theorem encodePadded_eq_encode {d : Bytes} (h : d.length % 3 = 0) :
    a.encodePadded d = a.encode d := by
  unfold encodePadded padding
  rw [(a.encode_length_mod d).mpr h]
  simp

theorem pad_mem_encodePadded {d : Bytes} (h : d.length % 3 ≠ 0) : '=' ∈ a.encodePadded d := by
  have hlen := mt (a.encode_length_mod d).mp h
  refine List.mem_append_right _ (List.mem_replicate.mpr ⟨?_, rfl⟩)
  omega

theorem decode_pad {s : Str} (h : '=' ∈ s) : a.decode s = none := by
  have hnone : s.mapM a.value = none := by
    obtain ⟨pre, post, rfl⟩ := List.append_of_mem h
    have hpad : a.value '=' = none := List.idxOf?_eq_none_iff.mpr a.pad_notMem
    simp [List.mapM_append, hpad]
  rw [decode, hnone, Option.bind_none]

theorem stripPadding_encode (d : Bytes) : stripPadding (a.encodePadded d) = a.encode d := by
  have hlen := a.encode_length d
  have hpad : '=' ∉ a.encode d := fun h => a.pad_notMem (a.mem_encode h)
  unfold encodePadded padding stripPadding
  generalize a.encode d = s at *
  rcases (show (4 - s.length % 4) % 4 = 0 ∨ (4 - s.length % 4) % 4 = 1 ∨
    (4 - s.length % 4) % 4 = 2 by omega) with h | h | h
  · rw [h]
    simp only [List.replicate_zero, List.append_nil]
    split
    · next r hr => exact absurd (List.mem_reverse.mp (hr ▸ List.mem_cons_self)) hpad
    · next r hr => exact absurd (List.mem_reverse.mp (hr ▸ List.mem_cons_self)) hpad
    · rfl
  · rw [h]
    simp only [List.replicate_one, List.reverse_append, List.reverse_singleton,
      List.singleton_append]
    split
    · next rest hr =>
      obtain ⟨-, hr⟩ := List.cons.inj hr
      exact absurd (List.mem_reverse.mp (hr ▸ List.mem_cons_self)) hpad
    · next rest _ hr =>
      obtain ⟨-, rfl⟩ := List.cons.inj hr
      exact List.reverse_reverse s
    · next hno => exact absurd rfl (hno _)
  · rw [h]
    simp [List.replicate_succ]

theorem decodePadded_encodePadded (d : Bytes) : a.decodePadded (a.encodePadded d) = some d := by
  have hlen : (a.encodePadded d).length % 4 = 0 := by
    simp only [encodePadded, padding, List.length_append, List.length_replicate]
    omega
  unfold decodePadded
  rw [if_pos hlen, stripPadding_encode, decode_encode]

theorem symbol_of_value {c : Char} {n : ℕ} (h : a.value c = some n) : a.symbol n = c := by
  obtain ⟨hn, hc, -⟩ := List.idxOf?_eq_some_iff.mp h
  rw [symbol, List.getD_eq_getElem?_getD, List.getElem?_eq_getElem hn, hc]
  rfl

theorem map_symbol_of_mapM {s : Str} {l : List ℕ} (h : s.mapM a.value = some l) :
    l.map a.symbol = s := by
  induction s generalizing l with
  | nil =>
    obtain rfl := Option.some.inj h
    rfl
  | cons c s ih =>
    simp only [List.mapM_cons, Option.bind_eq_bind, Option.bind_eq_some_iff] at h
    obtain ⟨n, hn, tail, ht, hl⟩ := h
    obtain rfl := Option.some.inj hl
    rw [List.map_cons, a.symbol_of_value hn, ih ht]

theorem lt_of_mapM_value (hsize : a.symbols.length = 64) {s : Str} {l : List ℕ}
    (h : s.mapM a.value = some l) : ∀ n ∈ l, n < 64 := by
  induction s generalizing l with
  | nil =>
    obtain rfl := Option.some.inj h
    exact fun n hn => absurd hn List.not_mem_nil
  | cons c s ih =>
    simp only [List.mapM_cons, Option.bind_eq_bind, Option.bind_eq_some_iff] at h
    obtain ⟨n, hn, tail, ht, hl⟩ := h
    obtain rfl := Option.some.inj hl
    obtain ⟨hlt, -⟩ := List.idxOf?_eq_some_iff.mp hn
    exact List.forall_mem_cons.mpr ⟨hsize ▸ hlt, ih ht⟩

/-- Only the encoded text is decoded. -/
theorem eq_encode_of_decode (hsize : a.symbols.length = 64) {s : Str} {d : Bytes}
    (h : a.decode s = some d) : s = a.encode d := by
  obtain ⟨l, hl, hd⟩ := Option.bind_eq_some_iff.mp h
  unfold encode
  rw [sextets_of_octets l (a.lt_of_mapM_value hsize hl) hd, a.map_symbol_of_mapM hl]

theorem stripPadding_append (s : Str) :
    ∃ k ≤ 2, s = stripPadding s ++ List.replicate k '=' := by
  unfold stripPadding
  split
  · next rest hr =>
    refine ⟨2, le_rfl, ?_⟩
    rw [← List.reverse_reverse s, hr]
    simp [List.replicate_succ]
  · next rest _ hr =>
    refine ⟨1, by omega, ?_⟩
    rw [← List.reverse_reverse s, hr]
    simp
  · exact ⟨0, Nat.zero_le _, (List.append_nil s).symm⟩

/-- The strict decoder takes the padded text and nothing else. -/
theorem decodePadded_eq_some_iff (hsize : a.symbols.length = 64) {s : Str} {d : Bytes} :
    a.decodePadded s = some d ↔ s = a.encodePadded d := by
  constructor
  · intro h
    unfold decodePadded at h
    split_ifs at h with hlen
    have hstrip := a.eq_encode_of_decode hsize h
    obtain ⟨k, hk, hs⟩ := stripPadding_append s
    have hmod := a.encode_length d
    rw [hstrip] at hs
    have htotal := congrArg List.length hs
    rw [List.length_append, List.length_replicate] at htotal
    have hpad : k = (4 - (a.encode d).length % 4) % 4 := by omega
    rw [hs, hpad]
    rfl
  · rintro rfl
    exact a.decodePadded_encodePadded d

theorem length_of_mapM_value {s : Str} {l : List ℕ} (h : s.mapM a.value = some l) :
    l.length = s.length := by
  induction s generalizing l with
  | nil =>
    obtain rfl := Option.some.inj h
    rfl
  | cons c s ih =>
    simp only [List.mapM_cons, Option.bind_eq_bind, Option.bind_eq_some_iff] at h
    obtain ⟨n, -, tail, ht, hl⟩ := h
    obtain rfl := Option.some.inj hl
    rw [List.length_cons, List.length_cons, ih ht]

theorem decode_length_le {s : Str} {d : Bytes} (h : a.decode s = some d) :
    d.length ≤ s.length := by
  obtain ⟨l, hl, hd⟩ := Option.bind_eq_some_iff.mp h
  rw [← a.length_of_mapM_value hl]
  exact octets_length_le l hd

theorem decodePadded_length_le {s : Str} {d : Bytes} (h : a.decodePadded s = some d) :
    d.length ≤ s.length := by
  unfold decodePadded at h
  split_ifs at h
  refine (a.decode_length_le h).trans ?_
  unfold stripPadding
  split
  · next rest hr =>
    have := congrArg List.length hr
    simp only [List.length_reverse, List.length_cons] at this ⊢
    omega
  · next rest _ hr =>
    have := congrArg List.length hr
    simp only [List.length_reverse, List.length_cons] at this ⊢
    omega
  · exact le_rfl

end Alphabet

end Base64
