import SkinGetBE.Octets

/-!
# UTF-8 text addressed by octet offsets

A text is its list of characters. Searches return octet offsets, and a slice at
an offset that is not a character boundary, or lies past the end, has no value:
`none` stands for the panic of a language that checks its slices.
-/
namespace Text
open Octets

abbrev Str := List Char

def asBytes (s : Str) : Bytes := s.flatMap String.utf8EncodeChar

/-- Length in octets. -/
def byteLen (s : Str) : ℕ := (s.map Char.utf8Size).sum

@[simp] theorem byteLen_nil : byteLen [] = 0 := rfl

@[simp] theorem byteLen_cons (c : Char) (s : Str) :
    byteLen (c :: s) = c.utf8Size + byteLen s := by simp [byteLen]

@[simp] theorem byteLen_append (s t : Str) : byteLen (s ++ t) = byteLen s + byteLen t := by
  simp [byteLen]

theorem byteLen_le_of_sublist {s t : Str} (h : s.Sublist t) : byteLen s ≤ byteLen t := by
  induction h with
  | slnil => exact le_rfl
  | cons c _ ih => rw [byteLen_cons]; omega
  | cons_cons c _ ih => rw [byteLen_cons, byteLen_cons]; omega

theorem byteLen_eq_length {s : Str} (h : ∀ c ∈ s, c.utf8Size = 1) : byteLen s = s.length := by
  induction s with
  | nil => rfl
  | cons c s ih =>
    rw [byteLen_cons, List.length_cons, h c (by simp), ih fun d hd => h d (by simp [hd])]
    omega

@[simp] theorem asBytes_nil : asBytes [] = [] := rfl

@[simp] theorem asBytes_cons (c : Char) (s : Str) :
    asBytes (c :: s) = String.utf8EncodeChar c ++ asBytes s := rfl

@[simp] theorem asBytes_append (s t : Str) : asBytes (s ++ t) = asBytes s ++ asBytes t := by
  simp [asBytes]

@[simp] theorem asBytes_length (s : Str) : (asBytes s).length = byteLen s := by
  induction s with
  | nil => rfl
  | cons c s ih => simp [ih, String.length_utf8EncodeChar]

theorem length_le_byteLen (s : Str) : s.length ≤ byteLen s := by
  induction s with
  | nil => simp
  | cons c s ih => have := c.utf8Size_pos; simp only [List.length_cons, byteLen_cons]; omega

/-- Decode one character at a time; every character consumes at least one octet,
so the length is a sufficient budget. -/
def fromUtf8Loop : ℕ → Bytes → Option Str
  | _, [] => some []
  | 0, _ :: _ => none
  | fuel + 1, b :: bs =>
    match (ByteArray.mk (b :: bs).toArray).utf8DecodeChar? 0 with
    | none => none
    | some c => (fromUtf8Loop fuel ((b :: bs).drop c.utf8Size)).map (c :: ·)

/-- The text of a valid UTF-8 string, and nothing for an invalid one. -/
def fromUtf8 (bs : Bytes) : Option Str := fromUtf8Loop bs.length bs

theorem asBytes_eq_utf8Encode (s : Str) : (ByteArray.mk (asBytes s).toArray) = s.utf8Encode := by
  rw [List.utf8Encode]
  apply ByteArray.ext
  simp [asBytes]

theorem fromUtf8Loop_asBytes (fuel : ℕ) (s : Str) (h : s.length ≤ fuel) :
    fromUtf8Loop fuel (asBytes s) = some s := by
  induction s generalizing fuel with
  | nil => cases fuel <;> rfl
  | cons c s ih =>
    cases fuel with
    | zero => simp at h
    | succ fuel =>
      have hc : (ByteArray.mk (asBytes (c :: s)).toArray).utf8DecodeChar? 0 = some c := by
        rw [asBytes_eq_utf8Encode]
        exact List.utf8DecodeChar?_utf8Encode_cons
      have hd : (asBytes (c :: s)).drop c.utf8Size = asBytes s := by
        rw [asBytes_cons, ← String.length_utf8EncodeChar c, List.drop_left]
      cases hb : asBytes (c :: s) with
      | nil =>
        have := asBytes_length (c :: s)
        have := c.utf8Size_pos
        simp_all
      | cons b bs =>
        rw [hb] at hc hd
        simp [fromUtf8Loop, hc, hd, ih fuel (by simpa using h)]

/-- Encoding followed by decoding is the identity. -/
@[simp] theorem fromUtf8_asBytes (s : Str) : fromUtf8 (asBytes s) = some s :=
  fromUtf8Loop_asBytes _ _ (by rw [asBytes_length]; exact length_le_byteLen s)

theorem asBytes_injective : Function.Injective asBytes := by
  intro s t h
  have := congrArg fromUtf8 h
  rwa [fromUtf8_asBytes, fromUtf8_asBytes, Option.some.injEq] at this

theorem asBytes_of_fromUtf8Loop (fuel : ℕ) (bs : Bytes) (s : Str)
    (h : fromUtf8Loop fuel bs = some s) : asBytes s = bs := by
  induction fuel generalizing bs s with
  | zero => cases bs <;> simp_all [fromUtf8Loop]
  | succ fuel ih =>
    cases bs with
    | nil => simp_all [fromUtf8Loop]
    | cons b bs =>
      simp only [fromUtf8Loop] at h
      split at h
      · contradiction
      · next c hc =>
        obtain ⟨t, ht, rfl⟩ := Option.map_eq_some_iff.mp h
        obtain ⟨l, hl⟩ := ByteArray.exists_of_utf8DecodeChar?_eq_some hc
        have hbs : b :: bs = String.utf8EncodeChar c ++ l.data.toList := by
          have := congrArg (fun a => a.data.toList) hl
          simpa using this
        rw [hbs, ← String.length_utf8EncodeChar c, List.drop_left] at ht
        rw [asBytes_cons, ih _ _ ht, hbs]

/-- Only the encoding of a text decodes to it. -/
theorem fromUtf8_eq_some_iff {bs : Bytes} {s : Str} : fromUtf8 bs = some s ↔ asBytes s = bs :=
  ⟨asBytes_of_fromUtf8Loop _ _ _, fun h => h ▸ fromUtf8_asBytes s⟩

theorem zero_notMem_utf8EncodeChar {c : Char} (hc : c ≠ '\x00') :
    (0 : UInt8) ∉ String.utf8EncodeChar c := by
  have ne_zero {n : ℕ} (h : n % 256 ≠ 0) : (0 : UInt8) ≠ UInt8.ofNat n := by
    intro he
    have := congrArg UInt8.toNat he
    simp only [UInt8.toNat_zero, UInt8.toNat_ofNat'] at this
    omega
  have hv : c.val.toNat ≠ 0 := fun h => hc (Char.ext (UInt32.toNat_inj.mp h))
  unfold String.utf8EncodeChar
  dsimp only
  split_ifs
  all_goals simp only [List.mem_cons, List.not_mem_nil, or_false, not_or]
  · exact ne_zero (by omega)
  · exact ⟨ne_zero (by omega), ne_zero (by omega)⟩
  · exact ⟨ne_zero (by omega), ne_zero (by omega), ne_zero (by omega)⟩
  · exact ⟨ne_zero (by omega), ne_zero (by omega), ne_zero (by omega), ne_zero (by omega)⟩

/-- A text without the NUL character has no zero octet. -/
theorem zero_notMem_asBytes {s : Str} (hs : '\x00' ∉ s) : (0 : UInt8) ∉ asBytes s := by
  intro h
  obtain ⟨c, hc, h0⟩ := List.mem_flatMap.mp h
  exact zero_notMem_utf8EncodeChar (fun he => hs (he ▸ hc)) h0

/-- Octet offset of the first character satisfying `p`. -/
def findChar (p : Char → Bool) : Str → Option ℕ
  | [] => none
  | c :: s => if p c then some 0 else (findChar p s).map (· + c.utf8Size)

/-- Octet offset of the first occurrence of `needle`. -/
def findStr (needle : Str) : Str → Option ℕ
  | [] => if needle.isPrefixOf [] then some 0 else none
  | c :: s => if needle.isPrefixOf (c :: s) then some 0
              else (findStr needle s).map (· + c.utf8Size)

/-- The text from octet offset `i` on. -/
def sliceFrom : Str → ℕ → Option Str
  | s, 0 => some s
  | [], _ + 1 => none
  | c :: s, i + 1 => if c.utf8Size ≤ i + 1 then sliceFrom s (i + 1 - c.utf8Size) else none

/-- The text before octet offset `i`. -/
def sliceTo : Str → ℕ → Option Str
  | _, 0 => some []
  | [], _ + 1 => none
  | c :: s, i + 1 =>
    if c.utf8Size ≤ i + 1 then (sliceTo s (i + 1 - c.utf8Size)).map (c :: ·) else none

/-- The text between two octet offsets. -/
def slice (s : Str) (i j : ℕ) : Option Str :=
  if i ≤ j then (sliceFrom s i).bind (sliceTo · (j - i)) else none

@[simp] theorem sliceFrom_zero (s : Str) : sliceFrom s 0 = some s := by cases s <;> rfl

@[simp] theorem sliceTo_zero (s : Str) : sliceTo s 0 = some [] := by cases s <;> rfl

@[simp] theorem sliceFrom_append (s t : Str) : sliceFrom (s ++ t) (byteLen s) = some t := by
  induction s with
  | nil => simp
  | cons c s ih =>
    obtain ⟨n, hn⟩ := Nat.exists_eq_add_of_lt c.utf8Size_pos
    have hs : byteLen (c :: s) = n + byteLen s + 1 := by rw [byteLen_cons]; omega
    have hr : n + byteLen s + 1 - c.utf8Size = byteLen s := by omega
    rw [hs, List.cons_append, sliceFrom, if_pos (by omega), hr, ih]

@[simp] theorem sliceTo_append (s t : Str) : sliceTo (s ++ t) (byteLen s) = some s := by
  induction s with
  | nil => simp
  | cons c s ih =>
    obtain ⟨n, hn⟩ := Nat.exists_eq_add_of_lt c.utf8Size_pos
    have hs : byteLen (c :: s) = n + byteLen s + 1 := by rw [byteLen_cons]; omega
    have hr : n + byteLen s + 1 - c.utf8Size = byteLen s := by omega
    rw [hs, List.cons_append, sliceTo, if_pos (by omega), hr, ih, Option.map_some]

theorem slice_append (s t u : Str) :
    slice (s ++ (t ++ u)) (byteLen s) (byteLen s + byteLen t) = some t := by
  rw [slice, if_pos (by omega), sliceFrom_append, Option.bind_some, Nat.add_sub_cancel_left,
    sliceTo_append]

theorem sliceFrom_eq_some {s t : Str} {i : ℕ} (h : sliceFrom s i = some t) :
    ∃ pre, s = pre ++ t ∧ byteLen pre = i := by
  induction s generalizing i with
  | nil =>
    cases i with
    | zero => exact ⟨[], by simpa using h, rfl⟩
    | succ i => simp [sliceFrom] at h
  | cons c s ih =>
    cases i with
    | zero => exact ⟨[], by simpa using h, rfl⟩
    | succ i =>
      rw [sliceFrom] at h
      split at h
      · next hc =>
        obtain ⟨pre, rfl, hlen⟩ := ih h
        refine ⟨c :: pre, rfl, ?_⟩
        rw [byteLen_cons]
        omega
      · contradiction

theorem sliceTo_eq_some {s t : Str} {i : ℕ} (h : sliceTo s i = some t) :
    ∃ post, s = t ++ post ∧ byteLen t = i := by
  induction s generalizing i t with
  | nil =>
    cases i with
    | zero =>
      obtain rfl : [] = t := by simpa using h
      exact ⟨[], rfl, rfl⟩
    | succ i => simp [sliceTo] at h
  | cons c s ih =>
    cases i with
    | zero =>
      obtain rfl : [] = t := by simpa using h
      exact ⟨c :: s, rfl, rfl⟩
    | succ i =>
      rw [sliceTo] at h
      split at h
      · next hc =>
        obtain ⟨t, hslice, rfl⟩ := Option.map_eq_some_iff.mp h
        obtain ⟨post, rfl, hlen⟩ := ih hslice
        refine ⟨post, rfl, ?_⟩
        rw [byteLen_cons]
        omega
      · contradiction

/-- A slice is a part of the text that stands where the offsets say. -/
theorem slice_eq_some {s t : Str} {i j : ℕ} (h : slice s i j = some t) :
    ∃ pre post, s = pre ++ (t ++ post) ∧ byteLen pre = i ∧ i + byteLen t = j := by
  rw [slice] at h
  split at h
  · next hij =>
    obtain ⟨rest, hfrom, hto⟩ := Option.bind_eq_some_iff.mp h
    obtain ⟨pre, rfl, hpre⟩ := sliceFrom_eq_some hfrom
    obtain ⟨post, rfl, ht⟩ := sliceTo_eq_some hto
    exact ⟨pre, post, rfl, hpre, by omega⟩
  · contradiction

/-- The found character splits the text, and nothing before it qualifies. -/
theorem findChar_eq_some {p : Char → Bool} {s : Str} {i : ℕ} (h : findChar p s = some i) :
    ∃ pre c post, s = pre ++ c :: post ∧ i = byteLen pre ∧ p c = true ∧
      ∀ x ∈ pre, p x = false := by
  induction s generalizing i with
  | nil => simp [findChar] at h
  | cons c s ih =>
    cases hc : p c with
    | true =>
      refine ⟨[], c, s, rfl, ?_, hc, by simp⟩
      simpa [findChar, hc] using h.symm
    | false =>
      simp only [findChar, hc, Bool.false_eq_true, if_false, Option.map_eq_some_iff] at h
      obtain ⟨j, hj, rfl⟩ := h
      obtain ⟨pre, d, post, rfl, rfl, hd, hpre⟩ := ih hj
      exact ⟨c :: pre, d, post, rfl, by rw [byteLen_cons, add_comm], hd,
        by simpa [hc] using hpre⟩

theorem findChar_append {p : Char → Bool} {pre post : Str} {c : Char} (hc : p c = true)
    (hpre : ∀ x ∈ pre, p x = false) : findChar p (pre ++ c :: post) = some (byteLen pre) := by
  induction pre with
  | nil => simp [findChar, hc]
  | cons d pre ih =>
    have hd : p d = false := hpre d (by simp)
    simp [findChar, hd, ih (fun x hx => hpre x (by simp [hx])), add_comm]

/-- The first occurrence splits the text around the needle. -/
theorem findStr_eq_some {needle s : Str} {i : ℕ} (h : findStr needle s = some i) :
    ∃ pre post, s = pre ++ (needle ++ post) ∧ i = byteLen pre := by
  induction s generalizing i with
  | nil =>
    simp only [findStr] at h
    split at h
    · next hn => exact ⟨[], [], by simpa using hn, by simpa using h.symm⟩
    · contradiction
  | cons c s ih =>
    simp only [findStr] at h
    split at h
    · next hn =>
      obtain ⟨post, hpost⟩ := List.isPrefixOf_iff_prefix.mp hn
      exact ⟨[], post, by simpa using hpost.symm, by simpa using h.symm⟩
    · obtain ⟨j, hj, rfl⟩ := Option.map_eq_some_iff.mp h
      obtain ⟨pre, post, rfl, rfl⟩ := ih hj
      exact ⟨c :: pre, post, rfl, by rw [byteLen_cons, add_comm]⟩

/-- A text in which the needle starts at no earlier character is searched up to
its occurrence after `pre`. -/
theorem findStr_append {needle pre post : Str}
    (hpre : ∀ u v, pre = u ++ v → v ≠ [] → ¬ needle <+: v ++ (needle ++ post)) :
    findStr needle (pre ++ (needle ++ post)) = some (byteLen pre) := by
  induction pre with
  | nil =>
    have hn : needle.isPrefixOf (needle ++ post) = true :=
      List.isPrefixOf_iff_prefix.mpr (List.prefix_append _ _)
    rw [List.nil_append, byteLen_nil]
    cases h : needle ++ post with
    | nil => rw [findStr, ← h, if_pos hn]
    | cons c s => rw [findStr, ← h, if_pos hn]
  | cons c pre ih =>
    have hc := hpre [] (c :: pre) rfl (by simp)
    have hn : ¬ needle.isPrefixOf (c :: (pre ++ (needle ++ post))) = true := by
      rw [List.isPrefixOf_iff_prefix]
      exact hc
    have ih' := ih fun u v huv hv => hpre (c :: u) v (by rw [huv]; rfl) hv
    rw [List.cons_append, findStr, if_neg hn, ih', Option.map_some, byteLen_cons, add_comm]

/-- A needle that starts nowhere is not found. -/
theorem findStr_none {needle s : Str} (hne : needle ≠ [])
    (h : ∀ u v, s = u ++ v → v ≠ [] → ¬ needle <+: v) : findStr needle s = none := by
  induction s with
  | nil =>
    have hn : ¬ needle.isPrefixOf [] = true := by
      rw [List.isPrefixOf_iff_prefix, List.prefix_nil]
      exact hne
    rw [findStr, if_neg hn]
  | cons c s ih =>
    have hn : ¬ needle.isPrefixOf (c :: s) = true := by
      rw [List.isPrefixOf_iff_prefix]
      exact h [] (c :: s) rfl (by simp)
    rw [findStr, if_neg hn, ih fun u v huv hv => h (c :: u) v (by rw [huv]; rfl) hv,
      Option.map_none]

/-- The Unicode property `White_Space`. -/
def isWhitespace (c : Char) : Bool :=
  let n := c.toNat
  (9 ≤ n && n ≤ 13) || n == 32 || n == 0x85 || n == 0xA0 || n == 0x1680 ||
    (0x2000 ≤ n && n ≤ 0x200A) || n == 0x2028 || n == 0x2029 || n == 0x202F || n == 0x205F ||
    n == 0x3000

def trimStart (s : Str) : Str := s.dropWhile isWhitespace

/-- The text without the characters at both ends that `accept` takes. -/
def trimMatches (accept : Char → Bool) (s : Str) : Str :=
  ((s.dropWhile accept).reverse.dropWhile accept).reverse

def trim (s : Str) : Str := trimMatches isWhitespace s

def isAsciiAlphanumeric (c : Char) : Bool := c.isAlphanum

def digitValue (c : Char) : Option ℕ :=
  if c.isDigit then some (c.toNat - '0'.toNat) else none

/-- Value of a digit string, continuing from `acc`. -/
def decimalValue : ℕ → Str → Option ℕ
  | acc, [] => some acc
  | acc, c :: s => (digitValue c).bind fun d => decimalValue (10 * acc + d) s

/-- A nonempty digit string as a number. -/
def parseDigits (s : Str) : Option ℕ := if s.isEmpty then none else decimalValue 0 s

/-- An optional plus sign and digits, of a value below `2 ^ 32`. -/
def parseU32 (s : Str) : Option ℕ :=
  let digits := match s with
    | '+' :: digits => digits
    | _ => s
  (parseDigits digits).filter (· < 2 ^ 32)

/-- An optional sign and digits, of a value from `-2 ^ 31` to `2 ^ 31 - 1`. -/
def parseI32 (s : Str) : Option ℤ :=
  match s with
  | '-' :: digits => ((parseDigits digits).filter (· ≤ 2 ^ 31)).map fun n => -(n : ℤ)
  | '+' :: digits => ((parseDigits digits).filter (· < 2 ^ 31)).map fun n => (n : ℤ)
  | _ => ((parseDigits s).filter (· < 2 ^ 31)).map fun n => (n : ℤ)

theorem decimalValue_append (acc : ℕ) (s : Str) (c : Char) :
    decimalValue acc (s ++ [c]) =
      (decimalValue acc s).bind fun v => (digitValue c).map (10 * v + ·) := by
  induction s generalizing acc with
  | nil => cases h : digitValue c <;> simp [decimalValue, h]
  | cons d s ih => cases h : digitValue d <;> simp [decimalValue, h, ih]

theorem digitValue_digitChar {d : ℕ} (h : d < 10) : digitValue (Nat.digitChar d) = some d := by
  have key : ∀ d < 10, digitValue (Nat.digitChar d) = some d := by decide
  exact key d h

theorem decimalValue_toDigits (n : ℕ) : decimalValue 0 (Nat.toDigits 10 n) = some n := by
  induction n using Nat.strong_induction_on with
  | h n ih =>
    by_cases h : n < 10
    · rw [Nat.toDigits_of_lt_base h]
      simp [decimalValue, digitValue_digitChar h]
    · rw [Nat.toDigits_of_base_le (by decide) (by omega), decimalValue_append,
        ih (n / 10) (by omega), digitValue_digitChar (Nat.mod_lt n (by decide))]
      simp only [Option.bind_some, Option.map_some, Option.some.injEq]
      omega

theorem toDigits_injective {m n : ℕ} (h : Nat.toDigits 10 m = Nat.toDigits 10 n) : m = n := by
  have hm := decimalValue_toDigits m
  rw [h, decimalValue_toDigits] at hm
  exact (Option.some.inj hm).symm

theorem toDigits_ne_plus {n : ℕ} {s : Str} : Nat.toDigits 10 n ≠ '+' :: s := by
  intro h
  have hd : '+'.isDigit := Nat.isDigit_of_mem_toDigits (b := 10) (n := n) (by decide) (by decide)
    (by rw [h]; exact List.mem_cons_self)
  contradiction

/-- The decimal text of a word is read back. -/
theorem parseU32_toDigits {n : ℕ} (h : n < 2 ^ 32) : parseU32 (Nat.toDigits 10 n) = some n := by
  have hp : parseDigits (Nat.toDigits 10 n) = some n := by
    unfold parseDigits
    rw [if_neg (by simp [Nat.toDigits_ne_nil]), decimalValue_toDigits]
  unfold parseU32
  split
  · next digits heq => exact absurd heq toDigits_ne_plus
  · dsimp only
    rw [hp]
    simpa using h

end Text
