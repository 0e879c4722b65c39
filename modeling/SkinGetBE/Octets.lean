import Mathlib.Tactic

/-!
# Octet strings

Words of fixed width in either byte order, base-128 variable-length numbers, and
the few identities that turn masks and shifts of octets into sums. Values are
natural numbers; a width is always the number of octets that carry it.
-/
namespace Octets

abbrev Bytes := List UInt8

theorem toNat_and_127 (b : UInt8) : (b &&& 0x7F).toNat = b.toNat % 128 := by
  rw [UInt8.toNat_and]
  exact Nat.and_two_pow_sub_one_eq_mod b.toNat 7

theorem and_128_eq_zero (b : UInt8) : b &&& 0x80 = 0 ↔ b.toNat < 128 := by
  have key : ∀ n < 256, UInt8.ofNat n &&& 0x80 = 0 ↔ n < 128 := by decide +kernel
  simpa using key b.toNat b.toNat_lt

/-- A disjunction of words whose bits do not meet is their sum. -/
theorem or_shiftLeft {a i : ℕ} (h : a < 2 ^ i) (b : ℕ) : a ||| (b <<< i) = a + b * 2 ^ i := by
  rw [Nat.or_comm, ← Nat.shiftLeft_add_eq_or_of_lt h, Nat.shiftLeft_eq, add_comm]

theorem and_255 (n : ℕ) : n &&& 0xFF = n % 256 := Nat.and_two_pow_sub_one_eq_mod n 8

@[simp] theorem toNat_ofNat_mod (n : ℕ) : (UInt8.ofNat (n % 256)).toNat = n % 256 := by
  simp

theorem toNat_ofNat_lt {n : ℕ} (h : n < 256) : (UInt8.ofNat n).toNat = n := by
  simp [Nat.mod_eq_of_lt h]

/-- The number an octet string denotes, least significant octet first. -/
def leValue : Bytes → ℕ
  | [] => 0
  | b :: bs => b.toNat + 256 * leValue bs

/-- The number an octet string denotes, most significant octet first. -/
def beValue (bs : Bytes) : ℕ := leValue bs.reverse

/-- The `n` low octets of `v`, least significant first. -/
def leBytes : ℕ → ℕ → Bytes
  | 0, _ => []
  | n + 1, v => UInt8.ofNat (v % 256) :: leBytes n (v / 256)

/-- The `n` low octets of `v`, most significant first. -/
def beBytes (n v : ℕ) : Bytes := (leBytes n v).reverse

@[simp] theorem leBytes_length (n v : ℕ) : (leBytes n v).length = n := by
  induction n generalizing v with
  | zero => rfl
  | succ n ih => simp [leBytes, ih]

@[simp] theorem beBytes_length (n v : ℕ) : (beBytes n v).length = n := by simp [beBytes]

theorem leValue_lt (bs : Bytes) : leValue bs < 256 ^ bs.length := by
  induction bs with
  | nil => simp [leValue]
  | cons b bs ih =>
    have hb := b.toNat_lt
    simp only [leValue, List.length_cons, pow_succ]
    omega

theorem leValue_leBytes (n v : ℕ) : leValue (leBytes n v) = v % 256 ^ n := by
  induction n generalizing v with
  | zero => simp [leBytes, leValue, Nat.mod_one]
  | succ n ih =>
    simp only [leBytes, leValue, ih, toNat_ofNat_mod, pow_succ]
    rw [Nat.mul_comm (256 ^ n) 256, Nat.mod_mul]

theorem leBytes_leValue (l : Bytes) : leBytes l.length (leValue l) = l := by
  induction l with
  | nil => rfl
  | cons x l ih =>
    have hx := x.toNat_lt
    have hlow : leValue (x :: l) % 256 = x.toNat := by
      rw [leValue]
      omega
    have hhigh : leValue (x :: l) / 256 = leValue l := by
      rw [leValue]
      omega
    rw [List.length_cons, leBytes, hlow, hhigh, ih, UInt8.ofNat_toNat]

theorem leValue_leBytes_of_lt {n v : ℕ} (h : v < 256 ^ n) : leValue (leBytes n v) = v := by
  rw [leValue_leBytes, Nat.mod_eq_of_lt h]

theorem beValue_beBytes_of_lt {n v : ℕ} (h : v < 256 ^ n) : beValue (beBytes n v) = v := by
  simp [beValue, beBytes, leValue_leBytes_of_lt h]

/-- Octets joined by disjunction after a shift, the most significant first. -/
theorem foldl_be (w : Bytes) (v : ℕ) :
    w.foldl (fun val x => (val <<< 8) ||| x.toNat) v = v * 256 ^ w.length + beValue w := by
  induction w using List.reverseRecOn generalizing v with
  | nil => simp [beValue, leValue]
  | append_singleton w x ih =>
    have hor := or_shiftLeft (i := 8) x.toNat_lt (v * 256 ^ w.length + beValue w)
    rw [List.foldl_append, ih, List.foldl_cons, List.foldl_nil, Nat.or_comm, hor]
    simp only [beValue, List.reverse_append, List.reverse_singleton, List.singleton_append, leValue,
      List.length_append, List.length_singleton, pow_succ]
    ring

/-- Octets shifted to their places, the least significant first. -/
theorem foldl_le (w : Bytes) (k v : ℕ) (hv : v < 2 ^ (k * 8)) :
    (w.zipIdx k).foldl (fun val p => val ||| (p.1.toNat <<< (p.2 * 8))) v =
      v + leValue w * 2 ^ (k * 8) := by
  induction w generalizing k v with
  | nil => simp [leValue]
  | cons x w ih =>
    have hp : 2 ^ ((k + 1) * 8) = 256 * 2 ^ (k * 8) := by
      rw [Nat.add_mul, pow_add]
      omega
    have hx : x.toNat * 2 ^ (k * 8) ≤ 255 * 2 ^ (k * 8) :=
      Nat.mul_le_mul_right _ (Nat.le_of_lt_succ x.toNat_lt)
    rw [List.zipIdx_cons, List.foldl_cons, or_shiftLeft hv, ih, leValue, hp]
    · ring
    · rw [hp]
      dsimp only
      omega

theorem map_range_octets (n v : ℕ) :
    (List.range n).map (fun i => UInt8.ofNat ((v >>> (i * 8)) &&& 0xFF)) = leBytes n v := by
  induction n generalizing v with
  | zero => rfl
  | succ n ih =>
    have hshift (i : ℕ) : v >>> ((i + 1) * 8) = (v / 256) >>> (i * 8) := by
      rw [Nat.add_mul, Nat.add_comm, Nat.one_mul, Nat.shiftRight_add,
        Nat.shiftRight_eq_div_pow v 8]
    rw [List.range_succ_eq_map, List.map_cons, List.map_map, leBytes, ← ih (v / 256)]
    congr 1
    · rw [Nat.zero_mul, Nat.shiftRight_zero, and_255]
    · exact List.map_congr_left fun i _ => by simp [hshift]

/-- A four-octet word with a nonzero last octet is at least `2 ^ 24`. -/
theorem le_leValue_of_fourth_ne_zero {a b c d : UInt8} (hd : d ≠ 0) :
    2 ^ 24 ≤ leValue [a, b, c, d] := by
  have h : d.toNat ≠ 0 := fun h => hd (UInt8.toNat_inj.mp h)
  simp only [leValue]
  omega

/-- Seven bits an octet, least significant group first; every octet but the last
carries the continuation bit. -/
def leb128 (v : ℕ) : Bytes :=
  if v < 128 then [UInt8.ofNat v] else UInt8.ofNat (v % 128 + 128) :: leb128 (v / 128)
termination_by v
decreasing_by omega

theorem leb128_of_lt {v : ℕ} (h : v < 128) : leb128 v = [UInt8.ofNat v] := by
  rw [leb128, if_pos h]

theorem leb128_of_le {v : ℕ} (h : 128 ≤ v) :
    leb128 v = UInt8.ofNat (v % 128 + 128) :: leb128 (v / 128) := by
  rw [leb128, if_neg (by omega)]

theorem leb128_ne_nil (v : ℕ) : leb128 v ≠ [] := by
  rw [leb128]
  split <;> simp

/-- The canonical text of a nonzero number has no zero octet. -/
theorem zero_notMem_leb128 {v : ℕ} (hv : v ≠ 0) : (0 : UInt8) ∉ leb128 v := by
  induction v using Nat.strong_induction_on with
  | h v ih =>
    by_cases h : v < 128
    · rw [leb128_of_lt h, List.mem_singleton]
      intro he
      have := congrArg UInt8.toNat he
      rw [toNat_ofNat_lt (by omega)] at this
      exact hv this.symm
    · rw [leb128_of_le (by omega), List.mem_cons, not_or]
      refine ⟨?_, ih (v / 128) (by omega) (by omega)⟩
      intro he
      have := congrArg UInt8.toNat he
      rw [toNat_ofNat_lt (by omega)] at this
      simp at this

/-- The number written by a list of seven-bit groups, least significant first. -/
def groupValue : Bytes → ℕ
  | [] => 0
  | b :: bs => b.toNat % 128 + 128 * groupValue bs

/-- A number is written as continued groups and one final group, the shortest that hold it. -/
theorem leb128_groups (v : ℕ) : ∃ init last, leb128 v = init ++ [last] ∧
    (∀ x ∈ init, 128 ≤ x.toNat) ∧ last.toNat < 128 ∧ groupValue (init ++ [last]) = v ∧
    (init = [] ∨ 128 ^ init.length ≤ v) := by
  induction v using Nat.strong_induction_on with
  | h v ih =>
    by_cases h : v < 128
    · refine ⟨[], UInt8.ofNat v, leb128_of_lt h, by simp, ?_, ?_, .inl rfl⟩
      · rw [toNat_ofNat_lt (by omega)]; exact h
      · simp only [List.nil_append, groupValue, toNat_ofNat_lt (show v < 256 by omega)]
        omega
    · obtain ⟨init, last, he, hinit, hlast, hval, hlen⟩ := ih (v / 128) (by omega)
      have hx : (UInt8.ofNat (v % 128 + 128)).toNat = v % 128 + 128 := toNat_ofNat_lt (by omega)
      refine ⟨UInt8.ofNat (v % 128 + 128) :: init, last, ?_, ?_, hlast, ?_, .inr ?_⟩
      · rw [leb128_of_le (by omega), he]; rfl
      · intro x hmem
        rcases List.mem_cons.mp hmem with rfl | hmem
        · omega
        · exact hinit x hmem
      · rw [List.cons_append, groupValue, hval, hx]; omega
      · rw [List.length_cons, pow_succ]
        rcases hlen with rfl | hlen
        · simp; omega
        · omega

/-- The four widths that a number below `2 ^ 28` can take. -/
theorem leb128_cases {v : ℕ} (h : v < 2 ^ 28) :
    (v < 2 ^ 7 ∧ leb128 v = [UInt8.ofNat v]) ∨
    (2 ^ 7 ≤ v ∧ v < 2 ^ 14 ∧
      leb128 v = [UInt8.ofNat (v % 128 + 128), UInt8.ofNat (v / 128)]) ∨
    (2 ^ 14 ≤ v ∧ v < 2 ^ 21 ∧
      leb128 v = [UInt8.ofNat (v % 128 + 128), UInt8.ofNat (v / 128 % 128 + 128),
        UInt8.ofNat (v / 128 / 128)]) ∨
    (2 ^ 21 ≤ v ∧
      leb128 v = [UInt8.ofNat (v % 128 + 128), UInt8.ofNat (v / 128 % 128 + 128),
        UInt8.ofNat (v / 128 / 128 % 128 + 128), UInt8.ofNat (v / 128 / 128 / 128)]) := by
  by_cases h1 : v < 128
  · exact .inl ⟨by omega, leb128_of_lt h1⟩
  by_cases h2 : v / 128 < 128
  · exact .inr (.inl ⟨by omega, by omega, by rw [leb128_of_le (by omega), leb128_of_lt h2]⟩)
  by_cases h3 : v / 128 / 128 < 128
  · refine .inr (.inr (.inl ⟨by omega, by omega, ?_⟩))
    rw [leb128_of_le (by omega), leb128_of_le (by omega), leb128_of_lt h3]
  · refine .inr (.inr (.inr ⟨by omega, ?_⟩))
    rw [leb128_of_le (by omega), leb128_of_le (by omega), leb128_of_le (by omega),
      leb128_of_lt (by omega)]

/-- One bit of the reflected division by the polynomial of CRC-32. -/
def crc32Bit (crc : ℕ) : ℕ := if crc % 2 = 1 then (crc / 2) ^^^ 0xEDB88320 else crc / 2

def crc32 (data : Bytes) : ℕ :=
  data.foldl (fun crc b => crc32Bit^[8] (crc ^^^ b.toNat)) 0xFFFFFFFF ^^^ 0xFFFFFFFF

theorem crc32Bit_lt {crc : ℕ} (h : crc < 2 ^ 32) : crc32Bit crc < 2 ^ 32 := by
  unfold crc32Bit
  split_ifs
  · exact Nat.xor_lt_two_pow (by omega) (by decide)
  · omega

theorem crc32Bit_iterate_lt (n : ℕ) {crc : ℕ} (h : crc < 2 ^ 32) : crc32Bit^[n] crc < 2 ^ 32 := by
  induction n generalizing crc with
  | zero => exact h
  | succ n ih => exact ih (crc32Bit_lt h)

theorem crc32_lt (data : Bytes) : crc32 data < 2 ^ 32 := by
  have hfold (crc : ℕ) (h : crc < 2 ^ 32) :
      data.foldl (fun crc b => crc32Bit^[8] (crc ^^^ b.toNat)) crc < 2 ^ 32 := by
    induction data generalizing crc with
    | nil => exact h
    | cons b data ih =>
      have hb := b.toNat_lt
      exact ih _ (crc32Bit_iterate_lt 8 (Nat.xor_lt_two_pow h (by omega)))
  exact Nat.xor_lt_two_pow (hfold _ (by decide)) (by decide)

end Octets
