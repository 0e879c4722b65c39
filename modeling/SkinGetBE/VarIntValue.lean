import SkinGetBE.Buffer

/-!
# The value of a variable-length number

Five groups of seven bits are more than a word of 32 bits holds. The loop shifts
the last of them like the others, so its high bits are lost, and the number that
is returned is not the one that was written.
-/
namespace SkinGetBE.Buffer
open Octets

def varIntTooLarge : Error := .invalidData "VarInt too large"

/-- A read that succeeds returns the number that its octets write, and the text of a number
that does not fit in 32 bits is refused as too large. -/
structure ReadsExactly (b : Buffer) : Prop where
  exact : ∀ v b', b.readVarInt = (.ok v, b') →
    v = groupValue (b.rest.take (b'.position - b.position))
  refuses : ∀ init last tl, b.rest = init ++ last :: tl → (∀ x ∈ init, 128 ≤ x.toNat) →
    last.toNat < 128 → 2 ^ 32 ≤ groupValue (init ++ [last]) →
    b.readVarInt.1 = .error varIntTooLarge

/-- Four groups are continued, and the fifth is final and has more than four bits. -/
def LosesBits : Bytes → Prop
  | b0 :: b1 :: b2 :: b3 :: b4 :: _ =>
    (∀ x ∈ [b0, b1, b2, b3], 128 ≤ x.toNat) ∧ 16 ≤ b4.toNat ∧ b4.toNat < 128
  | _ => False

theorem losesBits_iff {bs : Bytes} : LosesBits bs ↔ ∃ init last tl, bs = init ++ last :: tl ∧
    init.length = 4 ∧ (∀ x ∈ init, 128 ≤ x.toNat) ∧ 16 ≤ last.toNat ∧ last.toNat < 128 := by
  constructor
  · intro h
    match bs, h with
    | b0 :: b1 :: b2 :: b3 :: b4 :: tl, ⟨hinit, hbits, hlast⟩ =>
      exact ⟨[b0, b1, b2, b3], b4, tl, rfl, rfl, hinit, hbits, hlast⟩
  · rintro ⟨init, last, tl, rfl, hlen, hinit, hbits, hlast⟩
    match init, hlen with
    | [b0, b1, b2, b3], _ => exact ⟨hinit, hbits, hlast⟩

theorem groupValue_append (init : Bytes) (last : UInt8) :
    groupValue (init ++ [last]) = groupValue init + 128 ^ init.length * (last.toNat % 128) := by
  induction init with
  | nil => simp [groupValue]
  | cons x init ih =>
    rw [List.cons_append, groupValue, ih, groupValue, List.length_cons, pow_succ]
    ring

theorem groupValue_lt (bs : Bytes) : groupValue bs < 128 ^ bs.length := by
  induction bs with
  | nil => simp [groupValue]
  | cons x bs ih =>
    rw [groupValue, List.length_cons, pow_succ]
    omega

/-- Up to five groups fit in a word, unless bits are lost. -/
theorem groupValue_lt_word {init : Bytes} {last : UInt8} {tl : Bytes}
    (hinit : ∀ x ∈ init, 128 ≤ x.toNat) (hlast : last.toNat < 128) (hlen : init.length < 5)
    (hkept : ¬ LosesBits (init ++ last :: tl)) : groupValue (init ++ [last]) < 2 ^ 32 := by
  by_cases h4 : init.length = 4
  · have hbits : last.toNat < 16 := by
      by_contra h
      exact hkept (losesBits_iff.mpr ⟨init, last, tl, rfl, h4, hinit, by omega, hlast⟩)
    have hlow := groupValue_lt init
    rw [groupValue_append]
    rw [h4] at hlow ⊢
    omega
  · have hle : 128 ^ (init ++ [last]).length ≤ 128 ^ 4 := by
      refine Nat.pow_le_pow_right (by decide) ?_
      rw [List.length_append, List.length_singleton]
      omega
    have := groupValue_lt (init ++ [last])
    omega

theorem readVarIntLoop_continued (n i result : ℕ) {b : Buffer} {init tl : Bytes}
    (hinit : ∀ x ∈ init, 128 ≤ x.toNat) (hlen : init.length = n) (hb : b.rest = init ++ tl) :
    (readVarIntLoop n i result b).1 = .error varIntTooLarge := by
  induction init generalizing n i result b with
  | nil =>
    obtain rfl : n = 0 := hlen.symm
    rfl
  | cons x init ih =>
    obtain rfl : n = init.length + 1 := hlen.symm
    have hx : 128 ≤ x.toNat := hinit x (by simp)
    have hrest : (b.advance 1).rest = init ++ tl := by simp [hb]
    simp only [readVarIntLoop, readU8_cons hb]
    rw [if_neg (by rw [and_128_eq_zero]; omega)]
    exact ih _ _ _ (fun y hy => hinit y (by simp [hy])) rfl hrest

theorem readVarInt_continued {b : Buffer} {init tl : Bytes} (hinit : ∀ x ∈ init, 128 ≤ x.toNat)
    (hlen : init.length = 5) (hb : b.rest = init ++ tl) :
    b.readVarInt.1 = .error varIntTooLarge := readVarIntLoop_continued 5 0 0 hinit hlen hb

theorem take_advance (b : Buffer) {w tl : Bytes} (h : b.rest = w ++ tl) :
    b.rest.take ((b.advance w.length).position - b.position) = w := by
  have hle : b.position + w.length ≤ b.data.length := by
    have := congrArg List.length h
    have := b.position_le
    rw [rest_length, List.length_append] at *
    omega
  rw [advance_eq hle, Nat.add_sub_cancel_left, h, List.take_left]

theorem readsExactly_of_kept {b : Buffer} (hkept : ¬ LosesBits b.rest) : b.ReadsExactly where
  exact v b' h := by
    obtain ⟨init, last, tl, hrest, hinit, hlast, hlen, rfl, rfl⟩ := readVarInt_ok_iff.mp h
    have hfit := groupValue_lt_word hinit hlast hlen (hrest ▸ hkept)
    have hsplit : b.rest = (init ++ [last]) ++ tl := by simpa using hrest
    have hread := b.take_advance hsplit
    rw [List.length_append, List.length_singleton] at hread
    rw [hread, Nat.mod_eq_of_lt hfit]
  refuses init last tl hrest hinit hlast hbig := by
    have hlen : 5 ≤ init.length := by
      by_contra h
      have := groupValue_lt_word hinit hlast (by omega) (hrest ▸ hkept)
      omega
    have hsplit : b.rest = init.take 5 ++ (init.drop 5 ++ last :: tl) := by
      rw [hrest, ← List.append_assoc, List.take_append_drop]
    refine readVarInt_continued (fun x hx => hinit x (List.mem_of_mem_take hx)) ?_ hsplit
    rw [List.length_take]
    omega

/-- The value is kept exactly when a fifth group that is final has four bits at most. -/
theorem readsExactly_iff (b : Buffer) : b.ReadsExactly ↔ ¬ LosesBits b.rest := by
  refine ⟨fun h hloses => ?_, readsExactly_of_kept⟩
  obtain ⟨init, last, tl, hrest, hlen, hinit, hbits, hlast⟩ := losesBits_iff.mp hloses
  have hread := readVarInt_mod init last tl hinit hlast (by omega) hrest
  have hbig : 2 ^ 32 ≤ groupValue (init ++ [last]) := by
    rw [groupValue_append, Nat.mod_eq_of_lt hlast, hlen]
    omega
  have hrefused := h.refuses init last tl hrest hinit hlast hbig
  rw [hread] at hrefused
  contradiction

/-- Five octets that write `2 ^ 35 - 1` are read as `2 ^ 32 - 1`. -/
theorem readsExactly_fifth_octet : ¬ (ofBytes [0xff, 0xff, 0xff, 0xff, 0x7f]).ReadsExactly := by
  intro h
  have hread : (ofBytes [0xff, 0xff, 0xff, 0xff, 0x7f]).readVarInt.1 = .ok 0xffffffff := by decide
  have hvalue := h.exact 0xffffffff _ (Prod.ext hread rfl)
  revert hvalue
  decide

end SkinGetBE.Buffer
