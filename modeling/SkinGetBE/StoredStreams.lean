import SkinGetBE.Inflate

/-!
# Stored streams

The streams of both formats that hold their data as it is, in blocks of at most
65535 octets. They stand for that data.
-/
namespace Deflate
open Octets

def maxStored : ℕ := 2 ^ 16 - 1

/-- The octets behind their number and its complement. -/
def storeBlock (isFinal : Bool) (octets : Bytes) : Bytes :=
  (if isFinal then 1 else 0) ::
    (leBytes 2 octets.length ++ (leBytes 2 (maxStored - octets.length) ++ octets))

/-- A last block behind `full` whole ones. -/
def storeBlocks : ℕ → Bytes → Bytes
  | 0, data => storeBlock true data
  | full + 1, data =>
    storeBlock false (data.take maxStored) ++ storeBlocks full (data.drop maxStored)

def store (data : Bytes) : Bytes := storeBlocks (data.length / maxStored) data

theorem takeOctets_octets (octets tl : Bytes) :
    takeOctets octets.length (bitsOf (octets ++ tl)) = .ok (octets, bitsOf tl) := by
  induction octets with
  | nil => rfl
  | cons x octets ih =>
    have hx : takeNumber 8 (bitsOf (x :: octets ++ tl)) =
        .ok (leValue [x], bitsOf (octets ++ tl)) := takeNumber_octets [x] (octets ++ tl)
    have hvalue : UInt8.ofNat (leValue [x]) = x := by simp [leValue]
    rw [List.length_cons, takeOctets, bind_eq hx, bind_eq ih, hvalue]
    rfl

theorem storedBlock_stored {w : Bits} (hw : w.length < 8) {octets : Bytes}
    (hlen : octets.length ≤ maxStored) (out tl : Bytes) :
    storedBlock out (w ++ bitsOf (leBytes 2 octets.length ++
        (leBytes 2 (maxStored - octets.length) ++ (octets ++ tl)))) =
      .ok (out ++ octets, bitsOf tl) := by
  unfold maxStored at hlen ⊢
  have hnumber (n : ℕ) (hn : n < 2 ^ 16) (tl : Bytes) :
      takeNumber 16 (bitsOf (leBytes 2 n ++ tl)) = .ok (n, bitsOf tl) := by
    have hread := takeNumber_octets (leBytes 2 n) tl
    rwa [leBytes_length, leValue_leBytes_of_lt (n := 2) hn] at hread
  unfold storedBlock
  rw [bind_eq (align_octets hw _), bind_eq (hnumber _ (by omega) _),
    bind_eq (hnumber _ (by omega) _), if_pos (by omega), bind_eq (takeOctets_octets octets tl)]
  rfl

/-- A stored block is read as its octets. -/
theorem blocksLoop_storeBlock (window fuel : ℕ) (isFinal : Bool) {octets : Bytes}
    (hlen : octets.length ≤ maxStored) (out tl : Bytes) :
    blocksLoop window (fuel + 1) out (bitsOf (storeBlock isFinal octets ++ tl)) =
      if isFinal then .ok (out ++ octets, bitsOf tl)
      else blocksLoop window fuel (out ++ octets) (bitsOf tl) := by
  have hheader : octetBits (if isFinal then 1 else 0) =
      isFinal :: ([false, false] ++ List.replicate 5 false) := by
    cases isFinal <;> decide +kernel
  have hbits : bitsOf (storeBlock isFinal octets ++ tl) =
      isFinal :: ([false, false] ++ (List.replicate 5 false ++ bitsOf (leBytes 2 octets.length ++
        (leBytes 2 (maxStored - octets.length) ++ (octets ++ tl))))) := by
    unfold storeBlock
    rw [List.cons_append, bitsOf_cons, hheader, List.append_assoc, List.append_assoc]
    rfl
  have hkind : takeNumber 2 ([false, false] ++ (List.replicate 5 false ++
      bitsOf (leBytes 2 octets.length ++ (leBytes 2 (maxStored - octets.length) ++
        (octets ++ tl))))) = .ok (0, _) := takeNumber_append [false, false] _
  have hblock := storedBlock_stored (w := List.replicate 5 false) (by decide) hlen out tl
  rw [hbits]
  conv_lhs => unfold blocksLoop
  rw [bind_eq (show takeBit (isFinal :: _) = .ok (isFinal, _) from rfl), bind_eq hkind]
  change (storedBlock out >>= _) _ = _
  rw [bind_eq hblock]
  cases isFinal <;> rfl

theorem blocksLoop_storeBlocks (window : ℕ) {full fuel : ℕ} (hfuel : full < fuel) {data : Bytes}
    (hlen : data.length ≤ (full + 1) * maxStored) (out tl : Bytes) :
    blocksLoop window fuel out (bitsOf (storeBlocks full data ++ tl)) =
      .ok (out ++ data, bitsOf tl) := by
  induction full generalizing fuel data out with
  | zero =>
    obtain ⟨fuel, rfl⟩ := Nat.exists_eq_add_one.mpr hfuel
    exact blocksLoop_storeBlock window fuel true (by omega) out tl
  | succ full ih =>
    obtain ⟨fuel, rfl⟩ := Nat.exists_eq_add_one.mpr ((Nat.zero_le _).trans_lt hfuel)
    have hrest : (data.drop maxStored).length ≤ (full + 1) * maxStored := by
      rw [List.length_drop, Nat.sub_le_iff_le_add]
      rwa [Nat.succ_mul] at hlen
    have hblock := blocksLoop_storeBlock window fuel false
      (List.length_take_le maxStored data) out (storeBlocks full (data.drop maxStored) ++ tl)
    rw [storeBlocks, List.append_assoc, hblock, if_neg (by simp),
      ih (by omega) hrest, List.append_assoc, List.take_append_drop]

theorem lt_storeBlocks_length (full : ℕ) (data : Bytes) :
    full < (storeBlocks full data).length := by
  induction full generalizing data with
  | zero => exact Nat.succ_pos _
  | succ full ih =>
    have := ih (data.drop maxStored)
    rw [storeBlocks, storeBlock, List.length_append, List.length_cons]
    omega

/-- What stands behind a stored stream is not read. -/
theorem inflateIn_store (window : ℕ) (data tl : Bytes) :
    inflateIn window (store data ++ tl) = .ok (data, tl) := by
  have hfuel : data.length / maxStored < (bitsOf (store data ++ tl)).length + 1 := by
    have := lt_storeBlocks_length (data.length / maxStored) data
    unfold store
    rw [bitsOf_length, List.length_append]
    omega
  have hlen : data.length ≤ (data.length / maxStored + 1) * maxStored :=
    (Nat.lt_div_mul_add (a := data.length) (b := maxStored) (by decide)).le.trans
      (Nat.succ_mul _ _).ge
  have hblocks : blocksLoop window ((bitsOf (store data ++ tl)).length + 1) []
      (bitsOf (store data ++ tl)) = .ok (data, bitsOf tl) :=
    blocksLoop_storeBlocks window hfuel hlen [] tl
  have hrest : (store data ++ tl).length - (bitsOf tl).length / 8 = (store data).length := by
    rw [bitsOf_length, List.length_append]
    omega
  unfold inflateIn
  rw [hblocks]
  change Except.ok (data, _) = _
  rw [hrest, List.drop_left]

theorem isStream_store (data : Bytes) : Deflate.IsStream (store data) data := by
  have h := inflateIn_store (2 ^ 15) data []
  rwa [List.append_nil] at h

end Deflate

namespace Zlib
open Octets Deflate

/-- The header with the largest window, a stored stream and the checksum. -/
def store (data : Bytes) : Bytes :=
  0x78 :: 0x01 :: (Deflate.store data ++ beBytes 4 (adler32 data))

theorem adler32_lt (data : Bytes) : adler32 data < 2 ^ 32 := by
  have hsums (f : ℕ × ℕ → UInt8 → ℕ × ℕ) (hf : ∀ s x, (f s x).1 < 65521 ∧ (f s x).2 < 65521) :
      (data.foldl f (1, 0)).2 * 2 ^ 16 + (data.foldl f (1, 0)).1 < 2 ^ 32 := by
    have hlast : (data.foldl f (1, 0)).1 < 65521 ∧ (data.foldl f (1, 0)).2 < 65521 :=
      List.foldlRecOn (motive := fun s => s.1 < 65521 ∧ s.2 < 65521) data f ⟨by decide, by decide⟩
        fun s _ x _ => hf s x
    omega
  unfold adler32
  exact hsums _ fun s x => ⟨Nat.mod_lt _ (by decide), Nat.mod_lt _ (by decide)⟩

theorem isStream_store (data : Bytes) : Zlib.IsStream (Zlib.store data) data := by
  have hbody := inflateIn_store (2 ^ ((0x78 : UInt8).toNat / 16 + 8)) data
    (beBytes 4 (adler32 data))
  have hcheck : beValue ((beBytes 4 (adler32 data)).take 4) = adler32 data := by
    rw [List.take_of_length_le (beBytes_length 4 _).le]
    exact beValue_beBytes_of_lt (n := 4) (adler32_lt data)
  unfold Zlib.IsStream Zlib.store Zlib.inflate
  dsimp only
  rw [if_pos (by decide), hbody]
  change (if (beBytes 4 (adler32 data)).length < 4 then Except.error Stop.truncated
    else if beValue ((beBytes 4 (adler32 data)).take 4) = adler32 data then
      Except.ok (data, (beBytes 4 (adler32 data)).drop 4)
    else Except.error Stop.corrupt) = Except.ok (data, [])
  rw [beBytes_length, if_neg (by decide), if_pos hcheck,
    List.drop_of_length_le (beBytes_length 4 _).le]

end Zlib
