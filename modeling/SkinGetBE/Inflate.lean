import SkinGetBE.Octets

/-!
# Reading compressed streams

The DEFLATE format, and the zlib format around it, as functions from octets to what
they stand for. A stream is read a bit at a time, the low bits of an octet first.
Reading stops where the octets end too early, and where they are no stream at all.
-/
namespace Deflate
open Octets

inductive Stop
  | truncated
  | corrupt
  deriving DecidableEq, Repr

abbrev Bits := List Bool

/-- Reads something off the bits that are left. -/
abbrev Reader := StateT Bits (Except Stop)

def octetBits (x : UInt8) : Bits := (List.range 8).map x.toNat.testBit

def bitsOf (octets : Bytes) : Bits := octets.flatMap octetBits

def stop {α : Type} (why : Stop) : Reader α := fun _ => .error why

def takeBit : Reader Bool
  | [] => .error .truncated
  | bit :: bits => .ok (bit, bits)

/-- A number of `n` bits, the low one first. -/
def takeNumber : ℕ → Reader ℕ
  | 0 => pure 0
  | n + 1 => do
    let bit ← takeBit
    let high ← takeNumber n
    pure (bit.toNat + 2 * high)

def takeOctets : ℕ → Reader Bytes
  | 0 => pure []
  | n + 1 => do
    let x ← takeNumber 8
    let octets ← takeOctets n
    pure (.ofNat x :: octets)

/-- Goes on to the next octet. -/
def align : Reader Unit := fun bits => .ok ((), bits.drop (bits.length % 8))

/-- The symbols whose codes have `len` bits, when the `s`-th length is the first one left. -/
def symbolsOf (len : ℕ) : ℕ → List ℕ → List ℕ
  | _, [] => []
  | s, l :: lengths => if l = len then s :: symbolsOf len (s + 1) lengths
    else symbolsOf len (s + 1) lengths

/-- The codes of one length are consecutive numbers, and follow those of the shorter ones. The
offset is that of the bits read so far among the codes of `len` bits. -/
def decodeLoop (lengths : List ℕ) : ℕ → ℕ → ℕ → Reader ℕ
  | 0, _, _ => stop .corrupt
  | n + 1, len, offset => do
    let bit ← takeBit
    let symbols := symbolsOf (len + 1) 0 lengths
    match symbols[2 * offset + bit.toNat]? with
    | some symbol => pure symbol
    | none => decodeLoop lengths n (len + 1) (2 * offset + bit.toNat - symbols.length)

def maxCodeLength : ℕ := 15

def decodeSymbol (lengths : List ℕ) : Reader ℕ := decodeLoop lengths maxCodeLength 0 0

/-- The part of all words of `maxCodeLength` bits that begin with a code. -/
def coveredWords (lengths : List ℕ) : ℕ :=
  (lengths.map fun l => if l = 0 then 0 else 2 ^ (maxCodeLength - l)).sum

def isComplete (lengths : List ℕ) : Bool := coveredWords lengths = 2 ^ maxCodeLength

/-- There is one code only, of one bit. -/
def isSingle (lengths : List ℕ) : Bool := lengths.filter (· ≠ 0) = [1]

def isUnused (lengths : List ℕ) : Bool := lengths.all (· = 0)

/-- The codes of a block: literals and lengths of copies, and distances. -/
structure Codes where
  literals : List ℕ
  distances : List ℕ

def fixedCodes : Codes where
  literals := List.replicate 144 8 ++ List.replicate 112 9 ++ List.replicate 24 7 ++
    List.replicate 8 8
  distances := List.replicate 32 5

/-- The order in which the lengths of the codes of lengths are written. -/
def lengthOrder : List ℕ := [16, 17, 18, 0, 8, 7, 9, 6, 10, 5, 11, 4, 12, 3, 13, 2, 14, 1, 15]

def takeNumbers (width : ℕ) : ℕ → Reader (List ℕ)
  | 0 => pure []
  | n + 1 => do
    let x ← takeNumber width
    let xs ← takeNumbers width n
    pure (x :: xs)

/-- A run of lengths behind the lengths so far: how many there are, and of what length. -/
def takeRun (codeLengths lengths : List ℕ) : Reader (ℕ × ℕ) := do
  let symbol ← decodeSymbol codeLengths
  if symbol < 16 then pure (1, symbol)
  else if symbol = 16 then do
    let more ← takeNumber 2
    match lengths.getLast? with
    | none => stop .corrupt
    | some last => pure (3 + more, last)
  else if symbol = 17 then do
    let more ← takeNumber 3
    pure (3 + more, 0)
  else do
    let more ← takeNumber 7
    pure (11 + more, 0)

/-- At most `fuel` more runs are read, up to `total` lengths in the end. -/
def takeLengths (codeLengths : List ℕ) (total : ℕ) : ℕ → List ℕ → Reader (List ℕ)
  | 0, lengths => if lengths.length = total then pure lengths else stop .corrupt
  | fuel + 1, lengths =>
    if lengths.length = total then pure lengths
    else do
      let (count, length) ← takeRun codeLengths lengths
      if lengths.length + count ≤ total then
        takeLengths codeLengths total fuel (lengths ++ List.replicate count length)
      else stop .corrupt

def dynamicCodes : Reader Codes := do
  let hlit ← takeNumber 5
  let hdist ← takeNumber 5
  let hclen ← takeNumber 4
  let written ← takeNumbers 3 (hclen + 4)
  let codeLengths := (List.range 19).map fun s => written.getD (lengthOrder.idxOf s) 0
  if hlit + 257 ≤ 286 ∧ isComplete codeLengths then do
    let total := hlit + 257 + (hdist + 1)
    let lengths ← takeLengths codeLengths total total []
    let literals := lengths.take (hlit + 257)
    let distances := lengths.drop (hlit + 257)
    if (isComplete literals || isSingle literals) &&
        (isComplete distances || isSingle distances || isUnused distances) then
      pure ⟨literals, distances⟩
    else stop .corrupt
  else stop .corrupt

/-- The least length of a symbol, and the bits that are added to it. -/
def lengthCodes : List (ℕ × ℕ) :=
  [(3, 0), (4, 0), (5, 0), (6, 0), (7, 0), (8, 0), (9, 0), (10, 0), (11, 1), (13, 1), (15, 1),
    (17, 1), (19, 2), (23, 2), (27, 2), (31, 2), (35, 3), (43, 3), (51, 3), (59, 3), (67, 4),
    (83, 4), (99, 4), (115, 4), (131, 5), (163, 5), (195, 5), (227, 5), (258, 0)]

def distanceCodes : List (ℕ × ℕ) :=
  [(1, 0), (2, 0), (3, 0), (4, 0), (5, 1), (7, 1), (9, 2), (13, 2), (17, 3), (25, 3), (33, 4),
    (49, 4), (65, 5), (97, 5), (129, 6), (193, 6), (257, 7), (385, 7), (513, 8), (769, 8),
    (1025, 9), (1537, 9), (2049, 10), (3073, 10), (4097, 11), (6145, 11), (8193, 12), (12289, 12),
    (16385, 13), (24577, 13)]

/-- Octets from `distance` back, each of which may be one that was copied before. -/
def copyBack (distance : ℕ) : ℕ → Bytes → Bytes
  | 0, out => out
  | n + 1, out => copyBack distance n (out ++ [out.getD (out.length - distance) 0])

/-- The number that a symbol of a table stands for, with its further bits. -/
def takeExtended (table : List (ℕ × ℕ)) (symbol : ℕ) : Reader ℕ :=
  match table[symbol]? with
  | none => stop .corrupt
  | some (least, extra) => do
    let more ← takeNumber extra
    pure (least + more)

/-- At most `fuel` more symbols are read. -/
def blockLoop (codes : Codes) (window : ℕ) : ℕ → Bytes → Reader Bytes
  | 0, _ => stop .truncated
  | fuel + 1, out => do
    let symbol ← decodeSymbol codes.literals
    if symbol < 256 then blockLoop codes window fuel (out ++ [.ofNat symbol])
    else if symbol = 256 then pure out
    else do
      let length ← takeExtended lengthCodes (symbol - 257)
      let code ← decodeSymbol codes.distances
      let distance ← takeExtended distanceCodes code
      if distance ≤ out.length ∧ distance ≤ window then
        blockLoop codes window fuel (copyBack distance length out)
      else stop .corrupt

def codedBlock (codes : Codes) (window : ℕ) (out : Bytes) : Reader Bytes := do
  let bits ← get
  blockLoop codes window (bits.length + 1) out

def storedBlock (out : Bytes) : Reader Bytes := do
  align
  let len ← takeNumber 16
  let nlen ← takeNumber 16
  if len + nlen = 2 ^ 16 - 1 then do
    let octets ← takeOctets len
    pure (out ++ octets)
  else stop .corrupt

def block (window kind : ℕ) (out : Bytes) : Reader Bytes :=
  match kind with
  | 0 => storedBlock out
  | 1 => codedBlock fixedCodes window out
  | 2 => do
    let codes ← dynamicCodes
    codedBlock codes window out
  | _ => stop .corrupt

/-- At most `fuel` more blocks are read. -/
def blocksLoop (window : ℕ) : ℕ → Bytes → Reader Bytes
  | 0, _ => stop .truncated
  | fuel + 1, out => do
    let isFinal ← takeBit
    let kind ← takeNumber 2
    let out ← block window kind out
    if isFinal then pure out else blocksLoop window fuel out

/-- What the octets stand for, and the octets behind the stream. -/
def inflateIn (window : ℕ) (octets : Bytes) : Except Stop (Bytes × Bytes) := do
  let (out, bits) ← blocksLoop window ((bitsOf octets).length + 1) [] (bitsOf octets)
  .ok (out, octets.drop (octets.length - bits.length / 8))

def inflate : Bytes → Except Stop (Bytes × Bytes) := inflateIn (2 ^ 15)

/-- A stream that stands for `data`. -/
def IsStream (octets data : Bytes) : Prop := inflate octets = .ok (data, [])

def IsCorrupt (octets : Bytes) : Prop := inflate octets = .error .corrupt

section Steps
variable {α β : Type}

/-- A sequence of two reads that is read to its end was read to the end twice. -/
theorem bind_ok {r : Reader α} {f : α → Reader β} {bits bits'' : Bits} {b : β}
    (h : (r >>= f) bits = .ok (b, bits'')) :
    ∃ a bits', r bits = .ok (a, bits') ∧ f a bits' = .ok (b, bits'') := by
  change (r bits >>= fun p => f p.1 p.2) = .ok (b, bits'') at h
  cases hr : r bits with
  | error e =>
    rw [hr] at h
    cases h
  | ok p =>
    rw [hr] at h
    exact ⟨p.1, p.2, rfl, h⟩

theorem bind_eq {r : Reader α} {f : α → Reader β} {bits bits' : Bits} {a : α}
    (h : r bits = .ok (a, bits')) : (r >>= f) bits = f a bits' := by
  change (r bits >>= fun p => f p.1 p.2) = f a bits'
  rw [h]
  rfl

theorem bind_stop {r : Reader α} {f : α → Reader β} {bits : Bits} {why : Stop}
    (h : r bits = .error why) : (r >>= f) bits = .error why := by
  change (r bits >>= fun p => f p.1 p.2) = .error why
  rw [h]
  rfl

theorem pure_ok {a b : α} {bits bits' : Bits} (h : (pure a : Reader α) bits = .ok (b, bits')) :
    a = b ∧ bits = bits' := by
  cases h
  exact ⟨rfl, rfl⟩

theorem not_stop {why : Stop} {a : α} {bits bits' : Bits}
    (h : (stop why : Reader α) bits = .ok (a, bits')) : False := by
  cases h

/-- At least `k` bits are read. -/
def Takes (k : ℕ) (r : Reader α) : Prop :=
  ∀ bits a bits', r bits = .ok (a, bits') → bits'.length + k ≤ bits.length

theorem Takes.mono {k l : ℕ} {r : Reader α} (h : Takes k r) (hl : l ≤ k) : Takes l r :=
  fun bits a bits' hr => (Nat.add_le_add_left hl _).trans (h bits a bits' hr)

theorem takes_pure (a : α) : Takes 0 (pure a : Reader α) := by
  intro bits b bits' h
  rw [(pure_ok h).2, Nat.add_zero]

theorem takes_stop (k : ℕ) (why : Stop) : Takes k (stop why : Reader α) :=
  fun _ _ _ h => (not_stop h).elim

theorem Takes.bind {k l : ℕ} {r : Reader α} {f : α → Reader β} (hr : Takes k r)
    (hf : ∀ a, Takes l (f a)) : Takes (k + l) (r >>= f) := by
  intro bits b bits'' h
  obtain ⟨a, bits', hfirst, hnext⟩ := bind_ok h
  have h₁ := hr _ _ _ hfirst
  have h₂ := hf a _ _ _ hnext
  omega

theorem takeBit_takes : Takes 1 takeBit := by
  intro bits a bits' h
  cases bits with
  | nil => cases h
  | cons bit bits =>
    cases h
    exact le_rfl

theorem takeNumber_takes (n : ℕ) : Takes n (takeNumber n) := by
  induction n with
  | zero => exact takes_pure 0
  | succ n ih =>
    have h := takeBit_takes.bind fun bit => ih.bind fun high =>
      takes_pure (bit.toNat + 2 * high)
    exact h.mono (by omega)

theorem takeOctets_takes (n : ℕ) : Takes (8 * n) (takeOctets n) := by
  induction n with
  | zero => exact takes_pure []
  | succ n ih =>
    have h := (takeNumber_takes 8).bind fun x => ih.bind fun octets =>
      takes_pure (UInt8.ofNat x :: octets)
    exact h.mono (by omega)

theorem align_takes : Takes 0 align := by
  intro bits a bits' h
  cases h
  rw [List.length_drop]
  omega

theorem decodeLoop_takes (lengths : List ℕ) (n len offset : ℕ) :
    Takes 1 (decodeLoop lengths n len offset) := by
  induction n generalizing len offset with
  | zero => exact takes_stop 1 .corrupt
  | succ n ih =>
    refine takeBit_takes.bind (l := 0) fun bit => ?_
    dsimp only
    split
    · exact takes_pure _
    · exact (ih _ _).mono (Nat.zero_le 1)

theorem decodeSymbol_takes (lengths : List ℕ) : Takes 1 (decodeSymbol lengths) :=
  decodeLoop_takes lengths maxCodeLength 0 0

theorem takeNumbers_takes (width n : ℕ) : Takes 0 (takeNumbers width n) := by
  induction n with
  | zero => exact takes_pure []
  | succ n ih =>
    have h := (takeNumber_takes width).bind fun x => ih.bind fun xs => takes_pure (x :: xs)
    exact h.mono (Nat.zero_le _)

theorem takeRun_takes (codeLengths lengths : List ℕ) : Takes 0 (takeRun codeLengths lengths) := by
  have hmore (n : ℕ) (f : ℕ → ℕ × ℕ) : Takes 0 (takeNumber n >>= fun more => pure (f more)) :=
    ((takeNumber_takes n).bind fun more => takes_pure (f more)).mono (Nat.zero_le _)
  refine ((decodeSymbol_takes codeLengths).bind (l := 0) fun symbol => ?_).mono (Nat.zero_le _)
  split_ifs
  · exact takes_pure _
  · refine ((takeNumber_takes 2).bind (l := 0) fun more => ?_).mono (Nat.zero_le _)
    split
    · exact takes_stop 0 .corrupt
    · exact takes_pure _
  · exact hmore 3 _
  · exact hmore 7 _

theorem takeLengths_takes (codeLengths : List ℕ) (total fuel : ℕ) (lengths : List ℕ) :
    Takes 0 (takeLengths codeLengths total fuel lengths) := by
  induction fuel generalizing lengths with
  | zero =>
    unfold takeLengths
    split_ifs
    · exact takes_pure _
    · exact takes_stop 0 .corrupt
  | succ fuel ih =>
    unfold takeLengths
    split_ifs
    · exact takes_pure _
    · refine (takeRun_takes codeLengths lengths).bind (l := 0) fun run => ?_
      dsimp only
      split_ifs
      · exact ih _
      · exact takes_stop 0 .corrupt

theorem dynamicCodes_takes : Takes 0 dynamicCodes := by
  refine ((takeNumber_takes 5).bind (l := 0) fun hlit => ?_).mono (Nat.zero_le _)
  refine ((takeNumber_takes 5).bind (l := 0) fun hdist => ?_).mono (Nat.zero_le _)
  refine ((takeNumber_takes 4).bind (l := 0) fun hclen => ?_).mono (Nat.zero_le _)
  refine (takeNumbers_takes 3 (hclen + 4)).bind (l := 0) fun written => ?_
  dsimp only
  split_ifs
  · refine (takeLengths_takes _ _ _ _).bind (l := 0) fun lengths => ?_
    split_ifs
    · exact takes_pure _
    · exact takes_stop 0 .corrupt
  · exact takes_stop 0 .corrupt

theorem takeNumber_lt {n : ℕ} {bits bits' : Bits} {v : ℕ} (h : takeNumber n bits = .ok (v, bits')) :
    v < 2 ^ n := by
  induction n generalizing bits bits' v with
  | zero =>
    rw [← (pure_ok h).1]
    decide
  | succ n ih =>
    obtain ⟨bit, bits₁, -, h⟩ := bind_ok h
    obtain ⟨high, bits₂, hhigh, h⟩ := bind_ok h
    have hlt := ih hhigh
    have hbit := bit.toNat_lt
    rw [← (pure_ok h).1, pow_succ]
    omega

theorem takeExtended_takes (table : List (ℕ × ℕ)) (symbol : ℕ) :
    Takes 0 (takeExtended table symbol) := by
  unfold takeExtended
  split
  · exact takes_stop 0 .corrupt
  · exact ((takeNumber_takes _).bind fun more => takes_pure _).mono (Nat.zero_le _)

/-- No copy is longer than 258 octets. -/
theorem takeExtended_lengthCodes {symbol length : ℕ} {bits bits' : Bits}
    (h : takeExtended lengthCodes symbol bits = .ok (length, bits')) : length ≤ 258 := by
  have htable : ∀ p ∈ lengthCodes, p.1 + 2 ^ p.2 ≤ 259 := by decide
  unfold takeExtended at h
  cases hentry : lengthCodes[symbol]? with
  | none =>
    rw [hentry] at h
    exact (not_stop h).elim
  | some entry =>
    rw [hentry] at h
    obtain ⟨more, bits₁, hmore, h⟩ := bind_ok h
    have hlt := takeNumber_lt hmore
    have hle := htable _ (List.mem_of_getElem? hentry)
    rw [← (pure_ok h).1]
    omega

theorem copyBack_length (distance n : ℕ) (out : Bytes) :
    (copyBack distance n out).length = out.length + n := by
  induction n generalizing out with
  | zero => rfl
  | succ n ih =>
    rw [copyBack, ih, List.length_append, List.length_singleton]
    omega

/-- The octets that are put behind `size` octets are at most 258 for each bit that is read. -/
def Within (size : ℕ) (r : Reader Bytes) : Prop :=
  ∀ bits out bits', r bits = .ok (out, bits') →
    out.length + 258 * bits'.length ≤ size + 258 * bits.length

theorem within_pure (out : Bytes) : Within out.length (pure out) := by
  intro bits out' bits' h
  rw [(pure_ok h).1, (pure_ok h).2]

theorem within_stop (size : ℕ) (why : Stop) : Within size (stop why) :=
  fun _ _ _ h => (not_stop h).elim

/-- What comes first makes room for what comes after it. -/
theorem Takes.within_of {k size : ℕ} {r : Reader α} {f : α → Reader Bytes} {P : α → Prop}
    (hr : Takes k r) (hP : ∀ bits a bits', r bits = .ok (a, bits') → P a)
    (hf : ∀ a, P a → Within (size + 258 * k) (f a)) : Within size (r >>= f) := by
  intro bits out bits'' h
  obtain ⟨a, bits', hfirst, hnext⟩ := bind_ok h
  have h₁ := hr _ _ _ hfirst
  have h₂ := hf a (hP _ _ _ hfirst) _ _ _ hnext
  omega

theorem Takes.within {k size : ℕ} {r : Reader α} {f : α → Reader Bytes} (hr : Takes k r)
    (hf : ∀ a, Within (size + 258 * k) (f a)) : Within size (r >>= f) :=
  hr.within_of (fun _ _ _ _ => trivial) fun a _ => hf a

theorem Within.mono {size size' : ℕ} {r : Reader Bytes} (h : Within size r) (hle : size ≤ size') :
    Within size' r :=
  fun bits out bits' hr => (h bits out bits' hr).trans (Nat.add_le_add_right hle _)

theorem takeOctets_length {n : ℕ} {bits bits' : Bits} {octets : Bytes}
    (h : takeOctets n bits = .ok (octets, bits')) : octets.length = n := by
  induction n generalizing bits bits' octets with
  | zero =>
    rw [← (pure_ok h).1]
    rfl
  | succ n ih =>
    obtain ⟨x, bits₁, -, h⟩ := bind_ok h
    obtain ⟨tl, bits₂, htl, h⟩ := bind_ok h
    rw [← (pure_ok h).1, List.length_cons, ih htl]

theorem storedBlock_within (out : Bytes) : Within out.length (storedBlock out) := by
  refine align_takes.within fun _ => ?_
  refine (takeNumber_takes 16).within fun len => ?_
  refine (takeNumber_takes 16).within fun nlen => ?_
  split_ifs
  · refine (takeOctets_takes len).within_of (fun _ _ _ => takeOctets_length) fun octets hlen => ?_
    refine (within_pure _).mono ?_
    rw [List.length_append]
    omega
  · exact within_stop _ .corrupt

theorem blockLoop_within (codes : Codes) (window fuel : ℕ) (out : Bytes) :
    Within out.length (blockLoop codes window fuel out) := by
  induction fuel generalizing out with
  | zero => exact within_stop _ .truncated
  | succ fuel ih =>
    refine (decodeSymbol_takes codes.literals).within fun symbol => ?_
    split_ifs
    · refine (ih _).mono ?_
      rw [List.length_append, List.length_singleton]
      omega
    · exact (within_pure out).mono (Nat.le_add_right _ _)
    · refine (takeExtended_takes lengthCodes _).within_of (fun _ _ _ => takeExtended_lengthCodes)
        fun length hshort => ?_
      refine (decodeSymbol_takes codes.distances).within fun code => ?_
      refine (takeExtended_takes distanceCodes code).within fun distance => ?_
      split_ifs
      · refine (ih _).mono ?_
        rw [copyBack_length]
        omega
      · exact within_stop _ .corrupt

theorem codedBlock_within (codes : Codes) (window : ℕ) (out : Bytes) :
    Within out.length (codedBlock codes window out) :=
  fun bits out' bits' h => blockLoop_within codes window (bits.length + 1) out bits out' bits' h

theorem block_within (window kind : ℕ) (out : Bytes) :
    Within out.length (block window kind out) := by
  unfold block
  split
  · exact storedBlock_within out
  · exact codedBlock_within fixedCodes window out
  · exact dynamicCodes_takes.within fun codes => codedBlock_within codes window out
  · exact within_stop _ .corrupt

theorem blocksLoop_within (window fuel : ℕ) (out : Bytes) :
    Within out.length (blocksLoop window fuel out) := by
  induction fuel generalizing out with
  | zero => exact within_stop _ .truncated
  | succ fuel ih =>
    refine takeBit_takes.within fun isFinal => ?_
    refine (takeNumber_takes 2).within fun kind => ?_
    intro bits out'' bits'' h
    obtain ⟨out', bits', hblock, h⟩ := bind_ok h
    have hsize := block_within window kind out _ _ _ hblock
    cases isFinal with
    | true =>
      rw [← (pure_ok h).1, ← (pure_ok h).2]
      omega
    | false =>
      have hrest := ih out' _ _ _ h
      omega

end Steps

def bitsValue : Bits → ℕ
  | [] => 0
  | bit :: bits => bit.toNat + 2 * bitsValue bits

theorem takeNumber_append (w bits : Bits) :
    takeNumber w.length (w ++ bits) = .ok (bitsValue w, bits) := by
  induction w with
  | nil => rfl
  | cons bit w ih =>
    have hbit : takeBit (bit :: (w ++ bits)) = .ok (bit, w ++ bits) := rfl
    rw [List.length_cons, takeNumber, List.cons_append, bind_eq hbit, bind_eq ih]
    rfl

theorem bitsValue_append (v w : Bits) :
    bitsValue (v ++ w) = bitsValue v + 2 ^ v.length * bitsValue w := by
  induction v with
  | nil => simp [bitsValue]
  | cons bit v ih =>
    rw [List.cons_append, bitsValue, ih, bitsValue, List.length_cons, pow_succ]
    ring

theorem octetBits_length (x : UInt8) : (octetBits x).length = 8 := by simp [octetBits]

theorem bitsValue_octetBits (x : UInt8) : bitsValue (octetBits x) = x.toNat := by
  have key : ∀ n < 256, bitsValue ((List.range 8).map n.testBit) = n := by decide +kernel
  exact key x.toNat x.toNat_lt

@[simp] theorem bitsOf_nil : bitsOf [] = [] := rfl

theorem bitsOf_cons (x : UInt8) (octets : Bytes) :
    bitsOf (x :: octets) = octetBits x ++ bitsOf octets := rfl

theorem bitsOf_append (w tl : Bytes) : bitsOf (w ++ tl) = bitsOf w ++ bitsOf tl :=
  List.flatMap_append

theorem bitsOf_length (octets : Bytes) : (bitsOf octets).length = 8 * octets.length := by
  induction octets with
  | nil => rfl
  | cons x octets ih =>
    rw [bitsOf_cons, List.length_append, octetBits_length, ih, List.length_cons]
    omega

theorem bitsValue_bitsOf (octets : Bytes) : bitsValue (bitsOf octets) = leValue octets := by
  induction octets with
  | nil => rfl
  | cons x octets ih =>
    rw [bitsOf_cons, bitsValue_append, bitsValue_octetBits, octetBits_length, ih]
    rfl

theorem takeNumber_octets (w tl : Bytes) :
    takeNumber (8 * w.length) (bitsOf (w ++ tl)) = .ok (leValue w, bitsOf tl) := by
  rw [bitsOf_append, ← bitsOf_length, takeNumber_append, bitsValue_bitsOf]

/-- The bits that are left of an octet are skipped. -/
theorem align_octets {w : Bits} (hw : w.length < 8) (octets : Bytes) :
    align (w ++ bitsOf octets) = .ok ((), bitsOf octets) := by
  have hmod : (w ++ bitsOf octets).length % 8 = w.length := by
    rw [List.length_append, bitsOf_length]
    omega
  unfold align
  rw [hmod, List.drop_left]

theorem inflateIn_blocks {window : ℕ} {octets out rest : Bytes}
    (h : inflateIn window octets = .ok (out, rest)) : ∃ bits,
      blocksLoop window ((bitsOf octets).length + 1) [] (bitsOf octets) = .ok (out, bits) ∧
      rest = octets.drop (octets.length - bits.length / 8) := by
  unfold inflateIn at h
  cases hblocks : blocksLoop window ((bitsOf octets).length + 1) [] (bitsOf octets) with
  | error e =>
    rw [hblocks] at h
    cases h
  | ok p =>
    rw [hblocks] at h
    cases h
    exact ⟨p.2, rfl, rfl⟩

/-- The octets behind a stream are the last ones. -/
theorem inflateIn_rest {window : ℕ} {octets out rest : Bytes}
    (h : inflateIn window octets = .ok (out, rest)) :
    rest = octets.drop (octets.length - rest.length) := by
  obtain ⟨bits, -, rfl⟩ := inflateIn_blocks h
  rw [List.length_drop]
  congr 1
  omega

theorem inflateIn_length {window : ℕ} {octets out rest : Bytes}
    (h : inflateIn window octets = .ok (out, rest)) : out.length ≤ 2064 * octets.length := by
  obtain ⟨bits, hblocks, -⟩ := inflateIn_blocks h
  have hsize := blocksLoop_within _ _ _ _ _ _ hblocks
  rw [bitsOf_length, List.length_nil] at hsize
  omega

/-- A block of the kind that is not used begins with these octets only. -/
theorem inflateIn_reserved (window : ℕ) (octets : Bytes) :
    inflateIn window (0xff :: octets) = .error .corrupt := rfl

/-- The octets of a stored block must come behind their number and its complement. -/
theorem inflateIn_stored_corrupt (window : ℕ) {x a b c d : UInt8} (tl : Bytes)
    (hx : x.toNat % 8 = 0) (hlen : leValue [a, b] + leValue [c, d] ≠ 2 ^ 16 - 1) :
    inflateIn window (x :: a :: b :: c :: d :: tl) = .error .corrupt := by
  have key : ∀ n < 256, n % 8 = 0 → (List.range 8).map n.testBit =
      false :: false :: false :: ((List.range 8).map n.testBit).drop 3 := by decide +kernel
  have hbits : octetBits x = false :: false :: false :: (octetBits x).drop 3 :=
    key x.toNat x.toNat_lt hx
  have hrest : ((octetBits x).drop 3).length < 8 := by
    rw [List.length_drop, octetBits_length]
    decide
  have hstored : storedBlock [] ((octetBits x).drop 3 ++ bitsOf (a :: b :: c :: d :: tl)) =
      .error .corrupt := by
    have hfirst : takeNumber 16 (bitsOf (a :: b :: c :: d :: tl)) =
        .ok (leValue [a, b], bitsOf (c :: d :: tl)) := takeNumber_octets [a, b] (c :: d :: tl)
    have hsecond : takeNumber 16 (bitsOf (c :: d :: tl)) = .ok (leValue [c, d], bitsOf tl) :=
      takeNumber_octets [c, d] tl
    unfold storedBlock
    rw [bind_eq (align_octets hrest _), bind_eq hfirst, bind_eq hsecond, if_neg hlen]
    rfl
  have hblock (fuel : ℕ) : blocksLoop window (fuel + 1) []
      (bitsOf (x :: a :: b :: c :: d :: tl)) = .error .corrupt := by
    have hall : bitsOf (x :: a :: b :: c :: d :: tl) = false :: false :: false ::
        ((octetBits x).drop 3 ++ bitsOf (a :: b :: c :: d :: tl)) := by
      rw [bitsOf_cons, hbits]
      rfl
    have hfinal : takeBit (bitsOf (x :: a :: b :: c :: d :: tl)) = .ok (false, false :: false ::
        ((octetBits x).drop 3 ++ bitsOf (a :: b :: c :: d :: tl))) := by
      rw [hall]
      rfl
    have hkind : takeNumber 2 (false :: false ::
        ((octetBits x).drop 3 ++ bitsOf (a :: b :: c :: d :: tl))) =
        .ok (0, (octetBits x).drop 3 ++ bitsOf (a :: b :: c :: d :: tl)) :=
      takeNumber_append [false, false] _
    unfold blocksLoop
    rw [bind_eq hfinal, bind_eq hkind]
    exact bind_stop hstored
  unfold inflateIn
  rw [hblock]
  rfl

end Deflate

namespace Zlib
open Octets Deflate

def adler32 (data : Bytes) : ℕ :=
  let (a, b) := data.foldl (fun (a, b) x =>
    ((a + x.toNat) % 65521, (b + (a + x.toNat) % 65521) % 65521)) (1, 0)
  b * 2 ^ 16 + a

/-- The method is DEFLATE, the window has a size, the check bits are right, and there is no
dictionary. -/
def isHeader (cmf flg : ℕ) : Bool :=
  cmf % 16 = 8 && cmf / 16 ≤ 7 && (cmf * 256 + flg) % 31 = 0 && !flg.testBit 5

def inflate : Bytes → Except Stop (Bytes × Bytes)
  | cmf :: flg :: octets =>
    if isHeader cmf.toNat flg.toNat then do
      let (out, rest) ← inflateIn (2 ^ (cmf.toNat / 16 + 8)) octets
      if rest.length < 4 then .error .truncated
      else if beValue (rest.take 4) = adler32 out then .ok (out, rest.drop 4)
      else .error .corrupt
    else .error .corrupt
  | _ => .error .truncated

def IsStream (octets data : Bytes) : Prop := Zlib.inflate octets = .ok (data, [])

/-- The header, the DEFLATE stream and the checksum. -/
theorem inflate_ok {octets data rest : Bytes} (h : Zlib.inflate octets = .ok (data, rest)) :
    ∃ cmf flg body trailer, octets = cmf :: flg :: body ∧ isHeader cmf.toNat flg.toNat = true ∧
      inflateIn (2 ^ (cmf.toNat / 16 + 8)) body = .ok (data, trailer) ∧ 4 ≤ trailer.length ∧
      beValue (trailer.take 4) = adler32 data ∧ rest = trailer.drop 4 := by
  unfold Zlib.inflate at h
  split at h
  · next cmf flg body =>
    split_ifs at h with hheader
    cases hbody : inflateIn (2 ^ (cmf.toNat / 16 + 8)) body with
    | error e =>
      rw [hbody] at h
      cases h
    | ok p =>
      rw [hbody] at h
      change (if p.2.length < 4 then _ else _) = _ at h
      split_ifs at h with hshort hcheck
      cases h
      exact ⟨cmf, flg, body, p.2, rfl, hheader, hbody, by omega, hcheck, rfl⟩
  · cases h

theorem inflate_length {octets data rest : Bytes} (h : Zlib.inflate octets = .ok (data, rest)) :
    data.length ≤ 2064 * octets.length := by
  obtain ⟨cmf, flg, body, trailer, rfl, -, hbody, -⟩ := inflate_ok h
  have hsize := inflateIn_length hbody
  rw [List.length_cons, List.length_cons]
  omega

/-- The octets of a stream begin with the method of its header, and there are more than four. -/
theorem IsStream.front {octets data : Bytes} (h : IsStream octets data) :
    ∃ x a b c d tl, octets = x :: a :: b :: c :: d :: tl ∧ x.toNat % 16 = 8 := by
  obtain ⟨cmf, flg, body, trailer, rfl, hheader, hbody, htrailer, -⟩ := inflate_ok h
  have hmethod : cmf.toNat % 16 = 8 := by
    unfold isHeader at hheader
    simp only [Bool.and_eq_true, decide_eq_true_eq] at hheader
    exact hheader.1.1.1
  have hbehind := inflateIn_rest hbody
  have hlen := congrArg List.length hbehind
  rw [List.length_drop] at hlen
  have hbody : 4 ≤ body.length := by omega
  match body, hbody with
  | b :: c :: d :: tl, _ => exact ⟨cmf, flg, b, c, d, tl, rfl, hmethod⟩

end Zlib
