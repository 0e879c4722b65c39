import SkinGetBE.MachineWord
import SkinGetBE.Octets
import SkinGetBE.Text

/-!
# The external address in a STUN response

A response is a header of twenty octets and a list of attributes, each with its type,
its length and a value that is padded to a multiple of four octets. The walk over the
attributes stops at the first that carries an IPv4 address.

An index outside the packet is a fault, and so is a loop that goes on for more rounds
than the packet has octets. Offsets are natural numbers: no slice in memory is long
enough for a sum of two of them to leave its word.
-/
namespace SkinGetBE.StunClient
open Octets Text Machine

def u16At (packet : Bytes) (offset : ℕ) : Run ℕ := do
  let high ← index packet offset
  let low ← index packet (offset + 1)
  .ok (beValue [high, low])

def u32At (packet : Bytes) (offset : ℕ) : Run ℕ := do
  let a ← index packet offset
  let b ← index packet (offset + 1)
  let c ← index packet (offset + 2)
  let d ← index packet (offset + 3)
  .ok (beValue [a, b, c, d])

/-- The format `{}.{}.{}.{}`. -/
def dotted (a b c d : ℕ) : Str := s!"{a}.{b}.{c}.{d}".toList

def xorMappedAddress (packet : Bytes) (attrType attrLength offset : ℕ) : Run (Option Str) :=
  if attrType = 0x0020 ∧ attrLength ≥ 8 then do
    let family ← index packet (offset + 1)
    if family = 0x01 then
      let word ← u32At packet (offset + 4)
      let ip := word ^^^ 0x2112A442
      .ok (some (dotted ((ip >>> 24) &&& 0xFF) ((ip >>> 16) &&& 0xFF) ((ip >>> 8) &&& 0xFF)
        (ip &&& 0xFF)))
    else .ok none
  else .ok none

def mappedAddress (packet : Bytes) (attrType attrLength offset : ℕ) : Run (Option Str) :=
  if attrType = 0x0001 ∧ attrLength ≥ 8 then do
    let family ← index packet (offset + 1)
    if family = 0x01 then
      let a ← index packet (offset + 4)
      let b ← index packet (offset + 5)
      let c ← index packet (offset + 6)
      let d ← index packet (offset + 7)
      .ok (some (dotted a.toNat b.toNat c.toNat d.toNat))
    else .ok none
  else .ok none

/-- The loop over the attributes. The mask of the last line is `!3` in a word of 64 bits. -/
def parseAttributes (packet : Bytes) : ℕ → ℕ → Run (Option Str)
  | 0, _ => .error .rounds
  | fuel + 1, offset =>
    if offset < packet.length then
      if offset + 4 > packet.length then .ok none
      else do
        let attrType ← u16At packet offset
        let attrLength ← u16At packet (offset + 2)
        let offset := offset + 4
        if offset + attrLength > packet.length then .ok none
        else
          match ← xorMappedAddress packet attrType attrLength offset with
          | some mapped => .ok (some mapped)
          | none =>
            match ← mappedAddress packet attrType attrLength offset with
            | some mapped => .ok (some mapped)
            | none =>
              parseAttributes packet fuel (offset + ((attrLength + 3) &&& 0xFFFFFFFFFFFFFFFC))
    else .ok none

def magicCookie : Bytes := [0x21, 0x12, 0xa4, 0x42]

def parseStunResponse (packet : Bytes) : Run (Option Str) :=
  if packet.length < 20 then .ok none
  else do
    let cookie ← range packet 4 8
    if cookie ≠ magicCookie then .ok none
    else parseAttributes packet (packet.length + 1) 20

structure Attribute where
  type : ℕ
  value : Bytes
  type_lt : type < 2 ^ 16
  value_lt : value.length < 2 ^ 16

/-- The octets that fill the last word of a value. -/
def paddingOf (count : ℕ) : ℕ := (4 - count % 4) % 4

def Attribute.header (a : Attribute) : Bytes := beBytes 2 a.type ++ beBytes 2 a.value.length

/-- MAPPED-ADDRESS has type 1 and XOR-MAPPED-ADDRESS type 32, whose address is masked with the
cookie. Octet 1 of the value names the family, and octets 4 to 7 are the address. -/
def addressIn (type : ℕ) (value : Bytes) : Option Str :=
  if 8 ≤ value.length ∧ value.getD 1 0 = 1 then
    let a := value.getD 4 0
    let b := value.getD 5 0
    let c := value.getD 6 0
    let d := value.getD 7 0
    if type = 0x0001 then some (dotted a.toNat b.toNat c.toNat d.toNat)
    else if type = 0x0020 then
      some (dotted (a ^^^ 0x21).toNat (b ^^^ 0x12).toNat (c ^^^ 0xa4).toNat (d ^^^ 0x42).toNat)
    else none
  else none

def Attribute.address (a : Attribute) : Option Str := addressIn a.type a.value

/-- Attributes as they stand in a response. The octets of the padding are arbitrary, and the last
attribute may have a part of it. -/
inductive Written : List Attribute → Bytes → Prop
  | nil : Written [] []
  | last (a : Attribute) (pad : Bytes) : pad.length ≤ paddingOf a.value.length →
      Written [a] (a.header ++ a.value ++ pad)
  | cons (a : Attribute) (pad : Bytes) {rest : List Attribute} {body : Bytes} :
      pad.length = paddingOf a.value.length → Written rest body →
      Written (a :: rest) (a.header ++ a.value ++ pad ++ body)

theorem index_getD {packet : Bytes} {i : ℕ} (h : i < packet.length) :
    index packet i = .ok (packet.getD i 0) := by
  rw [index_eq h, List.getD_eq_getElem?_getD, List.getElem?_eq_getElem h]
  rfl

/-- Octet `i` of a value, in the packet and in the value. -/
theorem getD_value (packet : Bytes) (offset : ℕ) {i n : ℕ} (h : i < n) :
    ((packet.drop offset).take n).getD i 0 = packet.getD (offset + i) 0 := by
  simp [List.getD_eq_getElem?_getD, h, List.getElem?_drop]

/-- The two octets at `offset` as a number. -/
def fieldAt (packet : Bytes) (offset : ℕ) : ℕ := beValue ((packet.drop offset).take 2)

theorem fieldAt_lt (packet : Bytes) (offset : ℕ) : fieldAt packet offset < 2 ^ 16 := by
  have hlt := leValue_lt ((packet.drop offset).take 2).reverse
  have hle : 256 ^ ((packet.drop offset).take 2).reverse.length ≤ 256 ^ 2 :=
    Nat.pow_le_pow_right (by decide) (by simp)
  exact hlt.trans_le hle

theorem u16At_eq {packet : Bytes} {offset : ℕ} (h : offset + 2 ≤ packet.length) :
    u16At packet offset = .ok (fieldAt packet offset) := by
  unfold u16At fieldAt
  rw [index_eq (show offset < packet.length by omega),
    index_eq (show offset + 1 < packet.length by omega),
    List.drop_eq_getElem_cons (show offset < packet.length by omega),
    List.drop_eq_getElem_cons (show offset + 1 < packet.length by omega)]
  rfl

theorem u32At_eq {packet : Bytes} {offset : ℕ} (h : offset + 4 ≤ packet.length) :
    u32At packet offset = .ok (beValue [packet.getD offset 0, packet.getD (offset + 1) 0,
      packet.getD (offset + 2) 0, packet.getD (offset + 3) 0]) := by
  unfold u32At
  rw [index_getD (by omega), index_getD (by omega), index_getD (by omega), index_getD (by omega)]
  rfl

/-- The last octet of the shifted word. -/
theorem octet_xor (word cookie count : ℕ) :
    ((word ^^^ cookie) >>> count) &&& 0xFF =
      (word / 2 ^ count % 2 ^ 8) ^^^ (cookie / 2 ^ count % 2 ^ 8) := by
  rw [and_255, Nat.shiftRight_xor_distrib, Nat.shiftRight_eq_div_pow, Nat.shiftRight_eq_div_pow,
    show 256 = 2 ^ 8 from rfl, Nat.xor_mod_two_pow]

theorem dotted_xor (a b c d : UInt8) :
    let ip := beValue [a, b, c, d] ^^^ 0x2112A442
    dotted ((ip >>> 24) &&& 0xFF) ((ip >>> 16) &&& 0xFF) ((ip >>> 8) &&& 0xFF) (ip &&& 0xFF) =
      dotted (a ^^^ 0x21).toNat (b ^^^ 0x12).toNat (c ^^^ 0xa4).toNat (d ^^^ 0x42).toNat := by
  have ha := a.toNat_lt
  have hb := b.toNat_lt
  have hc := c.toNat_lt
  have hd := d.toNat_lt
  have hword : beValue [a, b, c, d] =
      d.toNat + 256 * (c.toNat + 256 * (b.toNat + 256 * a.toNat)) := rfl
  have hlow := octet_xor (beValue [a, b, c, d]) 0x2112A442 0
  rw [Nat.shiftRight_zero] at hlow
  dsimp only
  rw [octet_xor, octet_xor, octet_xor, hlow, UInt8.toNat_xor, UInt8.toNat_xor, UInt8.toNat_xor,
    UInt8.toNat_xor, hword]
  congr 2 <;> omega

/-- The address of a value, read where the value stands in the packet. -/
theorem addressIn_value {packet : Bytes} {attrLength offset : ℕ}
    (h : offset + attrLength ≤ packet.length) (attrType : ℕ) :
    addressIn attrType ((packet.drop offset).take attrLength) =
      if 8 ≤ attrLength ∧ packet.getD (offset + 1) 0 = 1 then
        let a := packet.getD (offset + 4) 0
        let b := packet.getD (offset + 5) 0
        let c := packet.getD (offset + 6) 0
        let d := packet.getD (offset + 7) 0
        if attrType = 0x0001 then some (dotted a.toNat b.toNat c.toNat d.toNat)
        else if attrType = 0x0020 then
          some (dotted (a ^^^ 0x21).toNat (b ^^^ 0x12).toNat (c ^^^ 0xa4).toNat (d ^^^ 0x42).toNat)
        else none
      else none := by
  have hlen : ((packet.drop offset).take attrLength).length = attrLength := by
    rw [List.length_take, List.length_drop]
    omega
  unfold addressIn
  rw [hlen]
  by_cases hsize : 8 ≤ attrLength
  · rw [getD_value packet offset (show 1 < attrLength by omega),
      getD_value packet offset (show 4 < attrLength by omega),
      getD_value packet offset (show 5 < attrLength by omega),
      getD_value packet offset (show 6 < attrLength by omega),
      getD_value packet offset (show 7 < attrLength by omega)]
  · rw [if_neg fun hc => hsize hc.1, if_neg fun hc => hsize hc.1]

theorem xorMappedAddress_eq {packet : Bytes} {attrLength offset : ℕ}
    (h : offset + attrLength ≤ packet.length) (attrType : ℕ) :
    xorMappedAddress packet attrType attrLength offset =
      .ok (if attrType = 0x0020 then
        addressIn attrType ((packet.drop offset).take attrLength) else none) := by
  unfold xorMappedAddress
  rw [addressIn_value h]
  by_cases htype : attrType = 0x0020
  · by_cases hsize : 8 ≤ attrLength
    · rw [if_pos ⟨htype, hsize⟩, if_pos htype, index_getD (by omega), ok_bind, u32At_eq (by omega)]
      by_cases hfamily : packet.getD (offset + 1) 0 = 1
      · rw [if_pos hfamily, if_pos ⟨hsize, hfamily⟩, ok_bind, htype, if_neg (by decide), if_pos rfl]
        exact congrArg (fun text => Except.ok (some text)) (dotted_xor _ _ _ _)
      · rw [if_neg hfamily, if_neg fun hc => hfamily hc.2]
    · rw [if_neg fun hc => hsize hc.2, if_pos htype, if_neg fun hc => hsize hc.1]
  · rw [if_neg fun hc => htype hc.1, if_neg htype]

theorem mappedAddress_eq {packet : Bytes} {attrLength offset : ℕ}
    (h : offset + attrLength ≤ packet.length) (attrType : ℕ) :
    mappedAddress packet attrType attrLength offset =
      .ok (if attrType = 0x0001 then
        addressIn attrType ((packet.drop offset).take attrLength) else none) := by
  unfold mappedAddress
  rw [addressIn_value h]
  by_cases htype : attrType = 0x0001
  · by_cases hsize : 8 ≤ attrLength
    · rw [if_pos ⟨htype, hsize⟩, if_pos htype, index_getD (by omega), ok_bind]
      by_cases hfamily : packet.getD (offset + 1) 0 = 1
      · rw [if_pos hfamily, if_pos ⟨hsize, hfamily⟩, index_getD (by omega), index_getD (by omega),
          index_getD (by omega), index_getD (by omega), if_pos htype]
        rfl
      · rw [if_neg hfamily, if_neg fun hc => hfamily hc.2]
    · rw [if_neg fun hc => hsize hc.2, if_pos htype, if_neg fun hc => hsize hc.1]
  · rw [if_neg fun hc => htype hc.1, if_neg htype]

theorem addressIn_other {type : ℕ} (hmapped : type ≠ 0x0001) (hxor : type ≠ 0x0020)
    (value : Bytes) : addressIn type value = none := by
  unfold addressIn
  dsimp only
  rw [if_neg hmapped, if_neg hxor, ite_self]

/-- The length with its padding. -/
theorem and_not_three {n : ℕ} (h : n < 2 ^ 16) :
    (n + 3) &&& 0xFFFFFFFFFFFFFFFC = n + paddingOf n := by
  have hmask : 0xFFFFFFFFFFFFFFFC = (2 ^ 62 - 1) <<< 2 := by decide
  have hround : (n + 3) &&& 0xFFFFFFFFFFFFFFFC = ((n + 3) >>> 2) <<< 2 := by
    refine Nat.eq_of_testBit_eq fun i => ?_
    rw [hmask, Nat.testBit_and, Nat.testBit_shiftLeft, Nat.testBit_shiftLeft,
      Nat.testBit_shiftRight, Nat.testBit_two_pow_sub_one]
    by_cases hi : 2 ≤ i
    · rw [show 2 + (i - 2) = i by omega]
      by_cases hlast : i - 2 < 62
      · simp [hi, hlast]
      · have hzero : (n + 3).testBit i = false := by
          refine Nat.testBit_lt_two_pow (lt_of_lt_of_le (show n + 3 < 2 ^ 64 by omega) ?_)
          exact Nat.pow_le_pow_right (by decide) (by omega)
        simp [hzero]
    · simp [hi]
  rw [hround, Nat.shiftRight_eq_div_pow, Nat.shiftLeft_eq]
  unfold paddingOf
  omega

theorem parseAttributes_end {packet : Bytes} {offset : ℕ} (h : packet.length ≤ offset)
    (fuel : ℕ) : parseAttributes packet (fuel + 1) offset = .ok none := by
  rw [parseAttributes, if_neg (by omega)]

/-- A round of the loop: an attribute that leaves the packet ends the walk, and so does one with
an address. -/
theorem parseAttributes_round {packet : Bytes} {offset : ℕ} (h : offset + 4 ≤ packet.length)
    (fuel : ℕ) :
    parseAttributes packet (fuel + 1) offset =
      let size := fieldAt packet (offset + 2)
      if offset + 4 + size > packet.length then .ok none
      else
        match addressIn (fieldAt packet offset) ((packet.drop (offset + 4)).take size) with
        | some mapped => .ok (some mapped)
        | none => parseAttributes packet fuel (offset + 4 + (size + paddingOf size)) := by
  rw [parseAttributes, if_pos (by omega), if_neg (by omega), u16At_eq (by omega), ok_bind,
    u16At_eq (by omega), ok_bind]
  dsimp only
  by_cases hout : offset + 4 + fieldAt packet (offset + 2) > packet.length
  · rw [if_pos hout, if_pos hout]
  · rw [if_neg hout, if_neg hout, xorMappedAddress_eq (by omega), ok_bind,
      mappedAddress_eq (by omega), ok_bind, and_not_three (fieldAt_lt packet (offset + 2))]
    by_cases hxor : fieldAt packet offset = 0x0020
    · rw [if_pos hxor, if_neg (by omega)]
    · rw [if_neg hxor]
      by_cases hmapped : fieldAt packet offset = 0x0001
      · rw [if_pos hmapped]
      · rw [if_neg hmapped, addressIn_other hmapped hxor]

/-- Each round reads at least the header of an attribute. -/
theorem parseAttributes_no_fault (packet : Bytes) (fuel offset : ℕ) (hfuel : 0 < fuel)
    (h : packet.length < offset + fuel) :
    ∃ result, parseAttributes packet fuel offset = .ok result := by
  induction fuel generalizing offset with
  | zero => omega
  | succ fuel ih =>
    by_cases hend : packet.length ≤ offset
    · exact ⟨none, parseAttributes_end hend fuel⟩
    · by_cases hheader : offset + 4 ≤ packet.length
      · rw [parseAttributes_round hheader]
        dsimp only
        split_ifs with hout
        · exact ⟨none, rfl⟩
        · cases addressIn _ _ with
          | some mapped => exact ⟨some mapped, rfl⟩
          | none => exact ih _ (by omega) (by omega)
      · refine ⟨none, ?_⟩
        rw [parseAttributes, if_pos (by omega), if_pos (by omega)]

/-- Where the walk stands at the header of an attribute, it reads its type, its length and its
value, and finds behind them what follows the value. -/
theorem parseAttributes_attribute {packet : Bytes} {offset : ℕ} {a : Attribute} {tail : Bytes}
    (h : packet.drop offset = a.header ++ a.value ++ tail) (fuel : ℕ) :
    parseAttributes packet (fuel + 1) offset =
      match a.address with
      | some mapped => .ok (some mapped)
      | none => parseAttributes packet fuel
          (offset + 4 + (a.value.length + paddingOf a.value.length)) := by
  have hheader : a.header.length = 4 := by simp [Attribute.header]
  have hlen := congrArg List.length h
  rw [List.length_drop, List.length_append, List.length_append, hheader] at hlen
  have htype : fieldAt packet offset = a.type := by
    unfold fieldAt
    rw [h, Attribute.header, List.append_assoc, List.append_assoc,
      List.take_left' (beBytes_length 2 a.type), beValue_beBytes_of_lt a.type_lt]
  have hsize : fieldAt packet (offset + 2) = a.value.length := by
    unfold fieldAt
    rw [← List.drop_drop, h, Attribute.header, List.append_assoc, List.append_assoc,
      List.drop_left' (beBytes_length 2 a.type),
      List.take_left' (beBytes_length 2 a.value.length), beValue_beBytes_of_lt a.value_lt]
  have hvalue : (packet.drop (offset + 4)).take a.value.length = a.value := by
    rw [← List.drop_drop, h, List.append_assoc, List.drop_left' hheader, List.take_left]
  rw [parseAttributes_round (by omega), htype, hsize]
  dsimp only
  rw [if_neg (by omega), hvalue]
  rfl

theorem parseAttributes_written {attributes : List Attribute} {body : Bytes}
    (h : Written attributes body) (packet : Bytes) (fuel offset : ℕ)
    (hbody : packet.drop offset = body) (hfuel : body.length < fuel) :
    parseAttributes packet fuel offset = .ok (attributes.findSome? Attribute.address) := by
  obtain ⟨fuel, rfl⟩ : ∃ m, fuel = m + 1 := ⟨fuel - 1, by omega⟩
  induction h generalizing fuel offset with
  | nil => exact parseAttributes_end (List.drop_eq_nil_iff.mp hbody) fuel
  | last a pad hpad =>
    rw [parseAttributes_attribute hbody, List.findSome?_cons]
    cases a.address with
    | some mapped => rfl
    | none =>
      have hlen := congrArg List.length hbody
      simp only [List.length_drop, List.length_append, Attribute.header, beBytes_length]
        at hlen hfuel
      obtain ⟨fuel, rfl⟩ : ∃ m, fuel = m + 1 := ⟨fuel - 1, by omega⟩
      exact parseAttributes_end (by omega) fuel
  | cons a pad hpad _ ih =>
    rw [List.append_assoc] at hbody
    rw [parseAttributes_attribute hbody, List.findSome?_cons]
    cases a.address with
    | some mapped => rfl
    | none =>
      have hheader : (a.header ++ a.value ++ pad).length =
          4 + (a.value.length + paddingOf a.value.length) := by
        simp only [List.length_append, Attribute.header, beBytes_length, hpad]
        omega
      rw [List.length_append] at hfuel
      obtain ⟨fuel, rfl⟩ : ∃ m, fuel = m + 1 := ⟨fuel - 1, by omega⟩
      refine ih _ ?_ fuel (by omega)
      rw [← List.append_assoc] at hbody
      rw [Nat.add_assoc, ← List.drop_drop, hbody, List.drop_left' hheader]

/-- No packet makes the parser read outside of it or go on forever. Of a response with the cookie
and any attributes it returns the address of the first that carries one, and nothing when there is
none. -/
theorem parseStunResponse_reads :
    (∀ packet, ∃ result, parseStunResponse packet = .ok result) ∧
    ∀ (header : Bytes) (attributes : List Attribute) (body : Bytes), header.length = 20 →
      (header.drop 4).take 4 = magicCookie → Written attributes body →
        parseStunResponse (header ++ body) = .ok (attributes.findSome? Attribute.address) := by
  constructor
  · intro packet
    unfold parseStunResponse
    split_ifs with hshort
    · exact ⟨none, rfl⟩
    · rw [show 8 = 4 + 4 from rfl, range_eq (by omega), ok_bind]
      split_ifs with hcookie
      · exact ⟨none, rfl⟩
      · exact parseAttributes_no_fault packet (packet.length + 1) 20 (by omega) (by omega)
  · intro header attributes body hlen hcookie hwritten
    have hrange : range (header ++ body) 4 (4 + 4) = .ok magicCookie := by
      rw [range_eq (by rw [List.length_append]; omega), List.drop_append_of_le_length (by omega),
        List.take_append_of_le_length (by rw [List.length_drop]; omega), hcookie]
    unfold parseStunResponse
    rw [List.length_append, if_neg (by omega), hrange, ok_bind, if_neg (not_not_intro rfl)]
    exact parseAttributes_written hwritten _ _ 20 (List.drop_left' hlen) (by omega)

def softwareName : Attribute := ⟨0x8022, [0x61, 0x62, 0x63], by decide, by decide⟩

def maskedAddress : Attribute :=
  ⟨0x0020, [0, 1, 0xa1, 0x47, 0xe1, 0x12, 0xa6, 0x43], by decide, by decide⟩

def bindingHeader : Bytes := [1, 1, 0, 20] ++ magicCookie ++ List.replicate 12 7

/-- An attribute with one octet of padding in front of a masked address. -/
theorem parseStunResponse_reads_masked :
    parseStunResponse (bindingHeader ++ ([0x80, 0x22, 0, 3, 0x61, 0x62, 0x63, 0] ++
        [0, 0x20, 0, 8, 0, 1, 0xa1, 0x47, 0xe1, 0x12, 0xa6, 0x43])) =
      .ok ([softwareName, maskedAddress].findSome? Attribute.address) ∧
    [softwareName, maskedAddress].findSome? Attribute.address = some "192.0.2.1".toList :=
  ⟨parseStunResponse_reads.2 bindingHeader [softwareName, maskedAddress] _ (by decide) (by decide)
    (.cons softwareName [0] (by decide) (.last maskedAddress [] (by decide))), by decide +kernel⟩

end SkinGetBE.StunClient
