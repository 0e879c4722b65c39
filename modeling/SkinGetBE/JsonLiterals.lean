import SkinGetBE.JsonReader

/-!
# The string literals of a JSON text

The literals of a value, keys and strings alike, in the order in which they are
written. They are the string tokens of its text.
-/
namespace Json
open Text

/-- A literal as it stands between its quotes. -/
def raw (literal : Literal) : Str := literal.flatMap Item.render

@[simp] theorem raw_nil : raw [] = [] := rfl

@[simp] theorem raw_cons (i : Item) (literal : Literal) :
    raw (i :: literal) = i.render ++ raw literal := rfl

@[simp] theorem raw_append (literal literal' : Literal) :
    raw (literal ++ literal') = raw literal ++ raw literal' := List.flatMap_append

/-- A literal without escapes denotes what is written. -/
theorem decode_of_noEscape {literal : Literal} (h : '\\' ∉ raw literal) :
    decode literal = some (raw literal) := by
  induction literal with
  | nil => rfl
  | cons i literal ih =>
    rw [raw, List.flatMap_cons, List.mem_append, not_or] at h
    have hrest : decodeAfter none literal = some (raw literal) := ih h.2
    cases i with
    | char c =>
      rw [decode, decodeAfter, hrest]
      rfl
    | escape c => exact absurd List.mem_cons_self h.1
    | unit digits => exact absurd List.mem_cons_self h.1

/-- An escape is longer than the character it stands for, also when it takes two of them. -/
theorem decodeAfter_length {literal : Literal} (hv : ∀ i ∈ literal, i.Valid)
    {pending : Option ℕ} {name : Str} (h : decodeAfter pending literal = some name) :
    name.length ≤ (raw literal).length ∧
      ('\\' ∈ raw literal → name.length < (raw literal).length) := by
  induction literal generalizing pending name with
  | nil =>
    cases pending with
    | none =>
      obtain rfl : [] = name := by simpa [decodeAfter] using h
      exact ⟨Nat.zero_le _, fun hmem => absurd hmem List.not_mem_nil⟩
    | some high => contradiction
  | cons i literal ih =>
    have hrest {pending : Option ℕ} {name : Str}
        (h : decodeAfter pending literal = some name) :=
      ih (fun j hj => hv j (List.mem_cons_of_mem _ hj)) h
    have hraw : raw (i :: literal) = i.render ++ raw literal := rfl
    -- a written escape, which stands for one character at most
    have hescape {pending : Option ℕ} {rest : Str}
        (h : decodeAfter pending literal = some rest) (hi : 2 ≤ i.render.length)
        (hname : name.length ≤ rest.length + 1) :
        name.length ≤ (raw (i :: literal)).length ∧ ('\\' ∈ raw (i :: literal) →
          name.length < (raw (i :: literal)).length) := by
      have hle := (hrest h).1
      rw [hraw, List.length_append]
      exact ⟨by omega, fun _ => by omega⟩
    cases i with
    | char c =>
      cases pending with
      | some high => contradiction
      | none =>
        obtain ⟨rest, hdecode, rfl⟩ := Option.map_eq_some_iff.mp h
        obtain ⟨hle, hlt⟩ := hrest hdecode
        have hb : '\\' ≠ c := Ne.symm (hv (.char c) List.mem_cons_self).2.1
        rw [hraw, Item.render, List.singleton_append, List.length_cons, List.length_cons]
        refine ⟨by omega, fun hmem => ?_⟩
        have hlt := hlt ((List.mem_cons.mp hmem).resolve_left hb)
        omega
    | escape e =>
      cases pending with
      | some high => contradiction
      | none =>
        obtain ⟨c, -, hc⟩ := Option.bind_eq_some_iff.mp h
        obtain ⟨rest, hdecode, rfl⟩ := Option.map_eq_some_iff.mp hc
        exact hescape hdecode (Nat.le_refl 2) (Nat.le_refl _)
    | unit digits =>
      have hi : 2 ≤ (Item.unit digits).render.length := by simp [Item.render]
      cases pending with
      | some high =>
        rw [decodeAfter] at h
        split at h
        · obtain ⟨rest, hdecode, rfl⟩ := Option.map_eq_some_iff.mp h
          exact hescape hdecode hi (Nat.le_refl _)
        · contradiction
      | none =>
        rw [decodeAfter] at h
        split at h
        · exact hescape h hi (Nat.le_succ _)
        · split at h
          · contradiction
          · obtain ⟨rest, hdecode, rfl⟩ := Option.map_eq_some_iff.mp h
            exact hescape hdecode hi (Nat.le_refl _)

def Scalar.literals : Scalar → List Literal
  | string literal => [literal]
  | word _ | number _ => []

mutual

def Value.literals : Value → List Literal
  | .scalar s => s.literals
  | .array values => arrayLiterals values
  | .object members => objectLiterals members

def arrayLiterals : List Value → List Literal
  | [] => []
  | v :: values => v.literals ++ arrayLiterals values

def objectLiterals : List (Literal × Value) → List Literal
  | [] => []
  | (name, v) :: members => name :: (v.literals ++ objectLiterals members)

end

def Token.literals : Token → List Literal
  | scalar s => s.literals
  | _ => []

theorem arrayLiterals_append (values values' : List Value) :
    arrayLiterals (values ++ values') = arrayLiterals values ++ arrayLiterals values' := by
  induction values with
  | nil => rfl
  | cons v values ih => simp [arrayLiterals, ih]

theorem objectLiterals_append (members members' : List (Literal × Value)) :
    objectLiterals (members ++ members') = objectLiterals members ++ objectLiterals members' := by
  induction members with
  | nil => rfl
  | cons m members ih => simp [objectLiterals, ih]

@[simp] theorem arrayLiterals_nil : arrayLiterals [] = [] := rfl

@[simp] theorem objectLiterals_nil : objectLiterals [] = [] := rfl

@[simp] theorem arrayLiterals_concat (values : List Value) (v : Value) :
    arrayLiterals (values ++ [v]) = arrayLiterals values ++ v.literals := by
  simp [arrayLiterals_append, arrayLiterals]

@[simp] theorem objectLiterals_concat (members : List (Literal × Value)) (name : Literal)
    (v : Value) : objectLiterals (members ++ [(name, v)]) =
      objectLiterals members ++ (name :: v.literals) := by
  simp [objectLiterals_append, objectLiterals]

def Frame.literals : Frame → List Literal
  | array values => arrayLiterals values
  | object members name => objectLiterals members ++ [name]

/-- The innermost frame comes first, and its literals last. -/
def outerLiterals : List Frame → List Literal
  | [] => []
  | frame :: outer => outerLiterals outer ++ frame.literals

def Reader.literals : Reader → List Literal
  | value outer | firstValue outer | firstName outer => outerLiterals outer
  | name members outer => outerLiterals outer ++ objectLiterals members
  | colon members n outer => outerLiterals outer ++ (objectLiterals members ++ [n])
  | complete v outer => outerLiterals outer ++ v.literals

theorem beginValue_literals {outer : List Frame} {token : Token} {reader : Reader}
    (h : beginValue outer token = some reader) :
    reader.literals = outerLiterals outer ++ token.literals := by
  unfold beginValue at h
  split at h
  · obtain rfl := Option.some.inj h
    simp [Reader.literals, Value.literals, Token.literals]
  · obtain rfl := Option.some.inj h
    simp [Reader.literals, Token.literals]
  · obtain rfl := Option.some.inj h
    simp [Reader.literals, Token.literals]
  · contradiction

/-- A token adds its literal at the end. -/
theorem Reader.step_literals {reader reader' : Reader} {token : Token}
    (h : reader.step token = some reader') :
    reader'.literals = reader.literals ++ token.literals := by
  unfold Reader.step at h
  split at h
  · exact beginValue_literals h
  · obtain rfl := Option.some.inj h
    simp [Reader.literals, Token.literals, Value.literals]
  · have hbegin := beginValue_literals h
    simpa [Reader.literals, outerLiterals, Frame.literals] using hbegin
  · obtain rfl := Option.some.inj h
    simp [Reader.literals, Token.literals, Value.literals]
  · obtain rfl := Option.some.inj h
    simp [Reader.literals, Token.literals, Scalar.literals]
  · obtain rfl := Option.some.inj h
    simp [Reader.literals, Token.literals, Scalar.literals]
  all_goals
    first
    | contradiction
    | obtain rfl := Option.some.inj h
      simp [Reader.literals, Token.literals, Value.literals, outerLiterals, Frame.literals]

theorem foldlM_literals {ts : List Token} {reader reader' : Reader}
    (h : ts.foldlM Reader.step reader = some reader') :
    reader'.literals = reader.literals ++ ts.flatMap Token.literals := by
  induction ts generalizing reader with
  | nil =>
    obtain rfl := Option.some.inj h
    simp
  | cons token ts ih =>
    obtain ⟨next, hstep, hrest⟩ := Option.bind_eq_some_iff.mp h
    rw [ih hrest, Reader.step_literals hstep, List.flatMap_cons, List.append_assoc]

/-- The literals of a value are the string tokens that it was read from. -/
theorem readTokens_literals {ts : List Token} {v : Value} (h : readTokens ts = some v) :
    v.literals = ts.flatMap Token.literals := by
  obtain ⟨reader, hrun, hread⟩ := Option.bind_eq_some_iff.mp h
  have hliterals := foldlM_literals hrun
  split at hread
  · next value =>
    obtain rfl := Option.some.inj hread
    simpa [Reader.literals, outerLiterals] using hliterals
  · contradiction

end Json
