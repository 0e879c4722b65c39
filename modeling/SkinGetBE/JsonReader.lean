import SkinGetBE.Text

/-!
# JSON texts

A reader of the grammar of RFC 8259. A lexer takes one character at a time and
hands out tokens; a reader of tokens keeps the arrays and objects that are still
open on a stack. Strings keep their escapes and numbers their digits as they are
written: what a string denotes is a function of its own.
-/
namespace Json
open Text

/-- One element of a string literal: a character, a backslash with the character it
escapes, or the four hexadecimal digits of a code unit. -/
inductive Item
  | char (c : Char)
  | escape (c : Char)
  | unit (digits : Str)
  deriving DecidableEq

abbrev Literal := List Item

/-- The characters that may follow a backslash, with what they stand for. -/
def escapes : List (Char × Char) :=
  [('"', '"'), ('\\', '\\'), ('/', '/'), ('b', '\x08'), ('f', '\x0c'), ('n', '\n'), ('r', '\r'),
    ('t', '\t')]

def isHexDigit (c : Char) : Bool := c.isDigit || ('a' ≤ c && c ≤ 'f') || ('A' ≤ c && c ≤ 'F')

def hexDigitValue (c : Char) : ℕ :=
  if c.isDigit then c.toNat - '0'.toNat
  else if 'a' ≤ c then c.toNat - 'a'.toNat + 10
  else c.toNat - 'A'.toNat + 10

def hexValue (digits : Str) : ℕ := digits.foldl (fun v c => 16 * v + hexDigitValue c) 0

def isHighSurrogate (code : ℕ) : Bool := 0xD800 ≤ code && code < 0xDC00

def isLowSurrogate (code : ℕ) : Bool := 0xDC00 ≤ code && code < 0xE000

/-- An element of a literal as it is written between the quotes. -/
def Item.render : Item → Str
  | char c => [c]
  | escape c => ['\\', c]
  | unit digits => '\\' :: 'u' :: digits

/-- The grammar has this element. -/
def Item.Valid : Item → Prop
  | char c => c ≠ '"' ∧ c ≠ '\\' ∧ 0x20 ≤ c.toNat
  | escape c => (escapes.lookup c).isSome
  | unit digits => digits.length = 4 ∧ ∀ c ∈ digits, isHexDigit c

/-- The text that a literal denotes after a pending high surrogate, when every
surrogate has its partner. -/
def decodeAfter : Option ℕ → Literal → Option Str
  | none, [] => some []
  | none, .char c :: items => (decodeAfter none items).map (c :: ·)
  | none, .escape e :: items =>
    (escapes.lookup e).bind fun c => (decodeAfter none items).map (c :: ·)
  | none, .unit digits :: items =>
    let code := hexValue digits
    if isHighSurrogate code then decodeAfter (some code) items
    else if isLowSurrogate code then none
    else (decodeAfter none items).map (Char.ofNat code :: ·)
  | some high, .unit digits :: items =>
    let low := hexValue digits
    if isLowSurrogate low then
      (decodeAfter none items).map
        (Char.ofNat (0x10000 + (high - 0xD800) * 0x400 + (low - 0xDC00)) :: ·)
    else none
  | some _, _ => none

def decode (literal : Literal) : Option Str := decodeAfter none literal

inductive Word
  | null
  | bool (b : Bool)
  deriving DecidableEq

def Word.letters : Word → Str
  | null => ['n', 'u', 'l', 'l']
  | bool true => ['t', 'r', 'u', 'e']
  | bool false => ['f', 'a', 'l', 's', 'e']

inductive Scalar
  | word (w : Word)
  | number (text : Str)
  | string (literal : Literal)
  deriving DecidableEq

inductive Value
  | scalar (s : Scalar)
  | array (values : List Value)
  | object (members : List (Literal × Value))

inductive Token
  | scalar (s : Scalar)
  | beginArray
  | endArray
  | beginObject
  | endObject
  | nameSeparator
  | valueSeparator
  deriving DecidableEq

/-- What of a number has been read last. -/
inductive Phase
  | sign
  | zero
  | int
  | point
  | frac
  | exp
  | expSign
  | expDigits
  deriving DecidableEq

/-- A number may end after this. -/
def Phase.final : Phase → Bool
  | zero | int | frac | expDigits => true
  | sign | point | exp | expSign => false

def Phase.next (phase : Phase) (c : Char) : Option Phase :=
  match phase with
  | sign => if c = '0' then some zero else if c.isDigit then some int else none
  | zero => if c = '.' then some point else if c = 'e' ∨ c = 'E' then some exp else none
  | int =>
    if c.isDigit then some int
    else if c = '.' then some point
    else if c = 'e' ∨ c = 'E' then some exp
    else none
  | point => if c.isDigit then some frac else none
  | frac =>
    if c.isDigit then some frac else if c = 'e' ∨ c = 'E' then some exp else none
  | exp =>
    if c = '+' ∨ c = '-' then some expSign else if c.isDigit then some expDigits else none
  | expSign | expDigits => if c.isDigit then some expDigits else none

/-- The token that is being read, with what has been read of it; of a word, the number
of its letters. -/
inductive Lexer
  | between
  | string (items : Literal)
  | escape (items : Literal)
  | unit (items : Literal) (digits : Str)
  | number (phase : Phase) (text : Str)
  | word (w : Word) (read : ℕ)
  deriving DecidableEq

/-- A character between two tokens. -/
def start (c : Char) : Option (Lexer × List Token) :=
  match c with
  | ' ' | '\t' | '\n' | '\r' => some (.between, [])
  | '[' => some (.between, [.beginArray])
  | ']' => some (.between, [.endArray])
  | '{' => some (.between, [.beginObject])
  | '}' => some (.between, [.endObject])
  | ':' => some (.between, [.nameSeparator])
  | ',' => some (.between, [.valueSeparator])
  | '"' => some (.string [], [])
  | 'n' => some (.word .null 1, [])
  | 't' => some (.word (.bool true) 1, [])
  | 'f' => some (.word (.bool false) 1, [])
  | '-' => some (.number .sign ['-'], [])
  | '0' => some (.number .zero ['0'], [])
  | c => if c.isDigit then some (.number .int [c], []) else none

def Lexer.step (lexer : Lexer) (c : Char) : Option (Lexer × List Token) :=
  match lexer with
  | between => start c
  | string items =>
    if c = '"' then some (between, [.scalar (.string items)])
    else if c = '\\' then some (escape items, [])
    else if c.toNat < 0x20 then none
    else some (string (items ++ [.char c]), [])
  | escape items =>
    if c = 'u' then some (unit items [], [])
    else if (escapes.lookup c).isSome then some (string (items ++ [.escape c]), [])
    else none
  | unit items digits =>
    if ¬ isHexDigit c then none
    else if digits.length < 3 then some (unit items (digits ++ [c]), [])
    else some (string (items ++ [.unit (digits ++ [c])]), [])
  | number phase text =>
    match phase.next c with
    | some phase => some (number phase (text ++ [c]), [])
    | none =>
      -- the number is complete, and the character belongs to what follows it
      if phase.final then
        (start c).map fun out => (out.1, .scalar (.number text) :: out.2)
      else none
  | word w read =>
    if w.letters[read]? ≠ some c then none
    else if read + 1 < w.letters.length then some (word w (read + 1), [])
    else some (between, [.scalar (.word w)])

def Lexer.run : Lexer → Str → Option (Lexer × List Token)
  | lexer, [] => some (lexer, [])
  | lexer, c :: text =>
    (lexer.step c).bind fun out =>
      (run out.1 text).map fun out' => (out'.1, out.2 ++ out'.2)

/-- The token that the end of the text completes. -/
def Lexer.finish : Lexer → Option (List Token)
  | between => some []
  | number phase text => if phase.final then some [.scalar (.number text)] else none
  | string _ | escape _ | unit _ _ | word _ _ => none

def tokens (text : Str) : Option (List Token) :=
  (Lexer.between.run text).bind fun out => out.1.finish.map (out.2 ++ ·)

/-- An array or an object that is open around a value: the elements before it, or the
members before it and its own name. -/
inductive Frame
  | array (values : List Value)
  | object (members : List (Literal × Value)) (name : Literal)

/-- What may come next, inside the open arrays and objects. -/
inductive Reader
  | value (outer : List Frame)
  | firstValue (outer : List Frame)
  | firstName (outer : List Frame)
  | name (members : List (Literal × Value)) (outer : List Frame)
  | colon (members : List (Literal × Value)) (name : Literal) (outer : List Frame)
  | complete (v : Value) (outer : List Frame)

/-- The first token of a value. -/
def beginValue (outer : List Frame) : Token → Option Reader
  | .scalar s => some (.complete (.scalar s) outer)
  | .beginArray => some (.firstValue outer)
  | .beginObject => some (.firstName outer)
  | _ => none

def Reader.step : Reader → Token → Option Reader
  | value outer, token => beginValue outer token
  | firstValue outer, .endArray => some (complete (.array []) outer)
  | firstValue outer, token => beginValue (.array [] :: outer) token
  | firstName outer, .endObject => some (complete (.object []) outer)
  | firstName outer, .scalar (.string n) => some (colon [] n outer)
  | name members outer, .scalar (.string n) => some (colon members n outer)
  | colon members n outer, .nameSeparator => some (value (.object members n :: outer))
  | complete v (.array values :: outer), .valueSeparator =>
    some (value (.array (values ++ [v]) :: outer))
  | complete v (.array values :: outer), .endArray =>
    some (complete (.array (values ++ [v])) outer)
  | complete v (.object members n :: outer), .valueSeparator =>
    some (name (members ++ [(n, v)]) outer)
  | complete v (.object members n :: outer), .endObject =>
    some (complete (.object (members ++ [(n, v)])) outer)
  | _, _ => none

/-- The value of a token list, when it is one value and nothing else. -/
def readTokens (ts : List Token) : Option Value :=
  (ts.foldlM Reader.step (.value [])).bind fun
    | .complete v [] => some v
    | _ => none

/-- The value of a JSON text. -/
def parse (text : Str) : Option Value := (tokens text).bind readTokens

theorem Lexer.run_append (lexer : Lexer) (s t : Str) :
    lexer.run (s ++ t) =
      (lexer.run s).bind fun out =>
        (out.1.run t).map fun out' => (out'.1, out.2 ++ out'.2) := by
  induction s generalizing lexer with
  | nil => simp [run]
  | cons c s ih =>
    rw [List.cons_append, run, run]
    cases lexer.step c with
    | none => rfl
    | some out =>
      rw [Option.bind_some, Option.bind_some, ih]
      cases out.1.run s with
      | none => rfl
      | some out' =>
        rw [Option.bind_some, Option.map_some, Option.bind_some, Option.map_map]
        congr 1
        funext out''
        simp

/-- Two runs in a row. -/
theorem Lexer.run_trans {lexer lexer' lexer'' : Lexer} {s t : Str} {ts ts' : List Token}
    (hs : lexer.run s = some (lexer', ts)) (ht : lexer'.run t = some (lexer'', ts')) :
    lexer.run (s ++ t) = some (lexer'', ts ++ ts') := by
  rw [run_append, hs, Option.bind_some, ht, Option.map_some]

/-- A control character that is not white space. -/
def isRawControl (c : Char) : Bool := c.toNat < 0x20 && c != '\t' && c != '\n' && c != '\r'

theorem isDigit_iff {c : Char} : c.isDigit = true ↔ 48 ≤ c.toNat ∧ c.toNat ≤ 57 := by
  simp only [Char.isDigit, Bool.and_eq_true, decide_eq_true_eq]
  rfl

theorem toNat_of_isRawControl {c : Char} (hc : isRawControl c = true) : c.toNat < 0x20 := by
  simp only [isRawControl, Bool.and_eq_true, decide_eq_true_eq] at hc
  exact hc.1.1.1

theorem ne_of_isRawControl {c d : Char} (hc : isRawControl c = true)
    (hd : isRawControl d = false) : c ≠ d := by
  rintro rfl
  rw [hc] at hd
  contradiction

theorem not_isDigit_of_isRawControl {c : Char} (hc : isRawControl c = true) :
    ¬ c.isDigit = true := by
  intro hd
  have := toNat_of_isRawControl hc
  have := isDigit_iff.mp hd
  omega

theorem start_isRawControl {c : Char} (hc : isRawControl c = true) : start c = none := by
  unfold start
  split
  all_goals first
    | exact absurd hc (by decide)
    | exact if_neg (not_isDigit_of_isRawControl hc)

theorem Phase.next_isRawControl {c : Char} (hc : isRawControl c = true) (phase : Phase) :
    phase.next c = none := by
  have hdigit := not_isDigit_of_isRawControl hc
  have ne {d : Char} (hd : isRawControl d = false) : c ≠ d := ne_of_isRawControl hc hd
  cases phase <;>
    simp [next, hdigit, ne (d := '0') rfl, ne (d := '.') rfl, ne (d := 'e') rfl,
      ne (d := 'E') rfl, ne (d := '+') rfl, ne (d := '-') rfl]

theorem isHexDigit_isRawControl {c : Char} (hc : isRawControl c = true) :
    ¬ isHexDigit c = true := by
  have hlt := toNat_of_isRawControl hc
  intro h
  simp only [isHexDigit, Bool.or_eq_true, Bool.and_eq_true, decide_eq_true_eq] at h
  rcases h with (h | ⟨h, -⟩) | ⟨h, -⟩
  · exact not_isDigit_of_isRawControl hc h
  · have h' : 97 ≤ c.toNat := h
    omega
  · have h' : 65 ≤ c.toNat := h
    omega

theorem escapes_isRawControl {c : Char} (hc : isRawControl c = true) :
    escapes.lookup c = none := by
  rw [List.lookup_eq_none_iff]
  intro entry hentry
  have hplain : ∀ entry ∈ escapes, isRawControl entry.1 = false := by decide
  simpa using ne_of_isRawControl hc (hplain entry hentry)

theorem Word.letters_isRawControl (w : Word) : ∀ c ∈ w.letters, isRawControl c = false := by
  have hall : w.letters.all (!isRawControl ·) = true := by
    cases w with
    | null => rfl
    | bool b => cases b <;> rfl
  intro c hc
  simpa using List.all_eq_true.mp hall c hc

/-- No token has a raw control character, and none stands between two tokens. -/
theorem Lexer.step_isRawControl {c : Char} (hc : isRawControl c = true) (lexer : Lexer) :
    lexer.step c = none := by
  have ne {d : Char} (hd : isRawControl d = false) : c ≠ d := ne_of_isRawControl hc hd
  cases lexer with
  | between => exact start_isRawControl hc
  | string items =>
    simp [step, ne (d := '"') rfl, ne (d := '\\') rfl, toNat_of_isRawControl hc]
  | escape items => simp [step, ne (d := 'u') rfl, escapes_isRawControl hc]
  | unit items digits => simp [step, isHexDigit_isRawControl hc]
  | number phase text => simp [step, Phase.next_isRawControl hc, start_isRawControl hc]
  | word w read =>
    refine if_pos fun hletter => ?_
    have hplain := w.letters_isRawControl c (List.mem_of_getElem? hletter)
    rw [hc] at hplain
    contradiction

/-- A text with a raw control character is no JSON text. -/
theorem parse_isRawControl {c : Char} {text : Str} (hc : isRawControl c = true)
    (hmem : c ∈ text) : parse text = none := by
  obtain ⟨s, t, rfl⟩ := List.append_of_mem hmem
  have hrun : Lexer.between.run (s ++ c :: t) = none := by
    rw [Lexer.run_append]
    cases Lexer.between.run s with
    | none => rfl
    | some out => simp [Lexer.run, Lexer.step_isRawControl hc]
  rw [parse, tokens, hrun]
  rfl

/-- A valid element between two others is read whole. -/
theorem Lexer.run_render {i : Item} (hi : i.Valid) (items : Literal) :
    (string items).run i.render = some (string (items ++ [i]), []) := by
  cases i with
  | char c =>
    obtain ⟨hquote, hslash, hle⟩ := hi
    have hstep : (string items).step c = some (string (items ++ [.char c]), []) := by
      simp [step, hquote, hslash, hle]
    rw [Item.render, run, hstep]
    rfl
  | escape c =>
    have hu : c ≠ 'u' := by
      rintro rfl
      exact absurd hi Bool.false_ne_true
    have hstep : (escape items).step c = some (string (items ++ [.escape c]), []) := by
      rw [step, if_neg hu]
      exact if_pos hi
    have hslash : (string items).step '\\' = some (escape items, []) := rfl
    rw [Item.render, run, hslash, Option.bind_some, run, hstep]
    rfl
  | unit digits =>
    obtain ⟨hlength, hhex⟩ := hi
    match digits, hlength with
    | [a, b, c, d], _ =>
      have ha := hhex a (by simp)
      have hb := hhex b (by simp)
      have hc := hhex c (by simp)
      have hd := hhex d (by simp)
      simp [Item.render, run, step, ha, hb, hc, hd]

theorem Lexer.run_literal {literal : Literal} (h : ∀ i ∈ literal, i.Valid) (items : Literal) :
    (string items).run (literal.flatMap Item.render) = some (string (items ++ literal), []) := by
  induction literal generalizing items with
  | nil => simp [run]
  | cons i literal ih =>
    have hrest := ih (fun j hj => h j (List.mem_cons_of_mem _ hj)) (items ++ [i])
    rw [List.append_assoc, List.singleton_append] at hrest
    exact run_trans (run_render (h i List.mem_cons_self) items) hrest

/-- The element stands for this character. -/
def Item.Denotes : Item → Char → Prop
  | char c, d => c = d
  | escape e, d => escapes.lookup e = some d
  | unit _, _ => False

theorem decode_map {encode : Char → Item} {s : Str} (h : ∀ c ∈ s, (encode c).Denotes c) :
    decode (s.map encode) = some s := by
  induction s with
  | nil => rfl
  | cons c s ih =>
    have hc := h c List.mem_cons_self
    have hs := ih fun d hd => h d (List.mem_cons_of_mem _ hd)
    rw [decode] at hs ⊢
    rw [List.map_cons]
    cases he : encode c with
    | char d =>
      rw [he] at hc
      subst hc
      rw [decodeAfter, hs, Option.map_some]
    | escape e =>
      rw [he] at hc
      have hlookup : escapes.lookup e = some c := hc
      rw [decodeAfter, hlookup, Option.bind_some, hs, Option.map_some]
    | unit digits =>
      rw [he] at hc
      contradiction

/-- The phase after the digits of a natural number. -/
def intPhase (n : ℕ) : Phase := if n = 0 then .zero else .int

theorem run_toDigits (n : ℕ) :
    Lexer.between.run (Nat.toDigits 10 n) =
      some (.number (intPhase n) (Nat.toDigits 10 n), []) := by
  induction n using Nat.strong_induction_on with
  | h n ih =>
    by_cases h : n < 10
    · have key : ∀ n < 10, Lexer.between.run [Nat.digitChar n] =
          some (.number (intPhase n) [Nat.digitChar n], []) := by decide
      rw [Nat.toDigits_of_lt_base h]
      exact key n h
    · have hne : n / 10 ≠ 0 := by omega
      have hdigit : (Nat.digitChar (n % 10)).isDigit = true :=
        by
        rw [Nat.isDigit_digitChar]
        exact decide_eq_true (Nat.mod_lt n (by decide))
      rw [Nat.toDigits_of_base_le (by decide) (by omega)]
      have hlast (text : Str) : (Lexer.number .int text).run [Nat.digitChar (n % 10)] =
          some (.number .int (text ++ [Nat.digitChar (n % 10)]), []) := by
        simp [Lexer.run, Lexer.step, Phase.next, hdigit]
      have hrest := ih (n / 10) (by omega)
      rw [intPhase, if_neg hne] at hrest
      rw [intPhase, if_neg (by omega)]
      exact Lexer.run_trans hrest (hlast _)

end Json
