import SkinGetBE.Text

/-!
# Flat JSON objects as text

An object is written compactly: keys between quotes, a colon, a string or number
lexeme, commas between members. A string is a sequence of items, each a plain
character or a backslash with the character it escapes; the four digits of a
Unicode escape are plain characters after its letter.
-/
namespace JsonText
open Text

inductive Item
  | plain (c : Char) (hq : c ≠ '"') (hb : c ≠ '\\')
  | escaped (c : Char)

namespace Item

/-- The character without its backslash. -/
def char : Item → Char
  | plain c _ _ => c
  | escaped c => c

def render : Item → Str
  | plain c _ _ => [c]
  | escaped c => ['\\', c]

end Item

def renderItems (items : List Item) : Str := items.flatMap Item.render

@[simp] theorem renderItems_nil : renderItems [] = [] := rfl

@[simp] theorem renderItems_cons (i : Item) (items : List Item) :
    renderItems (i :: items) = i.render ++ renderItems items := rfl

@[simp] theorem renderItems_append (items items' : List Item) :
    renderItems (items ++ items') = renderItems items ++ renderItems items' := List.flatMap_append

def isIdentifierChar (c : Char) : Bool := isAsciiAlphanumeric c || c == '_'

/-- Letters, digits and underscores, at least one. -/
structure Identifier where
  text : Str
  nonempty : text ≠ []
  chars : text.all isIdentifierChar = true

def isNumberChar (c : Char) : Bool :=
  c.isDigit || c == '-' || c == '+' || c == '.' || c == 'e' || c == 'E'

/-- The text of a number: nothing in it ends it or starts another token. -/
structure Lexeme where
  text : Str
  nonempty : text ≠ []
  chars : text.all isNumberChar = true

inductive Value
  | string (items : List Item)
  | number (lexeme : Lexeme)

/-- The value between its quotes, escapes kept, or the number. -/
def Value.raw : Value → Str
  | string items => renderItems items
  | number lexeme => lexeme.text

def Value.render : Value → Str
  | string items => '"' :: (renderItems items ++ ['"'])
  | number lexeme => lexeme.text

structure Member where
  key : Identifier
  value : Value

def Member.render (m : Member) : Str := '"' :: (m.key.text ++ '"' :: ':' :: m.value.render)

/-- Members between commas, then the closing brace. -/
def renderMembers : List Member → Str
  | [] => ['}']
  | [m] => m.render ++ ['}']
  | m :: n :: rest => m.render ++ ',' :: renderMembers (n :: rest)

def render (members : List Member) : Str := '{' :: renderMembers members

theorem Identifier.notMem (k : Identifier) {d : Char} (hd : isIdentifierChar d = false) :
    d ∉ k.text := by
  intro h
  rw [List.all_eq_true.mp k.chars d h] at hd
  contradiction

theorem Lexeme.notMem (l : Lexeme) {d : Char} (hd : isNumberChar d = false) : d ∉ l.text := by
  intro h
  rw [List.all_eq_true.mp l.chars d h] at hd
  contradiction

theorem isNumberChar_range {c : Char} (h : isNumberChar c = true) :
    0x2B ≤ c.toNat ∧ c.toNat ≤ 0x65 := by
  simp only [isNumberChar, Bool.or_eq_true, beq_iff_eq] at h
  rcases h with ((((h | rfl) | rfl) | rfl) | rfl) | rfl
  · simp only [Char.isDigit, Bool.and_eq_true, decide_eq_true_eq] at h
    have h1 : 48 ≤ c.toNat := h.1
    have h2 : c.toNat ≤ 57 := h.2
    omega
  all_goals decide

theorem isWhitespace_of_isNumberChar {c : Char} (h : isNumberChar c = true) :
    isWhitespace c = false := by
  have := isNumberChar_range h
  simp only [isWhitespace, Bool.or_eq_false_iff, Bool.and_eq_false_iff, decide_eq_false_iff_not,
    beq_eq_false_iff_ne]
  omega

/-- The text that announces the value of a key. -/
def announce (key : Str) : Str := '"' :: (key ++ ['"', ':'])

/-- No announcement starts within `text` when `rest` follows it. -/
def Absent (key text rest : Str) : Prop :=
  ∀ u v, text = u ++ v → v ≠ [] → ¬ announce key <+: v ++ rest

theorem Absent.nil (key rest : Str) : Absent key [] rest := by
  intro u v h hv
  exact absurd (List.append_eq_nil_iff.mp h.symm).2 hv

theorem Absent.cons {key text rest : Str} {c : Char}
    (hc : ¬ announce key <+: c :: (text ++ rest)) (h : Absent key text rest) :
    Absent key (c :: text) rest := by
  intro u v huv hv
  cases u with
  | nil =>
    obtain rfl : c :: text = v := by simpa using huv
    exact hc
  | cons d u =>
    obtain ⟨-, rfl⟩ := List.cons.inj huv
    exact h u v rfl hv

theorem Absent.append {key a b rest : Str} (ha : Absent key a (b ++ rest))
    (hb : Absent key b rest) : Absent key (a ++ b) rest := by
  induction a with
  | nil => exact hb
  | cons c a ih =>
    have hc := ha [] (c :: a) rfl (by simp)
    have htail : Absent key a (b ++ rest) := fun u v huv hv =>
      ha (c :: u) v (by rw [huv]; rfl) hv
    refine Absent.cons ?_ (ih htail)
    simpa using hc

/-- A character that is not a quote announces nothing. -/
theorem not_announce_of_ne {key : Str} {c : Char} (hc : c ≠ '"') (rest : Str) :
    ¬ announce key <+: c :: rest := by
  intro h
  exact hc (List.cons_prefix_cons.mp h).1.symm

theorem absent_of_quote_notMem {key text : Str} (h : '"' ∉ text) (rest : Str) :
    Absent key text rest := by
  induction text with
  | nil => exact .nil key rest
  | cons c text ih =>
    rw [List.mem_cons, not_or] at h
    exact .cons (not_announce_of_ne (Ne.symm h.1) _) (ih h.2)

/-- Inside a string and at its end, no key is followed by a quote and a colon. -/
theorem not_key_prefix_items (key : Str) (hq : '"' ∉ key) (hb : '\\' ∉ key) (items : List Item)
    {tail : Str} (ht : tail.head? ≠ some ':') :
    ¬ key ++ ['"', ':'] <+: renderItems items ++ '"' :: tail := by
  induction items generalizing key with
  | nil =>
    intro h
    cases key with
    | nil =>
      have h1 := (List.cons_prefix_cons.mp h).2
      cases tail with
      | nil => simp at h1
      | cons t tail => exact ht (by rw [(List.cons_prefix_cons.mp h1).1]; rfl)
    | cons c key => exact hq (by rw [(List.cons_prefix_cons.mp h).1]; exact List.mem_cons_self)
  | cons i items ih =>
    intro h
    cases i with
    | plain c hcq hcb =>
      cases key with
      | nil => exact hcq (List.cons_prefix_cons.mp h).1.symm
      | cons d key =>
        rw [List.mem_cons, not_or] at hq hb
        exact ih key hq.2 hb.2 (List.cons_prefix_cons.mp h).2
    | escaped c =>
      cases key with
      | nil => exact absurd (List.cons_prefix_cons.mp h).1 (by decide)
      | cons d key => exact hb (by rw [(List.cons_prefix_cons.mp h).1]; exact List.mem_cons_self)

variable (k : Identifier)

theorem absent_items (items : List Item) {tail : Str} (ht : tail.head? ≠ some ':') :
    Absent k.text (renderItems items) ('"' :: tail) := by
  induction items with
  | nil => exact .nil _ _
  | cons i items ih =>
    cases i with
    | plain c hq hb => exact .cons (not_announce_of_ne hq _) ih
    | escaped c =>
      refine .cons (not_announce_of_ne (by decide) _) (.cons ?_ ih)
      intro h
      exact not_key_prefix_items k.text (k.notMem rfl) (k.notMem rfl) items ht
        (List.cons_prefix_cons.mp h).2

/-- A value that is followed by neither a colon nor an identifier announces no key. -/
theorem absent_value (v : Value) {tail : Str} (ht : tail.head? ≠ some ':')
    (hk : tail.head? ≠ k.text.head?) : Absent k.text v.render tail := by
  cases v with
  | string items =>
    refine .cons ?_ (.append (absent_items k items ht) (.cons ?_ (.nil _ _)))
    · intro h
      refine not_key_prefix_items k.text (k.notMem rfl) (k.notMem rfl) items ht ?_
      simpa using (List.cons_prefix_cons.mp h).2
    · intro h
      obtain ⟨c, key, hkey⟩ := List.exists_cons_of_ne_nil k.nonempty
      have h1 := (List.cons_prefix_cons.mp h).2
      rw [hkey] at h1 hk
      cases tail with
      | nil => simp at h1
      | cons t tail =>
        exact hk (by rw [(List.cons_prefix_cons.mp h1).1]; rfl)
  | number lexeme =>
    apply absent_of_quote_notMem
    exact lexeme.notMem (by decide)

/-- Two texts without quotes are equal when the quotes after them line up. -/
theorem eq_of_quotes_aligned {a b x y : Str} (ha : '"' ∉ a) (hb : '"' ∉ b)
    (h : a ++ '"' :: x <+: b ++ '"' :: y) : a = b := by
  induction a generalizing b with
  | nil =>
    cases b with
    | nil => rfl
    | cons d b =>
      exact absurd (by rw [(List.cons_prefix_cons.mp h).1]; exact List.mem_cons_self) hb
  | cons c a ih =>
    cases b with
    | nil => exact absurd (by rw [(List.cons_prefix_cons.mp h).1]; exact List.mem_cons_self) ha
    | cons d b =>
      obtain ⟨rfl, htail⟩ := List.cons_prefix_cons.mp h
      rw [List.mem_cons, not_or] at ha hb
      rw [ih ha.2 hb.2 htail]

/-- Another key announces nothing, and what follows it is searched on its own. -/
theorem absent_key {name : Identifier} (hne : name.text ≠ k.text) {text rest : Str}
    (htext : Absent k.text text rest) :
    Absent k.text ('"' :: (name.text ++ '"' :: ':' :: text)) rest := by
  refine .cons ?_ (.append (absent_of_quote_notMem (name.notMem rfl) _)
    (.cons ?_ (.cons (not_announce_of_ne (by decide) _) htext)))
  · intro h
    have hp := (List.cons_prefix_cons.mp h).2
    rw [List.append_assoc] at hp
    exact hne (eq_of_quotes_aligned (k.notMem rfl) (name.notMem rfl) hp).symm
  · intro h
    obtain ⟨c, key, hkey⟩ := List.exists_cons_of_ne_nil k.nonempty
    have hp := (List.cons_prefix_cons.mp h).2
    rw [hkey] at hp
    have hc : ':' ∈ k.text := by
      rw [hkey, ← (List.cons_prefix_cons.mp hp).1]
      exact List.mem_cons_self
    exact k.notMem rfl hc

theorem Identifier.head_ne {c : Char} (hc : isIdentifierChar c = false) :
    some c ≠ k.text.head? := by
  intro h
  exact k.notMem hc (List.mem_of_mem_head? h.symm)

/-- What can follow a value: a comma or the closing brace. -/
def EndsValue (tail : Str) : Prop := tail.head? = some ',' ∨ tail.head? = some '}'

end JsonText
