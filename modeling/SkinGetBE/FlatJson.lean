import SkinGetBE.JsonText
import SkinGetBE.Jwt

/-!
# Looking up a member of a flat object

The objects here have white space wherever a printer may put it, except before a
colon. The lookup is a search for the quoted key and its colon: within such a text
these stand together only where a member begins.
-/
namespace SkinGetBE
open Text JsonText

abbrev Space := {s : Str // s.all isWhitespace = true}

/-- A value that is not a string: no character of it ends it. -/
structure Scalar where
  text : Str
  nonempty : text ≠ []
  chars : ∀ c ∈ text, c ∉ [',', '}', ']', '"'] ∧ isWhitespace c = false

inductive FlatValue
  | string (items : List Item)
  | scalar (s : Scalar)

namespace FlatValue

/-- The text between the quotes, escapes kept, or the text of the scalar. -/
def raw : FlatValue → Str
  | string items => renderItems items
  | scalar s => s.text

def render : FlatValue → Str
  | string items => '"' :: (renderItems items ++ ['"'])
  | scalar s => s.text

/-- What may stand between the value and the comma or brace after it. -/
def EndsWith (v : FlatValue) (trail : Str) : Prop :=
  match v with
  | string _ => True
  | scalar _ => trail = [] ∨ trail.head? = some ' '

end FlatValue

structure FlatMember where
  lead : Space
  key : Identifier
  gap : Space
  value : FlatValue
  trail : Space
  ends : value.EndsWith trail.1

def FlatMember.render (m : FlatMember) : Str :=
  m.lead.1 ++ '"' :: (m.key.text ++ '"' :: ':' :: (m.gap.1 ++ (m.value.render ++ m.trail.1)))

/-- Members between commas, then the closing brace. -/
def renderFlat : List FlatMember → Str
  | [] => ['}']
  | [m] => m.render ++ ['}']
  | m :: n :: rest => m.render ++ ',' :: renderFlat (n :: rest)

structure FlatObject where
  before : Space
  pad : Space
  members : List FlatMember
  after : Space

def FlatObject.render (o : FlatObject) : Str :=
  o.before.1 ++ '{' :: (o.pad.1 ++ (renderFlat o.members ++ o.after.1))

theorem Space.mem {s : Space} {c : Char} (h : c ∈ s.1) : isWhitespace c = true :=
  List.all_eq_true.mp s.2 c h

theorem Space.notMem (s : Space) {c : Char} (hc : isWhitespace c = false) : c ∉ s.1 := by
  intro h
  rw [Space.mem h] at hc
  contradiction

theorem isIdentifierChar_range {c : Char} (h : isIdentifierChar c = true) :
    48 ≤ c.toNat ∧ c.toNat ≤ 122 := by
  rw [isIdentifierChar, isAsciiAlphanumeric] at h
  delta Char.isAlphanum Char.isAlpha Char.isUpper Char.isLower Char.isDigit at h
  simp only [Bool.or_eq_true, Bool.and_eq_true, decide_eq_true_eq, beq_iff_eq] at h
  change (((65 ≤ c.toNat ∧ c.toNat ≤ 90) ∨ (97 ≤ c.toNat ∧ c.toNat ≤ 122)) ∨
    (48 ≤ c.toNat ∧ c.toNat ≤ 57)) ∨ c = '_' at h
  rcases h with ((h | h) | h) | rfl
  · omega
  · omega
  · omega
  · decide

theorem isIdentifierChar_isWhitespace {c : Char} (h : isWhitespace c = true) :
    isIdentifierChar c = false := by
  by_contra hid
  have hrange := isIdentifierChar_range (Bool.not_eq_false _ ▸ hid)
  simp only [isWhitespace, Bool.or_eq_true, Bool.and_eq_true, decide_eq_true_eq, beq_iff_eq] at h
  omega

/-- What follows a value: white space, and then a comma or the closing brace. -/
def FollowsValue (tail : Str) : Prop :=
  ∃ (trail : Space) (c : Char) (rest : Str), tail = trail.1 ++ c :: rest ∧ (c = ',' ∨ c = '}')

theorem FollowsValue.head {tail : Str} (h : FollowsValue tail) :
    ∃ c, tail.head? = some c ∧ (isWhitespace c = true ∨ c = ',' ∨ c = '}') := by
  obtain ⟨⟨trail, htrail⟩, c, rest, rfl, hc⟩ := h
  cases trail with
  | nil => exact ⟨c, rfl, .inr hc⟩
  | cons d trail => exact ⟨d, rfl, .inl (List.all_eq_true.mp htrail d List.mem_cons_self)⟩

theorem FollowsValue.ne_colon {tail : Str} (h : FollowsValue tail) : tail.head? ≠ some ':' := by
  obtain ⟨c, hhead, hc⟩ := h.head
  rw [hhead]
  rintro ⟨⟩
  rcases hc with hc | hc | hc
  · exact absurd hc (by decide)
  · exact absurd hc (by decide)
  · exact absurd hc (by decide)

theorem FollowsValue.ne_key {tail : Str} (h : FollowsValue tail) (k : Identifier) :
    tail.head? ≠ k.text.head? := by
  obtain ⟨c, hhead, hc⟩ := h.head
  rw [hhead]
  apply k.head_ne
  rcases hc with hc | rfl | rfl
  · exact isIdentifierChar_isWhitespace hc
  · rfl
  · rfl

variable (k : Identifier)

theorem absent_flatValue (v : FlatValue) {tail : Str} (h : FollowsValue tail) :
    Absent k.text v.render tail := by
  cases v with
  | string items => exact absent_value k (.string items) h.ne_colon (h.ne_key k)
  | scalar s => exact absent_of_quote_notMem (fun hq => (s.chars _ hq).1 (by simp)) tail

theorem absent_space (s : Space) (rest : Str) : Absent k.text s.1 rest :=
  absent_of_quote_notMem (s.notMem rfl) rest

theorem absent_flatMember {m : FlatMember} (hne : m.key.text ≠ k.text) {c : Char} (rest : Str)
    (hc : c = ',' ∨ c = '}') : Absent k.text m.render (c :: rest) := by
  refine .append (absent_space k m.lead _) (absent_key k hne ?_)
  refine .append (absent_space k m.gap _) (.append ?_ (absent_space k m.trail _))
  exact absent_flatValue k m.value ⟨m.trail, c, rest, rfl, hc⟩

/-- Where the text of an object ends, nothing announces a key. -/
theorem absent_close (after : Space) : Absent k.text ('}' :: after.1) [] :=
  .cons (not_announce_of_ne (by decide) _) (absent_space k after [])

/-- An object whose members have other keys announces nothing. -/
theorem absent_renderFlat {members : List FlatMember} (hne : ∀ m ∈ members, m.key.text ≠ k.text)
    (after : Space) : Absent k.text (renderFlat members ++ after.1) [] := by
  induction members with
  | nil => exact absent_close k after
  | cons m members ih =>
    have hm := hne m List.mem_cons_self
    cases members with
    | nil =>
      rw [renderFlat, List.append_assoc]
      refine .append ?_ (absent_close k after)
      rw [List.append_nil]
      exact absent_flatMember k hm after.1 (.inr rfl)
    | cons n rest =>
      rw [renderFlat, List.append_assoc]
      refine .append ?_ (.cons (not_announce_of_ne (by decide) _)
        (ih fun x hx => hne x (List.mem_cons_of_mem _ hx)))
      rw [List.append_nil]
      exact absent_flatMember k hm _ (.inl rfl)

/-- The members up to the first one with a key announce no key but that one. -/
theorem renderFlat_split {before rest : List FlatMember} {m : FlatMember}
    (hkey : m.key.text = k.text) (hne : ∀ b ∈ before, b.key.text ≠ k.text) (after : Space) :
    ∃ pre tail, renderFlat (before ++ m :: rest) ++ after.1 =
        pre ++ (announce k.text ++ (m.gap.1 ++ (m.value.render ++ (m.trail.1 ++ tail)))) ∧
      EndsValue tail ∧
      Absent k.text pre
        (announce k.text ++ (m.gap.1 ++ (m.value.render ++ (m.trail.1 ++ tail)))) := by
  induction before with
  | nil =>
    cases rest with
    | nil =>
      refine ⟨m.lead.1, '}' :: after.1, ?_, .inr rfl, absent_space k m.lead _⟩
      simp [renderFlat, FlatMember.render, announce, hkey]
    | cons n rest =>
      refine ⟨m.lead.1, ',' :: (renderFlat (n :: rest) ++ after.1), ?_, .inl rfl,
        absent_space k m.lead _⟩
      simp [renderFlat, FlatMember.render, announce, hkey]
  | cons b before ih =>
    obtain ⟨pre, tail, heq, hend, habs⟩ := ih fun c hc => hne c (List.mem_cons_of_mem _ hc)
    have hcons : renderFlat (b :: (before ++ m :: rest)) =
        b.render ++ ',' :: renderFlat (before ++ m :: rest) := by
      cases before <;> rfl
    refine ⟨b.render ++ ',' :: pre, tail, ?_, hend, ?_⟩
    · rw [List.cons_append, hcons, List.append_assoc, List.cons_append, heq]
      simp
    · refine .append ?_ (.cons (not_announce_of_ne (by decide) _) habs)
      exact absent_flatMember k (hne b List.mem_cons_self) _ (.inl rfl)

theorem trimStart_space (s : Space) {c : Char} (hc : isWhitespace c = false) (rest : Str) :
    trimStart (s.1 ++ c :: rest) = c :: rest := by
  rw [trimStart, List.dropWhile_append_of_pos fun d hd => Space.mem hd, List.dropWhile_cons,
    if_neg (by rw [hc]; exact Bool.false_ne_true)]

/-- Between quotes the loop collects what is written, up to the quote that nothing escapes. -/
theorem stringValueLoop_items (items : List Item) (value tail : Str) :
    JWT.stringValueLoop (renderItems items ++ '"' :: tail) value false =
      some (value ++ renderItems items) := by
  induction items generalizing value with
  | nil => simp [JWT.stringValueLoop]
  | cons i items ih =>
    cases i with
    | plain c hq hb =>
      have hcq : (c == '"') = false := by simpa using hq
      have hcb : (c == '\\') = false := by simpa using hb
      simp [Item.render, JWT.stringValueLoop, hcq, hcb, ih]
    | escaped c => simp [Item.render, JWT.stringValueLoop, ih]

theorem valueAt_scalar {d : Char} (hd : d ≠ '"') (ds : Str) :
    JWT.valueAt (d :: ds) =
      let value := (d :: ds).takeWhile (!JWT.isDelimiter ·)
      if value.isEmpty then none else some value := by
  unfold JWT.valueAt
  split
  · next inner heq => exact absurd (List.cons.inj heq).1 hd
  · rfl

theorem takeWhile_scalar (s : Scalar) {rest : Str}
    (hrest : rest.head? = some ',' ∨ rest.head? = some '}' ∨ rest.head? = some ' ') :
    (s.text ++ rest).takeWhile (!JWT.isDelimiter ·) = s.text := by
  have hstop : rest.takeWhile (!JWT.isDelimiter ·) = [] := by
    rcases hrest with h | h | h
    all_goals
      obtain ⟨tail, rfl⟩ := List.head?_eq_some_iff.mp h
      rfl
  rw [List.takeWhile_append_of_pos, hstop, List.append_nil]
  intro c hc
  obtain ⟨hnot, hspace⟩ := s.chars c hc
  have hblank : c ≠ ' ' := by
    rintro rfl
    exact absurd hspace (by decide)
  simp only [List.mem_cons, List.not_mem_nil, or_false, not_or] at hnot
  simp [JWT.isDelimiter, hnot, hblank]

theorem valueAt_flat (m : FlatMember) {tail : Str} (htail : EndsValue tail) :
    JWT.valueAt (trimStart (m.gap.1 ++ (m.value.render ++ (m.trail.1 ++ tail)))) =
      some m.value.raw := by
  obtain ⟨lead, key, gap, value, trail, ends⟩ := m
  cases value with
  | string items =>
    have hloop := stringValueLoop_items items [] (trail.1 ++ tail)
    dsimp only [FlatValue.render, FlatValue.raw]
    rw [List.cons_append, trimStart_space gap rfl, List.append_assoc, List.singleton_append]
    exact hloop
  | scalar s =>
    obtain ⟨d, ds, hd⟩ := List.exists_cons_of_ne_nil s.nonempty
    have hchars := s.chars d (by rw [hd]; exact List.mem_cons_self)
    have hrest : (trail.1 ++ tail).head? = some ',' ∨ (trail.1 ++ tail).head? = some '}' ∨
        (trail.1 ++ tail).head? = some ' ' := by
      rcases ends with hnil | hblank
      · rw [hnil, List.nil_append]
        exact htail.imp_right .inl
      · obtain ⟨blanks, hblanks⟩ := List.head?_eq_some_iff.mp hblank
        rw [hblanks]
        exact .inr (.inr rfl)
    have hquote : d ≠ '"' := by
      rintro rfl
      exact hchars.1 (by simp)
    have htake := takeWhile_scalar s hrest
    dsimp only [FlatValue.render, FlatValue.raw]
    rw [hd] at htake ⊢
    rw [List.cons_append, trimStart_space gap hchars.2, valueAt_scalar hquote, ← List.cons_append,
      htake]
    rfl

theorem getJsonValue_flat (o : FlatObject) (k : Identifier) :
    JWT.getJsonValue o.render k.text =
      some ((o.members.find? (·.key.text = k.text)).map (·.value.raw)) := by
  have hopen (text rest : Str) (h : Absent k.text text rest) :
      Absent k.text (o.before.1 ++ '{' :: (o.pad.1 ++ text)) rest :=
    .append (absent_space k o.before _)
      (.cons (not_announce_of_ne (by decide) _) (.append (absent_space k o.pad _) h))
  cases hfind : o.members.find? (·.key.text = k.text) with
  | none =>
    have hne : ∀ m ∈ o.members, m.key.text ≠ k.text := by simpa using hfind
    have hnone : findStr (JWT.searchKey k.text) o.render = none :=
      findStr_none (by simp [JWT.searchKey]) fun u v huv hv hbefore =>
        hopen _ [] (absent_renderFlat k hne o.after) u v huv hv
          (by rw [List.append_nil]; exact hbefore)
    simp [JWT.getJsonValue, hnone]
  | some m =>
    obtain ⟨hkey, before, rest, hmembers, hbefore⟩ := List.find?_eq_some_iff_append.mp hfind
    have hne : ∀ b ∈ before, b.key.text ≠ k.text := by simpa using hbefore
    have hsplit := @renderFlat_split k before rest m (by simpa using hkey) hne o.after
    obtain ⟨pre, tail, heq, hend, habs⟩ := hsplit
    have hrender : o.render = o.before.1 ++ '{' :: (o.pad.1 ++ pre) ++ (JWT.searchKey k.text ++
        (m.gap.1 ++ (m.value.render ++ (m.trail.1 ++ tail)))) := by
      rw [FlatObject.render, hmembers, heq]
      simp [JWT.searchKey, announce]
    have hstr : findStr (JWT.searchKey k.text) o.render =
        some (byteLen (o.before.1 ++ '{' :: (o.pad.1 ++ pre))) := by
      rw [hrender]
      exact findStr_append (hopen pre _ habs)
    have hslice := sliceFrom_append (o.before.1 ++ '{' :: (o.pad.1 ++ pre) ++ JWT.searchKey k.text)
      (m.gap.1 ++ (m.value.render ++ (m.trail.1 ++ tail)))
    rw [byteLen_append, List.append_assoc, ← hrender] at hslice
    simp only [JWT.getJsonValue, hstr, hslice, Option.bind_eq_bind, Option.bind_some,
      valueAt_flat m hend, Option.map_some]

/-- The lookup finds nothing exactly when no member has the key, and otherwise the value of the
first member that has it, as it is written. -/
theorem getJsonValue_firstMember (o : FlatObject) (k : Identifier) : ∃ found,
    JWT.getJsonValue o.render k.text = some found ∧
      (found = none ↔ ∀ m ∈ o.members, m.key.text ≠ k.text) ∧
      ∀ before m after, o.members = before ++ m :: after → m.key.text = k.text →
        (∀ b ∈ before, b.key.text ≠ k.text) → found = some m.value.raw := by
  refine ⟨_, getJsonValue_flat o k, by simp, ?_⟩
  intro before m after hmembers hkey hbefore
  have hfind : o.members.find? (·.key.text = k.text) = some m := by
    rw [List.find?_eq_some_iff_append]
    exact ⟨by simpa using hkey, before, after, hmembers, by simpa using hbefore⟩
  rw [hfind, Option.map_some]

/-- No white space. -/
def noSpace : Space := ⟨[], rfl⟩

theorem scalar_chars (l : Lexeme) :
    ∀ c ∈ l.text, c ∉ [',', '}', ']', '"'] ∧ isWhitespace c = false := by
  intro c hc
  have hnum := List.all_eq_true.mp l.chars c hc
  refine ⟨fun hmem => ?_, isWhitespace_of_isNumberChar hnum⟩
  simp only [List.mem_cons, List.not_mem_nil, or_false] at hmem
  rcases hmem with rfl | rfl | rfl | rfl
  all_goals exact absurd hnum (by decide)

def flatValue : JsonText.Value → FlatValue
  | .string items => .string items
  | .number lexeme => .scalar ⟨lexeme.text, lexeme.nonempty, scalar_chars lexeme⟩

theorem flatValue_endsWith (v : JsonText.Value) : (flatValue v).EndsWith [] := by
  cases v with
  | string items => trivial
  | number lexeme => exact .inl rfl

def flatMember (m : Member) : FlatMember :=
  ⟨noSpace, m.key, noSpace, flatValue m.value, noSpace, flatValue_endsWith m.value⟩

theorem flatMember_render (m : Member) : (flatMember m).render = m.render := by
  obtain ⟨key, value⟩ := m
  cases value <;>
    simp [FlatMember.render, flatMember, noSpace, flatValue, FlatValue.render, Member.render,
      JsonText.Value.render]

theorem renderFlat_flatMember (members : List Member) :
    renderFlat (members.map flatMember) = renderMembers members := by
  induction members with
  | nil => rfl
  | cons m members ih =>
    cases members with
    | nil => simp [renderFlat, renderMembers, flatMember_render]
    | cons n rest =>
      rw [List.map_cons, List.map_cons, renderFlat, ← List.map_cons, ih, flatMember_render,
        renderMembers]

theorem getJsonValue_member {members : List Member} (hkeys : (members.map (·.key.text)).Nodup)
    {m : Member} (hm : m ∈ members) :
    JWT.getJsonValue (render members) m.key.text = some (some m.value.raw) := by
  obtain ⟨before, rest, rfl⟩ := List.append_of_mem hm
  have hne : ∀ b ∈ before, b.key.text ≠ m.key.text := by
    intro b hb heq
    rw [List.map_append, List.map_cons] at hkeys
    exact (List.nodup_append.mp hkeys).2.2 _ (List.mem_map_of_mem hb) _ List.mem_cons_self heq
  have hfind : ((before ++ m :: rest).map flatMember).find? (·.key.text = m.key.text) =
      some (flatMember m) := by
    rw [List.find?_eq_some_iff_append]
    refine ⟨by simp [flatMember], before.map flatMember, rest.map flatMember, by simp, ?_⟩
    simpa [flatMember] using hne
  have hflat := getJsonValue_flat
    ⟨noSpace, noSpace, (before ++ m :: rest).map flatMember, noSpace⟩ m.key
  have hraw : (flatMember m).value.raw = m.value.raw := by
    obtain ⟨key, value⟩ := m
    cases value <;> rfl
  rw [hfind, FlatObject.render, renderFlat_flatMember, Option.map_some, hraw] at hflat
  simpa [noSpace, render] using hflat

end SkinGetBE
