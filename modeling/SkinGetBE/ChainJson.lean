import SkinGetBE.JsonLiterals
import SkinGetBE.Jwt

/-!
# Pairing up the quotes of a JSON text

A lexer of JSON and the scan for quotes go over the text side by side. They stay in
step until a quote is escaped: the scan takes it for the end of the text, and pairs
up every later quote with the wrong one.
-/
namespace Json
open Text

/-- What the scan has read since the last quote, when that one opened a text. -/
def Lexer.read : Lexer → Option Str
  | between | number _ _ | word _ _ => none
  | string items => some (raw items)
  | escape items => some (raw items ++ ['\\'])
  | unit items digits => some (raw items ++ '\\' :: 'u' :: digits)

/-- The elements of the literal that is being read. -/
def Lexer.items : Lexer → Literal
  | between | number _ _ | word _ _ => []
  | string items | escape items | unit items _ => items

/-- What a step of the lexer does to the texts between quotes. -/
inductive Lexer.StepCase (lexer : Lexer) (c : Char) (lexer' : Lexer) (ts : List Token) : Prop
  | outside (hc : c ≠ '"') (hread : lexer.read = none) (hitems : lexer.items = [])
      (hread' : lexer'.read = none) (hts : ts.flatMap Token.literals = [])
  | opens (hc : c = '"') (hread : lexer.read = none) (hitems : lexer.items = [])
      (hnext : lexer' = string []) (hts : ts.flatMap Token.literals = [])
  | closes (items : Literal) (hc : c = '"') (hlexer : lexer = string items)
      (hnext : lexer' = between) (hts : ts = [.scalar (.string items)])
  | inside (token : Str) (hc : c ≠ '"') (hread : lexer.read = some token)
      (hread' : lexer'.read = some (token ++ [c])) (hitems : lexer.items <+: lexer'.items)
      (hts : ts = [])
  | escapesQuote (items : Literal) (hc : c = '"') (hlexer : lexer = escape items)
      (hnext : lexer' = string (items ++ [.escape '"'])) (hts : ts = [])

theorem not_isDigit_quote {c : Char} (hc : c.isDigit = true) : c ≠ '"' := by
  rintro rfl
  contradiction

/-- A character between two tokens. -/
theorem start_cases {lexer lexer' : Lexer} {c : Char} {ts : List Token}
    (h : start c = some (lexer', ts)) (hread : lexer.read = none) (hitems : lexer.items = []) :
    lexer.StepCase c lexer' ts := by
  unfold start at h
  split at h
  case h_11 =>
    obtain ⟨rfl, rfl⟩ := Prod.mk.inj (Option.some.inj h)
    exact .opens rfl hread hitems rfl rfl
  case h_17 =>
    split at h
    · next hdigit =>
      obtain ⟨rfl, rfl⟩ := Prod.mk.inj (Option.some.inj h)
      exact .outside (not_isDigit_quote hdigit) hread hitems rfl rfl
    · contradiction
  all_goals
    obtain ⟨rfl, rfl⟩ := Prod.mk.inj (Option.some.inj h)
    exact .outside (by decide) hread hitems rfl rfl

theorem Phase.next_quote (phase : Phase) : phase.next '"' = none := by
  cases phase <;> rfl

theorem Word.letters_quote (w : Word) : '"' ∉ w.letters := by
  cases w with
  | null => decide
  | bool b => cases b <;> decide

/-- A complete number in front changes nothing about the literals. -/
theorem Lexer.StepCase.number {lexer lexer' : Lexer} {c : Char} {ts : List Token}
    (h : lexer.StepCase c lexer' ts) (hread : lexer.read = none) (text : Str) :
    lexer.StepCase c lexer' (.scalar (.number text) :: ts) := by
  cases h with
  | outside hc hread hitems hread' hts => exact .outside hc hread hitems hread' hts
  | opens hc hread hitems hnext hts => exact .opens hc hread hitems hnext hts
  | closes items hc hlexer hnext hts =>
    rw [hlexer] at hread
    contradiction
  | inside token hc hread' =>
    rw [hread] at hread'
    contradiction
  | escapesQuote items hc hlexer hnext hts =>
    rw [hlexer] at hread
    contradiction

theorem Lexer.step_cases {lexer lexer' : Lexer} {c : Char} {ts : List Token}
    (h : lexer.step c = some (lexer', ts)) : lexer.StepCase c lexer' ts := by
  cases lexer with
  | between => exact start_cases h rfl rfl
  | string items =>
    rw [step] at h
    split at h
    · next hc =>
      obtain ⟨rfl, rfl⟩ := Prod.mk.inj (Option.some.inj h)
      exact .closes items hc rfl rfl rfl
    next hc =>
    split at h
    · next hslash =>
      obtain ⟨rfl, rfl⟩ := Prod.mk.inj (Option.some.inj h)
      exact .inside (raw items) hc rfl (by rw [hslash]; rfl) List.prefix_rfl rfl
    split at h
    · contradiction
    obtain ⟨rfl, rfl⟩ := Prod.mk.inj (Option.some.inj h)
    exact .inside (raw items) hc rfl (by simp [read, Item.render]) (List.prefix_append items _) rfl
  | escape items =>
    rw [step] at h
    by_cases hc : c = '"'
    · subst hc
      obtain ⟨rfl, rfl⟩ := Prod.mk.inj (Option.some.inj h)
      exact .escapesQuote items rfl rfl rfl rfl
    split at h
    · next hu =>
      obtain ⟨rfl, rfl⟩ := Prod.mk.inj (Option.some.inj h)
      exact .inside _ hc rfl (by simp [read, hu]) List.prefix_rfl rfl
    split at h
    · obtain ⟨rfl, rfl⟩ := Prod.mk.inj (Option.some.inj h)
      exact .inside _ hc rfl (by simp [read, Item.render]) (List.prefix_append items _) rfl
    · contradiction
  | unit items digits =>
    rw [step] at h
    split at h
    · contradiction
    next hhex =>
    have hc : c ≠ '"' := by
      rintro rfl
      exact hhex (by decide)
    split at h
    · obtain ⟨rfl, rfl⟩ := Prod.mk.inj (Option.some.inj h)
      exact .inside _ hc rfl (by simp [read]) List.prefix_rfl rfl
    · obtain ⟨rfl, rfl⟩ := Prod.mk.inj (Option.some.inj h)
      exact .inside _ hc rfl (by simp [read, Item.render]) (List.prefix_append items _) rfl
  | number phase text =>
    rw [step] at h
    split at h
    · next next hnext =>
      obtain ⟨rfl, rfl⟩ := Prod.mk.inj (Option.some.inj h)
      have hc : c ≠ '"' := by
        rintro rfl
        rw [Phase.next_quote] at hnext
        contradiction
      exact .outside hc rfl rfl rfl rfl
    split at h
    · obtain ⟨⟨lexer, ts⟩, hstart, hout⟩ := Option.map_eq_some_iff.mp h
      obtain ⟨rfl, rfl⟩ := Prod.mk.inj hout
      exact (start_cases hstart rfl rfl).number rfl text
    · contradiction
  | word w read =>
    rw [step] at h
    split at h
    · contradiction
    next hletter =>
    have hc : c ≠ '"' := by
      rintro rfl
      exact w.letters_quote (List.mem_of_getElem? (not_not.mp hletter))
    split at h
    · obtain ⟨rfl, rfl⟩ := Prod.mk.inj (Option.some.inj h)
      exact .outside hc rfl rfl rfl rfl
    · obtain ⟨rfl, rfl⟩ := Prod.mk.inj (Option.some.inj h)
      exact .outside hc rfl rfl rfl rfl

/-- The scan takes what the lexer hands out, unless an escaped quote stays in a literal. -/
theorem Lexer.step_read {lexer lexer' : Lexer} {c : Char} {ts : List Token}
    (h : lexer.step c = some (lexer', ts)) (s : Str) :
    Item.escape '"' ∈ lexer'.items ∨ quotedFrom lexer.read (c :: s) =
      (ts.flatMap Token.literals).map raw ++ quotedFrom lexer'.read s := by
  cases step_cases h with
  | outside hc hread hitems hread' hts =>
    right
    rw [hread, hread', hts, quotedFrom, if_neg hc]
    rfl
  | opens hc hread hitems hnext hts =>
    right
    rw [hread, hnext, hts, quotedFrom, if_pos hc]
    rfl
  | closes items hc hlexer hnext hts =>
    have hread : lexer.read = some (raw items) := by rw [hlexer, Lexer.read]
    right
    rw [hread, hnext, hts, quotedFrom, if_pos hc]
    rfl
  | inside token hc hread hread' hitems hts =>
    right
    rw [hread, hread', hts, quotedFrom, if_neg hc]
    rfl
  | escapesQuote items hc hlexer hnext hts =>
    left
    rw [hnext]
    exact List.mem_append_right items List.mem_cons_self

/-- The elements that have been read stay, in the literal that is read or in one that has been
handed out. -/
theorem Lexer.step_items {lexer lexer' : Lexer} {c : Char} {ts : List Token}
    (h : lexer.step c = some (lexer', ts)) :
    lexer.items <+: (ts.flatMap Token.literals).flatten ++ lexer'.items := by
  cases step_cases h with
  | outside hc hread hitems hread' hts =>
    rw [hitems]
    exact List.nil_prefix
  | opens hc hread hitems hnext hts =>
    rw [hitems]
    exact List.nil_prefix
  | closes items hc hlexer hnext hts =>
    rw [hlexer, hnext, hts]
    simp [Token.literals, Scalar.literals, Lexer.items]
  | inside token hc hread hread' hitems hts =>
    rw [hts]
    exact hitems
  | escapesQuote items hc hlexer hnext hts =>
    rw [hlexer, hnext, hts]
    exact List.prefix_append items _

theorem Lexer.run_cons {lexer lexer' : Lexer} {c : Char} {text : Str} {ts : List Token}
    (h : lexer.run (c :: text) = some (lexer', ts)) :
    ∃ next first rest, lexer.step c = some (next, first) ∧ next.run text = some (lexer', rest) ∧
      ts = first ++ rest := by
  obtain ⟨⟨next, first⟩, hstep, hrest⟩ := Option.bind_eq_some_iff.mp h
  obtain ⟨⟨last, rest⟩, hrun, hout⟩ := Option.map_eq_some_iff.mp hrest
  obtain ⟨rfl, rfl⟩ := Prod.mk.inj hout
  exact ⟨next, first, rest, hstep, hrun, rfl⟩

theorem Lexer.run_items {lexer lexer' : Lexer} {text : Str} {ts : List Token}
    (h : lexer.run text = some (lexer', ts)) :
    lexer.items ⊆ (ts.flatMap Token.literals).flatten ++ lexer'.items := by
  induction text generalizing lexer ts with
  | nil =>
    obtain ⟨rfl, rfl⟩ := Prod.mk.inj (Option.some.inj h)
    exact List.Subset.refl _
  | cons c text ih =>
    obtain ⟨next, first, rest, hstep, hrun, rfl⟩ := run_cons h
    intro i hi
    have hnext := (step_items hstep).subset hi
    rw [List.flatMap_append, List.flatten_append, List.append_assoc]
    rcases List.mem_append.mp hnext with hfirst | hitems
    · exact List.mem_append_left _ hfirst
    · exact List.mem_append_right _ (ih hrun hitems)

/-- As long as no quote is escaped, the scan takes the literals that the lexer hands out. -/
theorem Lexer.run_read {lexer lexer' : Lexer} {text : Str} {ts : List Token}
    (h : lexer.run text = some (lexer', ts))
    (hplain : Item.escape '"' ∉ (ts.flatMap Token.literals).flatten ++ lexer'.items) :
    quotedFrom lexer.read text = (ts.flatMap Token.literals).map raw := by
  induction text generalizing lexer ts with
  | nil =>
    obtain ⟨rfl, rfl⟩ := Prod.mk.inj (Option.some.inj h)
    rw [quotedFrom]
    rfl
  | cons c text ih =>
    obtain ⟨next, first, rest, hstep, hrun, rfl⟩ := run_cons h
    rw [List.flatMap_append, List.flatten_append, List.append_assoc, List.mem_append, not_or]
      at hplain
    have hread := (step_read hstep text).resolve_left fun hquote =>
      hplain.2 (run_items hrun hquote)
    rw [hread, ih hrun hplain.2, List.flatMap_append, List.map_append]

/-- The end of a text completes no literal, and no literal is left open. -/
theorem Lexer.finish_literals {lexer : Lexer} {ts : List Token} (h : lexer.finish = some ts) :
    ts.flatMap Token.literals = [] ∧ lexer.items = [] := by
  cases lexer with
  | between =>
    obtain rfl := Option.some.inj h
    exact ⟨rfl, rfl⟩
  | number phase text =>
    rw [finish] at h
    split at h
    · obtain rfl := Option.some.inj h
      exact ⟨rfl, rfl⟩
    · contradiction
  | string items => contradiction
  | escape items => contradiction
  | unit items digits => contradiction
  | word w read => contradiction

/-- The scan takes exactly the literals of a JSON text, unless one of them escapes a quote. -/
theorem quoted_literals_iff {text : Str} {v : Value} (h : parse text = some v) :
    quoted text = v.literals.map raw ↔ ∀ literal ∈ v.literals, .escape '"' ∉ literal := by
  obtain ⟨ts, htokens, hread⟩ := Option.bind_eq_some_iff.mp h
  obtain ⟨⟨lexer, first⟩, hrun, hfinish⟩ := Option.bind_eq_some_iff.mp htokens
  obtain ⟨last, hlast, rfl⟩ := Option.map_eq_some_iff.mp hfinish
  obtain ⟨hnone, hitems⟩ := Lexer.finish_literals hlast
  have hliterals : v.literals = first.flatMap Token.literals := by
    rw [readTokens_literals hread, List.flatMap_append, hnone, List.append_nil]
  constructor
  · intro heq literal hliteral hmem
    have hquoted : raw literal ∈ quoted text := heq ▸ List.mem_map_of_mem hliteral
    refine quotedFrom_notMem (by simp) _ hquoted (List.mem_flatMap.mpr ⟨_, hmem, ?_⟩)
    simp [Item.render]
  · intro hplain
    rw [quoted, hliterals]
    refine Lexer.run_read hrun ?_
    rw [hitems, List.append_nil, ← hliterals, List.mem_flatten]
    rintro ⟨literal, hliteral, hmem⟩
    exact hplain literal hliteral hmem

end Json

namespace SkinGetBE
open Text

/-- The payloads of a chain that is a JSON text. The scan takes its literals, and only them, exactly
when no literal escapes a quote; then it finds the payload of every token among them. -/
theorem parseAuthChain_literals (engines : Base64Engines) (chainJson : Str) (v : Json.Value)
    (h : Json.parse chainJson = some v) :
    (quoted chainJson = v.literals.map Json.raw ↔ ∀ literal ∈ v.literals, .escape '"' ∉ literal) ∧
      ((∀ literal ∈ v.literals, .escape '"' ∉ literal) →
        parseAuthChain engines chainJson =
          some (.ok ((v.literals.map Json.raw).filterMap (authPayload engines)))) := by
  have hquoted := Json.quoted_literals_iff h
  refine ⟨hquoted, fun hplain => ?_⟩
  rw [parseAuthChain_eq, hquoted.mpr hplain]

/-- A key with an escaped tabulator, a quote written as a code unit, and a token. -/
def plainChain : Str := "\x7b\"\\t\":[\"\\u0022\",1.5],\"t\":\"h.e30.s\"\x7d".toList

theorem parseAuthChain_literals_plain : ∃ v, Json.parse plainChain = some v ∧
    parseAuthChain strictEngines plainChain =
      some (.ok ((v.literals.map Json.raw).filterMap (authPayload strictEngines))) := by
  have hliterals : (Json.parse plainChain).map (·.literals) =
      some [[.escape 't'], [.unit "0022".toList], [.char 't'],
        "h.e30.s".toList.map Json.Item.char] := by decide +kernel
  obtain ⟨v, hv, hitems⟩ := Option.map_eq_some_iff.mp hliterals
  refine ⟨v, hv, (parseAuthChain_literals strictEngines plainChain v hv).2 ?_⟩
  rw [hitems]
  simp

/-- One escaped quote in front of a token. -/
def escapedQuoteChain : Str := "\x7b\"a\":\"\\\"\",\"t\":\"h.e30.s\"\x7d".toList

/-- The scan pairs up the wrong quotes and never sees the token. -/
theorem parseAuthChain_escapedQuote : ∃ v, Json.parse escapedQuoteChain = some v ∧
    (v.literals.map Json.raw).filterMap (authPayload strictEngines) = ["\x7b\x7d".toList] ∧
    parseAuthChain strictEngines escapedQuoteChain = some (.ok []) := by
  have hliterals : (Json.parse escapedQuoteChain).map (·.literals.map Json.raw) =
      some ["a".toList, ['\\', '"'], "t".toList, "h.e30.s".toList] := by decide +kernel
  obtain ⟨v, hv, hraw⟩ := Option.map_eq_some_iff.mp hliterals
  refine ⟨v, hv, ?_, by decide +kernel⟩
  rw [hraw]
  decide +kernel

end SkinGetBE
