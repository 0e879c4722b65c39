import SkinGetBE.Text

/-!
# Pairing up quotes

The texts between the first quote and the second, the third and the fourth, and so
on. Nothing escapes a quote here. A quote without a partner ends the scan.
-/
namespace Text

/-- The scan between two texts, or inside one of which this much has been read. -/
def quotedFrom : Option Str → Str → List Str
  | _, [] => []
  | none, c :: s => if c = '"' then quotedFrom (some []) s else quotedFrom none s
  | some token, c :: s =>
    if c = '"' then token :: quotedFrom none s else quotedFrom (some (token ++ [c])) s

def quoted (s : Str) : List Str := quotedFrom none s

theorem quotedFrom_none_append {skipped : Str} (h : '"' ∉ skipped) (s : Str) :
    quotedFrom none (skipped ++ s) = quotedFrom none s := by
  induction skipped with
  | nil => rfl
  | cons c skipped ih =>
    rw [List.mem_cons, not_or] at h
    rw [List.cons_append, quotedFrom, if_neg (Ne.symm h.1), ih h.2]

theorem quotedFrom_some_append (token : Str) {body : Str} (h : '"' ∉ body) (s : Str) :
    quotedFrom (some token) (body ++ s) = quotedFrom (some (token ++ body)) s := by
  induction body generalizing token with
  | nil => rw [List.append_nil, List.nil_append]
  | cons c body ih =>
    rw [List.mem_cons, not_or] at h
    rw [List.cons_append, quotedFrom, if_neg (Ne.symm h.1), ih (token ++ [c]) h.2,
      List.append_assoc, List.singleton_append]

theorem quoted_of_notMem {s : Str} (h : '"' ∉ s) : quoted s = [] := by
  have hskip := quotedFrom_none_append h []
  rwa [List.append_nil] at hskip

theorem quoted_open {skipped body : Str} (hs : '"' ∉ skipped) (hb : '"' ∉ body) :
    quoted (skipped ++ '"' :: body) = [] := by
  have hbody := quotedFrom_some_append [] hb []
  rw [List.append_nil] at hbody
  rw [quoted, quotedFrom_none_append hs, quotedFrom, if_pos rfl, hbody]
  rfl

theorem quoted_token {skipped token : Str} (hs : '"' ∉ skipped) (ht : '"' ∉ token) (after : Str) :
    quoted (skipped ++ '"' :: (token ++ '"' :: after)) = token :: quoted after := by
  rw [quoted, quotedFrom_none_append hs, quotedFrom, if_pos rfl, quotedFrom_some_append [] ht,
    List.nil_append, quotedFrom, if_pos rfl, quoted]

theorem quotedFrom_notMem {state : Option Str} {s : Str} (h : ∀ token ∈ state, '"' ∉ token) :
    ∀ token ∈ quotedFrom state s, '"' ∉ token := by
  induction s generalizing state with
  | nil => simp [quotedFrom]
  | cons c s ih =>
    cases state with
    | none =>
      rw [quotedFrom]
      split
      · exact ih (by simp)
      · exact ih (by simp)
    | some read =>
      have hread : '"' ∉ read := h read rfl
      rw [quotedFrom]
      split
      · intro token htoken
        rcases List.mem_cons.mp htoken with rfl | htoken
        · exact hread
        · exact ih (by simp) token htoken
      · next hc =>
        refine ih fun token htoken => ?_
        obtain rfl : read ++ [c] = token := by simpa using htoken
        rw [List.mem_append, List.mem_singleton, not_or]
        exact ⟨hread, Ne.symm hc⟩

theorem quotedFrom_byteLen_le {state : Option Str} {s : Str} :
    ∀ token ∈ quotedFrom state s, byteLen token ≤ byteLen (state.getD []) + byteLen s := by
  induction s generalizing state with
  | nil => simp [quotedFrom]
  | cons c s ih =>
    intro token htoken
    rw [byteLen_cons]
    cases state with
    | none =>
      rw [quotedFrom] at htoken
      split at htoken
      · have hle := ih token htoken
        rw [Option.getD_some, byteLen_nil] at hle
        omega
      · have hle := ih token htoken
        omega
    | some read =>
      rw [quotedFrom] at htoken
      rw [Option.getD_some]
      split at htoken
      · rcases List.mem_cons.mp htoken with rfl | htoken
        · omega
        · have hle := ih token htoken
          rw [Option.getD_none, byteLen_nil] at hle
          omega
      · have hle := ih token htoken
        rw [Option.getD_some, byteLen_append, byteLen_cons, byteLen_nil] at hle
        omega

theorem quoted_byteLen_le {s token : Str} (h : token ∈ quoted s) : byteLen token ≤ byteLen s := by
  have hle := quotedFrom_byteLen_le token h
  rwa [Option.getD_none, byteLen_nil, Nat.zero_add] at hle

/-- One round of a scan of `text` that stands at `tail`, with the searches and the slices that
it makes. -/
inductive ScanRound (text : Str) (pos : ℕ) (tail : Str) : Prop
  | done (hfind : findChar (· == '"') tail = none) (hquoted : quoted tail = [])
  | unclosed (opening : ℕ) (body : Str) (hfind : findChar (· == '"') tail = some opening)
      (hbody : sliceFrom text (pos + opening + 1) = some body)
      (hclose : findChar (· == '"') body = none) (hquoted : quoted tail = [])
  | token (opening : ℕ) (body : Str) (closing : ℕ) (token before after : Str)
      (hfind : findChar (· == '"') tail = some opening)
      (hbody : sliceFrom text (pos + opening + 1) = some body)
      (hclose : findChar (· == '"') body = some closing)
      (htoken : slice text (pos + opening + 1) (pos + opening + 1 + closing) = some token)
      (hnext : text = before ++ after) (hpos : byteLen before = pos + opening + 1 + closing + 1)
      (hquoted : quoted tail = token :: quoted after) (hshort : after.length < tail.length)

theorem quote_notMem_of_find {s : Str} (h : ∀ c ∈ s, (c == '"') = false) : '"' ∉ s := by
  intro hmem
  have := h _ hmem
  simp at this

theorem findChar_none {p : Char → Bool} {s : Str} (h : findChar p s = none) :
    ∀ c ∈ s, p c = false := by
  induction s with
  | nil => simp
  | cons c s ih =>
    cases hc : p c with
    | true => simp [findChar, hc] at h
    | false =>
      have hs : findChar p s = none := by simpa [findChar, hc] using h
      intro d hd
      rcases List.mem_cons.mp hd with rfl | hd
      · exact hc
      · exact ih hs d hd

theorem scanRound {text before tail : Str} (htext : text = before ++ tail) :
    ScanRound text (byteLen before) tail := by
  have hq : '"'.utf8Size = 1 := rfl
  cases hfind : findChar (· == '"') tail with
  | none => exact .done hfind (quoted_of_notMem (quote_notMem_of_find (findChar_none hfind)))
  | some opening =>
    obtain ⟨skipped, c, body, rfl, rfl, hc, hskipped⟩ := findChar_eq_some hfind
    obtain rfl : c = '"' := by simpa using hc
    have hs := quote_notMem_of_find hskipped
    have hpos : byteLen (before ++ skipped ++ ['"']) = byteLen before + byteLen skipped + 1 := by
      simp [hq, Nat.add_assoc]
    have hbody : sliceFrom text (byteLen before + byteLen skipped + 1) = some body := by
      rw [← hpos, htext, List.append_cons, ← List.append_assoc, ← List.append_assoc]
      exact sliceFrom_append _ _
    cases hclose : findChar (· == '"') body with
    | none =>
      have hb := quote_notMem_of_find (findChar_none hclose)
      exact .unclosed _ body hfind hbody hclose (quoted_open hs hb)
    | some closing =>
      obtain ⟨token, c, after, rfl, rfl, hc, htoken⟩ := findChar_eq_some hclose
      obtain rfl : c = '"' := by simpa using hc
      refine .token _ _ _ token (before ++ skipped ++ ['"'] ++ token ++ ['"']) after hfind hbody
        hclose ?_ ?_ ?_ (quoted_token hs (quote_notMem_of_find htoken) after) ?_
      · rw [← hpos, htext]
        have hslice := slice_append (before ++ skipped ++ ['"']) token ('"' :: after)
        simpa using hslice
      · rw [htext]
        simp
      · rw [byteLen_append, byteLen_append, hpos, byteLen_cons, byteLen_nil, hq]
      · simp only [List.length_append, List.length_cons]
        omega

end Text
