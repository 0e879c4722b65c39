import SkinGetBE.Config

/-!
# Comments of the configuration file

The stripper removes exactly the comments. Nothing that is removed joins two
characters into a new comment, so a stripped text is stripped to itself.
-/
namespace SkinGetBE
open Text

/-- A piece of a text with comments. -/
inductive Segment
  | code (text : Str) (plain : ∀ c ∈ text, c ≠ '"' ∧ c ≠ '/')
  | literal (items : List JsonText.Item)
  | lineComment (body : Str) (oneLine : '\n' ∉ body)
  | blockComment (body : Str) (unclosed : ¬ ['*', '/'] <:+: body)

namespace Segment

def render : Segment → Str
  | code text _ => text
  | literal items => '"' :: (JsonText.renderItems items ++ ['"'])
  | lineComment body _ => '/' :: '/' :: (body ++ ['\n'])
  | blockComment body _ => '/' :: '*' :: (body ++ ['*', '/'])

/-- What should be left of a piece. -/
def kept : Segment → Str
  | code text _ => text
  | literal items => '"' :: (JsonText.renderItems items ++ ['"'])
  | lineComment _ _ => ['\n']
  | blockComment _ _ => []

end Segment

theorem stripFrom_block (s : Str) :
    stripFrom .code ('/' :: '*' :: s) = stripFrom (.blockComment '\x00') s := by
  rw [stripFrom.eq_def]
  rfl

theorem stripFrom_closing (t : Str) :
    stripFrom (.string false) ('"' :: t) = '"' :: stripFrom .code t := by
  rw [stripFrom.eq_def]
  rfl

theorem stripFrom_lineComment {body : Str} (h : '\n' ∉ body) (t : Str) :
    stripFrom .lineComment (body ++ '\n' :: t) = '\n' :: stripFrom .code t := by
  induction body with
  | nil =>
    rw [List.nil_append, stripFrom, if_pos rfl]
  | cons c body ih =>
    obtain ⟨hc, hbody⟩ := not_or.mp (List.mem_cons.not.mp h)
    rw [List.cons_append, stripFrom, if_neg (Ne.symm hc), ih hbody]

/-- The scan passes over the body as long as the closing mark is not there. -/
theorem stripFrom_blockComment {body : Str} {previous : Char}
    (h : ¬ ['*', '/'] <:+: previous :: body) (t : Str) :
    stripFrom (.blockComment previous) (body ++ '*' :: '/' :: t) = stripFrom .code t := by
  induction body generalizing previous with
  | nil =>
    rw [List.nil_append, stripFrom, if_neg (by simp), stripFrom, if_pos ⟨rfl, rfl⟩]
  | cons c body ih =>
    have hopen : ¬ (previous = '*' ∧ c = '/') := by
      rintro ⟨rfl, rfl⟩
      exact h ⟨[], body, rfl⟩
    have hbody : ¬ ['*', '/'] <:+: c :: body := fun hin => h (List.infix_cons hin)
    rw [List.cons_append, stripFrom, if_neg hopen, ih hbody]

theorem stripFrom_segment (segment : Segment) (t : Str) :
    stripFrom .code (segment.render ++ t) = segment.kept ++ stripFrom .code t := by
  cases segment with
  | code text plain => exact stripFrom_code plain t
  | literal items =>
    unfold Segment.render Segment.kept
    rw [List.cons_append, List.append_assoc, stripFrom_quote, stripFrom_renderItems,
      List.singleton_append, stripFrom_closing]
    simp
  | lineComment body oneLine =>
    unfold Segment.render
    rw [List.cons_append, List.cons_append, List.append_assoc, stripFrom_line]
    exact stripFrom_lineComment oneLine t
  | blockComment body unclosed =>
    have hbody : ¬ ['*', '/'] <:+: '\x00' :: body := by
      intro hin
      rcases List.infix_cons_iff.mp hin with hbefore | hin
      · exact absurd (List.cons_prefix_cons.mp hbefore).1 (by decide)
      · exact unclosed hin
    unfold Segment.render
    rw [List.cons_append, List.cons_append, List.append_assoc, stripFrom_block]
    exact stripFrom_blockComment hbody t

theorem stripJsonComments_segments (segments : List Segment) :
    stripJsonComments (segments.flatMap Segment.render) = segments.flatMap Segment.kept := by
  unfold stripJsonComments
  induction segments with
  | nil => rfl
  | cons segment segments ih =>
    rw [List.flatMap_cons, stripFrom_segment, ih, List.flatMap_cons]

/-- Where the scan of the output stands: comments leave it in the code. -/
def CommentScan.output : CommentScan → CommentScan
  | .string escaped => .string escaped
  | _ => .code

/-- A slash opens a comment only together with the character behind it. -/
theorem stripFrom_slash {s : Str} (hline : s.head? ≠ some '/') (hblock : s.head? ≠ some '*') :
    stripFrom .code ('/' :: s) = '/' :: stripFrom .code s := by
  rw [stripFrom]
  · rw [if_neg (by decide), if_pos rfl]
  · rintro chars rfl
    exact hline rfl
  · rintro chars rfl
    exact hblock rfl

/-- A character other than a slash is kept where it stands. -/
theorem stripFrom_head {s : Str} (h : s.head? ≠ some '/') :
    (stripFrom .code s).head? = s.head? := by
  match s with
  | [] => rfl
  | c :: s =>
    have hslash : c ≠ '/' := fun hc => h (congrArg some hc)
    by_cases hquote : c = '"'
    · rw [hquote, stripFrom_quote, List.head?_cons, List.head?_cons]
    · rw [stripFrom_plain hquote hslash, List.head?_cons, List.head?_cons]

/-- The output is read in step with the input, and nothing in it is removed. -/
theorem stripFrom_output (state : CommentScan) (s : Str) :
    stripFrom state.output (stripFrom state s) = stripFrom state s := by
  fun_induction stripFrom state s with
  | case1 state => cases state <;> rfl
  | case2 escaped c chars hplain hescape hclose =>
    simp only [CommentScan.output] at hplain hescape hclose ⊢
    rw [stripFrom]
    split_ifs
    · rw [hplain]
    · rw [hescape]
    · rw [hclose]
    · rw [hplain]
  | case3 chars ih => exact (stripFrom_quote _).trans (congrArg (List.cons '"') ih)
  | case4 chars _ ih => exact ih
  | case5 chars _ ih => exact ih
  | case6 chars hline hblock _ ih =>
    -- the character behind the slash is kept, so the slash still opens nothing
    have hslash : chars.head? ≠ some '/' := by
      rw [ne_eq, List.head?_eq_some_iff]
      rintro ⟨tl, h⟩
      exact hline tl h
    have hstar : chars.head? ≠ some '*' := by
      rw [ne_eq, List.head?_eq_some_iff]
      rintro ⟨tl, h⟩
      exact hblock tl h
    have hhead := stripFrom_head hslash
    rw [← hhead] at hslash hstar
    exact (stripFrom_slash hslash hstar).trans (congrArg (List.cons '/') ih)
  | case7 c chars hquote hslash ih =>
    exact (stripFrom_plain hquote hslash _).trans (congrArg (List.cons c) ih)
  | case8 chars ih =>
    exact (stripFrom_plain (by decide) (by decide) _).trans (congrArg (List.cons '\n') ih)
  | case9 next chars _ ih => exact ih
  | case10 previous next chars _ ih => exact ih
  | case11 previous next chars _ ih => exact ih

/-- Exactly the comments are removed, and once is enough. -/
theorem stripJsonComments_exact :
    (∀ segments : List Segment, stripJsonComments (segments.flatMap Segment.render) =
      segments.flatMap Segment.kept) ∧
    ∀ s : Str, stripJsonComments (stripJsonComments s) = stripJsonComments s :=
  ⟨stripJsonComments_segments, stripFrom_output .code⟩

end SkinGetBE
