import Mathlib.Data.List.Basic

/-!
# Traces of labelled steps

A run of a transition relation with the labels of its steps. What each step adds to a
stock, or takes from it, is accounted for over the whole trace.
-/
namespace LabelledTraces

variable {σ ι : Type*} {step : σ → ι → σ → Prop} {s t u : σ} {labels more : List ι}

inductive Trace (step : σ → ι → σ → Prop) : σ → List ι → σ → Prop
  | nil (s : σ) : Trace step s [] s
  | cons {s t u : σ} {label : ι} {labels : List ι} (h : step s label t)
      (rest : Trace step t labels u) : Trace step s (label :: labels) u

namespace Trace

theorem single {label : ι} (h : step s label t) : Trace step s [label] t := .cons h (.nil t)

theorem append (h : Trace step s labels t) (h' : Trace step t more u) :
    Trace step s (labels ++ more) u := by
  induction h with
  | nil s => exact h'
  | cons hstep rest ih => exact .cons hstep (ih h')

/-- The stock at the end, with all that was taken, is the stock at the start with all that was
given. -/
theorem balance (stock : σ → ℕ) (gives takes : ι → Bool)
    (hstep : ∀ s label t, step s label t →
      stock t + (takes label).toNat = stock s + (gives label).toNat)
    (h : Trace step s labels t) :
    stock t + labels.countP takes = stock s + labels.countP gives := by
  induction h with
  | nil s => rfl
  | @cons s t u label labels hfirst rest ih =>
    have hone := hstep s label t hfirst
    have hcount : ∀ p : ι → Bool,
        (label :: labels).countP p = labels.countP p + (p label).toNat := by
      intro p
      rw [List.countP_cons]
      cases p label with
      | false => rfl
      | true => rfl
    rw [hcount takes, hcount gives]
    omega

end Trace

end LabelledTraces
