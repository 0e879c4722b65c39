import Mathlib.Tactic

/-!
# Messages that arrive in numbered parts

The parts of several messages arrive interleaved. A message is complete once
each of its numbers has arrived, and is completed by exactly one arrival.
-/
namespace Completions

variable {κ : Type*} [DecidableEq κ] (n : κ → ℕ)

/-- All parts of the message under `k` have arrived. -/
def Complete (k : κ) (arrived : List (κ × ℕ)) : Prop := ∀ i < n k, (k, i) ∈ arrived

instance (k : κ) (arrived : List (κ × ℕ)) : Decidable (Complete n k arrived) :=
  inferInstanceAs (Decidable (∀ i < n k, (k, i) ∈ arrived))

/-- The part completes its message. -/
def Completes (arrived : List (κ × ℕ)) (part : κ × ℕ) : Prop :=
  ¬ Complete n part.1 arrived ∧ Complete n part.1 (arrived ++ [part])

instance (arrived : List (κ × ℕ)) (part : κ × ℕ) : Decidable (Completes n arrived part) :=
  inferInstanceAs (Decidable (_ ∧ _))

/-- The messages that `parts` complete, in the order of the arrivals that do. -/
def completionsFrom : List (κ × ℕ) → List (κ × ℕ) → List κ
  | _, [] => []
  | arrived, part :: parts =>
    (if Completes n arrived part then [part.1] else []) ++
      completionsFrom (arrived ++ [part]) parts

def completions (parts : List (κ × ℕ)) : List κ := completionsFrom n [] parts

/-- No part arrives for a message that is complete. -/
def Timely : List (κ × ℕ) → List (κ × ℕ) → Prop
  | _, [] => True
  | arrived, part :: parts => ¬ Complete n part.1 arrived ∧ Timely (arrived ++ [part]) parts

instance decidableTimely : (arrived parts : List (κ × ℕ)) → Decidable (Timely n arrived parts)
  | _, [] => isTrue trivial
  | arrived, part :: parts =>
    have := decidableTimely (arrived ++ [part]) parts
    inferInstanceAs (Decidable (_ ∧ _))

variable {n}

@[simp] theorem completionsFrom_nil (arrived : List (κ × ℕ)) :
    completionsFrom n arrived [] = [] := rfl

@[simp] theorem completionsFrom_cons (arrived : List (κ × ℕ)) (part : κ × ℕ)
    (parts : List (κ × ℕ)) : completionsFrom n arrived (part :: parts) =
      (if Completes n arrived part then [part.1] else []) ++
        completionsFrom n (arrived ++ [part]) parts := rfl

section

omit [DecidableEq κ]

@[simp] theorem timely_cons (arrived : List (κ × ℕ)) (part : κ × ℕ) (parts : List (κ × ℕ)) :
    Timely n arrived (part :: parts) ↔
      ¬ Complete n part.1 arrived ∧ Timely n (arrived ++ [part]) parts := Iff.rfl

theorem Complete.append {k : κ} {arrived : List (κ × ℕ)} (h : Complete n k arrived)
    (parts : List (κ × ℕ)) : Complete n k (arrived ++ parts) :=
  fun i hi => List.mem_append_left _ (h i hi)

theorem not_complete_nil {k : κ} (h : 0 < n k) : ¬ Complete n k [] :=
  fun hc => List.not_mem_nil (hc 0 h)

/-- A part is of no use to another message. -/
theorem complete_snoc_of_ne {k : κ} {part : κ × ℕ} (h : k ≠ part.1) (arrived : List (κ × ℕ)) :
    Complete n k (arrived ++ [part]) ↔ Complete n k arrived := by
  constructor
  · intro hc i hi
    rcases List.mem_append.mp (hc i hi) with hmem | hmem
    · exact hmem
    · exact absurd (congrArg Prod.fst (List.mem_singleton.mp hmem)) h
  · exact fun hc => hc.append _

end

theorem completionsFrom_append (arrived as bs : List (κ × ℕ)) :
    completionsFrom n arrived (as ++ bs) =
      completionsFrom n arrived as ++ completionsFrom n (arrived ++ as) bs := by
  induction as generalizing arrived with
  | nil => simp
  | cons a as ih =>
    rw [List.cons_append, completionsFrom_cons, completionsFrom_cons, ih, List.append_assoc,
      List.append_assoc]
    rfl

theorem completions_snoc (parts : List (κ × ℕ)) (part : κ × ℕ) :
    completions n (parts ++ [part]) =
      completions n parts ++ if Completes n parts part then [part.1] else [] := by
  unfold completions
  rw [completionsFrom_append]
  simp

omit [DecidableEq κ] in
theorem timely_append (arrived as bs : List (κ × ℕ)) :
    Timely n arrived (as ++ bs) ↔ Timely n arrived as ∧ Timely n (arrived ++ as) bs := by
  induction as generalizing arrived with
  | nil => simp [Timely]
  | cons a as ih =>
    rw [List.cons_append, timely_cons, timely_cons, ih, List.append_assoc, and_assoc]
    rfl

variable [BEq κ] [LawfulBEq κ]

/-- Between two states of the arrivals a message is completed once if it became complete. -/
theorem count_completionsFrom (k : κ) (arrived parts : List (κ × ℕ)) :
    (completionsFrom n arrived parts).count k + (if Complete n k arrived then 1 else 0) =
      if Complete n k (arrived ++ parts) then 1 else 0 := by
  induction parts generalizing arrived with
  | nil => simp
  | cons part parts ih =>
    have hrest := ih (arrived ++ [part])
    rw [List.append_assoc, List.singleton_append] at hrest
    rw [← hrest, completionsFrom_cons, List.count_append]
    by_cases hk : k = part.1
    · subst hk
      by_cases hbefore : Complete n part.1 arrived
      · have hafter := hbefore.append [part]
        simp [Completes, hbefore, hafter]
      · by_cases hafter : Complete n part.1 (arrived ++ [part])
        · simp [Completes, hbefore, hafter]
          omega
        · simp [Completes, hbefore, hafter]
    · have hother : (if Completes n arrived part then [part.1] else []).count k = 0 := by
        apply List.count_eq_zero.mpr
        split
        · rw [List.mem_singleton]
          exact hk
        · exact List.not_mem_nil
      simp only [hother, complete_snoc_of_ne hk, Nat.zero_add]

/-- A message with parts is completed once when all of them have arrived, else not at all. -/
theorem count_completions {k : κ} (h : 0 < n k) (parts : List (κ × ℕ)) :
    (completions n parts).count k = if Complete n k parts then 1 else 0 := by
  have hcount := count_completionsFrom (n := n) k [] parts
  rw [if_neg (not_complete_nil h)] at hcount
  exact hcount

end Completions
