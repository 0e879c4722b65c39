import Mathlib.Data.Finset.Card
import Mathlib.Data.Nat.Find
import Mathlib.Order.Interval.Finset.Nat

/-!
# Search with a counter that saturates

Candidates are tried one after the other until one is accepted. The counter does not
leave its range: at the last candidate it stays where it is, and a search that has not
ended there goes on for ever. A finite number of obstacles cannot stop a search that
meets a new one at each candidate.
-/
namespace SaturatingSearch

variable (accepts : ℕ → Bool) (last : ℕ)

/-- The candidate that is accepted within some rounds; `none` is a search that is still running. -/
def search : ℕ → ℕ → Option ℕ
  | 0, _ => none
  | rounds + 1, k => if accepts k then some k else search rounds (min (k + 1) last)

/-- The first candidate from `start` on that is accepted. -/
structure First (start k : ℕ) : Prop where
  start_le : start ≤ k
  accepted : accepts k = true
  skipped : ∀ j, start ≤ j → j < k → accepts j = false

variable {accepts last} {rounds start k : ℕ}

theorem First.of_succ (hreject : accepts start = false) (h : First accepts (start + 1) k) :
    First accepts start k where
  start_le := (Nat.le_succ start).trans h.start_le
  accepted := h.accepted
  skipped j hj hjk := by
    rcases Nat.eq_or_lt_of_le hj with rfl | hlt
    · exact hreject
    · exact h.skipped j hlt hjk

theorem First.unique {k' : ℕ} (h : First accepts start k) (h' : First accepts start k') :
    k = k' := by
  by_contra hne
  rcases Nat.lt_or_gt_of_ne hne with hlt | hgt
  · have hskipped := h'.skipped k h.start_le hlt
    rw [h.accepted] at hskipped
    cases hskipped
  · have hskipped := h.skipped k' h'.start_le hgt
    rw [h'.accepted] at hskipped
    cases hskipped

theorem exists_first (hk : start ≤ k) (haccept : accepts k = true) :
    ∃ m ≤ k, First accepts start m := by
  have hex : ∃ m, start ≤ m ∧ accepts m = true := ⟨k, hk, haccept⟩
  obtain ⟨hstart, haccepted⟩ := Nat.find_spec hex
  refine ⟨Nat.find hex, Nat.find_min' hex ⟨hk, haccept⟩, hstart, haccepted, fun j hj hlt => ?_⟩
  have hreject := Nat.find_min hex hlt
  rw [not_and] at hreject
  exact Bool.eq_false_of_not_eq_true (hreject hj)

/-- A search that returns has found the first one, also where the counter saturates: the last
candidate is not accepted later when it was refused once. -/
theorem first_of_search (hstart : start ≤ last) (h : search accepts last rounds start = some k) :
    First accepts start k ∧ k ≤ last := by
  induction rounds generalizing start with
  | zero => cases h
  | succ rounds ih =>
    unfold search at h
    by_cases haccept : accepts start = true
    · rw [if_pos haccept] at h
      obtain rfl := Option.some.inj h
      exact ⟨⟨le_rfl, haccept, fun j hj hlt => absurd hlt (Nat.not_lt.mpr hj)⟩, hstart⟩
    · rw [if_neg haccept] at h
      have hreject := Bool.eq_false_of_not_eq_true haccept
      obtain ⟨hfirst, hle⟩ := ih (Nat.min_le_right _ _) h
      rcases Nat.eq_or_lt_of_le hstart with rfl | hlt
      · rw [Nat.min_eq_right (Nat.le_succ start)] at hfirst
        obtain rfl := Nat.le_antisymm hle hfirst.start_le
        exact absurd hfirst.accepted haccept
      · rw [Nat.min_eq_left hlt] at hfirst
        exact ⟨hfirst.of_succ hreject, hle⟩

/-- The first candidate is found when the rounds reach it. -/
theorem search_of_first (h : First accepts start k) (hk : k ≤ last) (hrounds : k < start + rounds) :
    search accepts last rounds start = some k := by
  have hstart := h.start_le
  induction rounds generalizing start with
  | zero => omega
  | succ rounds ih =>
    unfold search
    rcases Nat.eq_or_lt_of_le hstart with rfl | hlt
    · rw [if_pos h.accepted]
    · have hreject := h.skipped start le_rfl hlt
      have hrest : First accepts (start + 1) k :=
        ⟨hlt, h.accepted, fun j hj hjk => h.skipped j ((Nat.le_succ start).trans hj) hjk⟩
      rw [hreject, if_neg Bool.false_ne_true, Nat.min_eq_left (hlt.trans_le hk)]
      exact ih hrest (by omega) hlt

/-- A search returns exactly when a candidate in its range is accepted. -/
theorem search_returns_iff (hstart : start ≤ last) :
    (∃ rounds k, search accepts last rounds start = some k) ↔
      ∃ k, start ≤ k ∧ k ≤ last ∧ accepts k = true := by
  constructor
  · rintro ⟨rounds, k, h⟩
    obtain ⟨hfirst, hle⟩ := first_of_search hstart h
    exact ⟨k, hfirst.start_le, hle, hfirst.accepted⟩
  · rintro ⟨k, hk, hle, haccept⟩
    obtain ⟨m, hm, hfirst⟩ := exists_first hk haccept
    exact ⟨m + 1, m, search_of_first hfirst (hm.trans hle) (by omega)⟩

/-- Refused candidates with obstacles of their own use them up. -/
theorem exists_accepted_of_card {β : Type*} {obstacles : Finset β} {obstacle : ℕ → β}
    (hinj : Set.InjOn obstacle (Set.Icc start (start + obstacles.card)))
    (hmem : ∀ j, accepts j = false → obstacle j ∈ obstacles) :
    ∃ k, start ≤ k ∧ k ≤ start + obstacles.card ∧ accepts k = true := by
  by_contra hnone
  have hmaps : Set.MapsTo obstacle (Finset.Icc start (start + obstacles.card) : Set ℕ)
      (obstacles : Set β) := by
    intro j hj
    obtain ⟨hle, hlt⟩ := Finset.mem_Icc.mp (Finset.mem_coe.mp hj)
    refine hmem j (Bool.eq_false_of_not_eq_true fun haccept => ?_)
    exact hnone ⟨j, hle, hlt, haccept⟩
  have hcard := Finset.card_le_card_of_injOn obstacle hmaps (by rwa [Finset.coe_Icc])
  rw [Nat.card_Icc] at hcard
  omega

end SaturatingSearch
