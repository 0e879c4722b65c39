import Mathlib.Data.Set.Basic
import Mathlib.Logic.Relation

/-!
# Two parties and a lossy network

A party is a system of steps that notes what it has heard from others and what it has
sent to them. Between two parties the network loses, repeats and reorders messages,
but it makes none up. Invariants of one party on its own hold of it in company, and
what a truthful party has acknowledged has arrived there.
-/
namespace LossyLink
open Relation

variable {Name Msg σ τ : Type*}

/-- A system of steps with the messages heard from each other party and sent to it. -/
structure Party (Name Msg σ : Type*) where
  next : σ → σ → Prop
  heard : σ → Name → Set Msg
  sent : σ → Name → Set Msg
  sent_mono : ∀ {s s' : σ}, next s s' → ∀ name, sent s name ⊆ sent s' name

/-- One of the parties `a` and `b` takes a step. What it hears from the other was sent to it. -/
inductive Step (A : Party Name Msg σ) (B : Party Name Msg τ) (a b : Name) : σ × τ → σ × τ → Prop
  | left {s s' : σ} (t : τ) (h : A.next s s') (hnet : A.heard s' b ⊆ A.heard s b ∪ B.sent t a) :
      Step A B a b (s, t) (s', t)
  | right (s : σ) {t u : τ} (h : B.next t u) (hnet : B.heard u a ⊆ B.heard t a ∪ A.sent s b) :
      Step A B a b (s, t) (s, u)

/-- What was heard had been sent. -/
structure Genuine (A : Party Name Msg σ) (B : Party Name Msg τ) (a b : Name) (p : σ × τ) :
    Prop where
  left : A.heard p.1 b ⊆ B.sent p.2 a
  right : B.heard p.2 a ⊆ A.sent p.1 b

variable {A : Party Name Msg σ} {B : Party Name Msg τ} {a b : Name} {p q : σ × τ}

theorem Step.genuine (h : Step A B a b p q) (hp : Genuine A B a b p) : Genuine A B a b q := by
  cases h with
  | left t h hnet =>
    exact ⟨hnet.trans (Set.union_subset hp.left subset_rfl), hp.right.trans (A.sent_mono h b)⟩
  | right s h hnet =>
    exact ⟨hp.left.trans (B.sent_mono h a), hnet.trans (Set.union_subset hp.right subset_rfl)⟩

theorem genuine_of_steps (h : ReflTransGen (Step A B a b) p q) (hp : Genuine A B a b p) :
    Genuine A B a b q := by
  induction h with
  | refl => exact hp
  | tail _ hstep ih => exact hstep.genuine ih

/-- What a party does in company is a run of its own. -/
theorem steps_left (h : ReflTransGen (Step A B a b) p q) : ReflTransGen A.next p.1 q.1 := by
  induction h with
  | refl => exact .refl
  | tail _ hstep ih =>
    cases hstep with
    | left t h _ => exact ih.tail h
    | right s h _ => exact ih

variable {Acknowledges Numbered : Msg → ℕ → Prop}

/-- The party acknowledges no number before a message of that number has arrived. -/
def Truthful (Acknowledges Numbered : Msg → ℕ → Prop) (heard said : Set Msg) : Prop :=
  ∀ m ∈ said, ∀ n, Acknowledges m n → ∃ d ∈ heard, Numbered d n

/-- Each number belongs to one message. -/
def Unambiguous (Numbered : Msg → ℕ → Prop) (said : Set Msg) : Prop :=
  ∀ d ∈ said, ∀ d' ∈ said, ∀ n, Numbered d n → Numbered d' n → d = d'

/-- When a party hears that a number of its own is acknowledged, its message has arrived. -/
theorem arrived_of_acknowledged (hp : Genuine A B a b p)
    (htruthful : Truthful Acknowledges Numbered (B.heard p.2 a) (B.sent p.2 a))
    (hnumbers : Unambiguous Numbered (A.sent p.1 b)) {m d : Msg} {n : ℕ} (hm : m ∈ A.heard p.1 b)
    (hack : Acknowledges m n) (hd : d ∈ A.sent p.1 b) (hn : Numbered d n) : d ∈ B.heard p.2 a := by
  obtain ⟨d', hd', hn'⟩ := htruthful m (hp.left hm) n hack
  rwa [hnumbers d hd d' (hp.right hd') n hn hn']

end LossyLink
