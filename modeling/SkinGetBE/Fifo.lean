import Mathlib.Data.List.Infix

/-!
# Queues of values of several kinds

Writes and reads of a store in any order. A read names the kind of value that it
expects. When every read answers to an earlier write of its kind, a store that
behaves like a queue returns the written values in order.
-/
namespace Fifo

variable {α κ σ ρ : Type*}

inductive Op (α κ : Type*)
  | write (a : α)
  | read (k : κ)

def writes : List (Op α κ) → List α
  | [] => []
  | .write a :: ops => a :: writes ops
  | .read _ :: ops => writes ops

def reads : List (Op α κ) → List κ
  | [] => []
  | .write _ :: ops => reads ops
  | .read k :: ops => k :: reads ops

/-- At every moment the reads so far have the kinds of the first writes so far: each read is
that of the write with its number and comes after it. -/
def InStep (kind : α → κ) (ops : List (Op α κ)) : Prop :=
  ∀ done, done <+: ops → reads done <+: (writes done).map kind

instance [DecidableEq κ] (kind : α → κ) (ops : List (Op α κ)) : Decidable (InStep kind ops) :=
  decidable_of_iff (∀ done ∈ ops.inits, reads done <+: (writes done).map kind) (by
    simp only [List.mem_inits, InStep])

/-- A store with its operations; a read answers and leaves another store. -/
structure Store (α κ σ ρ : Type*) where
  write : α → σ → σ
  read : κ → σ → ρ × σ

/-- The answers of the reads, and the store at the end. -/
def Store.run (S : Store α κ σ ρ) : List (Op α κ) → σ → List ρ × σ
  | [], s => ([], s)
  | .write a :: ops, s => S.run ops (S.write a s)
  | .read k :: ops, s =>
    let out := S.read k s
    let rest := S.run ops out.2
    (out.1 :: rest.1, rest.2)

/-- A store that can hold a queue: a write adds at the end, and a read of the right kind takes
the value at the front. -/
structure Store.Queues (S : Store α κ σ ρ) (kind : α → κ) (answer : α → ρ)
    (Holds : σ → List α → Prop) : Prop where
  write : ∀ {s q}, Holds s q → ∀ a, Holds (S.write a s) (q ++ [a])
  read : ∀ {s a q}, Holds s (a :: q) →
    (S.read (kind a) s).1 = answer a ∧ Holds (S.read (kind a) s).2 q

/-- The reads that follow when `queue` has been written and not read yet. -/
def InStepFrom (kind : α → κ) (queue : List α) (ops : List (Op α κ)) : Prop :=
  ∀ done, done <+: ops → reads done <+: (queue ++ writes done).map kind

theorem InStepFrom.write {kind : α → κ} {queue : List α} {a : α} {ops : List (Op α κ)}
    (h : InStepFrom kind queue (.write a :: ops)) : InStepFrom kind (queue ++ [a]) ops := by
  intro done hdone
  have hstep := h (.write a :: done) (List.cons_prefix_cons.mpr ⟨rfl, hdone⟩)
  rwa [writes, reads, List.append_cons] at hstep

/-- A read is that of the front of the queue. -/
theorem InStepFrom.read {kind : α → κ} {queue : List α} {k : κ} {ops : List (Op α κ)}
    (h : InStepFrom kind queue (.read k :: ops)) :
    ∃ a rest, queue = a :: rest ∧ k = kind a ∧ InStepFrom kind rest ops := by
  have hfirst := h [.read k] (List.cons_prefix_cons.mpr ⟨rfl, List.nil_prefix⟩)
  rw [reads, reads, writes, writes, List.append_nil] at hfirst
  cases queue with
  | nil => simp at hfirst
  | cons a rest =>
    obtain ⟨hk, -⟩ := List.cons_prefix_cons.mp hfirst
    refine ⟨a, rest, rfl, hk, fun done hdone => ?_⟩
    have hstep := h (.read k :: done) (List.cons_prefix_cons.mpr ⟨rfl, hdone⟩)
    rw [writes, reads, List.cons_append, List.map_cons] at hstep
    exact (List.cons_prefix_cons.mp hstep).2

variable {S : Store α κ σ ρ} {kind : α → κ} {answer : α → ρ} {Holds : σ → List α → Prop}

theorem Store.Queues.run_from (hS : S.Queues kind answer Holds) {queue : List α}
    {ops : List (Op α κ)} (h : InStepFrom kind queue ops) {s : σ} (hs : Holds s queue) :
    (S.run ops s).1 = ((queue ++ writes ops).take (reads ops).length).map answer ∧
      Holds (S.run ops s).2 ((queue ++ writes ops).drop (reads ops).length) := by
  induction ops generalizing queue s with
  | nil => simpa [Store.run, writes, reads] using hs
  | cons op ops ih =>
    cases op with
    | write a =>
      have hrest := ih h.write (hS.write hs a)
      rwa [← List.append_cons] at hrest
    | read k =>
      obtain ⟨a, rest, rfl, rfl, hrest⟩ := h.read
      obtain ⟨hanswer, hleft⟩ := hS.read hs
      obtain ⟨hanswers, hend⟩ := ih hrest hleft
      refine ⟨?_, hend⟩
      rw [Store.run, hanswer, hanswers]
      rfl

/-- The reads return the written values in order, and what was not read is still held. -/
theorem Store.Queues.run (hS : S.Queues kind answer Holds) {ops : List (Op α κ)}
    (h : InStep kind ops) {s : σ} (hs : Holds s []) :
    (S.run ops s).1 = ((writes ops).take (reads ops).length).map answer ∧
      Holds (S.run ops s).2 ((writes ops).drop (reads ops).length) :=
  hS.run_from (show InStepFrom kind [] ops from h) hs

end Fifo
