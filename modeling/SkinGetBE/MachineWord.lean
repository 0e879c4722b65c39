import Mathlib.Algebra.Order.Ring.Nat

/-!
# Operations that may stop a program

A program of a machine with words of a fixed size does not always return: sums and
products leave the word, indices leave their lists. A run ends with a result or at
a fault, and each rule below says when an operation has its result.
-/
namespace Machine

/-- Where a program stops without a result. -/
inductive Fault
  | overflow
  | bounds
  | boundary
  | rounds
  deriving DecidableEq, Repr

abbrev Run (α : Type) := Except Fault α

variable {α β γ δ : Type}

def add (bits a b : ℕ) : Run ℕ := if a + b < 2 ^ bits then .ok (a + b) else .error .overflow

def sub (a b : ℕ) : Run ℕ := if b ≤ a then .ok (a - b) else .error .overflow

def mul (bits a b : ℕ) : Run ℕ := if a * b < 2 ^ bits then .ok (a * b) else .error .overflow

/-- A shift loses bits without a fault, but not a whole word. -/
def shl (bits a count : ℕ) : Run ℕ :=
  if count < bits then .ok ((a <<< count) % 2 ^ bits) else .error .overflow

theorem add_eq {bits a b : ℕ} (h : a + b < 2 ^ bits) : add bits a b = .ok (a + b) := if_pos h

theorem sub_eq {a b : ℕ} (h : b ≤ a) : sub a b = .ok (a - b) := if_pos h

theorem mul_eq {bits a b : ℕ} (h : a * b < 2 ^ bits) : mul bits a b = .ok (a * b) := if_pos h

theorem shl_eq {bits a count : ℕ} (h : count < bits) :
    shl bits a count = .ok ((a <<< count) % 2 ^ bits) := if_pos h

/-- Nothing is lost of a number that fits in front of the shift. -/
theorem shl_of_lt {bits width a count : ℕ} (ha : a < 2 ^ width) (h : width + count ≤ bits)
    (hc : count < bits) : shl bits a count = .ok (a <<< count) := by
  have hlt : a <<< count < 2 ^ bits := by
    calc a <<< count = a * 2 ^ count := Nat.shiftLeft_eq a count
      _ < 2 ^ width * 2 ^ count := Nat.mul_lt_mul_of_pos_right ha (Nat.two_pow_pos count)
      _ = 2 ^ (width + count) := (Nat.pow_add 2 width count).symm
      _ ≤ 2 ^ bits := Nat.pow_le_pow_right (by decide) h
  rw [shl_eq hc, Nat.mod_eq_of_lt hlt]

def index (xs : List α) (i : ℕ) : Run α :=
  match xs[i]? with
  | some x => .ok x
  | none => .error .bounds

/-- The elements from `i` to `j`, which must be a range of the list. -/
def range (xs : List α) (i j : ℕ) : Run (List α) :=
  if i ≤ j ∧ j ≤ xs.length then .ok ((xs.drop i).take (j - i)) else .error .bounds

theorem index_eq {xs : List α} {i : ℕ} (h : i < xs.length) : index xs i = .ok (xs.get ⟨i, h⟩) := by
  simp [index, h]

theorem range_eq {xs : List α} {i n : ℕ} (h : i + n ≤ xs.length) :
    range xs i (i + n) = .ok ((xs.drop i).take n) := by
  rw [range, if_pos ⟨Nat.le_add_right i n, h⟩, Nat.add_sub_cancel_left]

/-- A part of a text, when both its ends are at characters. -/
def cut (part : Option α) : Run α :=
  match part with
  | some a => .ok a
  | none => .error .boundary

@[simp] theorem cut_some (a : α) : cut (some a) = .ok a := rfl

/-- The next position of a loop, which must lie further on. -/
def advance (pos next : ℕ) : Run ℕ := if pos < next then .ok next else .error .rounds

theorem advance_eq {pos next : ℕ} (h : pos < next) : advance pos next = .ok next := if_pos h

/-- Goes on with the value of a step, and gives up when the step does. -/
def ifSome (step : Run (Option α)) (next : α → Run (Option β)) : Run (Option β) := do
  match ← step with
  | none => .ok none
  | some a => next a

@[simp] theorem ok_bind (a : α) (next : α → Run β) : (Except.ok a >>= next) = next a := rfl

/-- A step without a fault, followed by one for each of its values, computes what the two plain
steps compute. -/
theorem ifSome_eq {step : Run (Option γ)} {next : γ → Run (Option δ)} {plain : Option α}
    {plainNext : α → Option β} {f : α → γ} {g : β → δ} (h : step = .ok (plain.map f))
    (hnext : ∀ a, plain = some a → next (f a) = .ok ((plainNext a).map g)) :
    ifSome step next = .ok ((plain.bind plainNext).map g) := by
  rw [h]
  cases plain with
  | none => rfl
  | some a => exact hnext a rfl

end Machine
