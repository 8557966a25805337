import Mathlib.Tactic.Common

/-! A FIFO of bounded capacity, as a relation between operations and contents. -/
namespace BoundedFifo

variable {α : Type*}

inductive Op (α : Type*)
  | push (xs : List α)
  | pop (n : ℕ)

def Op.input : Op α → List α
  | push xs => xs
  | pop _ => []

/-- One operation on the contents `q`, with the items it takes out. -/
inductive Step (cap : ℕ) : List α → Op α → List α → List α → Prop
  | push (q xs : List α) : xs ≠ [] → q.length+xs.length ≤ cap → Step cap q (.push xs) [] (q ++ xs)
  | pop (q : List α) (n : ℕ) : 0 < n → n ≤ q.length → Step cap q (.pop n) (q.take n) (q.drop n)

inductive Run (cap : ℕ) : List α → List (Op α) → List α → List α → Prop
  | nil (q : List α) : Run cap q [] [] q
  | snoc {q q₁ q₂ : List α} {ops : List (Op α)} {op : Op α} {out xs : List α} :
      Run cap q ops out q₁ → Step cap q₁ op xs q₂ → Run cap q (ops ++ [op]) (out ++ xs) q₂

theorem Step.conserves {cap : ℕ} {q q₁ xs : List α} {op : Op α} (h : Step cap q op xs q₁) :
    q ++ op.input = xs ++ q₁ := by
  cases h with
  | push => rfl
  | pop => simp [Op.input]

/-- Nothing is lost, duplicated or reordered: what went in is what came out and
what is still there. -/
theorem Run.conserves {cap : ℕ} {q q₁ out : List α} {ops : List (Op α)}
    (h : Run cap q ops out q₁) : q ++ ops.flatMap Op.input = out ++ q₁ := by
  induction h with
  | nil => simp
  | snoc _ hs ih =>
    rw [List.flatMap_append, ← List.append_assoc, ih, List.append_assoc, List.append_assoc]
    have hstep := hs.conserves
    simpa using hstep

end BoundedFifo
