import Mathlib.Tactic.Common
import Mathlib.Data.Int.Notation

/-! A counted object shared by holders. The one whose release brings the count to
zero is the last and destroys it. -/
namespace RefCount

structure State where
  count : ℤ
  holders : ℕ
  -- Releasers that have seen zero and are about to destroy the object.
  last : ℕ
  destroyed : ℕ

inductive Move (s s' : State) : Prop
  | keep : s' = s → Move s s'
  | acquire : 0 < s.holders → s'.count = s.count+1 → s'.holders = s.holders+1 →
      s'.last = s.last → s'.destroyed = s.destroyed → Move s s'
  | release : s.count-1 ≠ 0 → s'.count = s.count-1 → s.holders = s'.holders+1 →
      s'.last = s.last → s'.destroyed = s.destroyed → Move s s'
  | releaseLast : s.count-1 = 0 → s'.count = s.count-1 → s.holders = s'.holders+1 →
      s'.last = s.last+1 → s'.destroyed = s.destroyed → Move s s'
  | destroy : s'.count = s.count → s'.holders = s.holders → s.last = s'.last+1 →
      s'.destroyed = s.destroyed+1 → Move s s'
  -- The only holder may destroy the object without counting down.
  | abandon : s.holders = 1 → s'.holders = 0 → s'.last = s.last →
      s'.destroyed = s.destroyed+1 → Move s s'

/-- The count is exact while the object exists, and exactly one party is ever
responsible for its end. -/
structure Good (s : State) : Prop where
  exact : s.destroyed = 0 → s.count = s.holders
  held : 0 < s.holders → s.last = 0 ∧ s.destroyed = 0
  unheld : s.holders = 0 → s.last+s.destroyed = 1

theorem Good.move {s s' : State} (h : Good s) (hm : Move s s') : Good s' := by
  have hexact := h.exact
  have hheld := h.held
  have hunheld := h.unheld
  cases hm with
  | keep heq => rwa [heq]
  | acquire => constructor <;> omega
  | release => constructor <;> omega
  | releaseLast => constructor <;> omega
  | destroy => constructor <;> omega
  | abandon => constructor <;> omega

/-- Whoever still has to destroy the object is alone with it. -/
theorem Good.last_alone {s : State} (h : Good s) (hl : 0 < s.last) :
    s.holders = 0 ∧ s.last = 1 ∧ s.destroyed = 0 := by
  have hheld := h.held
  have hunheld := h.unheld
  omega

/-- A release by one of several holders does not reach zero. -/
theorem Good.shared_release {s : State} (h : Good s) (hs : 2 ≤ s.holders) : 0 < s.count-1 := by
  have hexact := h.exact
  have hheld := h.held (by omega)
  omega

end RefCount
