import Mathlib.Tactic.Common

/-! Items sent one after the other as a stream of symbols, cut at any point. -/
namespace StreamFraming

variable {α β : Type*} (enc : α → List β)

/-- The items whose encodings lie within the first `n` symbols of the stream. -/
def arrived : List α → ℕ → List α
  | [], _ => []
  | p :: ps, n => if (enc p).length ≤ n then p :: arrived ps (n-(enc p).length) else []

theorem arrived_cons_of_le (p : α) (ps : List α) (n : ℕ) :
    arrived enc (p :: ps) ((enc p).length+n) = p :: arrived enc ps n := by
  rw [arrived, if_pos (Nat.le_add_right _ _), Nat.add_sub_cancel_left]

theorem arrived_cons_of_lt (p : α) (ps : List α) (n : ℕ) (h : n < (enc p).length) :
    arrived enc (p :: ps) n = [] := by
  rw [arrived, if_neg (Nat.not_le.mpr h)]

/-- Items that have arrived completely stay arrived when the stream goes on. -/
theorem arrived_append (done ps : List α) (n : ℕ) :
    arrived enc (done ++ ps) ((done.flatMap enc).length+n) = done ++ arrived enc ps n := by
  induction done with
  | nil => simp
  | cons p done ih =>
    rw [List.flatMap_cons, List.length_append, Nat.add_assoc, List.cons_append,
      arrived_cons_of_le, ih, List.cons_append]

theorem arrived_prefix (ps : List α) (n : ℕ) : arrived enc ps n <+: ps := by
  induction ps generalizing n with
  | nil => exact List.prefix_rfl
  | cons p ps ih =>
    rw [arrived]
    split
    · exact List.cons_prefix_cons.mpr ⟨rfl, ih _⟩
    · exact List.nil_prefix

/-- What has arrived of a stream begins with the next encoding, or lies within it. -/
theorem prefix_cons (p : α) (ps : List α) (u : List β) (h : u <+: (p :: ps).flatMap enc) :
    (∃ v, u = enc p ++ v ∧ v <+: ps.flatMap enc) ∨ (u <+: enc p ∧ u.length < (enc p).length) := by
  rw [List.flatMap_cons] at h
  rcases Nat.lt_or_ge u.length (enc p).length with hlt | hge
  · right
    exact ⟨List.prefix_of_prefix_length_le h (List.prefix_append _ _) (Nat.le_of_lt hlt), hlt⟩
  · left
    obtain ⟨v, rfl⟩ := List.prefix_of_prefix_length_le (List.prefix_append _ _) h hge
    exact ⟨v, rfl, (List.prefix_append_right_inj _).mp h⟩

end StreamFraming
