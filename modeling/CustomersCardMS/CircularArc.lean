import Mathlib.Tactic.Common
import Mathlib.Algebra.Ring.Nat
import Mathlib.Data.List.Range
import Mathlib.Data.List.Nodup

/-! Circular index arithmetic on a buffer of fixed capacity, and memories
written position by position. A start position may rest at the capacity itself,
where it means the same cell as position zero. -/
namespace Circular

/-- The cell `i` steps behind `r`, crossing the end of the buffer at most once. -/
def wrap (cap r i : ℕ) : ℕ := if r+i < cap then r+i else r+i-cap

def arc (cap r n : ℕ) : List ℕ := (List.range n).map (wrap cap r)

/-- `t` is reached from `r` after `m` cells, with either spelling of the end. -/
def Follows (cap r m t : ℕ) : Prop := t = r+m ∨ t+cap = r+m

theorem wrap_lt {cap r i : ℕ} (hr : r ≤ cap) (hi : i < cap) : wrap cap r i < cap := by
  unfold wrap
  split <;> omega

theorem wrap_inj {cap r i j : ℕ} (hi : i < cap) (hj : j < cap)
    (h : wrap cap r i = wrap cap r j) : i = j := by
  unfold wrap at h
  split at h <;> split at h <;> omega

theorem wrap_follows {cap r m t i : ℕ} (hr : r ≤ cap) (hf : Follows cap r m t)
    (hi : m+i < cap) : wrap cap t i = wrap cap r (m+i) := by
  unfold wrap
  rcases hf with hf | hf <;> split <;> split <;> omega

theorem Follows.trans {cap r m t n u : ℕ} (hr : r ≤ cap) (hn : m+n ≤ cap) (hu : 0 < u)
    (h : Follows cap r m t) (hf : Follows cap t n u) : Follows cap r (m+n) u := by
  unfold Follows at *
  rcases h with h | h <;> rcases hf with hf | hf <;> omega

theorem Follows.cancel {cap r m t n u : ℕ} (hn : 0 < n) (hu : u ≤ cap)
    (h : Follows cap r (m+n) u) (hf : Follows cap r m t) : Follows cap t n u := by
  unfold Follows at *
  rcases h with h | h <;> rcases hf with hf | hf <;> omega

theorem wrap_of_lt {cap r i : ℕ} (h : r+i < cap) : wrap cap r i = r+i := if_pos h

theorem wrap_of_ge {cap r i : ℕ} (h : cap ≤ r+i) : wrap cap r i = r+i-cap := if_neg (by omega)

@[simp] theorem length_arc (cap r n : ℕ) : (arc cap r n).length = n := by
  simp [arc]

@[simp] theorem getElem_arc {cap r n i : ℕ} (h : i < (arc cap r n).length) :
    (arc cap r n)[i] = wrap cap r i := by
  simp [arc]

theorem arc_nodup {cap r n : ℕ} (hn : n ≤ cap) : (arc cap r n).Nodup := by
  apply List.Nodup.map_on _ List.nodup_range
  intro i hi j hj h
  exact wrap_inj (by have := List.mem_range.mp hi; omega)
    (by have := List.mem_range.mp hj; omega) h

/-- An arc continues from whatever position follows its first part. -/
theorem arc_append {cap r m t n : ℕ} (hr : r ≤ cap) (hf : Follows cap r m t)
    (hn : m+n ≤ cap) : arc cap r (m+n) = arc cap r m ++ arc cap t n := by
  apply List.ext_getElem
  · simp
  · intro i hi _
    rw [getElem_arc, List.getElem_append]
    split
    · rw [getElem_arc]
    · rename_i him
      simp only [length_arc] at hi him
      rw [getElem_arc, length_arc, wrap_follows hr hf (by omega)]
      congr 1
      omega

theorem take_arc {cap r m n : ℕ} (h : m ≤ n) : (arc cap r n).take m = arc cap r m := by
  simp [arc, ← List.map_take, List.take_range, Nat.min_eq_left h]

theorem drop_arc {cap r m t n : ℕ} (hr : r ≤ cap) (hf : Follows cap r m t)
    (hm : m ≤ n) (hn : n ≤ cap) : (arc cap r n).drop m = arc cap t (n-m) := by
  have happ := arc_append hr hf (n := n-m) (by omega)
  rw [show m+(n-m) = n by omega] at happ
  rw [happ, List.drop_append_of_le_length (by simp), List.drop_of_length_le (by simp),
    List.nil_append]

theorem arc_of_le {cap r n : ℕ} (h : r+n ≤ cap) : arc cap r n = List.range' r n := by
  apply List.ext_getElem
  · simp
  · intro i hi _
    simp only [length_arc] at hi
    rw [getElem_arc, wrap_of_lt (by omega), List.getElem_range', Nat.one_mul]

/-- Across the end an arc is the interval up to the capacity and one from zero. -/
theorem arc_of_ge {cap r n : ℕ} (hr : r ≤ cap) (h : cap ≤ r+n) (hn : n ≤ cap) :
    arc cap r n = List.range' r (cap-r) ++ List.range' 0 (n-(cap-r)) := by
  have happ := arc_append (t := 0) (m := cap-r) (n := n-(cap-r)) hr
    (Or.inr (by omega)) (by omega)
  rw [show cap-r+(n-(cap-r)) = n by omega] at happ
  rw [happ, arc_of_le (by omega), arc_of_le (by omega)]

theorem arc_eq_split {cap r n : ℕ} (hr : r ≤ cap) (hn : n ≤ cap) :
    arc cap r n = List.range' r (min n (cap-r)) ++ List.range' 0 (n-(cap-r)) := by
  by_cases h : r+n ≤ cap
  · rw [arc_of_le h, Nat.min_eq_left (by omega), show n-(cap-r) = 0 by omega]
    simp
  · rw [arc_of_ge hr (by omega) hn, Nat.min_eq_right (by omega)]

/-- Two consecutive arcs that together fill at most the buffer share no cell. -/
theorem arc_disjoint {cap r m t n : ℕ} (hr : r ≤ cap) (hf : Follows cap r m t)
    (hn : m+n ≤ cap) : List.Disjoint (arc cap r m) (arc cap t n) := by
  have hnd := arc_nodup (r := r) hn
  rw [arc_append hr hf hn] at hnd
  exact (List.nodup_append'.mp hnd).2.2

section Memory

variable {α : Type*}

/-- Store the items one by one at the listed positions, as far as both go. -/
def writeAt (m : ℕ → α) : List ℕ → List α → (ℕ → α)
  | p :: ps, x :: xs => writeAt (Function.update m p x) ps xs
  | _, _ => m

theorem writeAt_of_notMem (m : ℕ → α) (ps : List ℕ) (xs : List α) (i : ℕ)
    (h : i ∉ ps) : writeAt m ps xs i = m i := by
  induction ps generalizing m xs with
  | nil => cases xs <;> rfl
  | cons p ps ih =>
    cases xs with
    | nil => rfl
    | cons x xs =>
      rw [List.mem_cons, not_or] at h
      rw [writeAt, ih _ _ h.2, Function.update_of_ne h.1]

theorem writeAt_take (m : ℕ → α) (ps : List ℕ) (xs : List α) :
    writeAt m ps xs = writeAt m (ps.take xs.length) xs := by
  induction ps generalizing m xs with
  | nil => simp
  | cons p ps ih =>
    cases xs with
    | nil => rfl
    | cons x xs => simp only [List.length_cons, List.take_succ_cons, writeAt, ← ih]

/-- What lies elsewhere is all that tells two memories apart once both are written. -/
theorem writeAt_congr {m m' : ℕ → α} {ps : List ℕ} {xs : List α} {i : ℕ}
    (h : i ∉ ps.take xs.length → m' i = m i) : writeAt m' ps xs i = writeAt m ps xs i := by
  induction ps generalizing m m' xs with
  | nil =>
    rw [List.take_nil] at h
    exact h List.not_mem_nil
  | cons p ps ih =>
    cases xs with
    | nil => exact h List.not_mem_nil
    | cons x xs =>
      apply ih
      intro hi
      by_cases hp : i = p
      · rw [hp, Function.update_self, Function.update_self]
      · rw [Function.update_of_ne hp, Function.update_of_ne hp]
        apply h
        rw [List.length_cons, List.take_succ_cons, List.mem_cons, not_or]
        exact ⟨hp, hi⟩

theorem map_writeAt (m : ℕ → α) (ps : List ℕ) (xs : List α) (hnd : ps.Nodup)
    (hlen : xs.length = ps.length) : ps.map (writeAt m ps xs) = xs := by
  induction ps generalizing m xs with
  | nil => simpa using hlen
  | cons p ps ih =>
    cases xs with
    | nil => simp at hlen
    | cons x xs =>
      obtain ⟨hp, hnd⟩ := List.nodup_cons.mp hnd
      rw [writeAt, List.map_cons, ih _ _ hnd (by simpa using hlen),
        writeAt_of_notMem _ _ _ _ hp, Function.update_self]

theorem map_writeAt_disjoint (m : ℕ → α) (ps qs : List ℕ) (xs : List α)
    (hd : List.Disjoint qs ps) : qs.map (writeAt m ps xs) = qs.map m := by
  apply List.map_congr_left
  intro i hi
  exact writeAt_of_notMem m ps xs i (hd hi)

/-- A row of cells that is written is all that changes in a text. -/
theorem map_writeAt_range' (m : ℕ → α) {n k : ℕ} (xs : List α) (h : k+xs.length ≤ n) :
    (List.range' 0 n).map (writeAt m (List.range' k xs.length) xs) =
      ((List.range' 0 n).map m).take k ++ xs ++ ((List.range' 0 n).map m).drop (k+xs.length) := by
  have hfirst : List.range' 0 n = List.range' 0 k ++ List.range' k (n-k) := by
    have happ := List.range'_append_1 (s := 0) (m := k) (n := n-k)
    rw [Nat.zero_add, Nat.add_sub_cancel' (by omega)] at happ
    exact happ.symm
  have hrest : List.range' k (n-k) =
      List.range' k xs.length ++ List.range' (k+xs.length) (n-(k+xs.length)) := by
    rw [List.range'_append_1]
    congr 1
    omega
  have hbefore : List.Disjoint (List.range' 0 k) (List.range' k xs.length) := by
    intro i hi hi'
    rw [List.mem_range'_1] at hi hi'
    omega
  have hbehind : List.Disjoint (List.range' (k+xs.length) (n-(k+xs.length)))
      (List.range' k xs.length) := by
    intro i hi hi'
    rw [List.mem_range'_1] at hi hi'
    omega
  have hwritten : (List.range' k xs.length).map (writeAt m (List.range' k xs.length) xs) = xs :=
    map_writeAt m _ xs List.nodup_range' (List.length_range' ..).symm
  rw [← List.map_take, ← List.map_drop, hfirst, List.take_left' (List.length_range' ..),
    ← List.drop_drop, List.drop_left' (List.length_range' ..), hrest,
    List.drop_left' (List.length_range' ..), List.map_append, List.map_append,
    map_writeAt_disjoint m _ _ xs hbefore, hwritten, map_writeAt_disjoint m _ _ xs hbehind,
    List.append_assoc]

end Memory

end Circular
