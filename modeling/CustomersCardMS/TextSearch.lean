import Mathlib.Tactic.Common

/-! The first place at which a pattern occurs in a text, and searches in a text that ends
at a terminator or is cut off. -/
namespace TextSearch

variable {α β : Type*} (r : α → β → Bool)

/-- `r` says for which symbols of a text a symbol of a pattern stands. -/
def beginsWith : List α → List β → Bool
  | [], _ => true
  | _ :: _, [] => false
  | a :: as, b :: bs => r a b && beginsWith as bs

def find (pat : List α) : List β → Option ℕ
  | [] => if beginsWith r pat [] then some 0 else none
  | b :: bs => if beginsWith r pat (b :: bs) then some 0 else (find pat bs).map (· + 1)

/-- A search that stops at a terminator, and has no result where it runs off the text. -/
def scan (stop : β → Bool) (pat : List α) : List β → Option (Option ℕ)
  | [] => none
  | b :: bs =>
    if beginsWith r pat (b :: bs) then some (some 0)
    else if stop b then some none
    else (scan stop pat bs).map (Option.map (· + 1))

/-- The text up to its terminator. -/
def upTo (stop : β → Bool) (u : List β) : List β := u.takeWhile fun b => !stop b

variable {r} {pat : List α} {u v : List β} {stop : β → Bool}

theorem length_le_of_beginsWith (h : beginsWith r pat u = true) : pat.length ≤ u.length := by
  induction pat generalizing u with
  | nil => exact Nat.zero_le _
  | cons a as ih =>
    cases u with
    | nil => contradiction
    | cons b bs =>
      rw [beginsWith, Bool.and_eq_true] at h
      exact Nat.succ_le_succ (ih h.2)

theorem beginsWith_get (h : beginsWith r pat u = true) (i : ℕ) (hi : i < pat.length)
    (hu : i < u.length) : r pat[i] u[i] = true := by
  induction pat generalizing u i with
  | nil => contradiction
  | cons a as ih =>
    cases u with
    | nil => contradiction
    | cons b bs =>
      rw [beginsWith, Bool.and_eq_true] at h
      cases i with
      | zero => exact h.1
      | succ i => exact ih h.2 i (Nat.lt_of_succ_lt_succ hi) (Nat.lt_of_succ_lt_succ hu)

/-- What comes behind a text that is long enough does not matter. -/
theorem beginsWith_append (h : pat.length ≤ u.length) :
    beginsWith r pat (u ++ v) = beginsWith r pat u := by
  induction pat generalizing u with
  | nil => rfl
  | cons a as ih =>
    cases u with
    | nil => contradiction
    | cons b bs =>
      rw [List.cons_append, beginsWith, beginsWith, ih (Nat.le_of_succ_le_succ h)]

theorem beginsWith_nil (hp : pat ≠ []) : beginsWith r pat [] = false := by
  cases pat with
  | nil => contradiction
  | cons => rfl

/-- The terminator stands for no symbol of the pattern. -/
theorem beginsWith_upTo (h : ∀ a ∈ pat, ∀ b, stop b = true → r a b = false) :
    beginsWith r pat (upTo stop u) = beginsWith r pat u := by
  induction pat generalizing u with
  | nil => rfl
  | cons a as ih =>
    cases u with
    | nil => rfl
    | cons b bs =>
      unfold upTo
      rw [List.takeWhile_cons]
      rcases hb : stop b with _ | _
      · rw [Bool.not_false, if_pos rfl, beginsWith, beginsWith]
        congr 1
        exact ih fun a' ha' => h a' (List.mem_cons_of_mem a ha')
      · rw [Bool.not_true, if_neg (by decide), beginsWith, beginsWith,
          h a List.mem_cons_self b hb, Bool.false_and]

theorem find_eq_some {i : ℕ} : find r pat u = some i ↔ i ≤ u.length ∧
    beginsWith r pat (u.drop i) = true ∧ ∀ j < i, beginsWith r pat (u.drop j) = false := by
  induction u generalizing i with
  | nil =>
    rw [find]
    constructor
    · intro h
      split at h
      · case isTrue hb =>
        rw [Option.some.injEq] at h
        rw [← h]
        exact ⟨Nat.le_refl 0, hb, fun j hj => absurd hj (Nat.not_lt_zero j)⟩
      · contradiction
    · rintro ⟨hi, hb, _⟩
      have hzero := Nat.le_zero.mp hi
      rw [List.drop_nil] at hb
      rw [if_pos hb, hzero]
  | cons b bs ih =>
    rw [find]
    constructor
    · intro h
      split at h
      · case isTrue hb =>
        rw [Option.some.injEq] at h
        rw [← h]
        exact ⟨Nat.zero_le _, hb, fun j hj => absurd hj (Nat.not_lt_zero j)⟩
      · case isFalse hb =>
        rcases Option.map_eq_some_iff.mp h with ⟨k, hk, rfl⟩
        obtain ⟨hle, hbegin, hbefore⟩ := ih.mp hk
        refine ⟨Nat.succ_le_succ hle, hbegin, ?_⟩
        intro j hj
        cases j with
        | zero => exact Bool.eq_false_iff.mpr hb
        | succ j => exact hbefore j (Nat.lt_of_succ_lt_succ hj)
    · rintro ⟨hle, hbegin, hbefore⟩
      cases i with
      | zero => exact if_pos hbegin
      | succ i =>
        have hfirst := hbefore 0 (Nat.succ_pos i)
        rw [List.drop_zero] at hfirst
        have hrest : find r pat bs = some i :=
          ih.mpr ⟨Nat.le_of_succ_le_succ hle, hbegin,
            fun j hj => hbefore (j+1) (Nat.succ_lt_succ hj)⟩
        rw [hfirst, if_neg (by decide), hrest]
        rfl

theorem find_eq_none :
    find r pat u = none ↔ ∀ j ≤ u.length, beginsWith r pat (u.drop j) = false := by
  constructor
  · intro h j
    induction j using Nat.strongRecOn with
    | _ j ih =>
      intro hj
      rw [← Bool.not_eq_true]
      intro hb
      have hsome := find_eq_some.mpr ⟨hj, hb, fun k hk => ih k hk (by omega)⟩
      rw [h] at hsome
      contradiction
  · intro h
    rcases hf : find r pat u with _ | i
    · rfl
    · obtain ⟨hi, hb, _⟩ := find_eq_some.mp hf
      rw [h i hi] at hb
      contradiction

theorem find_bound {i : ℕ} (h : find r pat u = some i) : i+pat.length ≤ u.length := by
  obtain ⟨hi, hb, _⟩ := find_eq_some.mp h
  have hlen := length_le_of_beginsWith hb
  rw [List.length_drop] at hlen
  omega

theorem find_of_beginsWith {i : ℕ} (hi : i ≤ u.length) (h : beginsWith r pat (u.drop i) = true) :
    ∃ j ≤ i, find r pat u = some j := by
  cases hf : find r pat u with
  | none =>
    rw [find_eq_none.mp hf i hi] at h
    contradiction
  | some j =>
    refine ⟨j, ?_, rfl⟩
    obtain ⟨_, _, hbefore⟩ := find_eq_some.mp hf
    by_contra hlt
    rw [hbefore i (Nat.not_le.mp hlt)] at h
    contradiction

theorem beginsWith_drop_append {j : ℕ} (h : j+pat.length ≤ u.length) :
    beginsWith r pat ((u ++ v).drop j) = beginsWith r pat (u.drop j) := by
  rw [List.drop_append_of_le_length (by omega)]
  apply beginsWith_append
  rw [List.length_drop]
  omega

/-- A place that was found stays the first one when the text goes on. -/
theorem find_append {i : ℕ} (h : find r pat u = some i) : find r pat (u ++ v) = some i := by
  have hbound := find_bound h
  obtain ⟨hi, hb, hbefore⟩ := find_eq_some.mp h
  apply find_eq_some.mpr
  refine ⟨by rw [List.length_append]; omega, (beginsWith_drop_append hbound).trans hb, ?_⟩
  intro j hj
  rw [beginsWith_drop_append (by omega)]
  exact hbefore j hj

/-- No place begins where the first symbol of the pattern does not stand. -/
theorem find_skip {a : α} {as : List α} (h : ∀ b ∈ u, r a b = false) :
    find r (a :: as) (u ++ v) = (find r (a :: as) v).map (· + u.length) := by
  induction u with
  | nil =>
    rw [List.nil_append, List.length_nil]
    exact Option.map_id'.symm
  | cons b bs ih =>
    rw [List.cons_append, find, beginsWith, h b List.mem_cons_self, Bool.false_and,
      if_neg Bool.false_ne_true, ih fun b' hb' => h b' (List.mem_cons_of_mem b hb'), Option.map_map]
    rfl

/-- A search finds the first place before the terminator, and runs off the text only where
there is neither. -/
theorem scan_eq (hp : pat ≠ []) (h : ∀ a ∈ pat, ∀ b, stop b = true → r a b = false) :
    scan r stop pat u = match find r pat (upTo stop u) with
      | some i => some (some i)
      | none => if u.any stop then some none else none := by
  induction u with
  | nil =>
    change none = match find r pat [] with
      | some i => some (some i)
      | none => if ([] : List β).any stop then some none else none
    rw [find, beginsWith_nil hp]
    rfl
  | cons b bs ih =>
    have hhead : beginsWith r pat (upTo stop (b :: bs)) = beginsWith r pat (b :: bs) :=
      beginsWith_upTo h
    rw [scan, List.any_cons]
    unfold upTo at hhead ih ⊢
    rw [List.takeWhile_cons] at hhead ⊢
    rcases hb : stop b with _ | _
    · rw [hb, Bool.not_false, if_pos rfl] at hhead
      rw [Bool.not_false, if_pos rfl, Bool.false_or, find, hhead]
      split
      · rfl
      · rw [if_neg (by decide), ih]
        rcases find r pat (bs.takeWhile fun b => !stop b) with _ | i
        · rcases bs.any stop with _ | _
          · rfl
          · rfl
        · rfl
    · rw [hb, Bool.not_true, if_neg (by decide), beginsWith_nil hp] at hhead
      rw [← hhead, if_neg Bool.false_ne_true, if_pos rfl, Bool.not_true, if_neg Bool.false_ne_true,
        Bool.true_or, if_pos rfl, find, beginsWith_nil hp]
      rfl

/-- A place that the search gives is the first one in the string. -/
theorem scan_found {i : ℕ} (hp : pat ≠ []) (h : ∀ a ∈ pat, ∀ b, stop b = true → r a b = false) :
    scan r stop pat u = some (some i) ↔ find r pat (upTo stop u) = some i := by
  rw [scan_eq hp h]
  split
  · case h_1 j hj => rw [hj, Option.some.injEq]
  · case h_2 hnone =>
    rw [hnone]
    split
    · simp
    · simp

/-- The search ends in the text if the string does or the pattern is found. -/
theorem scan_ends (hp : pat ≠ []) (h : ∀ a ∈ pat, ∀ b, stop b = true → r a b = false) :
    scan r stop pat u ≠ none ↔ u.any stop = true ∨ find r pat (upTo stop u) ≠ none := by
  rw [scan_eq hp h]
  split
  · case h_1 i hi =>
    rw [hi]
    simp
  · case h_2 hnone =>
    rw [hnone]
    split
    · case isTrue hz => simp [hz]
    · case isFalse hz => simp [hz]

theorem upTo_drop {i : ℕ} (hi : i ≤ (upTo stop u).length) :
    upTo stop (u.drop i) = (upTo stop u).drop i ∧ (u.drop i).any stop = u.any stop := by
  induction i generalizing u with
  | zero => exact ⟨rfl, rfl⟩
  | succ i ih =>
    cases u with
    | nil => exact ⟨rfl, rfl⟩
    | cons b bs =>
      unfold upTo at hi ih ⊢
      rw [List.takeWhile_cons] at hi ⊢
      rw [List.any_cons]
      rcases hb : stop b with _ | _
      · rw [hb, Bool.not_false, if_pos rfl] at hi
        rw [Bool.not_false, if_pos rfl, Bool.false_or]
        exact ih (Nat.le_of_succ_le_succ hi)
      · rw [hb, Bool.not_true, if_neg Bool.false_ne_true] at hi
        contradiction

theorem upTo_prefix : upTo stop u <+: u := List.takeWhile_prefix _

end TextSearch
