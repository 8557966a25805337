import Mathlib.Tactic.Common
import Mathlib.Algebra.BigOperators.Group.List.Basic
import Mathlib.Algebra.Ring.Int.Defs
import Mathlib.Algebra.Ring.Nat
import Mathlib.Data.List.Perm.Basic

/-! Tasks that take turns on a shared state: each turn runs one atomic step of one
task, which may fault, and puts the tasks that continue it back into the pool. -/
namespace Interleaving

/-- `χ` is what the environment decides in a step, `ε` what an observer sees of it. -/
structure Machine (σ τ χ ε φ : Type*) where
  step : σ → τ → χ → Except φ (σ × List τ × List ε)
  allowed : σ → χ → Prop

structure Conf (σ τ : Type*) where
  shared : σ
  tasks : List τ

variable {σ τ χ ε φ : Type*} (M : Machine σ τ χ ε φ)

/-- The order of the pool means nothing. -/
inductive Step : Conf σ τ → List ε → Conf σ τ → Prop
  | turn {s s' : σ} {t : τ} {x : χ} {tasks new rest : List τ} {evs : List ε} :
      tasks.Perm (t :: rest) → M.allowed s x → M.step s t x = .ok (s', new, evs) →
      Step ⟨s, tasks⟩ evs ⟨s', new ++ rest⟩

inductive Run (c₀ : Conf σ τ) : List ε → Conf σ τ → Prop
  | nil : Run c₀ [] c₀
  | snoc {evs es : List ε} {c c' : Conf σ τ} : Run c₀ evs c → Step M c es c' →
      Run c₀ (evs ++ es) c'

/-- No task can fault with `f` in its next step. -/
def NoFault (c : Conf σ τ) (f : φ) : Prop :=
  ∀ t ∈ c.tasks, ∀ x, M.allowed c.shared x → M.step c.shared t x ≠ .error f

variable {M}

/-- What holds at the start and is kept by every step holds along every run. -/
theorem Run.invariant {c₀ c : Conf σ τ} {evs : List ε} (Inv : List ε → Conf σ τ → Prop)
    (h₀ : Inv [] c₀)
    (hstep : ∀ evs c es c', Inv evs c → Step M c es c' → Inv (evs ++ es) c')
    (h : Run M c₀ evs c) : Inv evs c := by
  induction h with
  | nil => exact h₀
  | snoc _ hs ih => exact hstep _ _ _ _ ih hs

theorem Run.append {c₀ c c' : Conf σ τ} {evs es : List ε} (h : Run M c₀ evs c)
    (h' : Run M c es c') : Run M c₀ (evs ++ es) c' := by
  induction h' with
  | nil => simpa using h
  | snoc _ hs ih =>
    rw [← List.append_assoc]
    exact ih.snoc hs

theorem Run.single {c c' : Conf σ τ} {es : List ε} (h : Step M c es c') : Run M c es c' := by
  simpa only [List.nil_append] using Run.nil.snoc h

/-- The only task of a pool takes its turn. -/
theorem Run.alone {c₀ : Conf σ τ} {s s' : σ} {t : τ} {x : χ} {new : List τ} {evs es : List ε}
    (h : Run M c₀ evs ⟨s, [t]⟩) (hallowed : M.allowed s x)
    (hstep : M.step s t x = .ok (s', new, es)) : Run M c₀ (evs ++ es) ⟨s', new⟩ := by
  have hturn : Step M ⟨s, [t]⟩ es ⟨s', new ++ []⟩ := Step.turn (List.Perm.refl _) hallowed hstep
  rw [List.append_nil] at hturn
  exact h.snoc hturn

/-- An automaton that reads the turns of a run, and the turns that it lets pass. -/
structure Monitor (β σ τ χ : Type*) where
  next : β → σ → τ → χ → β
  permits : β → σ → τ → χ → Bool

section Watch

variable {β : Type*} {W : Monitor β σ τ χ}

/-- The machine with a monitor beside its state. A turn that is not permitted faults. -/
def Machine.watched (M : Machine σ τ χ ε φ) (W : Monitor β σ τ χ) :
    Machine (σ × β) τ χ ε (Option φ) where
  step s t x :=
    if W.permits s.2 s.1 t x then
      match M.step s.1 t x with
      | .ok (s', new, evs) => .ok ((s', W.next s.2 s.1 t x), new, evs)
      | .error f => .error (some f)
    else .error none
  allowed s x := M.allowed s.1 x

instance (s : σ × β) (x : χ) [Decidable (M.allowed s.1 x)] :
    Decidable ((M.watched W).allowed s x) := inferInstanceAs (Decidable (M.allowed s.1 x))

def Conf.watch (c : Conf σ τ) (b : β) : Conf (σ × β) τ := ⟨(c.shared, b), c.tasks⟩

def Conf.unwatch (c : Conf (σ × β) τ) : Conf σ τ := ⟨c.shared.1, c.tasks⟩

theorem watched_step {s s' : σ × β} {t : τ} {x : χ} {new : List τ} {evs : List ε}
    (h : (M.watched W).step s t x = .ok (s', new, evs)) :
    W.permits s.2 s.1 t x = true ∧ M.step s.1 t x = .ok (s'.1, new, evs) ∧
      s'.2 = W.next s.2 s.1 t x := by
  dsimp only [Machine.watched] at h
  split at h
  · case isTrue hpermits =>
    split at h
    · case h_1 s'' new' evs' hstep =>
      cases h
      exact ⟨hpermits, hstep, rfl⟩
    · contradiction
  · contradiction

theorem watched_turn {s : σ × β} {s' : σ} {t : τ} {x : χ} {new : List τ} {evs : List ε}
    (hpermits : W.permits s.2 s.1 t x = true) (h : M.step s.1 t x = .ok (s', new, evs)) :
    (M.watched W).step s t x = .ok ((s', W.next s.2 s.1 t x), new, evs) := by
  dsimp only [Machine.watched]
  rw [if_pos hpermits, h]

theorem Run.unwatch {c₀ c : Conf (σ × β) τ} {evs : List ε} (h : Run (M.watched W) c₀ evs c) :
    Run M c₀.unwatch evs c.unwatch := by
  induction h with
  | nil => exact Run.nil
  | snoc _ hs ih =>
    apply ih.snoc
    cases hs with
    | turn hp hallowed hstep => exact Step.turn hp hallowed (watched_step hstep).2.1

end Watch

/-- The run that a schedule picks: the place of a task in the pool, and the environment's choice,
for each turn. -/
def play (M : Machine σ τ χ ε φ) [∀ s x, Decidable (M.allowed s x)] :
    Conf σ τ → List (ℕ × χ) → Option (List ε × Conf σ τ)
  | c, [] => some ([], c)
  | c, (i, x) :: turns =>
    match c.tasks[i]? with
    | none => none
    | some t =>
      if M.allowed c.shared x then
        match M.step c.shared t x with
        | .error _ => none
        | .ok (s', new, evs) =>
          match play M ⟨s', new ++ c.tasks.eraseIdx i⟩ turns with
          | none => none
          | some (es, c') => some (evs ++ es, c')
      else none

/-- What a schedule plays is a run. -/
theorem play_run [∀ s x, Decidable (M.allowed s x)] {c c' : Conf σ τ} {turns : List (ℕ × χ)}
    {evs : List ε} (h : play M c turns = some (evs, c')) : Run M c evs c' := by
  induction turns generalizing c evs with
  | nil =>
    rw [play, Option.some.injEq, Prod.mk.injEq] at h
    rw [← h.1, ← h.2]
    exact Run.nil
  | cons turn turns ih =>
    rw [play] at h
    split at h
    · contradiction
    · case h_2 t hget =>
      split at h
      · case isTrue hallowed =>
        split at h
        · contradiction
        · case h_2 s' new es hstep =>
          split at h
          · contradiction
          · case h_2 es' c'' hrest =>
            rw [Option.some.injEq, Prod.mk.injEq] at h
            rcases h with ⟨rfl, rfl⟩
            rcases List.getElem?_eq_some_iff.mp hget with ⟨hi, rfl⟩
            have hp := (List.getElem_cons_eraseIdx_perm hi).symm
            exact (Run.single (Step.turn hp hallowed hstep)).append (ih hrest)
      · contradiction

/-- A schedule that lets the first task of the pool take the next turn. -/
theorem play_first [∀ s x, Decidable (M.allowed s x)] {s s' : σ} {t : τ} {x : χ} {rest new : List τ}
    {turns : List (ℕ × χ)} {es evs : List ε} {c' : Conf σ τ} (hallowed : M.allowed s x)
    (hstep : M.step s t x = .ok (s', new, es))
    (hplay : play M ⟨s', new ++ rest⟩ turns = some (evs, c')) :
    play M ⟨s, t :: rest⟩ ((0, x) :: turns) = some (es ++ evs, c') := by
  rw [play]
  change (if M.allowed s x then _ else _) = _
  rw [if_pos hallowed]
  change (match M.step s t x with
    | .error _ => none
    | .ok (s', new, evs) =>
      match play M ⟨s', new ++ rest⟩ turns with
      | none => none
      | some (es, c') => some (evs ++ es, c')) = _
  rw [hstep]
  dsimp only
  rw [hplay]

theorem play_reaches [∀ s x, Decidable (M.allowed s x)] {c : Conf σ τ} {turns : List (ℕ × χ)}
    {α : Type*} {f : List ε × Conf σ τ → α} {a : α} (h : (play M c turns).map f = some a) :
    ∃ evs c', Run M c evs c' ∧ f (evs, c') = a := by
  rcases Option.map_eq_some_iff.mp h with ⟨⟨evs, c'⟩, hplay, hf⟩
  exact ⟨evs, c', play_run hplay, hf⟩

/-- The total weight of a pool. -/
def total (w : τ → ℕ) (ts : List τ) : ℕ := (ts.map w).sum

theorem total_cons (w : τ → ℕ) (t : τ) (ts : List τ) : total w (t :: ts) = w t+total w ts := by
  simp [total]

theorem total_append (w : τ → ℕ) (ts us : List τ) : total w (ts ++ us) = total w ts+total w us := by
  simp [total]

theorem total_perm (w : τ → ℕ) {ts us : List τ} (h : ts.Perm us) : total w ts = total w us :=
  (h.map w).sum_eq

theorem le_total_of_mem (w : τ → ℕ) {t : τ} {ts : List τ} (h : t ∈ ts) : w t ≤ total w ts := by
  obtain ⟨pre, post, rfl⟩ := List.append_of_mem h
  rw [total_append, total_cons]
  omega

theorem total_eq_zero (w : τ → ℕ) {ts : List τ} (h : total w ts = 0) (t : τ) (ht : t ∈ ts) :
    w t = 0 := by
  have hle := le_total_of_mem w ht
  omega

theorem total_none {w : τ → ℕ} {ts : List τ} (h : ∀ t ∈ ts, w t = 0) : total w ts = 0 := by
  apply List.sum_eq_zero
  intro n hn
  rcases List.mem_map.mp hn with ⟨t, ht, rfl⟩
  exact h t ht

theorem total_map {α : Type*} (w : τ → ℕ) (f : α → τ) (n : ℕ) (h : ∀ a, w (f a) = n) (as : List α) :
    total w (as.map f) = as.length * n := by
  induction as with
  | nil => simp [total]
  | cons a as ih =>
    rw [List.map_cons, total_cons, h, ih, List.length_cons, Nat.succ_mul, Nat.add_comm]

end Interleaving
