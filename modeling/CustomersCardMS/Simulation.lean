import CustomersCardMS.Interleaving

/-! How the runs of one machine follow those of another, by a relation between their configurations
that every turn keeps; runs that say what was chosen in every turn; and how turns come to an end, by
a rank that every one of them lowers. -/
namespace Interleaving

section Simulation

variable {σ σ' τ τ' χ χ' ε ε' φ φ' : Type*} {M : Machine σ τ χ ε φ} {N : Machine σ' τ' χ' ε' φ'}

/-- `N` follows a run of `M` and shows what `f` keeps of its events, if it can follow every step
between related configurations. -/
theorem Run.simulates {R : Conf σ τ → Conf σ' τ' → Prop} {f : ε → Option ε'}
    (hstep : ∀ c es c' d, R c d → Step M c es c' → ∃ d', Run N d (es.filterMap f) d' ∧ R c' d')
    {c₀ c : Conf σ τ} {d₀ : Conf σ' τ'} {evs : List ε} (h₀ : R c₀ d₀) (h : Run M c₀ evs c) :
    ∃ d, Run N d₀ (evs.filterMap f) d ∧ R c d := by
  apply h.invariant fun evs c => ∃ d, Run N d₀ (evs.filterMap f) d ∧ R c d
  · exact ⟨d₀, Run.nil, h₀⟩
  · rintro evs c es c' ⟨d, hrun, hrel⟩ hturn
    obtain ⟨d', hrun', hrel'⟩ := hstep c es c' d hrel hturn
    refine ⟨d', ?_, hrel'⟩
    rw [List.filterMap_append]
    exact hrun.append hrun'

end Simulation

section Notes

variable {σ τ χ ε φ ν : Type*} {M : Machine σ τ χ ε φ} {f : σ → τ → χ → ν}

/-- Every turn shows a note of who took it and what the environment chose, beside its events. -/
def Machine.noting (M : Machine σ τ χ ε φ) (f : σ → τ → χ → ν) : Machine σ τ χ (ν × List ε) φ where
  step s t x := (M.step s t x).map fun r => (r.1, r.2.1, [(f s t x, r.2.2)])
  allowed := M.allowed

instance [∀ s x, Decidable (M.allowed s x)] (s : σ) (x : χ) :
    Decidable ((M.noting f).allowed s x) := inferInstanceAs (Decidable (M.allowed s x))

theorem noting_ok {s s' : σ} {t : τ} {x : χ} {new : List τ} {evs : List ε}
    (h : M.step s t x = .ok (s', new, evs)) :
    (M.noting f).step s t x = .ok (s', new, [(f s t x, evs)]) := by
  dsimp only [Machine.noting]
  rw [h]
  rfl

theorem noted_step {s s' : σ} {t : τ} {x : χ} {new : List τ} {ns : List (ν × List ε)}
    (h : (M.noting f).step s t x = .ok (s', new, ns)) :
    ∃ evs, M.step s t x = .ok (s', new, evs) ∧ ns = [(f s t x, evs)] := by
  dsimp only [Machine.noting] at h
  cases hstep : M.step s t x with
  | error e =>
    rw [hstep] at h
    contradiction
  | ok r =>
    rw [hstep] at h
    cases h
    exact ⟨_, rfl, rfl⟩

theorem Step.plain {c c' : Conf σ τ} {ns : List (ν × List ε)} (h : Step (M.noting f) c ns c') :
    Step M c (ns.flatMap Prod.snd) c' := by
  cases h with
  | turn hp hallowed hstep =>
    obtain ⟨evs, hok, rfl⟩ := noted_step hstep
    rw [List.flatMap_singleton]
    exact Step.turn hp hallowed hok

/-- A run with notes is a run, and every run can be taken down. -/
theorem Run.plain {c₀ c : Conf σ τ} {ns : List (ν × List ε)} (h : Run (M.noting f) c₀ ns c) :
    Run M c₀ (ns.flatMap Prod.snd) c := by
  induction h with
  | nil => exact Run.nil
  | snoc _ hs ih =>
    rw [List.flatMap_append]
    exact ih.snoc hs.plain

theorem Run.noted (f : σ → τ → χ → ν) {c₀ c : Conf σ τ} {evs : List ε} (h : Run M c₀ evs c) :
    ∃ ns, Run (M.noting f) c₀ ns c ∧ ns.flatMap Prod.snd = evs := by
  induction h with
  | nil => exact ⟨[], Run.nil, rfl⟩
  | @snoc evs es c c' _ hs ih =>
    obtain ⟨ns, hrun, hns⟩ := ih
    cases hs with
    | @turn s s' t x tasks new rest _ hp hallowed hstep =>
      have hturn : Step (M.noting f) ⟨s, tasks⟩ [(f s t x, es)] ⟨s', new ++ rest⟩ :=
        Step.turn hp hallowed (noting_ok hstep)
      refine ⟨ns ++ [(f s t x, es)], hrun.snoc hturn, ?_⟩
      rw [List.flatMap_append, List.flatMap_singleton, hns]

/-- Less can be noted of the same run. -/
theorem Run.renoted {μ : Type*} (k : ν → μ) {c₀ c : Conf σ τ} {ns : List (ν × List ε)}
    (h : Run (M.noting f) c₀ ns c) :
    Run (M.noting fun s t x => k (f s t x)) c₀ (ns.map fun n => (k n.1, n.2)) c := by
  induction h with
  | nil => exact Run.nil
  | @snoc ns es c c' _ hs ih =>
    rw [List.map_append]
    cases hs with
    | turn hp hallowed hstep =>
      obtain ⟨evs, hok, rfl⟩ := noted_step hstep
      exact ih.snoc (Step.turn hp hallowed (noting_ok hok))

end Notes

section Rank

variable {σ τ χ ε φ : Type*} {M : Machine σ τ χ ε φ} {p : τ → Prop}

/-- The turn of a task in `p`. -/
inductive TurnOf (M : Machine σ τ χ ε φ) (p : τ → Prop) : Conf σ τ → List ε → Conf σ τ → Prop
  | turn {s s' : σ} {t : τ} {x : χ} {tasks new rest : List τ} {evs : List ε} : p t →
      tasks.Perm (t :: rest) → M.allowed s x → M.step s t x = .ok (s', new, evs) →
      TurnOf M p ⟨s, tasks⟩ evs ⟨s', new ++ rest⟩

theorem TurnOf.step {c c' : Conf σ τ} {evs : List ε} (h : TurnOf M p c evs c') :
    Step M c evs c' := by
  cases h with
  | turn _ hp hallowed hstep => exact Step.turn hp hallowed hstep

/-- So many turns, and nothing but turns of tasks in `p`. -/
inductive Turns (M : Machine σ τ χ ε φ) (p : τ → Prop) (c₀ : Conf σ τ) : ℕ → Conf σ τ → Prop
  | none : Turns M p c₀ 0 c₀
  | one {n : ℕ} {c c' : Conf σ τ} {evs : List ε} : Turns M p c₀ n c → TurnOf M p c evs c' →
      Turns M p c₀ (n+1) c'

/-- No task in `p` can take a turn. -/
def AtRest (M : Machine σ τ χ ε φ) (p : τ → Prop) (c : Conf σ τ) : Prop :=
  ∀ evs c', ¬ TurnOf M p c evs c'

variable {Inv : Conf σ τ → Prop} {rank : Conf σ τ → ℕ}
  (hinv : ∀ c evs c', Inv c → TurnOf M p c evs c' → Inv c')
  (hrank : ∀ c evs c', Inv c → TurnOf M p c evs c' → rank c' < rank c)
include hinv hrank

/-- As long as every turn lowers the rank, there are at most so many. -/
theorem Turns.bounded {c₀ c : Conf σ τ} {n : ℕ} (h₀ : Inv c₀) (h : Turns M p c₀ n c) :
    Inv c ∧ n+rank c ≤ rank c₀ := by
  induction h with
  | none => exact ⟨h₀, by omega⟩
  | one _ hturn ih =>
    have hlt := hrank _ _ _ ih.1 hturn
    exact ⟨hinv _ _ _ ih.1 hturn, by omega⟩

/-- The turns can be taken until none is left. -/
theorem Turns.exhausted {c₀ : Conf σ τ} (h₀ : Inv c₀) :
    ∃ n c, Turns M p c₀ n c ∧ Inv c ∧ AtRest M p c := by
  suffices h : ∀ k n c, Turns M p c₀ n c → Inv c → rank c ≤ k →
      ∃ n c, Turns M p c₀ n c ∧ Inv c ∧ AtRest M p c by
    exact h (rank c₀) 0 c₀ Turns.none h₀ le_rfl
  intro k
  induction k with
  | zero =>
    intro n c hturns hc hk
    refine ⟨n, c, hturns, hc, ?_⟩
    intro evs c' hturn
    have hlt := hrank c evs c' hc hturn
    omega
  | succ k ih =>
    intro n c hturns hc hk
    by_cases hrest : AtRest M p c
    · exact ⟨n, c, hturns, hc, hrest⟩
    · have hmore : ∃ evs c', TurnOf M p c evs c' := by
        by_contra hnone
        exact hrest fun evs c' hturn => hnone ⟨evs, c', hturn⟩
      obtain ⟨evs, c', hturn⟩ := hmore
      have hlt := hrank c evs c' hc hturn
      exact ih (n+1) c' (hturns.one hturn) (hinv c evs c' hc hturn) (by omega)

end Rank

end Interleaving
