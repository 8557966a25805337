import Mathlib.Logic.Function.Basic

/-! A table of resources with their owners. A party that takes only what nobody owns, and
drops only what is its own, leaves the others what they own. -/
namespace OwnerTable

inductive Change (ρ : Type*)
  | take (r : ρ)
  | drop (r : ρ)
  deriving DecidableEq

variable {ρ ω : Type*} [DecidableEq ρ]

def apply (w : ω) (tab : ρ → Option ω) : Change ρ → ρ → Option ω
  | .take r => Function.update tab r (some w)
  | .drop r => Function.update tab r none

def run (w : ω) : (ρ → Option ω) → List (Change ρ) → ρ → Option ω
  | tab, [] => tab
  | tab, ch :: chs => run w (apply w tab ch) chs

/-- What `w` may do. To drop what nobody owns does nothing. -/
def Fair (w : ω) (tab : ρ → Option ω) : Change ρ → Prop
  | .take r => tab r = none
  | .drop r => ∀ w', tab r = some w' → w' = w

def FairRun (w : ω) : (ρ → Option ω) → List (Change ρ) → Prop
  | _, [] => True
  | tab, ch :: chs => Fair w tab ch ∧ FairRun w (apply w tab ch) chs

theorem apply_spares {w w' : ω} {tab : ρ → Option ω} {ch : Change ρ} (h : Fair w tab ch)
    (hne : w' ≠ w) {r : ρ} (hr : tab r = some w') : apply w tab ch r = some w' := by
  cases ch with
  | take q =>
    have hq : r ≠ q := by
      intro heq
      rw [heq, h] at hr
      contradiction
    exact (Function.update_of_ne hq _ _).trans hr
  | drop q =>
    have hq : r ≠ q := by
      intro heq
      rw [heq] at hr
      exact hne (h w' hr)
    exact (Function.update_of_ne hq _ _).trans hr

/-- The others keep what they own. -/
theorem run_spares {w w' : ω} {tab : ρ → Option ω} {chs : List (Change ρ)}
    (h : FairRun w tab chs) (hne : w' ≠ w) {r : ρ} (hr : tab r = some w') :
    run w tab chs r = some w' := by
  induction chs generalizing tab with
  | nil => exact hr
  | cons ch chs ih => exact ih h.2 (apply_spares h.1 hne hr)

/-- Nobody else comes to own anything. -/
theorem run_source {w w' : ω} {tab : ρ → Option ω} {chs : List (Change ρ)} (hne : w' ≠ w) {r : ρ}
    (hr : run w tab chs r = some w') : tab r = some w' := by
  induction chs generalizing tab with
  | nil => exact hr
  | cons ch chs ih =>
    have happly := ih hr
    cases ch with
    | take q =>
      change Function.update tab q (some w) r = some w' at happly
      rcases eq_or_ne r q with rfl | hq
      · rw [Function.update_self] at happly
        exact absurd (Option.some.inj happly).symm hne
      · rwa [Function.update_of_ne hq] at happly
    | drop q =>
      change Function.update tab q none r = some w' at happly
      rcases eq_or_ne r q with rfl | hq
      · rw [Function.update_self] at happly
        contradiction
      · rwa [Function.update_of_ne hq] at happly

theorem run_none {w : ω} {tab : ρ → Option ω} {chs : List (Change ρ)} {r : ρ} (hr : tab r = none)
    (htake : .take r ∉ chs) : run w tab chs r = none := by
  induction chs generalizing tab with
  | nil => exact hr
  | cons ch chs ih =>
    rw [List.mem_cons, not_or] at htake
    apply ih _ htake.2
    cases ch with
    | take q =>
      have hne : r ≠ q := by
        intro heq
        rw [heq] at htake
        exact htake.1 rfl
      exact (Function.update_of_ne hne _ _).trans hr
    | drop q =>
      rcases eq_or_ne r q with rfl | hne
      · exact Function.update_self _ _ _
      · exact (Function.update_of_ne hne _ _).trans hr

theorem apply_keeps {w : ω} {tab : ρ → Option ω} {ch : Change ρ} {r : ρ} (hr : tab r = some w)
    (hdrop : ch ≠ .drop r) : apply w tab ch r = some w := by
  cases ch with
  | take q =>
    rcases eq_or_ne r q with rfl | hne
    · exact Function.update_self _ _ _
    · exact (Function.update_of_ne hne _ _).trans hr
  | drop q =>
    have hne : r ≠ q := by
      intro heq
      rw [heq] at hdrop
      exact hdrop rfl
    exact (Function.update_of_ne hne _ _).trans hr

theorem run_keeps {w : ω} {tab : ρ → Option ω} {chs : List (Change ρ)} {r : ρ}
    (hr : tab r = some w) (hdrop : .drop r ∉ chs) : run w tab chs r = some w := by
  induction chs generalizing tab with
  | nil => exact hr
  | cons ch chs ih =>
    rw [List.mem_cons, not_or] at hdrop
    exact ih (apply_keeps hr fun heq => hdrop.1 heq.symm) hdrop.2

/-- To drop what nobody owns is fair. -/
theorem drops_fair {w : ω} {tab : ρ → Option ω} {chs : List (Change ρ)} {r : ρ}
    (hr : tab r = none) (hdrops : ∀ ch ∈ chs, ch = .drop r) : FairRun w tab chs := by
  induction chs generalizing tab with
  | nil => trivial
  | cons ch chs ih =>
    rw [hdrops ch List.mem_cons_self]
    constructor
    · intro w' hw'
      rw [hr] at hw'
      contradiction
    · apply ih (Function.update_self _ _ _)
      intro ch' hch'
      exact hdrops ch' (List.mem_cons_of_mem ch hch')

theorem takes_fair {w : ω} {tab : ρ → Option ω} {rs : List ρ} (hd : rs.Nodup)
    (hfree : ∀ r ∈ rs, tab r = none) : FairRun w tab (rs.map .take) := by
  induction rs generalizing tab with
  | nil => trivial
  | cons r rs ih =>
    rw [List.nodup_cons] at hd
    refine ⟨hfree r List.mem_cons_self, ih hd.2 ?_⟩
    intro q hq
    have hne : q ≠ r := ne_of_mem_of_not_mem hq hd.1
    exact (Function.update_of_ne hne _ _).trans (hfree q (List.mem_cons_of_mem r hq))

theorem takes_keep {w : ω} {tab : ρ → Option ω} {r : ρ} (rs : List ρ) (hr : tab r = some w) :
    run w tab (rs.map .take) r = some w := by
  induction rs generalizing tab with
  | nil => exact hr
  | cons q rs ih =>
    apply ih
    apply apply_keeps hr
    intro heq
    contradiction

theorem takes_hold {w : ω} {tab : ρ → Option ω} {r : ρ} {rs : List ρ} (hr : r ∈ rs) :
    run w tab (rs.map .take) r = some w := by
  induction rs generalizing tab with
  | nil => contradiction
  | cons q rs ih =>
    rcases List.mem_cons.mp hr with rfl | hr
    · exact takes_keep rs (Function.update_self _ _ _)
    · exact ih hr

/-- Every resource was dropped as often as it was taken, but for one time if somebody has it. -/
def Accounted (tab : ρ → Option ω) (chs : List (Change ρ)) : Prop :=
  ∀ r, chs.count (.drop r)+(if (tab r).isSome then 1 else 0) = chs.count (.take r)

theorem Accounted.take {w : ω} {tab : ρ → Option ω} {chs : List (Change ρ)} {r : ρ}
    (h : Accounted tab chs) (hr : tab r = none) :
    Accounted (apply w tab (.take r)) (chs ++ [.take r]) := by
  intro q
  have hq := h q
  rw [List.count_append, List.count_append]
  rcases eq_or_ne q r with rfl | hne
  · rw [hr] at hq
    simp only [apply, Function.update_self, Option.isSome_some, if_true, List.count_singleton_self]
    simpa using hq
  · have hne' : Change.take r ≠ Change.take q := fun heq => hne (Change.take.inj heq).symm
    simp only [apply, Function.update_of_ne hne]
    simpa [List.count_singleton, hne'] using hq

theorem Accounted.drop {w : ω} {tab : ρ → Option ω} {chs : List (Change ρ)} {r : ρ}
    (h : Accounted tab chs) (hr : (tab r).isSome = true) :
    Accounted (apply w tab (.drop r)) (chs ++ [.drop r]) := by
  intro q
  have hq := h q
  rw [List.count_append, List.count_append]
  rcases eq_or_ne q r with rfl | hne
  · rw [hr] at hq
    simp only [apply, Function.update_self, Option.isSome_none, List.count_singleton_self]
    simpa using hq
  · have hne' : Change.drop r ≠ Change.drop q := fun heq => hne (Change.drop.inj heq).symm
    simp only [apply, Function.update_of_ne hne]
    simpa [List.count_singleton, hne'] using hq

/-- How what a party has goes with the changes that it makes. -/
inductive Moves (old new : ρ → Prop) : List (Change ρ) → Prop
  | keep : (∀ q, new q → old q) → Moves old new []
  | take (r : ρ) : (∀ q, new q → q = r ∨ old q) → Moves old new [.take r]
  | drop (r : ρ) : old r → (∀ q, new q → old q ∧ q ≠ r) → Moves old new [.drop r]

variable {w : ω} {tab : ρ → Option ω} {old new : ρ → Prop} {chs : List (Change ρ)}

theorem Moves.fair (h : Moves old new chs) (hold : ∀ r, old r → tab r = some w)
    (hfree : ∀ r, .take r ∈ chs → tab r = none) : FairRun w tab chs := by
  cases h with
  | keep => trivial
  | take r => exact ⟨hfree r List.mem_cons_self, trivial⟩
  | drop r hr =>
    refine ⟨?_, trivial⟩
    intro w' hw'
    rw [hold r hr] at hw'
    exact (Option.some.inj hw').symm

/-- What a party has is its own in the table. -/
theorem Moves.holds (h : Moves old new chs) (hold : ∀ r, old r → tab r = some w) :
    ∀ r, new r → run w tab chs r = some w := by
  intro q hq
  cases h with
  | keep hnew => exact hold q (hnew q hq)
  | take r hnew =>
    rcases hnew q hq with rfl | hq
    · exact Function.update_self _ _ _
    · change apply w tab (.take r) q = some w
      apply apply_keeps (hold q hq)
      intro heq
      contradiction
  | drop r _ hnew =>
    obtain ⟨hq, hne⟩ := hnew q hq
    change apply w tab (.drop r) q = some w
    apply apply_keeps (hold q hq)
    intro heq
    exact hne (Change.drop.inj heq).symm

/-- A party loses nothing of what it has but by a change. -/
inductive Keeps (old new : ρ → Prop) : List (Change ρ) → Prop
  | keep : (∀ q, old q → new q) → Keeps old new []
  | take (r : ρ) : new r → (∀ q, old q → new q) → Keeps old new [.take r]
  | drop (r : ρ) : (∀ q, old q → q ≠ r → new q) → Keeps old new [.drop r]

omit [DecidableEq ρ] in
theorem Keeps.mono {old' new' : ρ → Prop} (h : Keeps old new chs) (hold : ∀ r, old' r → old r)
    (hnew : ∀ r, new r → new' r) : Keeps old' new' chs := by
  cases h with
  | keep hkept => exact Keeps.keep fun q hq => hnew q (hkept q (hold q hq))
  | take r hr hkept => exact Keeps.take r (hnew r hr) fun q hq => hnew q (hkept q (hold q hq))
  | drop r hkept => exact Keeps.drop r fun q hq hne => hnew q (hkept q (hold q hq) hne)

/-- What is a party's own in the table, it has. -/
theorem Keeps.source (h : Keeps old new chs) (hold : ∀ r, tab r = some w → old r) :
    ∀ r, run w tab chs r = some w → new r := by
  intro q hq
  cases h with
  | keep hnew => exact hnew q (hold q hq)
  | take r hr hnew =>
    rcases eq_or_ne q r with rfl | hne
    · exact hr
    · apply hnew q (hold q _)
      rwa [← Function.update_of_ne hne (some w) tab]
  | drop r hnew =>
    change Function.update tab r none q = some w at hq
    rcases eq_or_ne q r with rfl | hne
    · rw [Function.update_self] at hq
      contradiction
    · rw [Function.update_of_ne hne] at hq
      exact hnew q (hold q hq) hne

/-- Whoever has an entry in the table has what it stands for. -/
def Listed (has : ω → ρ → Prop) (tab : ρ → Option ω) : Prop := ∀ w r, tab r = some w → has w r

variable {has has' : ω → ρ → Prop}

theorem Keeps.listed (h : Keeps (has w) (has' w) chs) (hold : Listed has tab)
    (hothers : ∀ w' ≠ w, ∀ r, has w' r → has' w' r) : Listed has' (run w tab chs) := by
  intro w' r hr
  by_cases hw : w' = w
  · rw [hw] at hr ⊢
    exact h.source (hold w) r hr
  · exact hothers w' hw r (hold w' r (run_source hw hr))

theorem takes_source {r : ρ} {rs : List ρ} (h : run w tab (rs.map .take) r = some w) :
    r ∈ rs ∨ tab r = some w := by
  induction rs generalizing tab with
  | nil => exact Or.inr h
  | cons q rs ih =>
    rcases ih h with hmem | htab
    · exact Or.inl (List.mem_cons_of_mem q hmem)
    · rcases eq_or_ne r q with rfl | hne
      · exact Or.inl List.mem_cons_self
      · right
        rwa [← Function.update_of_ne hne (some w) tab]

theorem takes_listed {rs : List ρ} (hold : Listed has tab) (hnew : ∀ r ∈ rs, has' w r)
    (hothers : ∀ w' r, has w' r → has' w' r) : Listed has' (run w tab (rs.map .take)) := by
  intro w' r hr
  by_cases hw : w' = w
  · rw [hw] at hr ⊢
    rcases takes_source hr with hmem | htab
    · exact hnew r hmem
    · exact hothers w r (hold w r htab)
  · exact hothers w' r (hold w' r (run_source hw hr))

end OwnerTable
