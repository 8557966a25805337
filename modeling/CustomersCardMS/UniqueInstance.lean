import CustomersCardMS.Interleaving

/-! UniqueInstance: every instance of the program that is started looks for one named event, and
creates it when nobody has it open. Any number of instances may do so at the same time. -/
namespace CustomersCard
open Interleaving

/-- The handles of all processes to NP_THE_ONE_INSTANCE. The event is there as long as one is
open. -/
structure NamedEvent where
  handles : ℕ
  deriving DecidableEq

inductive Instance
  -- The program may be started.
  | start
  -- The two calls of UniqueInstance.
  | openEvent
  | createEvent
  -- UniqueInstance has returned true, and main goes on.
  | running
  -- It has returned false, and main returns -1; the handle of OpenEvent is open until then.
  | refused (hUniqueInstance : Bool)
  deriving DecidableEq

inductive InstanceEvent
  -- OpenEvent has returned NULL.
  | absent
  -- CreateEvent has returned, a handle or NULL.
  | created (ok : Bool)
  deriving DecidableEq

namespace UniqueInstance

abbrev Outcome := Except Empty (NamedEvent × List Instance × List InstanceEvent)

/-- The choice: whether an instance is started, whether CreateEvent has memory, whether it exits. -/
def step (e : NamedEvent) : Instance → Bool → Outcome
  | .start, ok => .ok (e, if ok then [.start, .openEvent] else [.start], [])
  -- OpenEvent finds the event for as long as somebody has a handle to it.
  | .openEvent, _ =>
    if 0 < e.handles then .ok (⟨e.handles+1⟩, [.refused true], [])
    else .ok (e, [.createEvent], [.absent])
  | .createEvent, ok =>
    if ok then .ok (⟨e.handles+1⟩, [.running], [.created true])
    else .ok (e, [.refused false], [.created false])
  -- The handles of a process go with it, and the event with the last of them.
  | .running, ok => if ok then .ok (⟨e.handles - 1⟩, [], []) else .ok (e, [.running], [])
  | .refused hUniqueInstance, _ => .ok (⟨e.handles - hUniqueInstance.toNat⟩, [], [])

def machine : Machine NamedEvent Instance Bool InstanceEvent Empty where
  step := step
  allowed _ _ := True

instance (e : NamedEvent) (ok : Bool) : Decidable (machine.allowed e ok) :=
  inferInstanceAs (Decidable True)

def initial : Conf NamedEvent Instance := ⟨⟨0⟩, [.start]⟩

/-- How many instances stand between the two calls, and how often OpenEvent has returned NULL while
another one did. -/
def overlap : ℕ × ℕ → InstanceEvent → ℕ × ℕ
  | (between, overlaps), .absent =>
    (between+1, if between = 0 then overlaps else overlaps+1)
  | (between, overlaps), .created _ => (between - 1, overlaps)

def overlaps (evs : List InstanceEvent) : ℕ := (evs.foldl overlap (0, 0)).2

def holds : Instance → Bool
  | .running | .refused true => true
  | _ => false

/-- What the tasks say of the handles and of the calls that overlapped. -/
structure Kept (evs : List InstanceEvent) (e : NamedEvent) (ts : List Instance) : Prop where
  handles : ts.countP holds = e.handles
  between : ts.count .createEvent = (evs.foldl overlap (0, 0)).1
  running : ts.count .running+ts.count .createEvent ≤ 1+overlaps evs

section Step

variable {e e' : NamedEvent} {t : Instance} {ts us new rest : List Instance}
  {es evs : List InstanceEvent} {ok : Bool}

theorem Kept.perm (h : Kept es e ts) (hp : ts.Perm us) : Kept es e us := by
  refine ⟨?_, ?_, ?_⟩
  · rw [← hp.countP_eq]
    exact h.handles
  · rw [← hp.count_eq]
    exact h.between
  · rw [← hp.count_eq, ← hp.count_eq]
    exact h.running

/-- A running instance keeps the event there. -/
theorem running_le (ts : List Instance) : ts.count .running ≤ ts.countP holds := by
  apply List.countP_mono_left
  intro t _ ht
  rw [eq_of_beq ht]
  rfl

/-- OpenEvent returns NULL only when nobody runs, so that an instance that comes to stand between
the calls is the only one or overlaps with another. -/
theorem Kept.step (h : Kept es e (t :: rest)) (hok : step e t ok = .ok (e', new, evs)) :
    Kept (es ++ evs) e' (new ++ rest) := by
  obtain ⟨hhandles, hbetween, hrunning⟩ := h
  have hle := running_le rest
  unfold overlaps at hrunning
  rw [List.countP_cons] at hhandles
  rw [List.count_cons] at hbetween
  rw [List.count_cons, List.count_cons] at hrunning
  have hkept : List.countP holds (new ++ rest) = e'.handles ∧
      List.count .createEvent (new ++ rest) = ((es ++ evs).foldl overlap (0, 0)).1 ∧
      List.count .running (new ++ rest)+List.count .createEvent (new ++ rest) ≤
        1+((es ++ evs).foldl overlap (0, 0)).2 := by
    rw [List.countP_append, List.count_append, List.count_append, List.foldl_append]
    generalize es.foldl overlap (0, 0) = o at *
    cases t with
    | start =>
      cases hok
      cases ok <;> simp [holds] at * <;> omega
    | openEvent =>
      dsimp only [UniqueInstance.step] at hok
      split at hok
      · cases hok
        simp [holds] at *
        omega
      · cases hok
        simp [holds, overlap] at *
        split <;> omega
    | createEvent =>
      cases ok <;> cases hok <;> simp [holds, overlap] at * <;> omega
    | running => cases ok <;> cases hok <;> simp [holds] at * <;> omega
    | refused hUniqueInstance =>
      cases hok
      cases hUniqueInstance <;> simp [holds] at * <;> omega
  exact ⟨hkept.1, hkept.2.1, hkept.2.2⟩

/-- An OpenEvent that overlaps leaves two instances between the calls. -/
theorem two_between (hok : step e t ok = .ok (e', new, evs))
    (hoverlap : overlaps (es ++ evs) ≠ overlaps es) :
    2 ≤ ((es ++ evs).foldl overlap (0, 0)).1 := by
  unfold overlaps at hoverlap
  rw [List.foldl_append] at hoverlap ⊢
  generalize es.foldl overlap (0, 0) = o at *
  unfold UniqueInstance.step at hok
  split at hok
  · cases hok
    contradiction
  · split at hok
    · cases hok
      contradiction
    · cases hok
      by_cases hzero : o.1 = 0
      · simp [overlap, hzero] at hoverlap
      · change 2 ≤ o.1+1
        omega
  · split at hok
    · cases hok
      contradiction
    · cases hok
      contradiction
  · split at hok
    · cases hok
      contradiction
    · cases hok
      contradiction
  · cases hok
    contradiction

end Step

theorem initial_kept : Kept [] initial.shared initial.tasks := ⟨rfl, rfl, Nat.zero_le _⟩

theorem Kept.run {evs : List InstanceEvent} {conf : Conf NamedEvent Instance}
    (h : Run machine initial evs conf) : Kept evs conf.shared conf.tasks := by
  apply h.invariant (fun evs conf => Kept evs conf.shared conf.tasks) initial_kept
  intro evs conf es conf' hkept hstep
  cases hstep with
  | turn hp _ hok => exact (hkept.perm hp).step hok

/-- CreateEvent gives every instance between the calls a handle, to one and the same event. -/
theorem all_run (k : ℕ) (conf : Conf NamedEvent Instance)
    (hk : conf.tasks.count .createEvent = k) :
    ∃ es conf', Run machine conf es conf' ∧
      conf'.tasks.count .running = conf.tasks.count .running+k := by
  induction k generalizing conf with
  | zero => exact ⟨[], conf, Run.nil, rfl⟩
  | succ k ih =>
    have hmem : .createEvent ∈ conf.tasks := List.count_pos_iff.mp (by omega)
    have hp := List.perm_cons_erase hmem
    have hturn : Step machine conf [.created true]
        ⟨⟨conf.shared.handles+1⟩, [.running] ++ conf.tasks.erase .createEvent⟩ :=
      Step.turn (x := true) hp trivial rfl
    rw [hp.count_eq, List.count_cons_self] at hk
    obtain ⟨es, conf', hrun, hcount⟩ := ih
      ⟨⟨conf.shared.handles+1⟩, [.running] ++ conf.tasks.erase .createEvent⟩ (by simpa using hk)
    refine ⟨_, conf', (Run.single hturn).append hrun, ?_⟩
    rw [hcount, hp.count_eq]
    simp
    omega

/-- At most one instance runs as long as no two stand between OpenEvent and CreateEvent at once, and
at most one more for every OpenEvent that overlaps so; after each of these two can come to run. -/
theorem instances_bounded {evs : List InstanceEvent} {conf : Conf NamedEvent Instance}
    (h : Run machine initial evs conf) :
    conf.tasks.count .running ≤ 1+overlaps evs ∧
      ∀ es conf', Step machine conf es conf' → overlaps (evs ++ es) ≠ overlaps evs →
        ∃ es' conf'', Run machine conf' es' conf'' ∧ 2 ≤ conf''.tasks.count .running := by
  have hkept := Kept.run h
  refine ⟨?_, ?_⟩
  · have hrunning := hkept.running
    omega
  · intro es conf' hstep hoverlap
    have hbetween := (Kept.run (h.snoc hstep)).between
    cases hstep with
    | @turn _ e' t ok tasks new rest _ hp _ hok =>
      have htwo := two_between hok hoverlap
      obtain ⟨es', conf'', hrun, hcount⟩ := all_run _ ⟨e', new ++ rest⟩ rfl
      refine ⟨es', conf'', hrun, ?_⟩
      dsimp only at hbetween hcount
      omega

/-- Both look for the event before one of them creates it. -/
theorem two_instances_run : ∃ evs conf, Run machine initial evs conf ∧
    conf.tasks.count .running = 2 ∧ 1 ≤ overlaps evs := by
  have hplay : (play machine initial
      [(0, true), (0, true), (1, true), (2, true), (0, true), (1, true)]).map (·.2.tasks) =
        some [.running, .running, .start] := by decide +kernel
  obtain ⟨evs, conf, hrun, htasks⟩ := play_reaches hplay
  have htwo : conf.tasks.count .running = 2 := by
    rw [htasks]
    rfl
  have hle := (instances_bounded hrun).1
  exact ⟨evs, conf, hrun, htwo, by omega⟩

end UniqueInstance

end CustomersCard
