import Mathlib.Data.List.Forall2
import Mathlib.Tactic.Common

/-! A queue whose front is being sent while it is still queued, so that a nonempty
queue means a busy sender, and the stream of symbols that its items make up. -/
namespace SendQueue

variable {α β : Type*}

inductive Phase
  | idle
  -- The front is about to be started.
  | waiting
  | active
  -- The front was sent or given up, and is still queued.
  | done
  deriving DecidableEq

/-- Items with their contents; the front of `pending` comes first. -/
structure State (α β : Type*) where
  pending : List (α × List β)
  phase : Phase
  enqueued : List (α × List β)
  started : List (α × List β)
  retired : List (α × List β)
  -- How much of the front has been transmitted.
  off : ℕ
  wire : List β
  -- Whether an item was given up before all of it was transmitted.
  lost : Bool

def State.empty : State α β := ⟨[], .idle, [], [], [], 0, [], false⟩

inductive Move : State α β → State α β → Prop
  | keep (q : State α β) : Move q q
  | enqueueFirst (q : State α β) (x : α × List β) : q.pending = [] →
      Move q { q with pending := [x], phase := .waiting, enqueued := q.enqueued ++ [x] }
  | enqueue (q : State α β) (x : α × List β) : q.pending ≠ [] →
      Move q { q with pending := q.pending ++ [x], enqueued := q.enqueued ++ [x] }
  | start (q : State α β) (x : α × List β) (rest : List (α × List β)) : q.pending = x :: rest →
      q.phase = .waiting → Move q { q with phase := .active, started := q.started ++ [x] }
  | transmit (q : State α β) (x : α × List β) (rest : List (α × List β)) (bs : List β) :
      q.pending = x :: rest → q.phase = .active → bs <+: x.2.drop q.off →
      Move q { q with off := q.off+bs.length, wire := q.wire ++ bs }
  | finish (q : State α β) (x : α × List β) (rest : List (α × List β)) : q.pending = x :: rest →
      q.phase = .active →
      Move q { q with phase := .done, lost := q.lost || decide (q.off < x.2.length) }
  | retire (q : State α β) (x : α × List β) (rest : List (α × List β)) : q.pending = x :: rest →
      q.phase = .done → Move q
        { q with
          pending := rest
          phase := if rest = [] then .idle else .waiting
          retired := q.retired ++ [x]
          off := 0 }

/-- Nothing is put on the wire once an item has been lost. -/
def Clean (q q' : State α β) : Prop := q.lost = true → q'.wire = q.wire

/-- The front counts as started from its start to its retirement. -/
def State.current (q : State α β) : List (α × List β) :=
  match q.phase with
  | .idle | .waiting => []
  | .active | .done => q.pending.take 1

/-- The histories determine each other through the queue and the phase of its front, and
only a started front has been transmitted from. -/
structure Ordered (q : State α β) : Prop where
  enqueued : q.enqueued = q.retired ++ q.pending
  started : q.started = q.retired ++ q.current
  idle : q.phase = .idle ↔ q.pending = []
  off_le : ∀ x rest, q.pending = x :: rest → q.off ≤ x.2.length
  off_zero : q.phase = .idle ∨ q.phase = .waiting → q.off = 0
  finished : q.phase = .done → q.lost = false → ∀ x rest, q.pending = x :: rest →
    q.off = x.2.length

theorem Ordered.empty : Ordered (State.empty : State α β) := by
  refine ⟨rfl, rfl, by simp [State.empty], ?_, fun _ => rfl, ?_⟩
  · intro x rest hp
    contradiction
  · intro hphase
    contradiction

/-- What is left of a front after a transmission. -/
theorem drop_transmitted {x : α × List β} {off : ℕ} {bs : List β} (h : bs <+: x.2.drop off)
    (hoff : off ≤ x.2.length) :
    off+bs.length ≤ x.2.length ∧ x.2.drop off = bs ++ x.2.drop (off+bs.length) := by
  obtain ⟨tail, htail⟩ := h
  have hlen := congrArg List.length htail
  rw [List.length_append, List.length_drop] at hlen
  refine ⟨by omega, ?_⟩
  rw [← List.drop_drop, ← htail, List.drop_left]

theorem Ordered.move {q q' : State α β} (h : Ordered q) (hm : Move q q') : Ordered q' := by
  have henq := h.enqueued
  have hstart := h.started
  have hidle := h.idle
  have hle := h.off_le
  have hzero := h.off_zero
  have hfin := h.finished
  cases hm with
  | keep => exact h
  -- The list was empty, so that the new item is the front and nobody sends yet.
  | enqueueFirst x hnil =>
    have hphase := hidle.mpr hnil
    have hoff := hzero (Or.inl hphase)
    refine ⟨?_, ?_, ?_, ?_, fun _ => hoff, ?_⟩
    · rw [henq, hnil, List.append_nil]
    · rw [hstart]
      unfold State.current
      rw [hphase]
    · simp
    · intro y rest _
      rw [hoff]
      exact Nat.zero_le _
    · intro hdone
      contradiction
  -- Behind the others: the front stays what it is.
  | enqueue x hne =>
    cases hp : q.pending with
    | nil => exact absurd hp hne
    | cons y rest =>
      refine ⟨?_, ?_, ?_, ?_, hzero, ?_⟩
      · rw [henq, List.append_assoc, hp]
      · rw [hstart]
        unfold State.current
        rw [hp]
        rfl
      · rw [hidle, hp]
        simp
      · intro z rest' hp'
        rw [List.cons_append, List.cons.injEq] at hp'
        rw [← hp'.1]
        exact hle y rest hp
      · intro hdone hl z rest' hp'
        rw [List.cons_append, List.cons.injEq] at hp'
        rw [← hp'.1]
        exact hfin hdone hl y rest hp
  | start x rest hp hphase =>
    refine ⟨henq, ?_, ?_, hle, ?_, ?_⟩
    · rw [hstart]
      unfold State.current
      rw [hphase, hp]
      simp
    · simp [hp]
    · intro hna
      rcases hna with hna | hna <;> contradiction
    · intro hdone
      contradiction
  | transmit x rest bs hp hphase hbs =>
    refine ⟨henq, hstart, hidle, ?_, ?_, ?_⟩
    · intro y rest' hp'
      rw [hp, List.cons.injEq] at hp'
      rw [← hp'.1]
      exact (drop_transmitted hbs (hle x rest hp)).1
    · intro hna
      rw [hphase] at hna
      rcases hna with hna | hna <;> contradiction
    · intro hdone
      rw [hphase] at hdone
      contradiction
  | finish x rest hp hphase =>
    refine ⟨henq, ?_, ?_, hle, ?_, ?_⟩
    · rw [hstart]
      unfold State.current
      rw [hphase]
    · simp [hp]
    · intro hna
      rcases hna with hna | hna <;> contradiction
    · intro _ hl y rest' hp'
      rw [Bool.or_eq_false_iff, decide_eq_false_iff_not] at hl
      have hoff := hle y rest' hp'
      rw [hp, List.cons.injEq] at hp'
      rw [← hp'.1] at hoff ⊢
      dsimp only
      omega
  -- The front leaves, and the next one has to be started.
  | retire x rest hp hphase =>
    refine ⟨?_, ?_, ?_, fun _ _ _ => Nat.zero_le _, fun _ => rfl, ?_⟩
    · rw [henq, hp, List.append_assoc, List.singleton_append]
    · rw [hstart]
      unfold State.current
      rw [hphase, hp]
      rcases eq_or_ne rest [] with rfl | hne
      · simp
      · simp [hne]
    · rcases eq_or_ne rest [] with rfl | hne
      · simp
      · simp [hne]
    · intro hdone
      rcases eq_or_ne rest [] with rfl | hne
      · contradiction
      · rw [if_neg hne] at hdone
        contradiction

/-- Items are started in the order in which they were queued, none skipped and none again. -/
theorem Ordered.started_prefix {q : State α β} (h : Ordered q) : q.started <+: q.enqueued := by
  rw [h.started, h.enqueued, List.prefix_append_right_inj]
  unfold State.current
  split
  · exact List.nil_prefix
  · exact List.nil_prefix
  · exact List.take_prefix _ _
  · exact List.take_prefix _ _

/-- The contents of the items, one after the other. -/
def contents (xs : List (α × List β)) : List β := xs.flatMap Prod.snd

theorem contents_append (xs ys : List (α × List β)) :
    contents (xs ++ ys) = contents xs ++ contents ys := List.flatMap_append

/-- Part of an item is missing on the wire, and nothing follows it there. -/
def Stalled (q : State α β) : Prop :=
  ∃ front x back tail, q.enqueued = front ++ x :: back ∧ tail ≠ [] ∧
    q.wire ++ tail = contents (front ++ [x])

/-- As long as nothing was lost, what is on the wire and what is still to be sent
make up the stream; after a loss the wire ends inside an item. -/
structure Streamed (q : State α β) : Prop where
  exact : q.lost = false → q.wire ++ (contents q.pending).drop q.off = contents q.enqueued
  stalled : q.lost = true → Stalled q

theorem Streamed.empty : Streamed (State.empty : State α β) := by
  constructor
  · intro _
    rfl
  · intro hl
    contradiction

theorem Streamed.sent {q : State α β} (h : Streamed q) : q.wire <+: contents q.enqueued := by
  rcases hl : q.lost with _ | _
  · exact ⟨_, h.exact hl⟩
  · obtain ⟨front, x, back, tail, henq, _, hwire⟩ := h.stalled hl
    refine ⟨tail ++ contents back, ?_⟩
    calc q.wire ++ (tail ++ contents back) = contents (front ++ [x]) ++ contents back := by
          rw [← List.append_assoc, hwire]
      _ = contents q.enqueued := by
          rw [← contents_append, henq, List.append_assoc, List.singleton_append]

theorem Stalled.mono {q q' : State α β} (h : Stalled q) (hwire : q'.wire = q.wire)
    (henq : q.enqueued <+: q'.enqueued) : Stalled q' := by
  obtain ⟨front, x, back, tail, heq, hne, htail⟩ := h
  obtain ⟨more, hmore⟩ := henq
  refine ⟨front, x, back ++ more, tail, ?_, hne, ?_⟩
  · rw [← hmore, heq, List.append_assoc, List.cons_append]
  · rw [hwire, htail]

theorem drop_contents (x : α × List β) (rest : List (α × List β)) (n : ℕ) (h : n ≤ x.2.length) :
    (contents (x :: rest)).drop n = x.2.drop n ++ contents rest := by
  rw [contents, List.flatMap_cons, List.drop_append_of_le_length h]
  rfl

/-- Nothing is sent out of order as long as nothing is sent after a loss. -/
theorem Streamed.move {q q' : State α β} (h : Streamed q) (ho : Ordered q) (hm : Move q q')
    (hc : Clean q q') : Streamed q' := by
  have hexact := h.exact
  have hstalled := h.stalled
  have hle := ho.off_le
  cases hm with
  | keep => exact h
  | enqueueFirst x hnil =>
    constructor
    · intro hl
      have hoff := ho.off_zero (Or.inl (ho.idle.mpr hnil))
      have heq := hexact hl
      rw [hnil, hoff] at heq
      rw [hoff, contents_append, ← heq, List.drop_zero, List.drop_zero]
      simp [contents]
    · intro hl
      apply (hstalled hl).mono
      · rfl
      · exact List.prefix_append _ _
  | enqueue x hne =>
    constructor
    · intro hl
      have heq := hexact hl
      cases hp : q.pending with
      | nil => exact absurd hp hne
      | cons y rest =>
        rw [hp, drop_contents y rest _ (hle y rest hp)] at heq
        rw [List.cons_append, drop_contents y _ _ (hle y rest hp), contents_append,
          contents_append, ← heq]
        simp only [List.append_assoc]
    · intro hl
      apply (hstalled hl).mono
      · rfl
      · exact List.prefix_append _ _
  | start => exact ⟨hexact, hstalled⟩
  | transmit x rest bs hp hphase hbs =>
    constructor
    · intro hl
      have hdrop := drop_transmitted hbs (hle x rest hp)
      calc (q.wire ++ bs) ++ (contents q.pending).drop (q.off+bs.length)
          = q.wire ++ ((bs ++ x.2.drop (q.off+bs.length)) ++ contents rest) := by
            rw [hp, drop_contents x rest _ hdrop.1]
            simp only [List.append_assoc]
        _ = q.wire ++ (contents q.pending).drop q.off := by
            rw [← hdrop.2, hp, drop_contents x rest _ (hle x rest hp)]
        _ = contents q.enqueued := hexact hl
    · intro hl
      exact (hstalled hl).mono (hc hl) (List.prefix_refl _)
  | finish x rest hp hphase =>
    constructor
    · intro hl
      exact hexact (Bool.or_eq_false_iff.mp hl).1
    · intro hl
      rcases hlost : q.lost with _ | _
      · -- The first loss: the wire stops inside the front.
        have hshort : q.off < x.2.length := by simpa [hlost] using hl
        have heq := hexact hlost
        have henq := ho.enqueued
        rw [hp] at henq
        refine ⟨q.retired, x, rest, x.2.drop q.off, henq, ?_, ?_⟩
        · intro hnil
          have hlen := List.drop_eq_nil_iff.mp hnil
          omega
        · rw [hp, drop_contents x rest _ (hle x rest hp), ← List.append_assoc, henq,
            ← List.singleton_append, ← List.append_assoc, contents_append] at heq
          exact List.append_cancel_right heq
      · exact (hstalled hlost).mono rfl (List.prefix_refl _)
  | retire x rest hp hphase =>
    constructor
    · intro hl
      have heq := hexact hl
      have hoff := ho.finished hphase hl x rest hp
      rw [hp, drop_contents x rest _ (hle x rest hp), hoff, List.drop_length] at heq
      exact heq
    · intro hl
      exact (hstalled hl).mono rfl (List.prefix_refl _)

/-- What the items put on the wire, one after the other: an initial part of each. -/
def PartsOf (xs : List (α × List β)) (wire : List β) : Prop :=
  ∃ parts, List.Forall₂ (fun bs x => bs <+: x.2) parts xs ∧ wire = parts.flatten

/-- Of the items that were retired an initial part each is on the wire, and of the one that is
being sent as much as was transmitted. -/
def Parted (q : State α β) : Prop :=
  ∃ wire, PartsOf q.retired wire ∧ q.wire = wire ++ (contents q.current).take q.off

theorem PartsOf.snoc {xs : List (α × List β)} {wire bs : List β} {x : α × List β}
    (h : PartsOf xs wire) (hbs : bs <+: x.2) : PartsOf (xs ++ [x]) (wire ++ bs) := by
  obtain ⟨parts, hparts, hwire⟩ := h
  refine ⟨parts ++ [bs], List.rel_append hparts (List.Forall₂.cons hbs List.Forall₂.nil), ?_⟩
  rw [hwire, List.flatten_append, List.flatten_singleton]

theorem Parted.empty : Parted (State.empty : State α β) := ⟨[], ⟨[], List.Forall₂.nil, rfl⟩, rfl⟩

theorem contents_singleton (x : α × List β) : contents [x] = x.2 := List.append_nil x.2

/-- The front of a queue that is being sent. -/
theorem current_cons {q : State α β} {x : α × List β} {rest : List (α × List β)}
    (hp : q.pending = x :: rest) (hphase : q.phase = .active ∨ q.phase = .done) :
    q.current = [x] := by
  unfold State.current
  rw [hp]
  rcases hphase with hphase | hphase
  · rw [hphase]
    rfl
  · rw [hphase]
    rfl

theorem Parted.move {q q' : State α β} (h : Parted q) (ho : Ordered q) (hm : Move q q') :
    Parted q' := by
  obtain ⟨wire, hparts, hwire⟩ := h
  cases hm with
  | keep => exact ⟨wire, hparts, hwire⟩
  | enqueueFirst x hnil =>
    have hphase := ho.idle.mpr hnil
    refine ⟨wire, hparts, ?_⟩
    rw [hwire]
    unfold State.current
    rw [hphase]
  | enqueue x hne =>
    refine ⟨wire, hparts, ?_⟩
    cases hp : q.pending with
    | nil => exact absurd hp hne
    | cons y rest =>
      rw [hwire]
      unfold State.current
      rw [hp]
      rfl
  | start x rest hp hphase =>
    have hoff := ho.off_zero (Or.inr hphase)
    refine ⟨wire, hparts, ?_⟩
    dsimp only
    rw [hwire, hoff, List.take_zero, List.take_zero]
  | transmit x rest bs hp hphase hbs =>
    have hcurrent : q.current = [x] := current_cons hp (Or.inl hphase)
    obtain ⟨tail, htail⟩ := hbs
    refine ⟨wire, hparts, ?_⟩
    change q.wire ++ bs = wire ++ (contents q.current).take (q.off+bs.length)
    rw [hwire, hcurrent, contents_singleton, List.append_assoc, List.take_add, ← htail,
      List.take_left]
  | finish x rest hp hphase =>
    have hsame : q.current = q.pending.take 1 := by
      unfold State.current
      rw [hphase]
    refine ⟨wire, hparts, ?_⟩
    rw [hsame] at hwire
    exact hwire
  | retire x rest hp hphase =>
    have hcurrent : q.current = [x] := current_cons hp (Or.inr hphase)
    refine ⟨q.wire, ?_, ?_⟩
    · rw [hwire, hcurrent, contents_singleton]
      exact hparts.snoc (List.take_prefix _ _)
    · change q.wire = q.wire ++ List.take 0 _
      rw [List.take_zero, List.append_nil]

theorem State.current_short (q : State α β) : q.current = [] ∨ ∃ x, q.current = [x] := by
  unfold State.current
  cases q.phase with
  | idle | waiting => exact Or.inl rfl
  | active | done =>
    cases q.pending with
    | nil => exact Or.inl rfl
    | cons x rest => exact Or.inr ⟨x, rfl⟩

/-- What is on the wire, whatever was lost: an initial part of each item that was started. -/
theorem Parted.sent {q : State α β} (h : Parted q) (ho : Ordered q) :
    PartsOf (q.enqueued.take q.started.length) q.wire := by
  obtain ⟨wire, hparts, hwire⟩ := h
  have hprefix := List.prefix_iff_eq_take.mp ho.started_prefix
  rw [← hprefix, ho.started, hwire]
  rcases q.current_short with hnone | ⟨x, hone⟩
  · rw [hnone, contents, List.flatMap_nil, List.take_nil, List.append_nil, List.append_nil]
    exact hparts
  · rw [hone, contents_singleton]
    exact hparts.snoc (List.take_prefix _ _)

end SendQueue
