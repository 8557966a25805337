import CustomersCardMS.ConnStep
import CustomersCardMS.RefCount

namespace CustomersCard
open Interleaving

namespace Task

/-- The queued BUFFER_OBJ on which the task is, or will be, the sender. -/
def front (t : Task) : List BufferObjPtr := t.waiting ++ t.active

/-- The early return inside the loop of Client_RecvCompletionSuccess. -/
def early (t : Task) : Prop := t = .earlyClose ∨ t = .earlyFreeRSock

end Task

namespace ClientConn

/-- What a step hands on: the tasks that continue `t` carry what `t` carried. -/
structure HandsOn (t : Task) (new : List Task) : Prop where
  refs : total Task.refs new = t.refs
  last : total Task.last new = t.last
  chain : total Task.chain new = t.chain

theorem Passes.handsOn {t t' : Task} (h : Passes t t') : HandsOn t [t'] := by
  cases h with
  | releaseClosed k => cases k <;> exact ⟨rfl, rfl, rfl⟩
  | _ => exact ⟨rfl, rfl, rfl⟩

theorem Passes.held {t t' : Task} (h : Passes t t') : t'.held = t.held := by
  cases h with
  | releaseClosed k => cases k <;> rfl
  | _ => rfl

theorem Passes.front {t t' : Task} (h : Passes t t') : t'.front = t.front := by
  cases h <;> rfl

theorem FreesBObj.handsOn {b : BufferObjPtr} {t : Task} {new : List Task} (h : FreesBObj b t new) :
    HandsOn t new := by
  cases h <;> exact ⟨rfl, rfl, rfl⟩

theorem FreesBObj.held {b : BufferObjPtr} {t : Task} {new : List Task} (h : FreesBObj b t new) :
    t.held = [b] ∧ new.flatMap Task.held = [] := by
  cases h <;> exact ⟨rfl, rfl⟩

theorem FreesBObj.front {b : BufferObjPtr} {t : Task} {new : List Task} (h : FreesBObj b t new) :
    new.flatMap Task.front = t.front := by
  cases h <;> rfl

/-- A task outside the receive chain leads to none of the chain. -/
theorem Fires.off_chain {c c' : ClientConn} {t : Task} {new : List Task} {evs : List Event}
    (hf : Fires c t c' new evs) (ht : t.chain = 0) : ∀ u ∈ new, u.chain = 0 := by
  have hone (t' : Task) (h' : t'.chain = 0) : ∀ u ∈ [t'], u.chain = 0 := by
    intro u hu
    rw [List.mem_singleton.mp hu]
    exact h'
  have hnone : ∀ u ∈ ([] : List Task), u.chain = 0 := by
    intro u hu
    contradiction
  cases hf with
  | pass hpass =>
    have hchain := hpass.handsOn.chain
    rw [total_cons, ht] at hchain
    exact hone _ (Nat.add_eq_zero_iff.mp hchain).1
  | release k | releaseZero k | releaseFreeRSock k =>
    cases k with
    | robj => contradiction
    | _ => exact hone _ rfl
  | freeBObj b hb hfree =>
    cases hfree with
    | accept | recv => contradiction
    | cmd => exact hnone
    | lastSent | sent => exact hone _ rfl
  | acceptFreeRSock | releaseNothing => exact hnone
  | enqueue =>
    split
    · exact hone _ rfl
    · exact hnone
  | start b hstart hpost =>
    apply hone
    rcases hpost with rfl | rfl <;> rfl
  | sent =>
    split
    · exact hone _ rfl
    · exact hone _ rfl
  | nextDecRef | sendFailed | dequeue => exact hone _ rfl
  | _ => contradiction

/-- The references to the RECV_SOCK: those of tasks and one for each queued BUFFER_OBJ. -/
def ledger (c : ClientConn) (ts : List Task) : RefCount.State where
  count := c.rsock.nRef
  holders := total Task.refs ts + c.rsock.lstSend.length
  last := total Task.last ts
  destroyed := if c.rsockLive then 0 else 1

/-- What every interleaving keeps. -/
structure Owned (c : ClientConn) (ts : List Task) : Prop where
  exact : RefCount.Good (c.ledger ts)
  chain : total Task.chain ts = if c.robjLive then 1 else 0
  alone : ∀ t ∈ ts, t.accepting ≠ 0 → ts = [t] ∧ c.rsock.lstSend = [] ∧ c.objs = []
  owners : (ts.flatMap Task.held ++ c.rsock.lstSend).Perm c.objs
  distinct : c.objs.Nodup
  sender : (ts.flatMap Task.front).Perm c.rsock.lstSend.getLast?.toList
  early : ∀ t ∈ ts, ¬ t.early
  handled : ∀ t ∈ ts, t.handled c
  -- No response is sent beyond its end.
  counts : ∀ b ∈ c.rsock.lstSend, (c.bobj b).dwSendedCount ≤ (c.bobj b).dwRecvedCount

theorem Owned.perm {c : ClientConn} {ts us : List Task} (h : Owned c ts) (hp : ts.Perm us) :
    Owned c us where
  exact := by
    have hexact := h.exact
    unfold ledger at hexact ⊢
    rwa [← total_perm _ hp, ← total_perm _ hp]
  chain := by
    rw [← total_perm _ hp]
    exact h.chain
  alone t ht hacc := by
    rcases h.alone t (hp.mem_iff.mpr ht) hacc with ⟨rfl, hlst, hobjs⟩
    exact ⟨List.perm_singleton.mp hp.symm, hlst, hobjs⟩
  owners := ((hp.symm.flatMap_right _).append_right _).trans h.owners
  distinct := h.distinct
  sender := (hp.symm.flatMap_right _).trans h.sender
  early t ht := h.early t (hp.mem_iff.mpr ht)
  handled t ht := h.handled t (hp.mem_iff.mpr ht)
  counts := h.counts

section Step

variable {c c' : ClientConn} {t : Task} {rest new : List Task} {evs : List Event}

/-- The queued BUFFER_OBJ that a task works on is the one at the back of lstSend. -/
theorem Owned.front_last (h : Owned c (t :: rest)) {b : BufferObjPtr} (hb : t.front = [b]) :
    c.rsock.lstSend.getLast? = some b ∧ rest.flatMap Task.front = [] := by
  have hsender := h.sender
  rw [List.flatMap_cons, hb] at hsender
  cases hlast : c.rsock.lstSend.getLast? with
  | none =>
    rw [hlast] at hsender
    exact absurd (List.perm_nil.mp hsender) (List.cons_ne_nil _ _)
  | some x =>
    rw [hlast] at hsender
    have heq := List.perm_singleton.mp hsender
    rw [List.cons_append, List.cons.injEq, List.nil_append] at heq
    exact ⟨by rw [heq.1], heq.2⟩

theorem Owned.front_mem (h : Owned c (t :: rest)) {b : BufferObjPtr} (hb : t.front = [b]) :
    b ∈ c.rsock.lstSend := List.mem_of_getLast? (h.front_last hb).1

/-- The send that is outstanding offers what is left of its BUFFER_OBJ. -/
theorem Owned.offered {b : BufferObjPtr} (h : Owned c (.send b :: rest)) :
    (c.bobj b).offered = (c.bobj b).unsent :=
  (h.handled (.send b) List.mem_cons_self).2.offered (h.counts b (h.front_mem rfl))

theorem ledger_cons (c : ClientConn) (t : Task) (rest : List Task) : c.ledger (t :: rest) =
    ⟨c.rsock.nRef, t.refs + total Task.refs rest + c.rsock.lstSend.length,
      t.last + total Task.last rest, if c.rsockLive then 0 else 1⟩ := by
  unfold ledger
  rw [total_cons, total_cons]

theorem ledger_append (c : ClientConn) (new rest : List Task) : c.ledger (new ++ rest) =
    ⟨c.rsock.nRef, total Task.refs new + total Task.refs rest + c.rsock.lstSend.length,
      total Task.last new + total Task.last rest, if c.rsockLive then 0 else 1⟩ := by
  unfold ledger
  rw [total_append, total_append]

/-- A step after which the ledger is what it was. -/
theorem ledger_same (hr : total Task.refs new = t.refs) (hlast : total Task.last new = t.last)
    (hn : c'.rsock.nRef = c.rsock.nRef) (hl : c'.rsock.lstSend = c.rsock.lstSend)
    (hlive : c'.rsockLive = c.rsockLive) : c'.ledger (new ++ rest) = c.ledger (t :: rest) := by
  rw [ledger_append, ledger_cons, hr, hlast, hn, hl, hlive]

/-- The RECV_SOCK exists as long as somebody holds a reference to it or has still to free it. -/
theorem Owned.live (h : Owned c (t :: rest))
    (hpos : 0 < t.refs + t.last + c.rsock.lstSend.length) : c.rsockLive = true := by
  have hexact := h.exact
  have hheld := hexact.held
  have hunheld := hexact.unheld
  rw [ledger_cons] at hheld hunheld
  dsimp only at hheld hunheld
  by_contra hdead
  rw [if_neg hdead] at hheld hunheld
  omega

/-- The pool holds the receive chain at most once. -/
theorem Owned.rest_chain (h : Owned c (t :: rest)) (ht : t.chain = 1) :
    total Task.chain rest = 0 ∧ c.robjLive = true := by
  have hchain := h.chain
  rw [total_cons, ht] at hchain
  split at hchain
  · case isTrue hlive => exact ⟨by omega, hlive⟩
  · omega

/-- A released reference leaves `n` holders behind. -/
theorem decRef_move (hz : c.rsock.nRef - 1 ≠ 0) (hr : t.refs = total Task.refs new + 1)
    (hl : total Task.last new = t.last) :
    RefCount.Move (c.ledger (t :: rest)) ((c.setRSock c.rsock.decRef).ledger (new ++ rest)) := by
  rw [ledger_cons, ledger_append]
  refine RefCount.Move.release hz rfl ?_ ?_ rfl
  · change t.refs + _ + c.rsock.lstSend.length = _ + _ + c.rsock.lstSend.length + 1
    omega
  · dsimp only
    rw [hl]

theorem decRef_zero_move (hz : c.rsock.nRef - 1 = 0) (hr : t.refs = total Task.refs new + 1)
    (hl : total Task.last new = t.last + 1) :
    RefCount.Move (c.ledger (t :: rest)) ((c.setRSock c.rsock.decRef).ledger (new ++ rest)) := by
  rw [ledger_cons, ledger_append]
  refine RefCount.Move.releaseLast hz rfl ?_ ?_ rfl
  · change t.refs + _ + c.rsock.lstSend.length = _ + _ + c.rsock.lstSend.length + 1
    omega
  · dsimp only
    omega

theorem destroy_move (hlive : c.rsockLive = true) (hr : total Task.refs new = t.refs)
    (hl : t.last = total Task.last new + 1) :
    RefCount.Move (c.ledger (t :: rest)) (ledger { c with rsockLive := false } (new ++ rest)) := by
  rw [ledger_cons, ledger_append, hlive]
  refine RefCount.Move.destroy rfl ?_ ?_ rfl
  · dsimp only
    rw [hr]
  · dsimp only
    omega

/-- A reference that is given back without a look at the count is not the last one. -/
theorem Owned.shared (h : Owned c (t :: rest)) (hs : 2 ≤ t.refs + c.rsock.lstSend.length) :
    0 < c.rsock.nRef - 1 := by
  have hexact := h.exact
  rw [ledger_cons] at hexact
  apply hexact.shared_release
  dsimp only
  omega

/-- Every step is a move of the reference count. -/
theorem Fires.move (h : Owned c (t :: rest)) (hf : Fires c t c' new evs) :
    RefCount.Move (c.ledger (t :: rest)) (c'.ledger (new ++ rest)) := by
  have hkeep (hr : total Task.refs new = t.refs) (hlast : total Task.last new = t.last)
      (hn : c'.rsock.nRef = c.rsock.nRef) (hl : c'.rsock.lstSend = c.rsock.lstSend)
      (hlive : c'.rsockLive = c.rsockLive) :
      RefCount.Move (c.ledger (t :: rest)) (c'.ledger (new ++ rest)) :=
    RefCount.Move.keep (ledger_same hr hlast hn hl hlive)
  cases hf with
  | pass ht hl _ _ => exact hkeep ht.handsOn.refs ht.handsOn.last hl.nRef hl.lstSend hl.rsockLive
  | alloc o b _ hn hl hlive => exact hkeep rfl rfl hn hl hlive
  -- AddRef for a command, while the loop has its own reference.
  | acquire o b =>
    rw [ledger_cons, ledger_append]
    refine RefCount.Move.acquire ?_ rfl ?_ rfl rfl
    · change 0 < 1 + _ + _
      omega
    · change 2 + _ + c.rsock.lstSend.length = 1 + _ + c.rsock.lstSend.length + 1
      omega
  | queue o b hl => exact hkeep rfl rfl hl.nRef hl.lstSend hl.rsockLive
  | acceptDecRef b => exact decRef_move (Int.ne_of_gt (h.shared (Nat.le_add_right 2 _))) rfl rfl
  | recvDecRef hz => exact decRef_move hz rfl rfl
  -- The loop has a reference of its own, so this is never the last one.
  | recvDecRefZero hz => exact absurd hz (Int.ne_of_gt (h.shared (Nat.le_add_right 2 _)))
  | release k hz => exact decRef_move hz (by cases k <;> rfl) (by cases k <;> rfl)
  | releaseZero k hz => exact decRef_zero_move hz (by cases k <;> rfl) (by cases k <;> rfl)
  | nextDecRef b =>
    have hmem := List.length_pos_of_mem (h.front_mem (b := b) rfl)
    refine decRef_move (Int.ne_of_gt (h.shared ?_)) rfl rfl
    change 2 ≤ 1 + _
    omega
  | freeBObj b hb hfree => exact hkeep hfree.handsOn.refs hfree.handsOn.last rfl rfl rfl
  | acceptFreeRSock =>
    rcases h.alone _ List.mem_cons_self (by decide) with ⟨hone, hlst, _⟩
    rw [List.cons.injEq] at hone
    rw [ledger_cons, ledger_append, h.live (by change 0 < 1 + _ + _; omega), hone.2, hlst]
    exact RefCount.Move.abandon rfl rfl rfl rfl
  | earlyFreeRSock =>
    exact destroy_move (h.live (by change 0 < 0 + 1 + _; omega)) rfl rfl
  | releaseFreeRSock k =>
    exact destroy_move (h.live (by change 0 < 0 + 1 + _; omega)) (by cases k <;> rfl)
      (by cases k <;> rfl)
  | acceptFreeRObj => exact RefCount.Move.keep rfl
  | releaseFreeRObj => exact hkeep rfl rfl rfl rfl rfl
  | releaseNothing => exact hkeep rfl rfl rfl rfl rfl
  -- The reference passes from the handler to the queue.
  | enqueue b bytes hn hl _ hlive =>
    apply RefCount.Move.keep
    rw [ledger_append, ledger_cons, hn, hl, hlive]
    have hweights : total Task.refs (if c.rsock.lstSend = [] then [.startSend b] else []) = 0 ∧
        total Task.last (if c.rsock.lstSend = [] then [.startSend b] else []) = 0 := by
      split <;> exact ⟨rfl, rfl⟩
    rw [hweights.1, hweights.2]
    dsimp only [List.length_cons]
    rw [show (Task.command b).refs = 1 from rfl]
    congr 1
    omega
  | start b ht ht' hl =>
    refine hkeep ?_ ?_ hl.nRef hl.lstSend hl.rsockLive
    · rcases ht with rfl | rfl <;> rcases ht' with rfl | rfl <;> rfl
    · rcases ht with rfl | rfl <;> rcases ht' with rfl | rfl <;> rfl
  | sent b bytes _ _ hl =>
    refine hkeep ?_ ?_ hl.nRef hl.lstSend hl.rsockLive
    · split <;> rfl
    · split <;> rfl
  | sendFailed => exact hkeep rfl rfl rfl rfl rfl
  -- And from the queue to the sender that retires the item.
  | dequeue b x front hlst =>
    apply RefCount.Move.keep
    rw [ledger_append, ledger_cons, hlst, List.length_append]
    change (⟨_, 1 + _ + front.length, _, _⟩ : RefCount.State) =
      ⟨_, 0 + _ + (front.length + 1), _, _⟩
    congr 1
    omega

theorem Fires.chain (h : Owned c (t :: rest)) (hf : Fires c t c' new evs) :
    total Task.chain (new ++ rest) = if c'.robjLive then 1 else 0 := by
  have hchain := h.chain
  rw [total_cons] at hchain
  have hkeep (hc : total Task.chain new = t.chain) (hlive : c'.robjLive = c.robjLive) :
      total Task.chain (new ++ rest) = if c'.robjLive then 1 else 0 := by
    rw [total_append, hc, hchain, hlive]
  cases hf with
  | pass ht hl _ _ => exact hkeep ht.handsOn.chain hl.robjLive
  | alloc o b _ _ _ _ hlive => exact hkeep rfl hlive
  | acquire o b => exact hkeep rfl rfl
  | queue o b hl => exact hkeep rfl hl.robjLive
  | acceptDecRef b => exact hkeep rfl rfl
  | recvDecRef hz => exact hkeep rfl rfl
  | recvDecRefZero hz => exact hkeep rfl rfl
  | release k hz => exact hkeep (by cases k <;> rfl) rfl
  | releaseZero k hz => exact hkeep (by cases k <;> rfl) rfl
  | nextDecRef b => exact hkeep rfl rfl
  | freeBObj b hb hfree => exact hkeep hfree.handsOn.chain rfl
  | acceptFreeRSock => exact hkeep rfl rfl
  | earlyFreeRSock => exact absurd (Or.inr rfl) (h.early _ List.mem_cons_self)
  | releaseFreeRSock k => exact hkeep (by cases k <;> rfl) rfl
  | acceptFreeRObj =>
    rw [total_append, (h.rest_chain rfl).1]
    rfl
  | releaseFreeRObj =>
    rw [total_append, (h.rest_chain rfl).1]
    rfl
  | releaseNothing => exact hkeep rfl rfl
  | enqueue b bytes _ _ _ _ hlive =>
    refine hkeep ?_ hlive
    split <;> rfl
  | start b ht ht' hl =>
    refine hkeep ?_ hl.robjLive
    rcases ht with rfl | rfl <;> rcases ht' with rfl | rfl <;> rfl
  | sent b bytes _ _ hl =>
    refine hkeep ?_ hl.robjLive
    split <;> rfl
  | sendFailed => exact hkeep rfl rfl
  | dequeue b x front hlst => exact hkeep rfl rfl

theorem Fires.early (h : Owned c (t :: rest)) (hf : Fires c t c' new evs) :
    ∀ u ∈ new ++ rest, ¬ u.early := by
  have hrest : ∀ u ∈ rest, ¬ u.early := fun u hu => h.early u (List.mem_cons_of_mem t hu)
  have hone (t' : Task) (ht' : ¬ t'.early) : ∀ u ∈ [t'] ++ rest, ¬ u.early := by
    intro u hu
    rcases List.mem_cons.mp hu with rfl | hu
    · exact ht'
    · exact hrest u hu
  have hnot (t' : Task) (h₁ : t' ≠ .earlyClose) (h₂ : t' ≠ .earlyFreeRSock) : ¬ t'.early := by
    intro he
    rcases he with he | he
    · exact h₁ he
    · exact h₂ he
  cases hf with
  | pass ht _ _ _ =>
    apply hone
    cases ht with
    | earlyClosed => exact absurd (Or.inl rfl) (h.early _ List.mem_cons_self)
    | _ => exact hnot _ (by simp) (by simp)
  | recvDecRefZero hz => exact absurd hz (Int.ne_of_gt (h.shared (Nat.le_add_right 2 _)))
  | queue o b _ _ _ =>
    intro u hu
    rcases List.mem_cons.mp hu with rfl | hu
    · exact hnot _ (by simp) (by simp)
    · exact hone _ (hnot _ (by simp) (by simp)) u hu
  | freeBObj b hb hfree =>
    cases hfree with
    | cmd => exact hrest
    | _ => exact hone _ (hnot _ (by simp) (by simp))
  | acceptFreeRSock | earlyFreeRSock | releaseFreeRObj | releaseNothing => exact hrest
  | enqueue b bytes =>
    split
    · exact hone _ (hnot _ (by simp) (by simp))
    · exact hrest
  | start b ht ht' hl =>
    rcases ht' with rfl | rfl
    · exact hone _ (hnot _ (by simp) (by simp))
    · exact hone _ (hnot _ (by simp) (by simp))
  | sent b bytes _ _ hl =>
    split
    · exact hone _ (hnot _ (by simp) (by simp))
    · exact hone _ (hnot _ (by simp) (by simp))
  | _ => exact hone _ (hnot _ (by simp) (by simp))

theorem Fires.alone (h : Owned c (t :: rest)) (hf : Fires c t c' new evs) :
    ∀ u ∈ new ++ rest, u.accepting ≠ 0 →
      new ++ rest = [u] ∧ c'.rsock.lstSend = [] ∧ c'.objs = [] := by
  -- Where the accept is not over, the pool is the acting task.
  have hold : ∀ u ∈ rest, u.accepting = 0 := by
    intro u hu
    by_contra hacc
    have hone := (h.alone u (List.mem_cons_of_mem t hu) hacc).1
    rw [List.cons.injEq] at hone
    rw [hone.2] at hu
    contradiction
  have hnone (hnew : total Task.accepting new = 0) : ∀ u ∈ new ++ rest, u.accepting ≠ 0 →
      new ++ rest = [u] ∧ c'.rsock.lstSend = [] ∧ c'.objs = [] := by
    intro u hu hacc
    rcases List.mem_append.mp hu with hu | hu
    · exact absurd (total_eq_zero _ hnew u hu) hacc
    · exact absurd (hold u hu) hacc
  have hsole (t' : Task) (hacc : t.accepting ≠ 0) (hlst : c'.rsock.lstSend = c.rsock.lstSend)
      (hobjs : c'.objs = c.objs) : ∀ u ∈ [t'] ++ rest, u.accepting ≠ 0 →
      [t'] ++ rest = [u] ∧ c'.rsock.lstSend = [] ∧ c'.objs = [] := by
    intro u hu _
    rcases h.alone t List.mem_cons_self hacc with ⟨hone, hnil, hnone⟩
    rw [List.cons.injEq] at hone
    rw [hone.2, List.append_nil] at hu ⊢
    rw [List.mem_singleton.mp hu, hlst, hobjs]
    exact ⟨rfl, hnil, hnone⟩
  cases hf with
  | pass ht hl _ _ =>
    rcases eq_or_ne t.accepting 0 with hz | hacc
    · apply hnone
      cases ht with
      | accepted | refused | associated | unassociated | closed => contradiction
      | _ => rfl
    · exact hsole _ hacc hl.lstSend hl.objs
  | acceptFreeRObj => exact hsole _ (by decide) rfl rfl
  | freeBObj b hb hfree => exact hnone (by cases hfree <;> rfl)
  | enqueue b bytes =>
    apply hnone
    split <;> rfl
  | start b ht ht' hl => exact hnone (by rcases ht' with rfl | rfl <;> rfl)
  | sent b bytes _ _ hl =>
    apply hnone
    split <;> rfl
  | _ => exact hnone rfl

theorem Fires.sender (h : Owned c (t :: rest)) (hf : Fires c t c' new evs) :
    ((new ++ rest).flatMap Task.front).Perm c'.rsock.lstSend.getLast?.toList := by
  have hsender := h.sender
  have hkeep (hfront : new.flatMap Task.front = t.front)
      (hlst : c'.rsock.lstSend = c.rsock.lstSend) :
      ((new ++ rest).flatMap Task.front).Perm c'.rsock.lstSend.getLast?.toList := by
    rw [List.flatMap_append, hfront, hlst]
    exact hsender
  cases hf with
  | pass ht hl _ _ =>
    refine hkeep ?_ hl.lstSend
    rw [List.flatMap_singleton, ht.front]
  | alloc o b _ _ hl => exact hkeep rfl hl
  | acquire o b => exact hkeep rfl rfl
  | queue o b hl => exact hkeep rfl hl.lstSend
  | acceptDecRef b => exact hkeep rfl rfl
  | recvDecRef hz => exact hkeep rfl rfl
  | recvDecRefZero hz => exact hkeep rfl rfl
  | release k hz => exact hkeep rfl rfl
  | releaseZero k hz => exact hkeep rfl rfl
  | nextDecRef b => exact hkeep rfl rfl
  | freeBObj b hb hfree => exact hkeep hfree.front rfl
  | acceptFreeRSock => exact hkeep rfl rfl
  | earlyFreeRSock => exact hkeep rfl rfl
  | releaseFreeRSock k => exact hkeep rfl rfl
  | acceptFreeRObj => exact hkeep rfl rfl
  | releaseFreeRObj => exact hkeep rfl rfl
  | releaseNothing => exact hkeep rfl rfl
  -- The first item brings its sender with it.
  | enqueue b bytes _ hl =>
    change (rest.flatMap Task.front).Perm _ at hsender
    rw [hl, List.flatMap_append]
    rcases eq_or_ne c.rsock.lstSend [] with hnil | hne
    · rw [hnil] at hsender ⊢
      rw [if_pos rfl, List.perm_nil.mp hsender]
      exact List.Perm.refl _
    · rw [if_neg hne, List.getLast?_cons_of_ne_nil hne]
      exact hsender
  | start b ht ht' hl =>
    refine hkeep ?_ hl.lstSend
    rcases ht with rfl | rfl <;> rcases ht' with rfl | rfl <;> rfl
  | sent b bytes _ _ hl =>
    refine hkeep ?_ hl.lstSend
    split <;> rfl
  | sendFailed => exact hkeep rfl rfl
  -- The sender goes on to the new back of the list.
  | dequeue b x front hlst =>
    have hrest := (h.front_last (b := b) rfl).2
    rw [List.flatMap_append, hrest, List.append_nil, List.flatMap_singleton]
    have hnext (obj : Option BufferObjPtr) : (Task.freeSent b obj).front = obj.toList := by
      cases obj <;> rfl
    rw [hnext]
    exact List.Perm.refl _

theorem Fires.owners (h : Owned c (t :: rest)) (hf : Fires c t c' new evs) :
    ((new ++ rest).flatMap Task.held ++ c'.rsock.lstSend).Perm c'.objs := by
  have howners := h.owners
  have hkeep (hheld : new.flatMap Task.held = t.held)
      (hlst : c'.rsock.lstSend = c.rsock.lstSend) (hobjs : c'.objs = c.objs) :
      ((new ++ rest).flatMap Task.held ++ c'.rsock.lstSend).Perm c'.objs := by
    rw [List.flatMap_append, hheld, hlst, hobjs]
    exact howners
  cases hf with
  | pass ht hl _ _ =>
    refine hkeep ?_ hl.lstSend hl.objs
    rw [List.flatMap_singleton, ht.held]
  | alloc o b _ _ hl _ _ hobjs =>
    rw [hl, hobjs]
    exact howners.cons b
  | acquire o b => exact hkeep rfl rfl rfl
  | queue o b hl => exact hkeep rfl hl.lstSend hl.objs
  | acceptDecRef b => exact hkeep rfl rfl rfl
  | recvDecRef hz => exact hkeep rfl rfl rfl
  | recvDecRefZero hz => exact hkeep rfl rfl rfl
  | release k hz => exact hkeep (by cases k <;> rfl) rfl rfl
  | releaseZero k hz => exact hkeep (by cases k <;> rfl) rfl rfl
  | nextDecRef b => exact hkeep rfl rfl rfl
  | freeBObj b hb hfree =>
    rw [List.flatMap_cons, hfree.held.1, List.singleton_append, List.cons_append] at howners
    rw [List.flatMap_append, hfree.held.2, List.nil_append]
    exact (List.cons_perm_iff_perm_erase.mp howners).2
  | acceptFreeRSock => exact hkeep rfl rfl rfl
  | earlyFreeRSock => exact hkeep rfl rfl rfl
  | releaseFreeRSock k => exact hkeep (by cases k <;> rfl) rfl rfl
  | acceptFreeRObj => exact hkeep rfl rfl rfl
  | releaseFreeRObj => exact hkeep rfl rfl rfl
  | releaseNothing => exact hkeep rfl rfl rfl
  | enqueue b bytes _ hl _ _ _ hobjs =>
    rw [hl, hobjs]
    have hnew :
        (if c.rsock.lstSend = [] then [Task.startSend b] else []).flatMap Task.held = [] := by
      split <;> rfl
    rw [List.flatMap_append, hnew]
    exact List.perm_middle.trans howners
  | start b ht ht' hl =>
    refine hkeep ?_ hl.lstSend hl.objs
    rcases ht with rfl | rfl <;> rcases ht' with rfl | rfl <;> rfl
  | sent b bytes _ _ hl =>
    refine hkeep ?_ hl.lstSend hl.objs
    split <;> rfl
  | sendFailed => exact hkeep rfl rfl rfl
  -- What was the back of the list is what its sender now holds.
  | dequeue b x front hlst =>
    have hlast := (h.front_last (b := b) rfl).1
    rw [hlst, List.getLast?_append, List.getLast?_singleton] at hlast
    have hx : x = b := Option.some.inj hlast
    rw [hlst, hx] at howners
    refine List.Perm.trans ?_ howners
    change (b :: (rest.flatMap Task.held ++ front)).Perm (rest.flatMap Task.held ++ (front ++ [b]))
    rw [← List.append_assoc]
    exact (List.perm_append_singleton b _).symm

/-- The offset of a send moves by what was transferred, at most to the end. -/
theorem Fires.counts (h : Owned c (t :: rest)) (hf : Fires c t c' new evs) :
    ∀ b ∈ c'.rsock.lstSend, (c'.bobj b).dwSendedCount ≤ (c'.bobj b).dwRecvedCount := by
  have hkeep (hlst : c'.rsock.lstSend = c.rsock.lstSend)
      (hpay : ∀ b ∈ c.rsock.lstSend, SamePayload (c.bobj b) (c'.bobj b)) :
      ∀ b ∈ c'.rsock.lstSend, (c'.bobj b).dwSendedCount ≤ (c'.bobj b).dwRecvedCount := by
    intro b hb
    rw [hlst] at hb
    rw [(hpay b hb).2, (hpay b hb).recved]
    exact h.counts b hb
  have hsame : ∀ b ∈ c.rsock.lstSend, SamePayload (c.bobj b) (c.bobj b) :=
    fun _ _ => SamePayload.rfl
  cases hf with
  | pass _ hl _ hpay => exact hkeep hl.lstSend (fun b _ => hpay b)
  | alloc o b _ _ hl _ _ _ _ hbobj =>
    apply hkeep hl
    intro b' hb'
    rw [hbobj b' (h.owners.mem_iff.mp (List.mem_append_right _ hb'))]
    exact SamePayload.rfl
  | queue o b hl _ hpay => exact hkeep hl.lstSend (fun b' _ => hpay b')
  | start b _ _ hl _ hpay => exact hkeep hl.lstSend (fun b' _ => hpay b')
  -- An answer starts at zero.
  | enqueue b bytes _ hl _ _ _ _ hother _ hzero =>
    intro b' hb'
    by_cases heq : b' = b
    · rw [heq, hzero]
      exact Nat.zero_le _
    · rw [hl] at hb'
      rw [hother b' heq]
      exact h.counts b' (List.mem_of_ne_of_mem heq hb')
  | sent b bytes _ hbytes hl _ hother hself =>
    intro b' hb'
    rw [hl.lstSend] at hb'
    by_cases heq : b' = b
    · rw [heq] at hb' ⊢
      rw [hself]
      rw [h.offered] at hbytes
      exact (c.bobj b).advance_le bytes hbytes (h.counts b hb')
    · rw [hother b' heq]
      exact h.counts b' hb'
  | dequeue b x front hlst =>
    intro b' hb'
    apply h.counts b'
    rw [hlst]
    exact List.mem_append_left _ hb'
  | _ => exact hkeep rfl hsame

theorem Fires.distinct (h : c.objs.Nodup) (hf : Fires c t c' new evs) : c'.objs.Nodup := by
  cases hf with
  | pass _ hl | queue _ _ hl | sent _ _ _ _ hl | start _ _ _ hl => rwa [hl.objs]
  | alloc o b hfresh _ _ _ _ hobjs =>
    rw [hobjs]
    exact List.nodup_cons.mpr ⟨hfresh, h⟩
  | freeBObj b => exact h.erase b
  | enqueue _ _ _ _ _ _ _ hobjs => rwa [hobjs]
  | _ => exact h

/-- The objects of two tasks of a pool are different ones. -/
theorem Owned.apart (h : Owned c (t :: rest)) {u : Task} (hu : u ∈ rest) {b : BufferObjPtr}
    (hb : b ∈ u.uses) : b ∈ c.objs ∧ b ∉ t.uses := by
  have hdist : (t.held ++ (rest.flatMap Task.held ++ c.rsock.lstSend)).Nodup := by
    rw [← List.append_assoc]
    exact h.owners.nodup_iff.mpr h.distinct
  have hsub : ∀ b ∈ rest.flatMap Task.held ++ c.rsock.lstSend, b ∈ c.objs ∧ b ∉ t.held := by
    intro b hb
    refine ⟨h.owners.mem_iff.mp ?_, ?_⟩
    · rw [List.flatMap_cons, List.append_assoc]
      exact List.mem_append_right _ hb
    · intro ht
      exact List.disjoint_of_nodup_append hdist ht hb
  -- Whoever is in front works on the back of lstSend, and nobody else does.
  have hfront : ∀ b ∈ t.front ++ rest.flatMap Task.front, b ∈ c.rsock.lstSend := by
    intro b hb
    apply List.mem_of_getLast?
    exact Option.mem_toList.mp (h.sender.mem_iff.mp hb)
  rcases List.mem_append.mp hb with hheld | hbfront
  · have hmem : b ∈ rest.flatMap Task.held := List.mem_flatMap.mpr ⟨u, hu, hheld⟩
    have hs := hsub b (List.mem_append_left _ hmem)
    refine ⟨hs.1, ?_⟩
    intro ht
    rcases List.mem_append.mp ht with ht | ht
    · exact hs.2 ht
    · have hlst := hfront b (List.mem_append_left _ ht)
      have hdist' := (List.nodup_append.mp hdist).2.1
      exact List.disjoint_of_nodup_append hdist' hmem hlst
  · have hmem : b ∈ rest.flatMap Task.front := List.mem_flatMap.mpr ⟨u, hu, hbfront⟩
    have hs := hsub b (List.mem_append_right _ (hfront b (List.mem_append_right _ hmem)))
    refine ⟨hs.1, ?_⟩
    intro ht
    rcases List.mem_append.mp ht with ht | ht
    · exact hs.2 ht
    · have hlen := h.sender.length_eq
      have hone := Option.length_toList_le (o := c.rsock.lstSend.getLast?)
      have h₁ := List.length_pos_of_mem ht
      have h₂ := List.length_pos_of_mem hmem
      rw [List.flatMap_cons, List.length_append] at hlen
      change (t.front).length + _ = _ at hlen
      change 0 < t.front.length at h₁
      omega

theorem Turn.handled (h : Owned c (t :: rest)) (hturn : Turn c t c' new evs) :
    ∀ u ∈ new ++ rest, u.handled c' := by
  intro u hu
  rcases List.mem_append.mp hu with hu | hu
  · exact hturn.frame.handled (h.handled t List.mem_cons_self) u hu
  · apply Task.handled_congr _ _ (h.handled u (List.mem_cons_of_mem t hu))
    · intro hchain
      apply hturn.frame.robj
      have htotal := h.chain
      have hle := le_total_of_mem Task.chain hu
      rw [total_cons] at htotal
      split at htotal <;> omega
    · intro b hb
      have hapart := h.apart hu hb
      exact hturn.frame.bobj b hapart.1 hapart.2

/-- Every step of every task keeps the ownership. -/
theorem Owned.turn (h : Owned c (t :: rest)) (hturn : Turn c t c' new evs) :
    Owned c' (new ++ rest) where
  exact := h.exact.move (hturn.fires.move h)
  chain := hturn.fires.chain h
  alone := hturn.fires.alone h
  owners := hturn.fires.owners h
  distinct := hturn.fires.distinct h.distinct
  sender := hturn.fires.sender h
  early := hturn.fires.early h
  handled := hturn.handled h
  counts := hturn.fires.counts h

end Step

/-- Every interleaving keeps the ownership. -/
theorem Owned.run {conf₀ conf : Conf ClientConn Task} {evs : List Event}
    (h₀ : Owned conf₀.shared conf₀.tasks) (h : Run machine conf₀ evs conf) :
    Owned conf.shared conf.tasks := by
  apply h.invariant (fun _ conf => Owned conf.shared conf.tasks) h₀
  intro evs conf es conf' howned hstep
  cases hstep with
  | turn hp hfresh hs => exact (howned.perm hp).turn (step_turn hfresh hs)

theorem start_owned (g_dwPagesize : DWORD) (pRSock : SockPtr) (rsock : RecvSock) (sock : SOCKET)
    (robj : RecvObj) (mem : BufferObjPtr → BufferObj) :
    Owned (connected g_dwPagesize pRSock rsock sock robj mem) [.accept] where
  exact := ⟨fun _ => rfl, fun _ => ⟨rfl, rfl⟩, fun h => absurd h Nat.one_ne_zero⟩
  chain := rfl
  alone t ht _ := by
    rw [List.mem_singleton.mp ht]
    exact ⟨rfl, rfl, rfl⟩
  owners := List.Perm.refl _
  distinct := List.nodup_nil
  sender := List.Perm.refl _
  early t ht := by
    rw [List.mem_singleton.mp ht]
    intro he
    rcases he with he | he <;> contradiction
  handled t ht := by
    rw [List.mem_singleton.mp ht]
    exact ⟨rfl, rfl⟩
  counts _ hb := absurd hb List.not_mem_nil

theorem serving_owned (c : ClientConn) (bs : List BufferObjPtr) (h : bs.Nodup) :
    Owned (serving c bs).shared (serving c bs).tasks := by
  have hmem : ∀ t ∈ (serving c bs).tasks, t = .loop .recv ∨ ∃ b, t = .command b := by
    intro t ht
    rcases List.mem_cons.mp ht with ht | ht
    · exact Or.inl ht
    · rcases List.mem_map.mp ht with ⟨b, _, hb⟩
      exact Or.inr ⟨b, hb.symm⟩
  have htotal (w : Task → ℕ) (n : ℕ) (hn : ∀ b, w (.command b) = n) :
      total w (serving c bs).tasks = w (.loop .recv) + bs.length * n := by
    rw [← total_map w Task.command n hn]
    exact total_cons w _ _
  have hrefs := htotal Task.refs 1 (fun _ => rfl)
  have hlast := htotal Task.last 0 (fun _ => rfl)
  have hchain := htotal Task.chain 0 (fun _ => rfl)
  have hheld : (serving c bs).tasks.flatMap Task.held = bs := by
    change (bs.map Task.command).flatMap Task.held = bs
    rw [List.flatMap_map]
    exact List.flatMap_singleton' bs
  have hfront : (serving c bs).tasks.flatMap Task.front = [] := by
    apply List.flatMap_eq_nil_iff.mpr
    intro t ht
    rcases hmem t ht with rfl | ⟨b, rfl⟩ <;> rfl
  refine ⟨⟨?_, ?_, ?_⟩, hchain, ?_, ?_, h, ?_, ?_, ?_, fun _ hb => absurd hb List.not_mem_nil⟩
  · intro _
    change ((bs.length : ℤ) + 1) = ((total Task.refs (serving c bs).tasks + 0 : ℕ) : ℤ)
    rw [hrefs, show (Task.loop .recv).refs = 1 from rfl]
    omega
  · intro _
    exact ⟨hlast, rfl⟩
  · intro hz
    change total Task.refs (serving c bs).tasks + 0 = 0 at hz
    rw [hrefs, show (Task.loop .recv).refs = 1 from rfl] at hz
    omega
  · intro t ht hacc
    rcases hmem t ht with rfl | ⟨b, rfl⟩ <;> contradiction
  · rw [hheld]
    change (bs ++ []).Perm bs
    rw [List.append_nil]
  · rw [hfront]
    exact List.Perm.refl _
  · intro t ht he
    rcases hmem t ht with rfl | ⟨b, rfl⟩ <;> rcases he with he | he <;> contradiction
  · intro t ht
    rcases hmem t ht with rfl | ⟨b, rfl⟩ <;> trivial

theorem Begins.owned {conf : Conf ClientConn Task} (h : Begins conf) :
    Owned conf.shared conf.tasks := by
  cases h with
  | accept => exact start_owned _ _ _ _ _ _
  | serve c bs hbs => exact serving_owned c bs hbs

end ClientConn

end CustomersCard
