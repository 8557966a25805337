import CustomersCardMS.RefcountSafety
import CustomersCardMS.SendQueue

namespace CustomersCard
open Interleaving SendQueue

namespace Event

def enqueued? : Event → Option (BufferObjPtr × List Byte)
  | .enqueue b bytes => some (b, bytes)
  | _ => none

def started? : Event → Option BufferObjPtr
  | .start b => some b
  | _ => none

def dequeued? : Event → Option BufferObjPtr
  | .dequeue b => some b
  | _ => none

def sentBytes : Event → List Byte
  | .transmit _ bytes => bytes
  | _ => []

end Event

/-- The queued BUFFER_OBJ whose send is over and which GetNextData has still to pop. -/
def Task.retiring : Task → List BufferObjPtr
  | .getNextData b => [b]
  | _ => []

/-- A WSASend succeeds, and transfers something. -/
def Choice.transfers (ch : Choice) : Prop := ch.ok = true ∧ ch.count ≠ 0

namespace ClientConn

/-- Events that say nothing of the queue. -/
structure Silent (evs : List Event) : Prop where
  enqueued : evs.filterMap Event.enqueued? = []
  started : evs.filterMap Event.started? = []
  dequeued : evs.filterMap Event.dequeued? = []
  sent : evs.flatMap Event.sentBytes = []

/-- The queue `q` as lstSend, the BUFFER_OBJs, the pool and the events show it. -/
structure Sends (evs : List Event) (c : ClientConn) (ts : List Task)
    (q : State BufferObjPtr Byte) : Prop where
  pending : q.pending.map Prod.fst = c.rsock.lstSend.reverse
  payload : ∀ x ∈ q.pending, (c.bobj x.1).command = x.2
  untouched : ∀ x ∈ q.pending.tail, (c.bobj x.1).dwSendedCount = 0
  active : q.phase = .active ↔ ts.flatMap Task.sending ≠ []
  done : q.phase = .done ↔ ts.flatMap Task.retiring ≠ []
  enqueued : q.enqueued = evs.filterMap Event.enqueued?
  started : q.started.map Prod.fst = evs.filterMap Event.started?
  retired : q.retired.map Prod.fst = evs.filterMap Event.dequeued?
  wire : q.wire = evs.flatMap Event.sentBytes

/-- dwSendedCount is what was transmitted of the front, until its send is over. -/
def Counted (c : ClientConn) (q : State BufferObjPtr Byte) : Prop :=
  q.phase ≠ .done → ∀ x ∈ q.pending.head?, (c.bobj x.1).dwSendedCount.toNat = q.off

/-- A move that may transmit, and one that does not. -/
def Advances (q q' : State BufferObjPtr Byte) : Prop :=
  ∃ q₁, Move q q₁ ∧ Move q₁ q' ∧ q'.wire = q₁.wire

theorem Advances.one {q q' : State BufferObjPtr Byte} (h : Move q q') : Advances q q' :=
  ⟨q', h, Move.keep q', rfl⟩

/-- A step that ends a send with bytes that were not transmitted. -/
def losing (c : ClientConn) (t : Task) (new : List Task) (evs : List Event) : Bool :=
  decide (t.retiring = [] ∧ new.flatMap Task.retiring ≠ [] ∧
    evs.flatMap Event.sentBytes ≠ t.front.flatMap fun b => (c.bobj b).unsent)

theorem Closes.silent {t : Task} {c c' : ClientConn} {evs : List Event}
    (h : Closes t c c' evs) : Silent evs := by
  cases h <;> exact ⟨rfl, rfl, rfl, rfl⟩

section Step

variable {c c' : ClientConn} {t t' : Task} {rest new : List Task} {es evs : List Event}
  {q q' : State BufferObjPtr Byte}

theorem Sends.perm {ts us : List Task} (h : Sends es c ts q) (hp : ts.Perm us) :
    Sends es c us q := by
  have hnil (f : Task → List BufferObjPtr) : ts.flatMap f ≠ [] ↔ us.flatMap f ≠ [] := by
    rw [ne_eq, ne_eq, ← List.length_eq_zero_iff, ← List.length_eq_zero_iff,
      (hp.flatMap_right f).length_eq]
  exact ⟨h.pending, h.payload, h.untouched, h.active.trans (hnil _), h.done.trans (hnil _),
    h.enqueued, h.started, h.retired, h.wire⟩

theorem Sends.mem {ts : List Task} (h : Sends es c ts q) {x : BufferObjPtr × List Byte}
    (hx : x ∈ q.pending) : x.1 ∈ c.rsock.lstSend := by
  have hmap : x.1 ∈ q.pending.map Prod.fst := List.mem_map.mpr ⟨x, hx, rfl⟩
  rw [h.pending] at hmap
  exact List.mem_reverse.mp hmap

/-- A step that leaves the queue and its BUFFER_OBJs. -/
theorem Sends.keep (h : Sends es c (t :: rest) q) (hl : c'.rsock.lstSend = c.rsock.lstSend)
    (hb : ∀ b ∈ c.rsock.lstSend, SamePayload (c.bobj b) (c'.bobj b))
    (hsend : new.flatMap Task.sending = t.sending) (hret : new.flatMap Task.retiring = t.retiring)
    (hs : Silent evs) : Sends (es ++ evs) c' (new ++ rest) q where
  pending := by
    rw [hl]
    exact h.pending
  payload x hx := by
    rw [(hb x.1 (h.mem hx)).1]
    exact h.payload x hx
  untouched x hx := by
    rw [(hb x.1 (h.mem (List.mem_of_mem_tail hx))).2]
    exact h.untouched x hx
  active := by
    rw [List.flatMap_append, hsend]
    exact h.active
  done := by
    rw [List.flatMap_append, hret]
    exact h.done
  enqueued := by
    rw [List.filterMap_append, hs.enqueued, List.append_nil]
    exact h.enqueued
  started := by
    rw [List.filterMap_append, hs.started, List.append_nil]
    exact h.started
  retired := by
    rw [List.filterMap_append, hs.dequeued, List.append_nil]
    exact h.retired
  wire := by
    rw [List.flatMap_append, hs.sent, List.append_nil]
    exact h.wire

theorem Counted.keep {ts : List Task} (hcount : Counted c q) (h : Sends es c ts q)
    (hb : ∀ b ∈ c.rsock.lstSend, SamePayload (c.bobj b) (c'.bobj b)) : Counted c' q := by
  intro hphase x hx
  rw [(hb x.1 (h.mem (List.mem_of_mem_head? hx))).2]
  exact hcount hphase x hx

/-- The front of the queue is the BUFFER_OBJ that the sender works on. -/
theorem Sends.head (h : Sends es c (t :: rest) q) (howned : Owned c (t :: rest))
    {b : BufferObjPtr} (hb : t.front = [b]) : ∃ tl, q.pending = (b, (c.bobj b).command) :: tl := by
  have hlast := (howned.front_last hb).1
  have hpending := h.pending
  rw [← List.head?_reverse, ← hpending] at hlast
  cases hq : q.pending with
  | nil =>
    rw [hq] at hlast
    contradiction
  | cons x tl =>
    rw [hq] at hlast
    have hx : x.1 = b := Option.some.inj hlast
    have hpay := h.payload x (by rw [hq]; exact List.mem_cons_self)
    exact ⟨tl, by rw [← hx, hpay]⟩

theorem Sends.nodup {ts : List Task} (h : Sends es c ts q) (howned : Owned c ts) :
    (q.pending.map Prod.fst).Nodup := by
  rw [h.pending, List.nodup_reverse]
  exact (List.nodup_append.mp (howned.owners.nodup_iff.mpr howned.distinct)).2.1

/-- Nobody but the sender sends. -/
theorem Owned.others (h : Owned c (t :: rest)) {b : BufferObjPtr} (hb : t.front = [b]) :
    rest.flatMap Task.sending = [] ∧ rest.flatMap Task.retiring = [] := by
  have hrest := List.flatMap_eq_nil_iff.mp (h.front_last hb).2
  constructor
  · apply List.flatMap_eq_nil_iff.mpr
    intro u hu
    have hfront := hrest u hu
    cases u <;> first | rfl | exact absurd hfront (List.cons_ne_nil _ _)
  · apply List.flatMap_eq_nil_iff.mpr
    intro u hu
    have hfront := hrest u hu
    cases u <;> first | rfl | exact absurd hfront (List.cons_ne_nil _ _)

theorem Sends.enqueue {b : BufferObjPtr} {bytes : List Byte} (h : Sends es c (.command b :: rest) q)
    (ho : Ordered q) (hcount : Counted c q) (howned : Owned c (.command b :: rest))
    (hl : c'.rsock.lstSend = b :: c.rsock.lstSend) (hb : ∀ b' ≠ b, c'.bobj b' = c.bobj b')
    (hcmd : (c'.bobj b).command = bytes) (hzero : (c'.bobj b).dwSendedCount = 0) :
    ∃ q', Move q q' ∧ q'.lost = q.lost ∧ Counted c' q' ∧ Sends (es ++ [.enqueue b bytes]) c'
      ((if c.rsock.lstSend = [] then [.startSend b] else []) ++ rest) q' := by
  have hsame : ∀ x ∈ q.pending, c'.bobj x.1 = c.bobj x.1 := by
    intro x hx
    apply hb
    intro heq
    have hmem := h.mem hx
    have hdist := howned.owners.nodup_iff.mpr howned.distinct
    rw [List.flatMap_cons, List.append_assoc] at hdist
    rw [heq] at hmem
    exact List.disjoint_of_nodup_append hdist (List.mem_singleton_self b)
      (List.mem_append_right _ hmem)
  have hquiet (f : Task → List BufferObjPtr) (hs : f (.startSend b) = [])
      (hc : f (.command b) = []) :
      ((if c.rsock.lstSend = [] then [Task.startSend b] else []) ++ rest).flatMap f =
        (Task.command b :: rest).flatMap f := by
    rw [List.flatMap_append, List.flatMap_cons, hc]
    split
    · rw [List.flatMap_singleton, hs]
    · rfl
  have hnil : q.pending = [] ↔ c.rsock.lstSend = [] := by
    rw [← List.map_eq_nil_iff (f := Prod.fst), h.pending, List.reverse_eq_nil_iff]
  have hlogs : q.enqueued ++ [(b, bytes)] =
        (es ++ [Event.enqueue b bytes]).filterMap Event.enqueued? ∧
      q.started.map Prod.fst = (es ++ [Event.enqueue b bytes]).filterMap Event.started? ∧
      q.retired.map Prod.fst = (es ++ [Event.enqueue b bytes]).filterMap Event.dequeued? ∧
      q.wire = (es ++ [Event.enqueue b bytes]).flatMap Event.sentBytes := by
    rw [List.filterMap_append, List.filterMap_append, List.filterMap_append, List.flatMap_append,
      ← h.enqueued, ← h.started, ← h.retired, ← h.wire]
    exact ⟨rfl, (List.append_nil _).symm, (List.append_nil _).symm, (List.append_nil _).symm⟩
  rcases eq_or_ne q.pending [] with hp | hp
  -- CheckSend has found the list empty: its caller is the sender now.
  · have hidle := ho.idle.mpr hp
    have hinactive := h.active
    have hundone := h.done
    rw [hidle] at hinactive hundone
    refine ⟨_, Move.enqueueFirst q (b, bytes) hp, rfl, ?_, ?_, ?_, ?_, ?_, ?_, hlogs.1, hlogs.2.1,
      hlogs.2.2.1, hlogs.2.2.2⟩
    · intro _ x hx
      rw [← Option.some.inj hx, hzero]
      exact (ho.off_zero (Or.inl hidle)).symm
    · rw [hl, hnil.mp hp]
      rfl
    · intro x hx
      rw [List.mem_singleton.mp hx]
      exact hcmd
    · intro x hx
      contradiction
    · rw [hquiet _ rfl rfl, ← hinactive]
      change Phase.waiting = .active ↔ Phase.idle = .active
      decide
    · rw [hquiet _ rfl rfl, ← hundone]
      change Phase.waiting = .done ↔ Phase.idle = .done
      decide
  -- There is a sender already, and the front and its task stay.
  · refine ⟨_, Move.enqueue q (b, bytes) hp, rfl, ?_, ?_, ?_, ?_, ?_, ?_, hlogs.1, hlogs.2.1,
      hlogs.2.2.1, hlogs.2.2.2⟩
    · intro hphase x hx
      rw [List.head?_append_of_ne_nil _ hp] at hx
      rw [hsame x (List.mem_of_mem_head? hx)]
      exact hcount hphase x hx
    · rw [hl, List.map_append, h.pending, List.reverse_cons]
      rfl
    · intro x hx
      rcases List.mem_append.mp hx with hx | hx
      · rw [hsame x hx]
        exact h.payload x hx
      · rw [List.mem_singleton.mp hx]
        exact hcmd
    · intro x hx
      rw [List.tail_append_of_ne_nil hp] at hx
      rcases List.mem_append.mp hx with hx | hx
      · rw [hsame x (List.mem_of_mem_tail hx)]
        exact h.untouched x hx
      · rw [List.mem_singleton.mp hx]
        exact hzero
    · rw [hquiet _ rfl rfl]
      exact h.active
    · rw [hquiet _ rfl rfl]
      exact h.done

theorem Sends.start {b : BufferObjPtr} (h : Sends es c (t :: rest) q) (ho : Ordered q)
    (hcount : Counted c q) (howned : Owned c (t :: rest)) (ht : t = .startSend b ∨ t = .nextSend b)
    (hl : SameLedger c c') (hb : ∀ b', SamePayload (c.bobj b') (c'.bobj b')) :
    ∃ q', Move q q' ∧ q'.lost = q.lost ∧ q'.off = q.off ∧ q'.pending = q.pending ∧
      (∀ x ∈ q.pending.head?, (c.bobj x.1).dwSendedCount.toNat = q.off) ∧ Counted c' q' ∧
      Sends (es ++ [.start b]) c' (.send b :: rest) q' := by
  have hfront : t.front = [b] := by rcases ht with rfl | rfl <;> rfl
  have hothers := howned.others hfront
  obtain ⟨tl, hp⟩ := h.head howned hfront
  have hactive := h.active
  have hdone := h.done
  rw [List.flatMap_cons, hothers.1] at hactive
  rw [List.flatMap_cons, hothers.2] at hdone
  have hwaiting : q.phase = .waiting := by
    cases hphase : q.phase with
    | idle =>
      rw [ho.idle, hp] at hphase
      contradiction
    | waiting => rfl
    | active =>
      have hne := hactive.mp hphase
      rcases ht with rfl | rfl <;> contradiction
    | done =>
      have hne := hdone.mp hphase
      rcases ht with rfl | rfl <;> contradiction
  have hhead := hcount (by rw [hwaiting]; decide)
  refine ⟨_, Move.start q _ tl hp hwaiting, rfl, rfl, rfl, hhead,
    ?_, ?_, ?_, ?_, ?_, ?_, ?_, ?_, ?_, ?_⟩
  · intro _ x hx
    rw [(hb x.1).2]
    exact hhead x hx
  · rw [hl.lstSend]
    exact h.pending
  · intro x hx
    rw [(hb x.1).1]
    exact h.payload x hx
  · intro x hx
    rw [(hb x.1).2]
    exact h.untouched x hx
  · exact ⟨fun _ => List.cons_ne_nil _ _, fun _ => rfl⟩
  · rw [List.flatMap_cons, hothers.2]
    exact ⟨fun hphase => absurd hphase (by simp), fun hne => absurd rfl hne⟩
  · rw [List.filterMap_append]
    exact h.enqueued.trans (List.append_nil _).symm
  · rw [List.filterMap_append, List.map_append, h.started]
    rfl
  · rw [List.filterMap_append]
    exact h.retired.trans (List.append_nil _).symm
  · rw [List.flatMap_append]
    exact h.wire.trans (List.append_nil _).symm

/-- The front while it is sent. -/
theorem Sends.current (h : Sends es c (t :: rest) q) (hcount : Counted c q)
    (howned : Owned c (t :: rest)) {b : BufferObjPtr} (hs : t.sending = [b]) (hb : t.front = [b]) :
    q.phase = .active ∧ ∃ tl, q.pending = (b, (c.bobj b).command) :: tl ∧
      (c.bobj b).dwSendedCount.toNat = q.off := by
  obtain ⟨tl, hp⟩ := h.head howned hb
  have hphase : q.phase = .active := by
    rw [h.active, List.flatMap_cons, hs]
    exact List.cons_ne_nil _ _
  refine ⟨hphase, tl, hp, ?_⟩
  exact hcount (by rw [hphase]; decide) (b, _) (by rw [hp]; rfl)

theorem Sends.transmit {b : BufferObjPtr} {bytes : List Byte} (h : Sends es c (.send b :: rest) q)
    (hcount : Counted c q) (howned : Owned c (.send b :: rest))
    (hbytes : bytes <+: (c.bobj b).unsent) (hl : c'.rsock.lstSend = c.rsock.lstSend)
    (hother : ∀ b' ≠ b, c'.bobj b' = c.bobj b')
    (hcmd : (c'.bobj b).command = (c.bobj b).command) :
    ∃ q', Move q q' ∧ q'.lost = q.lost ∧ q'.off = q.off+bytes.length ∧ q'.pending = q.pending ∧
      Sends (es ++ [.transmit b bytes]) c' (.repostSend b :: rest) q' := by
  obtain ⟨hphase, tl, hp, hoff⟩ := h.current hcount howned rfl rfl
  have hothers := howned.others (b := b) rfl
  have hpre : bytes <+: (c.bobj b).command.drop q.off := by
    rw [← hoff]
    exact hbytes
  have hdist := h.nodup howned
  rw [hp, List.map_cons, List.nodup_cons] at hdist
  have htail : ∀ x ∈ tl, c'.bobj x.1 = c.bobj x.1 := by
    intro x hx
    apply hother
    intro heq
    exact hdist.1 (List.mem_map.mpr ⟨x, hx, heq⟩)
  refine ⟨_, Move.transmit q _ tl bytes hp hphase hpre, rfl, rfl, rfl,
    ?_, ?_, ?_, ?_, ?_, ?_, ?_, ?_, ?_⟩
  · rw [hl]
    exact h.pending
  · intro x hx
    have hpay := h.payload x hx
    rw [hp] at hx
    rcases List.mem_cons.mp hx with rfl | hx
    · exact hcmd
    · rwa [htail x hx]
  · intro x hx
    have hun := h.untouched x hx
    rw [hp] at hx
    rwa [htail x hx]
  · exact h.active
  · exact h.done
  · rw [List.filterMap_append]
    exact h.enqueued.trans (List.append_nil _).symm
  · rw [List.filterMap_append]
    exact h.started.trans (List.append_nil _).symm
  · rw [List.filterMap_append]
    exact h.retired.trans (List.append_nil _).symm
  · rw [List.flatMap_append, ← h.wire]
    change q.wire ++ bytes = q.wire ++ (bytes ++ [])
    rw [List.append_nil]

theorem Sends.dequeue {b x : BufferObjPtr} {front : List BufferObjPtr}
    (h : Sends es c (.getNextData b :: rest) q) (howned : Owned c (.getNextData b :: rest))
    (hlst : c.rsock.lstSend = front ++ [x]) :
    ∃ q', Move q q' ∧ q'.lost = q.lost ∧ Counted (c.setRSock { c.rsock with lstSend := front }) q' ∧
      Sends (es ++ [.dequeue x]) (c.setRSock { c.rsock with lstSend := front })
        (.freeSent b front.getLast? :: rest) q' := by
  obtain ⟨tl, hp⟩ := h.head howned (b := b) rfl
  have hothers := howned.others (b := b) rfl
  have hphase : q.phase = .done := h.done.mpr (List.cons_ne_nil _ _)
  have hpending := h.pending
  rw [hp, hlst, List.reverse_append, List.map_cons] at hpending
  change b :: tl.map Prod.fst = x :: front.reverse at hpending
  rw [List.cons.injEq] at hpending
  have htail : q.pending.tail = tl := by rw [hp, List.tail_cons]
  refine ⟨_, Move.retire q _ tl hp hphase, rfl, ?_, hpending.2, ?_, ?_, ?_, ?_, ?_, ?_, ?_, ?_⟩
  · intro _ y hy
    have hzero := h.untouched y (by rw [htail]; exact List.mem_of_mem_head? hy)
    change (c.bobj y.1).dwSendedCount.toNat = 0
    rw [hzero]
    rfl
  · intro y hy
    exact h.payload y (by rw [hp]; exact List.mem_cons_of_mem _ hy)
  · intro y hy
    exact h.untouched y (by rw [htail]; exact List.mem_of_mem_tail hy)
  · rw [List.flatMap_cons, hothers.1]
    dsimp only [Task.sending]
    split <;> simp
  · rw [List.flatMap_cons, hothers.2]
    dsimp only [Task.retiring]
    split <;> simp
  · rw [List.filterMap_append]
    exact h.enqueued.trans (List.append_nil _).symm
  · rw [List.filterMap_append]
    exact h.started.trans (List.append_nil _).symm
  · rw [List.filterMap_append, ← h.retired, List.map_append, ← hpending.1]
    rfl
  · rw [List.flatMap_append]
    exact h.wire.trans (List.append_nil _).symm

/-- A send is over too early when not all of what was left has been transmitted. -/
theorem losing_of_retiring {b : BufferObjPtr} {bytes : List Byte} (hb : t.front = [b])
    (ht : t.retiring = []) (hevs : evs.flatMap Event.sentBytes = bytes)
    (hbytes : bytes <+: (c.bobj b).unsent) (hoff : (c.bobj b).dwSendedCount.toNat = q.off)
    (hle : q.off ≤ (c.bobj b).command.length) :
    decide (q.off+bytes.length < (c.bobj b).command.length) =
      losing c t [.getNextData b] evs := by
  have hlen : (c.bobj b).unsent.length = (c.bobj b).command.length - q.off := by
    unfold BufferObj.unsent
    rw [List.length_drop, hoff]
  have hpre := hbytes.length_le
  have hiff : q.off+bytes.length < (c.bobj b).command.length ↔ bytes ≠ (c.bobj b).unsent := by
    constructor
    · intro hlt heq
      rw [← heq] at hlen
      omega
    · intro hne
      by_contra hge
      exact hne (hbytes.eq_of_length (by omega))
  have hfront : (t.front.flatMap fun b => (c.bobj b).unsent) = (c.bobj b).unsent := by
    rw [hb, List.flatMap_singleton]
  unfold losing
  rw [hevs, hfront, decide_eq_decide, hiff]
  exact ⟨fun hne => ⟨ht, List.cons_ne_nil _ _, hne⟩, fun hall => hall.2.2⟩

/-- The send of the front `b` is over, after `bytes` have been transmitted of what was left. -/
theorem Sends.over {b : BufferObjPtr} {bytes : List Byte} {q₁ : State BufferObjPtr Byte}
    (h : Sends es c' (t' :: rest) q₁) (hm : Move q q₁) (hlost : q₁.lost = q.lost)
    (hoff : q₁.off = q.off+bytes.length) (hpending : q₁.pending = q.pending)
    (hs : t'.sending = [b]) (howned : Owned c (t :: rest)) (hb : t.front = [b])
    {tl : List (BufferObjPtr × List Byte)} (hp : q.pending = (b, (c.bobj b).command) :: tl)
    (hlosing : decide (q.off+bytes.length < (c.bobj b).command.length) =
      losing c t [.getNextData b] evs) :
    ∃ q', Advances q q' ∧ q'.lost = (q.lost || losing c t [.getNextData b] evs) ∧ Counted c' q' ∧
      Sends es c' (.getNextData b :: rest) q' := by
  have hothers := howned.others hb
  have hphase : q₁.phase = .active := by
    rw [h.active, List.flatMap_cons, hs]
    exact List.cons_ne_nil _ _
  refine ⟨_, ⟨q₁, hm, Move.finish q₁ _ tl (hpending.trans hp) hphase, rfl⟩, ?_,
    fun hne => absurd rfl hne, h.pending, h.payload, h.untouched, ?_, ?_, h.enqueued, h.started,
    h.retired, h.wire⟩
  · rw [← hlosing, hlost, hoff]
  · rw [List.flatMap_cons, hothers.1]
    exact ⟨fun hphase => absurd hphase (by simp), fun hne => absurd rfl hne⟩
  · exact ⟨fun _ => List.cons_ne_nil _ _, fun _ => rfl⟩

/-- A step that ends no send loses nothing. -/
theorem losing_none (h : new.flatMap Task.retiring = []) : losing c t new evs = false := by
  unfold losing
  rw [decide_eq_false_iff_not]
  intro hall
  exact hall.2.1 h

theorem Passes.silent {t t' : Task} (h : Passes t t') :
    (∃ b, t = .repostSend b ∧ t' = .getNextData b) ∨
    (t'.sending = t.sending ∧ t'.retiring = [] ∧ t.retiring = []) := by
  cases h with
  | repostRefused b => exact Or.inl ⟨b, rfl, rfl⟩
  | _ => exact Or.inr ⟨rfl, rfl, rfl⟩

theorem FreesBObj.silent {b : BufferObjPtr} (h : FreesBObj b t new) :
    new.flatMap Task.sending = t.sending ∧ new.flatMap Task.retiring = [] ∧ t.retiring = [] := by
  cases h <;> exact ⟨rfl, rfl, rfl⟩

/-- Every step of the connection advances the queue of sends. -/
theorem Sends.fires (h : Sends es c (t :: rest) q) (ho : Ordered q) (hcount : Counted c q)
    (howned : Owned c (t :: rest)) (hf : Fires c t c' new evs) :
    ∃ q', Advances q q' ∧ q'.lost = (q.lost || losing c t new evs) ∧ Counted c' q' ∧
      Sends (es ++ evs) c' (new ++ rest) q' := by
  have hkeep (hl : c'.rsock.lstSend = c.rsock.lstSend)
      (hb : ∀ b ∈ c.rsock.lstSend, SamePayload (c.bobj b) (c'.bobj b))
      (hsend : new.flatMap Task.sending = t.sending) (hret : new.flatMap Task.retiring = [])
      (ht : t.retiring = []) (hs : Silent evs) :
      ∃ q', Advances q q' ∧ q'.lost = (q.lost || losing c t new evs) ∧ Counted c' q' ∧
        Sends (es ++ evs) c' (new ++ rest) q' := by
    rw [losing_none hret, Bool.or_false]
    exact ⟨q, Advances.one (Move.keep q), rfl, hcount.keep h hb,
      h.keep hl hb hsend (hret.trans ht.symm) hs⟩
  have hsame : ∀ b ∈ c.rsock.lstSend, SamePayload (c.bobj b) (c.bobj b) :=
    fun _ _ => SamePayload.rfl
  have hsilent : Silent [] := ⟨rfl, rfl, rfl, rfl⟩
  have hsentBytes (b : BufferObjPtr) (bytes : List Byte) :
      [Event.transmit b bytes].flatMap Event.sentBytes = bytes := List.append_nil bytes
  cases hf with
  -- No payload changes; of these tasks only a refused repost has to do with sends.
  | pass ht hl hc hb =>
    rcases ht.silent with ⟨b, rfl, rfl⟩ | ⟨hsend, hret, ht'⟩
    · obtain ⟨_, tl, hp, hoff⟩ := h.current hcount howned (b := b) rfl rfl
      have hlosing :=
        losing_of_retiring (t := .repostSend b) rfl rfl hc.silent.sent List.nil_prefix hoff
        (ho.off_le _ _ hp)
      have hs₁ : Sends (es ++ evs) c' ([.repostSend b] ++ rest) q :=
        h.keep hl.lstSend (fun b _ => hb b) rfl rfl hc.silent
      have hstay : q.off = q.off+([] : List Byte).length := rfl
      exact hs₁.over (Move.keep q) rfl hstay rfl rfl howned rfl hp hlosing
    · apply hkeep hl.lstSend (fun b _ => hb b) _ _ ht' hc.silent
      · rw [List.flatMap_singleton, hsend]
      · rw [List.flatMap_singleton, hret]
  -- The BUFFER_OBJ is new, so it is none of those in the queue.
  | alloc o b _ _ hl _ _ _ _ hb =>
    refine hkeep hl ?_ rfl rfl rfl ⟨rfl, rfl, rfl, rfl⟩
    intro b' hb'
    rw [hb b' (howned.owners.mem_iff.mp (List.mem_append_right _ hb'))]
    exact SamePayload.rfl
  | acquire o b => exact hkeep rfl hsame rfl rfl rfl hsilent
  | queue o b hl _ hb => exact hkeep hl.lstSend (fun b' _ => hb b') rfl rfl rfl ⟨rfl, rfl, rfl, rfl⟩
  | acceptDecRef b => exact hkeep rfl hsame rfl rfl rfl hsilent
  | recvDecRef hz => exact hkeep rfl hsame rfl rfl rfl hsilent
  | recvDecRefZero hz => exact hkeep rfl hsame rfl rfl rfl hsilent
  | release k hz => exact hkeep rfl hsame rfl rfl rfl hsilent
  | releaseZero k hz => exact hkeep rfl hsame rfl rfl rfl hsilent
  | nextDecRef b => exact hkeep rfl hsame rfl rfl rfl hsilent
  | freeBObj b hb hfree =>
    exact hkeep rfl hsame hfree.silent.1 hfree.silent.2.1 hfree.silent.2.2 ⟨rfl, rfl, rfl, rfl⟩
  | acceptFreeRSock => exact hkeep rfl hsame rfl rfl rfl ⟨rfl, rfl, rfl, rfl⟩
  | earlyFreeRSock => exact hkeep rfl hsame rfl rfl rfl ⟨rfl, rfl, rfl, rfl⟩
  | releaseFreeRSock k => exact hkeep rfl hsame rfl rfl rfl ⟨rfl, rfl, rfl, rfl⟩
  | acceptFreeRObj => exact hkeep rfl hsame rfl rfl rfl ⟨rfl, rfl, rfl, rfl⟩
  | releaseFreeRObj => exact hkeep rfl hsame rfl rfl rfl ⟨rfl, rfl, rfl, rfl⟩
  | releaseNothing => exact hkeep rfl hsame rfl rfl rfl hsilent
  | enqueue b bytes _ hl _ _ _ _ hother hcmd hzero =>
    obtain ⟨q', hm, hlost, hc', hs'⟩ := h.enqueue ho hcount howned hl hother hcmd hzero
    refine ⟨q', Advances.one hm, ?_, hc', hs'⟩
    rw [hlost, losing_none, Bool.or_false]
    split <;> rfl
  -- The first send of an item, which WSASend may refuse at once.
  | start b ht ht' hl _ hb =>
    obtain ⟨q₁, hm, hlost, hoff₁, hpending, hhead, hc₁, hs₁⟩ := h.start ho hcount howned ht hl hb
    rcases ht' with rfl | rfl
    · refine ⟨q₁, Advances.one hm, ?_, hc₁, hs₁⟩
      rw [hlost, losing_none rfl, Bool.or_false]
    · have hfront : t.front = [b] := by rcases ht with rfl | rfl <;> rfl
      have hret : t.retiring = [] := by rcases ht with rfl | rfl <;> rfl
      obtain ⟨tl, hp⟩ := h.head howned hfront
      have hoff := hhead (b, _) (by rw [hp]; rfl)
      have hquiet : [Event.start b].flatMap Event.sentBytes = [] := rfl
      have hlosing := losing_of_retiring hfront hret hquiet List.nil_prefix hoff (ho.off_le _ _ hp)
      have hstay : q₁.off = q.off+([] : List Byte).length := hoff₁
      exact hs₁.over hm hlost hstay hpending rfl howned hfront hp hlosing
  -- A part went out. The item is over when all of it has.
  | sent b bytes _ hbytes hl _ hother hself =>
    rw [howned.offered] at hbytes
    obtain ⟨_, tl, hp, hoff⟩ := h.current hcount howned (b := b) rfl rfl
    obtain ⟨q₁, hm, hlost, hoff₁, hpending, hs₁⟩ := h.transmit hcount howned hbytes hl.lstSend
      hother (by rw [hself]; rfl)
    split
    · refine ⟨q₁, Advances.one hm, ?_, ?_, hs₁⟩
      · rw [hlost, losing_none rfl, Bool.or_false]
      · intro _ x hx
        rw [hpending, hp] at hx
        rw [← Option.some.inj hx, hself, hoff₁, ← hoff]
        exact BufferObj.advance_toNat _ _ hbytes
    · have hlosing := losing_of_retiring (t := .send b) rfl rfl
        (hsentBytes b bytes) hbytes hoff (ho.off_le _ _ hp)
      exact hs₁.over hm hlost hoff₁ hpending rfl howned rfl hp hlosing
  | sendFailed b bytes hbytes =>
    rw [howned.offered] at hbytes
    obtain ⟨_, tl, hp, hoff⟩ := h.current hcount howned (b := b) rfl rfl
    obtain ⟨q₁, hm, hlost, hoff₁, hpending, hs₁⟩ := h.transmit hcount howned hbytes rfl
      (fun _ _ => rfl) rfl
    have hlosing := losing_of_retiring (t := .send b) rfl rfl (hsentBytes b bytes)
      hbytes hoff (ho.off_le _ _ hp)
    exact hs₁.over hm hlost hoff₁ hpending rfl howned rfl hp hlosing
  | dequeue b x front hlst =>
    obtain ⟨q', hm, hlost, hc', hs'⟩ := h.dequeue howned hlst
    refine ⟨q', Advances.one hm, ?_, hc', hs'⟩
    rw [hlost, losing_none rfl, Bool.or_false]

theorem Advances.ordered (ha : Advances q q') (h : Ordered q) : Ordered q' := by
  obtain ⟨q₁, hm₁, hm₂, _⟩ := ha
  exact (h.move hm₁).move hm₂

end Step

theorem Begins.sends {conf : Conf ClientConn Task} (h : Begins conf) :
    Counted conf.shared State.empty ∧ Sends [] conf.shared conf.tasks State.empty := by
  have hnone (bs : List BufferObjPtr) (f : Task → List BufferObjPtr)
      (hf : ∀ b, f (.command b) = []) :
      (bs.map Task.command).flatMap f = [] := by
    apply List.flatMap_eq_nil_iff.mpr
    intro t ht
    rcases List.mem_map.mp ht with ⟨b, _, rfl⟩
    exact hf b
  have hempty (ts : List Task) (c : ClientConn) (hl : c.rsock.lstSend = [])
      (hs : ts.flatMap Task.sending = []) (hr : ts.flatMap Task.retiring = []) :
      Counted c State.empty ∧ Sends [] c ts State.empty := by
    refine ⟨?_, ?_, ?_, ?_, ?_, ?_, rfl, rfl, rfl, rfl⟩
    · intro _ x hx
      contradiction
    · rw [hl]
      rfl
    · intro x hx
      contradiction
    · intro x hx
      contradiction
    · rw [hs]
      exact ⟨fun hphase => absurd hphase (by decide), fun hne => absurd rfl hne⟩
    · rw [hr]
      exact ⟨fun hphase => absurd hphase (by decide), fun hne => absurd rfl hne⟩
  cases h with
  | accept => exact hempty _ _ rfl rfl rfl
  | serve c bs hbs => exact hempty _ _ rfl (hnone bs _ fun _ => rfl) (hnone bs _ fun _ => rfl)

theorem run_sends {conf₀ conf : Conf ClientConn Task} {evs : List Event} (h₀ : Begins conf₀)
    (h : Run machine conf₀ evs conf) : Owned conf.shared conf.tasks ∧
      (evs.filterMap Event.freed? ++ conf.shared.objs).Perm
        (conf₀.shared.objs ++ evs.filterMap Event.allocated?) ∧
      ∃ q, Ordered q ∧ Counted conf.shared q ∧ Sends evs conf.shared conf.tasks q := by
  apply h.invariant (fun evs conf => Owned conf.shared conf.tasks ∧
    (evs.filterMap Event.freed? ++ conf.shared.objs).Perm
      (conf₀.shared.objs ++ evs.filterMap Event.allocated?) ∧
    ∃ q, Ordered q ∧ Counted conf.shared q ∧ Sends evs conf.shared conf.tasks q)
  · refine ⟨h₀.owned, ?_, State.empty, Ordered.empty, h₀.sends⟩
    change conf₀.shared.objs.Perm (conf₀.shared.objs ++ [])
    rw [List.append_nil]
  · intro evs conf es conf' hinv hstep
    rcases hinv with ⟨howned, hobjs, q, ho, hc, hs⟩
    cases hstep with
    | turn hp hfresh hok =>
      have hturn := step_turn hfresh hok
      have hpool := howned.perm hp
      obtain ⟨q', ha, _, hc', hs'⟩ := (hs.perm hp).fires ho hc hpool hturn.fires
      exact ⟨hpool.turn hturn, hturn.fires.objs hobjs, q', ha.ordered ho, hc', hs'⟩

section Drain

/-- The handler frames of a drain, one after the other, with every post failing. -/
def drainTurns (ch : Choice) (n : ℕ) : List (ℕ × Choice) := List.replicate (4*n+2) (0, ch)

variable {c : ClientConn} {b : BufferObjPtr} {rest : List Task} {ch : Choice}

theorem step_getNextData {front : List BufferObjPtr} (hlive : c.rsockLive = true)
    (hlst : c.rsock.lstSend = front ++ [b]) : c.step (.getNextData b) ch =
      .ok (c.setRSock { c.rsock with lstSend := front }, [.freeSent b front.getLast?],
        [.dequeue b]) := by
  have hnext : c.rsock.getNextData =
      some (front.getLast?, { c.rsock with lstSend := front }) := by
    unfold RecvSock.getNextData
    rw [hlst, if_neg (by simp), List.dropLast_concat]
  simp only [step, withRSock, guarded, hlive, if_true, hnext, hlst, List.getLast?_concat]
  rfl

theorem step_freeSent (obj : Option BufferObjPtr) (hb : b ∈ c.objs) :
    c.step (.freeSent b obj) ch = .ok ({ c with objs := c.objs.erase b },
      (match obj with | none => [.release .nothing] | some obj => [.nextDecRef obj]),
      [.freeBObj b]) := by
  cases obj <;> simp only [step, freeBObj, guarded, if_pos hb]

theorem step_nextDecRef (hlive : c.rsockLive = true) : c.step (.nextDecRef b) ch =
    .ok (c.setRSock c.rsock.decRef, [.nextSend b], []) := by
  simp only [step, withRSock, guarded, hlive, if_true]

theorem step_nextSend (hlive : c.rsockLive = true) (hb : b ∈ c.objs) (hfail : ch.ok = false) :
    ∃ c', c.step (.nextSend b) ch = .ok (c', [.getNextData b], [.start b]) ∧
      c'.rsock = c.rsock ∧ c'.objs = c.objs := by
  have hposts (d : ClientConn) : d.posts ch = false := by
    unfold posts
    rw [hfail, Bool.false_and]
  simp only [step, withBObj, postSend, withRSock, guarded, hb, hlive, hposts, setBObj, if_true]
  exact ⟨_, rfl, rfl, rfl⟩

theorem play_step {c' : ClientConn} {t : Task} {new : List Task} {turns : List (ℕ × Choice)}
    {es evs : List Event} {conf : Conf ClientConn Task} (hstep : c.step t ch = .ok (c', new, es))
    (hplay : play machine ⟨c', new ++ rest⟩ turns = some (evs, conf))
    (hfresh : ch.pBObj ∉ c.objs) :
    play machine ⟨c, t :: rest⟩ ((0, ch) :: turns) = some (es ++ evs, conf) :=
  play_first (M := machine) hfresh hstep hplay

/-- When every post fails, Client_SendCompletionFailed goes on through its own calls until
the queue is empty, and frees what was queued from the back to the front. -/
theorem drains (hfail : ch.ok = false) (front : List BufferObjPtr)
    (h : Owned c (.getNextData b :: rest)) (hfresh : ch.pBObj ∉ c.objs)
    (hlst : c.rsock.lstSend = front ++ [b]) : ∃ c' evs,
      play machine ⟨c, .getNextData b :: rest⟩ (drainTurns ch front.length) =
        some (evs, ⟨c', .release .nothing :: rest⟩) ∧ c'.rsock.lstSend = [] ∧
      evs.filterMap Event.freed? = b :: front.reverse ∧ evs.flatMap Event.sentBytes = [] := by
  induction front using List.reverseRecOn generalizing c b with
  | nil =>
    have hs₁ : c.step (.getNextData b) ch = _ :=
      step_getNextData ((h.ready List.mem_cons_self).rsock (by decide : 0 < 1)) hlst
    have h₁ := h.turn (step_turn hfresh hs₁)
    have hb := (h₁.ready List.mem_cons_self).objs b (List.mem_singleton_self b)
    have hs₂ : ClientConn.step _ (.freeSent b none) ch = .ok (_, [.release .nothing], _) :=
      step_freeSent none hb
    exact ⟨_, _, play_step hs₁ (play_step hs₂ rfl hfresh) hfresh, rfl, rfl, rfl⟩
  | append_singleton front o ih =>
    have hs₁ : c.step (.getNextData b) ch = _ :=
      step_getNextData ((h.ready List.mem_cons_self).rsock (by decide : 0 < 1)) hlst
    rw [List.getLast?_concat] at hs₁
    have h₁ := h.turn (step_turn hfresh hs₁)
    have hs₂ : ClientConn.step _ (.freeSent b (some o)) ch = .ok (_, [.nextDecRef o], _) :=
      step_freeSent (some o) ((h₁.ready List.mem_cons_self).objs b List.mem_cons_self)
    have h₂ := h₁.turn (step_turn hfresh hs₂)
    have hfresh₂ : ch.pBObj ∉ c.objs.erase b := fun hmem => hfresh (List.mem_of_mem_erase hmem)
    have hs₃ : ClientConn.step _ (.nextDecRef o) ch = _ :=
      step_nextDecRef ((h₂.ready List.mem_cons_self).rsock (by decide : 0 < 2))
    have h₃ := h₂.turn (step_turn hfresh₂ hs₃)
    have hready := h₃.ready List.mem_cons_self
    obtain ⟨c₄, hs₄, hrsock, hobjs⟩ := step_nextSend (hready.rsock (by decide : 0 < 1))
      (hready.objs o (List.mem_singleton_self o)) hfail
    have h₄ := h₃.turn (step_turn hfresh₂ hs₄)
    have hlst₄ : c₄.rsock.lstSend = front ++ [o] := by rw [hrsock]; rfl
    have hfresh₄ : ch.pBObj ∉ c₄.objs := by rw [hobjs]; exact hfresh₂
    obtain ⟨c', evs, hplay, hnil, hfreed, hsent⟩ := ih h₄ hfresh₄ hlst₄
    have hturns : drainTurns ch (front ++ [o]).length =
        (0, ch) :: (0, ch) :: (0, ch) :: (0, ch) :: drainTurns ch front.length := by
      unfold drainTurns
      rw [List.length_append, List.length_singleton, show 4*(front.length+1)+2 =
        4*front.length+2+1+1+1+1 by omega]
      simp only [List.replicate_succ]
    refine ⟨c', .dequeue b :: .freeBObj b :: .start o :: evs, ?_, hnil, ?_, ?_⟩
    · have hplay₃ := play_step hs₄ hplay hfresh₂
      have hplay₂ := play_step hs₃ hplay₃ hfresh₂
      have hplay₁ := play_step hs₂ hplay₂ hfresh
      rw [hturns]
      exact play_step hs₁ hplay₁ hfresh
    · rw [List.reverse_append]
      change b :: evs.filterMap Event.freed? = _
      rw [hfreed]
      rfl
    · exact hsent

end Drain

section Serve

/-- The sender takes the next `k` turns. -/
def senderTurns (chs : ℕ → Choice) (k : ℕ) : List (ℕ × Choice) :=
  (List.range k).map fun i => (0, chs i)

variable {c : ClientConn} {b : BufferObjPtr} {rest : List Task} {ch : Choice}

theorem senderTurns_succ (chs : ℕ → Choice) (k : ℕ) :
    senderTurns chs (k+1) = (0, chs 0) :: senderTurns (fun i => chs (i+1)) k := by
  unfold senderTurns
  rw [List.range_succ_eq_map, List.map_cons, List.map_map]
  rfl

/-- What the sender of `b` comes to: `b` is freed, and `bytes` were transmitted of it. -/
structure Freed (c : ClientConn) (b : BufferObjPtr) (chs : ℕ → Choice) (bytes : List Byte)
    (es : List Event) : Prop where
  freed : es.filterMap Event.freed? = [b]
  sent : es.flatMap Event.sentBytes <+: bytes
  all : (∀ i, (chs i).transfers) → c.rsock.sock ≠ INVALID_SOCKET →
    es.flatMap Event.sentBytes = bytes

theorem step_send (h : Ready c (.send b)) : c.step (.send b) ch =
    if ch.ok = true ∧ (c.bobj b).unsent.take ch.count ≠ [] then
      .ok (c.setBObj b ((c.bobj b).advance
          (BitVec.ofNat 32 ((c.bobj b).unsent.take ch.count).length)),
        if ((c.bobj b).advance (BitVec.ofNat 32
          ((c.bobj b).unsent.take ch.count).length)).dwSendedCount < (c.bobj b).dwRecvedCount then
          [.repostSend b] else [.getNextData b],
        [.transmit b ((c.bobj b).unsent.take ch.count)])
    else .ok (c, [.getNextData b], [.transmit b ((c.bobj b).unsent.take ch.count)]) := by
  have hb := h.objs b (List.mem_singleton_self b)
  simp only [step, sendCompletion, dispatchBObj, withBObj, guarded, if_pos h.handled.1, if_pos hb,
    h.offered]
  rfl

theorem step_repostSend (h : Ready c (.repostSend b)) : c.step (.repostSend b) ch =
    .ok (c.setBObj b (c.bobj b).setWsaBuf,
      if c.posts ch then [.send b] else [.getNextData b], []) := by
  have hlive : c.rsockLive = true := h.rsock (by decide : 0 < 1)
  have hb := h.objs b (List.mem_singleton_self b)
  simp only [step, postSend, withRSock, withBObj, guarded, if_pos hlive, if_pos hb]

/-- A sender that is done with its BUFFER_OBJ frees it. -/
theorem frees (chs : ℕ → Choice) (h : Owned c (.getNextData b :: rest))
    (hfresh : ∀ i, (chs i).pBObj ∉ c.objs) : ∃ es c' next,
      play machine ⟨c, .getNextData b :: rest⟩ (senderTurns chs 2) =
        some (es, ⟨c', next ++ rest⟩) ∧
      es.filterMap Event.freed? = [b] ∧ es.flatMap Event.sentBytes = [] := by
  obtain ⟨front, hlst⟩ := List.getLast?_eq_some_iff.mp (h.front_last (b := b) rfl).1
  have hs₁ : c.step (.getNextData b) (chs 0) = _ :=
    step_getNextData ((h.ready List.mem_cons_self).rsock (by decide : 0 < 1)) hlst
  have h₁ := h.turn (step_turn (hfresh 0) hs₁)
  have hs₂ : ClientConn.step _ (.freeSent b front.getLast?) (chs 1) = _ := step_freeSent _
    ((h₁.ready List.mem_cons_self).objs b (List.mem_append_left _ List.mem_cons_self))
  refine ⟨_, _, _, play_step hs₁ (play_step hs₂ rfl (hfresh 1)) (hfresh 0), rfl, rfl⟩

/-- The sender is over with `b` after these events, and frees it in its next two turns. -/
theorem Freed.over {c₁ : ClientConn} {es : List Event} {chs : ℕ → Choice} (bytes : List Byte)
    (m : ℕ) (h : Owned c₁ (.getNextData b :: rest)) (hobjs : c₁.objs = c.objs)
    (hfresh : ∀ i, (chs i).pBObj ∉ c.objs) (hfreed : es.filterMap Event.freed? = [])
    (hsent : es.flatMap Event.sentBytes <+: bytes)
    (hall : (∀ i, (chs i).transfers) → c.rsock.sock ≠ INVALID_SOCKET →
      es.flatMap Event.sentBytes = bytes) :
    ∃ es' c' next, play machine ⟨c₁, .getNextData b :: rest⟩
        (senderTurns (fun i => chs (i+m)) 2) = some (es', ⟨c', next ++ rest⟩) ∧
      Freed c b chs bytes (es ++ es') := by
  obtain ⟨es', c', next, hplay, hfreed', hsent'⟩ := frees (fun i => chs (i+m)) h (by
    intro i
    rw [hobjs]
    exact hfresh (i+m))
  have hbytes : (es ++ es').flatMap Event.sentBytes = es.flatMap Event.sentBytes := by
    rw [List.flatMap_append, hsent', List.append_nil]
  refine ⟨es', c', next, hplay, ?_, ?_, ?_⟩
  · rw [List.filterMap_append, hfreed, hfreed', List.nil_append]
  · rwa [hbytes]
  · rwa [hbytes]

/-- A completion of a send leaves the rest of the bytes to the next send, or the sender is over. -/
theorem send_goes_on (chs : ℕ → Choice) (h : Owned c (.send b :: rest))
    (hfresh : ∀ i, (chs i).pBObj ∉ c.objs) :
    (∃ bytes c₂, bytes ≠ [] ∧ bytes ++ (c₂.bobj b).unsent = (c.bobj b).unsent ∧
      c₂.objs = c.objs ∧ c₂.rsock = c.rsock ∧ Owned c₂ (.send b :: rest) ∧
      ∀ turns es conf, play machine ⟨c₂, .send b :: rest⟩ turns = some (es, conf) →
        play machine ⟨c, .send b :: rest⟩ ((0, chs 0) :: (0, chs 1) :: turns) =
          some (.transmit b bytes :: es, conf)) ∨
      ∃ k ≤ 2 * (c.bobj b).unsent.length+3, ∃ es c' next,
        play machine ⟨c, .send b :: rest⟩ (senderTurns chs k) = some (es, ⟨c', next ++ rest⟩) ∧
          Freed c b chs (c.bobj b).unsent es := by
  have hstep : c.step (.send b) (chs 0) = _ := step_send (h.ready List.mem_cons_self)
  have hlt := (c.bobj b).advance_lt (chs 0).count
  have hsplit := List.take_append_drop (chs 0).count (c.bobj b).unsent
  have hprefix : (c.bobj b).unsent.take (chs 0).count <+: (c.bobj b).unsent := List.take_prefix _ _
  have hrest := (c.bobj b).advance_unsent hprefix
  have hempty (hch : (chs 0).transfers) (hnil : (c.bobj b).unsent.take (chs 0).count = []) :
      (c.bobj b).unsent = [] :=
    (List.take_eq_nil_iff.mp hnil).resolve_left hch.2
  generalize (c.bobj b).unsent.take (chs 0).count = bytes at hstep hlt hsplit hrest hprefix hempty
  have hsent : [Event.transmit b bytes].flatMap Event.sentBytes = bytes := List.append_nil bytes
  by_cases hok : (chs 0).ok = true ∧ bytes ≠ []
  · rw [if_pos hok] at hstep
    have h₁ := h.turn (step_turn (hfresh 0) hstep)
    by_cases hmore : ((c.bobj b).advance (BitVec.ofNat 32 bytes.length)).dwSendedCount <
        (c.bobj b).dwRecvedCount
    · rw [if_pos hmore] at hstep h₁
      have hrepost : ClientConn.step _ (.repostSend b) (chs 1) = _ :=
        step_repostSend (h₁.ready List.mem_cons_self)
      have h₂ := h₁.turn (step_turn (hfresh 1) hrepost)
      by_cases hposts : c.posts (chs 1) = true
      · rw [if_pos (show (c.setBObj b _).posts (chs 1) = true from hposts)] at hrepost h₂
        refine Or.inl ⟨bytes, _, hok.2, ?_, ?_, ?_, h₂, ?_⟩
        · rw [← hrest, setBObj_bobj, setBObj_bobj]
          rfl
        · rfl
        · rfl
        · intro turns es conf hplay
          exact play_step hstep (play_step hrepost hplay (hfresh 1)) (hfresh 0)
      · -- WSASend refuses the rest, and Client_SendCompletionFailed frees it.
        rw [if_neg (show ¬(c.setBObj b _).posts (chs 1) = true from hposts)] at hrepost h₂
        obtain ⟨es, c', next, hplay, hfreed⟩ := Freed.over (c := c) _ 2 h₂ rfl hfresh rfl
          (hsent.symm ▸ hprefix) (by
            intro hgood hvalid
            exfalso
            apply hposts
            unfold posts
            rw [(hgood 1).1, Bool.true_and, bne_iff_ne]
            exact hvalid)
        have hpos := List.length_pos_iff.mpr hok.2
        have hle := hprefix.length_le
        refine Or.inr ⟨4, by omega, _, c', next, ?_, hfreed⟩
        rw [senderTurns_succ, senderTurns_succ]
        exact play_step hstep (play_step hrepost hplay (hfresh 1)) (hfresh 0)
    · -- dwSendedCount has come to dwRecvedCount.
      rw [if_neg hmore] at hstep h₁
      obtain ⟨es, c', next, hplay, hfreed⟩ := Freed.over (c := c) _ 1 h₁ rfl hfresh rfl
        (hsent.symm ▸ hprefix) (by
          intro _ _
          have hdrop := not_not.mp ((not_congr (hlt hok.2)).mp hmore)
          rw [hsent, ← hsplit, hdrop, List.append_nil])
      refine Or.inr ⟨3, by omega, _, c', next, ?_, hfreed⟩
      rw [senderTurns_succ]
      exact play_step hstep hplay (hfresh 0)
  · -- The send failed, or transferred nothing.
    rw [if_neg hok] at hstep
    have h₁ := h.turn (step_turn (hfresh 0) hstep)
    obtain ⟨es, c', next, hplay, hfreed⟩ := Freed.over (c := c) _ 1 h₁ rfl hfresh rfl
      (hsent.symm ▸ hprefix) (by
        intro hgood _
        have hnil : bytes = [] := by
          by_contra hne
          exact hok ⟨(hgood 0).1, hne⟩
        rw [hsent, hempty (hgood 0) hnil, hnil])
    refine Or.inr ⟨3, by omega, _, c', next, ?_, hfreed⟩
    rw [senderTurns_succ]
    exact play_step hstep hplay (hfresh 0)

/-- The completions of a send come to an end: after at most `2n+3` turns of the sender, for `n`
bytes that are left, the BUFFER_OBJ is freed. -/
theorem serves (n : ℕ) (chs : ℕ → Choice) (h : Owned c (.send b :: rest))
    (hn : (c.bobj b).unsent.length = n) (hfresh : ∀ i, (chs i).pBObj ∉ c.objs) :
    ∃ k ≤ 2 * n+3, ∃ es c' next, play machine ⟨c, .send b :: rest⟩ (senderTurns chs k) =
      some (es, ⟨c', next ++ rest⟩) ∧ Freed c b chs (c.bobj b).unsent es := by
  induction n using Nat.strong_induction_on generalizing c chs with
  | _ n ih =>
    rcases send_goes_on chs h hfresh with
      ⟨bytes, c₂, hne, hsplit, hobjs, hsock, h₂, hplays⟩ | hover
    · have hlen : bytes.length+(c₂.bobj b).unsent.length = n := by
        rw [← hn, ← hsplit, List.length_append]
      have hpos := List.length_pos_iff.mpr hne
      obtain ⟨k, hk, es, c', next, hplay, hfreed⟩ := ih _ (by omega) (fun i => chs (i+2)) h₂ rfl
        (by
          intro i
          rw [hobjs]
          exact hfresh (i+2))
      refine ⟨k+2, by omega, .transmit b bytes :: es, c', next, ?_, hfreed.freed, ?_, ?_⟩
      · rw [senderTurns_succ, senderTurns_succ]
        exact hplays _ _ _ hplay
      · rw [← hsplit]
        exact (List.prefix_append_right_inj bytes).mpr hfreed.sent
      · intro hgood hvalid
        rw [← hsplit]
        exact congrArg (bytes ++ ·) (hfreed.all (fun i => hgood (i+2)) (by rwa [hsock]))
    · rw [← hn]
      exact hover

end Serve

/-- What holds of the sends of a RECV_SOCK in a state that a run from `conf₀` with events `evs`
reaches. -/
structure SendDisciplined (conf₀ : Conf ClientConn Task) (evs : List Event)
    (conf : Conf ClientConn Task) : Prop where
  -- The tasks that start, await or retire a send: one, on the back of lstSend, or none when
  -- the list is empty.
  oneSender : conf.tasks.flatMap Task.front = conf.shared.rsock.lstSend.getLast?.toList
  noEmptyPop : NoFault machine conf .popEmpty
  queueOrder : (evs.filterMap Event.enqueued?).map Prod.fst =
    evs.filterMap Event.dequeued? ++ conf.shared.rsock.lstSend.reverse
  -- What was started is what was dequeued and perhaps the front.
  startOrder : evs.filterMap Event.started? <+: (evs.filterMap Event.enqueued?).map Prod.fst
  startedOnce : evs.filterMap Event.started? = evs.filterMap Event.dequeued? ∨
    ∃ b, conf.shared.rsock.lstSend.getLast? = some b ∧
      evs.filterMap Event.started? = evs.filterMap Event.dequeued? ++ [b]
  -- What was allocated is given back once or still owned, and all of it in the end.
  freedOnce : (evs.filterMap Event.freed? ++ conf.shared.objs).Perm
    (conf₀.shared.objs ++ evs.filterMap Event.allocated?)
  noDoubleFree : NoFault machine conf .doubleFree
  queuedOwned : ∀ b ∈ conf.shared.rsock.lstSend, b ∈ conf.shared.objs
  dequeuedFreed : ∀ b obj rest, conf.tasks.Perm (.freeSent b obj :: rest) → ∀ ch, ∃ c' new,
    conf.shared.step (.freeSent b obj) ch = .ok (c', new, [.freeBObj b])
  finallyFreed : conf.tasks = [] → conf.shared.rsock.lstSend = [] ∧ conf.shared.objs = []
  drained : ∀ b rest ch, conf.tasks.Perm (.getNextData b :: rest) → ch.ok = false →
    ch.pBObj ∉ conf.shared.objs → ∃ c' es,
      play machine ⟨conf.shared, .getNextData b :: rest⟩
          (drainTurns ch (conf.shared.rsock.lstSend.length-1)) =
        some (es, ⟨c', .release .nothing :: rest⟩) ∧ c'.rsock.lstSend = [] ∧
      es.filterMap Event.freed? = conf.shared.rsock.lstSend.reverse
  -- A send is over after so many turns of the sender, whatever its completions say.
  served : ∀ b rest chs, conf.tasks.Perm (.send b :: rest) →
    (∀ i, (chs i).pBObj ∉ conf.shared.objs) →
    ∃ k ≤ 2 * (conf.shared.bobj b).unsent.length+3, ∃ es c' next,
      play machine ⟨conf.shared, .send b :: rest⟩ (senderTurns chs k) =
        some (es, ⟨c', next ++ rest⟩) ∧
      Freed conf.shared b chs (conf.shared.bobj b).unsent es

/-- The queue of sends is disciplined along every interleaving of the CheckSend calls and
the completions, from a new connection or with command handlers already under way. -/
theorem send_queue_disciplined (conf₀ conf : Conf ClientConn Task) (evs : List Event)
    (h₀ : Begins conf₀) (h : Run machine conf₀ evs conf) : SendDisciplined conf₀ evs conf := by
  obtain ⟨howned, hobjs, q, ho, hcount, hs⟩ := run_sends h₀ h
  have henqueued : (evs.filterMap Event.enqueued?).map Prod.fst =
      evs.filterMap Event.dequeued? ++ conf.shared.rsock.lstSend.reverse := by
    rw [← hs.enqueued, ho.enqueued, List.map_append, hs.retired, hs.pending]
  have hstarted : evs.filterMap Event.started? =
      evs.filterMap Event.dequeued? ++ q.current.map Prod.fst := by
    rw [← hs.started, ho.started, List.map_append, hs.retired]
  refine ⟨?_, howned.noFault (by simp), henqueued, ?_, ?_, hobjs, howned.noFault (by simp), ?_, ?_,
    ?_, ?_, ?_⟩
  · have hsender := howned.sender
    cases hlast : conf.shared.rsock.lstSend.getLast? with
    | none =>
      rw [hlast] at hsender
      exact List.perm_nil.mp hsender
    | some b =>
      rw [hlast] at hsender
      exact List.perm_singleton.mp hsender
  · rw [← hs.started, ← hs.enqueued]
    exact ho.started_prefix.map Prod.fst
  · rw [hstarted]
    have hfront : q.current = [] ∨ ∃ x, q.current = [x] ∧ q.pending.head? = some x := by
      unfold State.current
      cases q.pending with
      | nil => cases q.phase <;> exact Or.inl rfl
      | cons x tl =>
        cases q.phase with
        | idle | waiting => exact Or.inl rfl
        | active | done => exact Or.inr ⟨x, rfl, rfl⟩
    rcases hfront with hnil | ⟨x, hx, hhead⟩
    · left
      rw [hnil, List.map_nil, List.append_nil]
    · right
      refine ⟨x.1, ?_, by rw [hx]; rfl⟩
      rw [← List.head?_reverse, ← hs.pending, List.head?_map, hhead]
      rfl
  · intro b hb
    exact howned.owners.mem_iff.mp (List.mem_append_right _ hb)
  · intro b obj rest hp ch
    have hpool := howned.perm hp
    have hb := (hpool.ready List.mem_cons_self).objs b (List.mem_append_left _ List.mem_cons_self)
    exact ⟨_, _, step_freeSent obj hb⟩
  · intro hdone
    have hsender := howned.sender
    have howners := howned.owners
    rw [hdone] at hsender howners
    have hnil : conf.shared.rsock.lstSend = [] := by
      cases hlast : conf.shared.rsock.lstSend.getLast? with
      | none => exact List.getLast?_eq_none_iff.mp hlast
      | some b =>
        rw [hlast] at hsender
        exact absurd (List.nil_perm.mp hsender) (List.cons_ne_nil _ _)
    rw [hnil] at howners
    exact ⟨hnil, List.nil_perm.mp howners⟩
  · intro b rest ch hp hfail hfresh
    have hpool := howned.perm hp
    have hlast := (hpool.front_last (b := b) rfl).1
    obtain ⟨front, hlst⟩ := List.getLast?_eq_some_iff.mp hlast
    obtain ⟨c', es, hplay, hnil, hfreed, _⟩ := drains hfail front hpool hfresh hlst
    refine ⟨c', es, ?_, hnil, ?_⟩
    · rw [hlst, List.length_append, List.length_singleton, Nat.add_sub_cancel]
      exact hplay
    · rw [hfreed, hlst, List.reverse_append]
      rfl
  · intro b rest chs hp hfresh
    exact serves _ chs (howned.perm hp) rfl hfresh

/-- An empty command. -/
def ping : List Byte := [0xfb, 0xfc, 0, 0, 0, 0, 0, 0x0d]

/-- The environment once the first `n` BUFFER_OBJs are in use. -/
def past (n : BufferObjPtr) (bytes : List Byte) (count : ℕ) : Choice :=
  { gives bytes with pBObj := n, count }

/-- AcceptEx brings two commands, their handlers answer one after the other, and the first starts
its send. -/
def answered (r₀ r₁ : List Byte) : List (ℕ × Choice) :=
  accepted (ping ++ ping) ++
    [(0, past 1 [] 0), (0, past 1 [] 0), (1, past 1 [] 0), (0, past 2 [] 0), (0, past 2 [] 0),
      (2, past 2 [] 0), (0, past 2 r₀ 0), (1, past 2 [] 0), (0, past 2 r₁ 0), (0, past 2 [] 0)]

theorem two_answers_disciplined : ∃ evs conf, Run machine sample evs conf ∧
    SendDisciplined sample evs conf ∧ conf.tasks = [.send 0, .loop .accept] ∧
    conf.shared.rsock.lstSend = [1, 0] := by
  have hplay : (play machine sample (answered [1, 2, 3] [4])).map
      (fun r => (r.2.tasks, r.2.shared.rsock.lstSend)) =
        some ([.send 0, .loop .accept], [1, 0]) := by decide +kernel
  obtain ⟨evs, conf, hrun, hres⟩ := play_reaches hplay
  rw [Prod.mk.injEq] at hres
  exact ⟨evs, conf, hrun, send_queue_disciplined sample conf evs (Begins.accept _ _ _ _ _ _) hrun,
    hres⟩

end ClientConn

end CustomersCard
