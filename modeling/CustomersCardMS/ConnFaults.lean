import CustomersCardMS.ConnInvariant

namespace CustomersCard
open Interleaving

namespace ClientConn

/-- What a task relies on. -/
structure Ready (c : ClientConn) (t : Task) : Prop where
  rsock : 0 < t.refs + t.last + (t.waiting ++ t.active).length → c.rsockLive = true
  robj : t.chain = 1 → c.robjLive = true
  objs : ∀ b ∈ t.uses, b ∈ c.objs
  handled : t.handled c
  queue : t.active ≠ [] → c.rsock.lstSend ≠ []
  counts : ∀ b ∈ t.active, (c.bobj b).dwSendedCount ≤ (c.bobj b).dwRecvedCount

/-- A send that is outstanding offers what is left of its BUFFER_OBJ. -/
theorem Ready.offered {c : ClientConn} {b : BufferObjPtr} (h : Ready c (.send b)) :
    (c.bobj b).offered = (c.bobj b).unsent :=
  h.handled.2.offered (h.counts b (List.mem_singleton_self b))

/-- The only fault there may be is an access outside the ring or outside `data`. -/
def RingOnly (o : Outcome) : Prop := ∀ f, o = .error f → f = .outOfBounds

theorem RingOnly.ok {r : ClientConn × List Task × List Event} : RingOnly (.ok r) := by
  intro f h
  contradiction

theorem RingOnly.outOfBounds : RingOnly (.error .outOfBounds) := by
  intro f h
  exact (Except.error.inj h).symm

theorem RingOnly.guarded {p : Prop} [Decidable p] {f : Fault} {k : Outcome} (hp : p)
    (hk : RingOnly k) : RingOnly (guarded p f k) := by
  unfold ClientConn.guarded
  rwa [if_pos hp]

theorem RingOnly.ite {p : Prop} [Decidable p] {k l : Outcome} (hk : RingOnly k) (hl : RingOnly l) :
    RingOnly (if p then k else l) := by
  split
  · exact hk
  · exact hl

theorem cmCloseSocket_ringOnly (c : ClientConn) (next : List Task) :
    RingOnly (c.cmCloseSocket next) := RingOnly.ite RingOnly.ok RingOnly.ok

theorem loopStep_ringOnly (c : ClientConn) (o : Origin) (ch : Choice) :
    RingOnly (c.loopStep o ch) := by
  unfold loopStep
  split
  · exact RingOnly.outOfBounds
  apply RingOnly.ite RingOnly.ok
  unfold takeCommand
  split
  · exact RingOnly.outOfBounds
  split
  · exact RingOnly.outOfBounds
  · exact RingOnly.ok

/-- A task that has what it relies on can fault on the ring and on `data` only. -/
theorem step_ringOnly {c : ClientConn} {t : Task} (h : Ready c t) (ch : Choice) :
    RingOnly (c.step t ch) := by
  have hrsock := h.rsock
  have hobjs := h.objs
  have hpost (d : ClientConn) (b : BufferObjPtr) (evs : List Event) (hd : d.rsockLive = true)
      (hb : b ∈ d.objs) : RingOnly (d.postSend b ch evs) :=
    RingOnly.guarded hd (RingOnly.guarded hb RingOnly.ok)
  cases t with
  | accept =>
    exact RingOnly.guarded h.handled (RingOnly.guarded (h.robj rfl) (RingOnly.guarded
      (hrsock (by decide)) (RingOnly.ite RingOnly.ok RingOnly.ok)))
  | createPort n =>
    exact RingOnly.guarded (hrsock (by decide : 0 < 1)) (RingOnly.ite RingOnly.ok RingOnly.ok)
  | acceptClose => exact RingOnly.guarded (hrsock (by decide)) (cmCloseSocket_ringOnly _ _)
  | acceptFreeRObj => exact RingOnly.guarded (h.robj rfl) RingOnly.ok
  | acceptFreeRSock => exact RingOnly.guarded (hrsock (by decide)) RingOnly.ok
  | loop o => exact RingOnly.guarded (hrsock (by decide : 0 < 1)) (loopStep_ringOnly c o ch)
  | addRef o b => exact RingOnly.guarded (hrsock (by decide : 0 < 1)) RingOnly.ok
  | postCmd o b =>
    apply RingOnly.guarded (hobjs b (List.mem_singleton_self b))
    apply RingOnly.ite RingOnly.ok
    cases o with
    | accept => exact RingOnly.ok
    | recv => exact RingOnly.ok
  | acceptDecRef b => exact RingOnly.guarded (hrsock (by decide : 0 < 2)) RingOnly.ok
  | acceptFreeBObj b => exact RingOnly.guarded (hobjs b (List.mem_singleton_self b)) RingOnly.ok
  | recvFreeBObj b => exact RingOnly.guarded (hobjs b (List.mem_singleton_self b)) RingOnly.ok
  | recvDecRef => exact RingOnly.guarded (hrsock (by decide)) RingOnly.ok
  | earlyClose => exact RingOnly.guarded (hrsock (by decide)) (cmCloseSocket_ringOnly _ _)
  | earlyFreeRSock => exact RingOnly.guarded (hrsock (by decide)) RingOnly.ok
  | postZeroRecv =>
    exact RingOnly.guarded (h.robj rfl) (RingOnly.guarded (hrsock (by decide)) RingOnly.ok)
  | zeroRecv => exact RingOnly.guarded h.handled (RingOnly.guarded (h.robj rfl) RingOnly.ok)
  | postRecv =>
    exact RingOnly.guarded (h.robj rfl) (RingOnly.guarded (hrsock (by decide)) RingOnly.ok)
  | recv =>
    exact RingOnly.guarded h.handled (RingOnly.guarded (h.robj rfl) (RingOnly.guarded
      (hrsock (by decide)) (RingOnly.ite RingOnly.ok RingOnly.ok)))
  | release k => exact RingOnly.guarded (hrsock (Nat.le_add_right 1 _)) RingOnly.ok
  | releaseClose k =>
    exact RingOnly.guarded (hrsock (by decide : 0 < 1)) (cmCloseSocket_ringOnly _ _)
  | releaseFreeRSock k => exact RingOnly.guarded (hrsock (by decide : 0 < 1)) RingOnly.ok
  | releaseTail k =>
    cases k with
    | robj => exact RingOnly.guarded (h.robj rfl) RingOnly.ok
    | bobj b => exact RingOnly.guarded (hobjs b (List.mem_singleton_self b)) RingOnly.ok
    | nothing => exact RingOnly.ok
  | cmd b =>
    exact RingOnly.guarded h.handled
      (RingOnly.guarded (hobjs b (List.mem_singleton_self b)) RingOnly.ok)
  | command b =>
    exact RingOnly.guarded (hobjs b (List.mem_singleton_self b))
      (RingOnly.ite (RingOnly.guarded (hrsock (by decide : 0 < 1)) RingOnly.ok) RingOnly.ok)
  | startSend b =>
    exact hpost c b _ (hrsock (by decide : 0 < 1)) (hobjs b (List.mem_singleton_self b))
  | send b =>
    exact RingOnly.guarded h.handled.1 (RingOnly.guarded (hobjs b (List.mem_singleton_self b))
      (RingOnly.ite RingOnly.ok RingOnly.ok))
  | repostSend b =>
    exact hpost c b _ (hrsock (by decide : 0 < 1)) (hobjs b (List.mem_singleton_self b))
  -- Its caller is the sender of the front, so the list is not empty.
  | getNextData b =>
    apply RingOnly.guarded (hrsock (by decide : 0 < 1))
    have hne := h.queue (List.cons_ne_nil b [])
    unfold RecvSock.getNextData
    rw [if_neg (by rwa [List.isEmpty_iff])]
    exact RingOnly.ok
  | freeSent b obj =>
    cases obj with
    | none => exact RingOnly.guarded (hobjs b (List.mem_singleton_self b)) RingOnly.ok
    | some obj =>
      exact RingOnly.guarded (hobjs b (List.mem_cons_self)) RingOnly.ok
  | nextDecRef b => exact RingOnly.guarded (hrsock (by decide : 0 < 2)) RingOnly.ok
  | nextSend b =>
    have hb := hobjs b (List.mem_singleton_self b)
    exact RingOnly.guarded hb (hpost _ b _ (hrsock (by decide : 0 < 1)) hb)

theorem Owned.ready {c : ClientConn} {ts : List Task} (h : Owned c ts) {t : Task} (ht : t ∈ ts) :
    Ready c t := by
  have hcons := h.perm (List.perm_cons_erase ht)
  have hfront (hne : t.front ≠ []) : c.rsock.lstSend ≠ [] := by
    intro hnil
    have hsender := hcons.sender
    rw [hnil, List.flatMap_cons] at hsender
    exact hne (List.append_eq_nil_iff.mp (List.perm_nil.mp hsender)).1
  have hqueued (b : BufferObjPtr) (hb : b ∈ t.front) : b ∈ c.rsock.lstSend := by
    apply List.mem_of_getLast?
    exact Option.mem_toList.mp (h.sender.mem_iff.mp (List.mem_flatMap.mpr ⟨t, ht, hb⟩))
  refine ⟨?_, ?_, ?_, h.handled t ht, ?_, ?_⟩
  · intro hpos
    apply hcons.live
    rcases eq_or_ne t.front [] with hnil | hne
    · change 0 < t.refs + t.last + t.front.length at hpos
      rw [hnil] at hpos
      exact Nat.add_pos_left hpos _
    · have hlen := List.length_pos_iff.mpr (hfront hne)
      omega
  · intro hchain
    exact (hcons.rest_chain hchain).2
  · intro b hb
    apply h.owners.mem_iff.mp
    rcases List.mem_append.mp hb with hheld | hbfront
    · exact List.mem_append_left _ (List.mem_flatMap.mpr ⟨t, ht, hheld⟩)
    · exact List.mem_append_right _ (hqueued b hbfront)
  · intro hactive
    apply hfront
    intro hnil
    exact hactive (List.append_eq_nil_iff.mp hnil).2
  · intro b hb
    exact h.counts b (hqueued b (List.mem_append_right _ hb))

/-- No interleaving of the handlers faults on anything but the ring and `data`. -/
theorem Owned.noFault {conf : Conf ClientConn Task} (h : Owned conf.shared conf.tasks) {f : Fault}
    (hf : f ≠ .outOfBounds) : NoFault machine conf f := by
  intro t ht ch _ herr
  exact hf (step_ringOnly (h.ready ht) ch f herr)

end ClientConn

end CustomersCard
