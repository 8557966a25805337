import CustomersCardMS.ConnFaults

namespace CustomersCard
open Interleaving

namespace Event

def closed? : Event → Option SOCKET
  | .closesocket sock => some sock
  | _ => none

def allocated? : Event → Option BufferObjPtr
  | .allocBObj b => some b
  | _ => none

def freed? : Event → Option BufferObjPtr
  | .freeBObj b => some b
  | _ => none

end Event

/-- How far the count is ahead of the owners, where a handler is between the statements that change
the one and the other. -/
def Task.lag : Task → ℤ
  -- allocBObj before AddRef, DecRef before freeBObj.
  | .addRef _ _ | .acceptFreeBObj _ => -1
  | .releaseClose .robj | .releaseFreeRSock .robj | .releaseTail .robj => -1
  | .releaseClose (.bobj _) | .releaseFreeRSock (.bobj _) | .releaseTail (.bobj _) => -1
  | .earlyClose | .earlyFreeRSock => -1
  -- freeBObj or freeRObj before the decrement.
  | .acceptFreeRSock | .recvDecRef | .release .nothing | .nextDecRef _ => 1
  | _ => 0

theorem Task.lag_eq (t : Task) : (t.refs : ℤ) = t.chain + t.held.length + t.lag := by
  cases t with
  | release k | releaseClose k | releaseFreeRSock k | releaseTail k => cases k <;> rfl
  | _ => rfl

namespace ClientConn

theorem lag_total (ts : List Task) : (total Task.refs ts : ℤ) =
    total Task.chain ts + (ts.flatMap Task.held).length + (ts.map Task.lag).sum := by
  induction ts with
  | nil => rfl
  | cons t ts ih =>
    have ht := t.lag_eq
    rw [total_cons, total_cons, List.flatMap_cons, List.length_append, List.map_cons, List.sum_cons]
    push_cast
    omega

/-- Where the RECV_SOCK exists its count is that of its owners. -/
theorem Owned.count {c : ClientConn} {ts : List Task} (h : Owned c ts)
    (hlive : c.rsockLive = true) :
    c.rsock.nRef = (if c.robjLive then 1 else 0) + c.objs.length + (ts.map Task.lag).sum := by
  have hexact := h.exact.exact (by unfold ledger; rw [hlive]; rfl)
  have hchain : ((total Task.chain ts : ℕ) : ℤ) = if c.robjLive then 1 else 0 := by
    rw [h.chain]
    split <;> rfl
  have howners := h.owners.length_eq
  rw [List.length_append] at howners
  calc c.rsock.nRef = (total Task.refs ts : ℤ) + c.rsock.lstSend.length := by
        rw [← Int.natCast_add]
        exact hexact
    _ = total Task.chain ts + ((ts.flatMap Task.held).length + c.rsock.lstSend.length : ℕ) +
        (ts.map Task.lag).sum := by
        rw [lag_total ts, Int.natCast_add]
        omega
    _ = (if c.robjLive then 1 else 0) + c.objs.length + (ts.map Task.lag).sum := by
        rw [hchain, howners]

section Step

variable {c c' : ClientConn} {t : Task} {rest new : List Task} {evs : List Event}

/-- What a step does to the handle, the RECV_SOCK, the RECV_OBJ and the BUFFER_OBJs shows in its
events. -/
structure Accounted (sock : SOCKET) (evs : List Event) (c : ClientConn) : Prop where
  closed : evs.filterMap Event.closed? = if c.rsock.sock = INVALID_SOCKET then [sock] else []
  handle : c.rsock.sock ≠ INVALID_SOCKET → c.rsock.sock = sock
  rsock : evs.count .freeRSock = if c.rsockLive then 0 else 1
  robj : evs.count .freeRObj = if c.robjLive then 0 else 1
  objs : (evs.filterMap Event.freed? ++ c.objs).Perm (evs.filterMap Event.allocated?)

theorem Closes.events (hc : Closes t c c' evs) : evs.count .freeRSock = 0 ∧
    evs.count .freeRObj = 0 ∧ evs.filterMap Event.freed? = [] ∧
    evs.filterMap Event.allocated? = [] := by
  cases hc <;> exact ⟨rfl, rfl, rfl, rfl⟩

/-- A step that closes nothing. -/
theorem Accounted.keeps {sock : SOCKET} {es : List Event} (h : Accounted sock es c)
    (hs : c'.rsock.sock = c.rsock.sock) (hclosed : evs.filterMap Event.closed? = []) :
    (es ++ evs).filterMap Event.closed? = (if c'.rsock.sock = INVALID_SOCKET then [sock] else []) ∧
      (c'.rsock.sock ≠ INVALID_SOCKET → c'.rsock.sock = sock) := by
  rw [List.filterMap_append, hclosed, List.append_nil, hs]
  exact ⟨h.closed, h.handle⟩

theorem Accounted.closes {sock : SOCKET} {es : List Event} (h : Accounted sock es c)
    (hc : Closes t c c' evs) :
    (es ++ evs).filterMap Event.closed? = (if c'.rsock.sock = INVALID_SOCKET then [sock] else []) ∧
      (c'.rsock.sock ≠ INVALID_SOCKET → c'.rsock.sock = sock) := by
  cases hc with
  | keeps hs => exact h.keeps hs rfl
  | closes _ hvalid hinvalid =>
    rw [List.filterMap_append, h.closed, if_neg hvalid, if_pos hinvalid, h.handle hvalid]
    exact ⟨rfl, fun hne => absurd hinvalid hne⟩

theorem Fires.closed {sock : SOCKET} {es : List Event} (h : Accounted sock es c)
    (hf : Fires c t c' new evs) :
    (es ++ evs).filterMap Event.closed? = (if c'.rsock.sock = INVALID_SOCKET then [sock] else []) ∧
      (c'.rsock.sock ≠ INVALID_SOCKET → c'.rsock.sock = sock) := by
  cases hf with
  | pass _ _ hc _ => exact h.closes hc
  | alloc _ _ _ _ _ _ _ _ hs => exact h.keeps hs rfl
  | queue _ _ _ hs => exact h.keeps hs rfl
  | enqueue _ _ _ _ hs => exact h.keeps hs rfl
  | start _ _ _ _ hs => exact h.keeps hs rfl
  | sent _ _ _ _ _ hs => exact h.keeps hs rfl
  | _ => exact h.keeps rfl rfl

theorem Fires.rsockFrees {es : List Event} (h : Owned c (t :: rest))
    (he : es.count .freeRSock = if c.rsockLive then 0 else 1) (hf : Fires c t c' new evs) :
    (es ++ evs).count .freeRSock = if c'.rsockLive then 0 else 1 := by
  have hkeep (hn : evs.count .freeRSock = 0) (hlive : c'.rsockLive = c.rsockLive) :
      (es ++ evs).count .freeRSock = if c'.rsockLive then 0 else 1 := by
    rw [List.count_append, hn, hlive, he, Nat.add_zero]
  have hfree (hlive : c.rsockLive = true) :
      (es ++ [Event.freeRSock]).count Event.freeRSock = 1 := by
    rw [List.count_append, he, hlive]
    rfl
  cases hf with
  | pass _ hl hc _ => exact hkeep hc.events.1 hl.rsockLive
  | alloc _ _ _ _ _ hlive => exact hkeep rfl hlive
  | queue _ _ hl => exact hkeep rfl hl.rsockLive
  | acceptFreeRSock => exact hfree (h.live (by change 0 < 1 + _ + _; omega))
  | earlyFreeRSock => exact hfree (h.live (by change 0 < 0 + 1 + _; omega))
  | releaseFreeRSock k => exact hfree (h.live (by change 0 < 0 + 1 + _; omega))
  | enqueue _ _ _ _ _ hlive => exact hkeep rfl hlive
  | start _ _ _ hl => exact hkeep rfl hl.rsockLive
  | sent _ _ _ _ hl => exact hkeep rfl hl.rsockLive
  | _ => exact hkeep rfl rfl

theorem Fires.robjFrees {es : List Event} (h : Owned c (t :: rest))
    (he : es.count .freeRObj = if c.robjLive then 0 else 1) (hf : Fires c t c' new evs) :
    (es ++ evs).count .freeRObj = if c'.robjLive then 0 else 1 := by
  have hkeep (hn : evs.count .freeRObj = 0) (hlive : c'.robjLive = c.robjLive) :
      (es ++ evs).count .freeRObj = if c'.robjLive then 0 else 1 := by
    rw [List.count_append, hn, hlive, he, Nat.add_zero]
  have hfree (hlive : c.robjLive = true) : (es ++ [Event.freeRObj]).count Event.freeRObj = 1 := by
    rw [List.count_append, he, hlive]
    rfl
  cases hf with
  | pass _ hl hc _ => exact hkeep hc.events.2.1 hl.robjLive
  | alloc _ _ _ _ _ _ hlive => exact hkeep rfl hlive
  | queue _ _ hl => exact hkeep rfl hl.robjLive
  | acceptFreeRObj => exact hfree (h.rest_chain rfl).2
  | releaseFreeRObj => exact hfree (h.rest_chain rfl).2
  | enqueue _ _ _ _ _ _ hlive => exact hkeep rfl hlive
  | start _ _ _ hl => exact hkeep rfl hl.robjLive
  | sent _ _ _ _ hl => exact hkeep rfl hl.robjLive
  | _ => exact hkeep rfl rfl

theorem Fires.objs {es : List Event} {base : List BufferObjPtr}
    (he : (es.filterMap Event.freed? ++ c.objs).Perm (base ++ es.filterMap Event.allocated?))
    (hf : Fires c t c' new evs) : ((es ++ evs).filterMap Event.freed? ++ c'.objs).Perm
      (base ++ (es ++ evs).filterMap Event.allocated?) := by
  have hkeep (hfreed : evs.filterMap Event.freed? = [])
      (halloc : evs.filterMap Event.allocated? = []) (hobjs : c'.objs = c.objs) :
      ((es ++ evs).filterMap Event.freed? ++ c'.objs).Perm
        (base ++ (es ++ evs).filterMap Event.allocated?) := by
    rw [List.filterMap_append, List.filterMap_append, hfreed, halloc, hobjs, List.append_nil,
      List.append_nil]
    exact he
  cases hf with
  | pass _ hl hc _ => exact hkeep hc.events.2.2.1 hc.events.2.2.2 hl.objs
  | alloc _ b _ _ _ _ _ hobjs =>
    rw [List.filterMap_append, List.filterMap_append, hobjs, ← List.append_assoc]
    change ((_ ++ []) ++ (b :: c.objs)).Perm (_ ++ [b])
    rw [List.append_nil]
    exact (List.perm_middle.trans (he.cons b)).trans (List.perm_append_singleton b _).symm
  | queue _ _ hl => exact hkeep rfl rfl hl.objs
  | freeBObj b hb _ =>
    rw [List.filterMap_append, List.filterMap_append]
    change ((_ ++ [b]) ++ c.objs.erase b).Perm (base ++ (_ ++ []))
    rw [List.append_nil, List.append_assoc]
    exact ((List.perm_cons_erase hb).symm.append_left _).trans he
  | enqueue _ _ _ _ _ _ _ hobjs => exact hkeep rfl rfl hobjs
  | start _ _ _ hl => exact hkeep rfl rfl hl.objs
  | sent _ _ _ _ hl => exact hkeep rfl rfl hl.objs
  | _ => exact hkeep rfl rfl rfl

theorem Accounted.fires {sock : SOCKET} {es : List Event} (ha : Accounted sock es c)
    (h : Owned c (t :: rest)) (hf : Fires c t c' new evs) : Accounted sock (es ++ evs) c' where
  closed := (hf.closed ha).1
  handle := (hf.closed ha).2
  rsock := hf.rsockFrees h ha.rsock
  robj := hf.robjFrees h ha.robj
  objs := by
    have hobjs : (es.filterMap Event.freed? ++ c.objs).Perm
        ([] ++ es.filterMap Event.allocated?) := ha.objs
    exact hf.objs hobjs

/-- Whoever closes the handle or frees the RECV_SOCK does it for the last reference, but for the
decoder that rejects a frame. -/
theorem Fires.closer (h : Owned c (t :: rest)) (hf : Fires c t c' new evs)
    (hev : .freeRSock ∈ evs ∨ ∃ sock, .closesocket sock ∈ evs) :
    (∃ o, t = .loop o ∧ .freeRSock ∉ evs) ∨
      (total Task.refs rest = 0 ∧ c.rsock.lstSend = []) := by
  have hlast (hl : 0 < t.last) : total Task.refs rest = 0 ∧ c.rsock.lstSend = [] := by
    have halone := h.exact.last_alone (by rw [ledger_cons]; exact Nat.add_pos_left hl _)
    have hzero := halone.1
    rw [ledger_cons] at hzero
    dsimp only at hzero
    exact ⟨by omega, List.length_eq_zero_iff.mp (by omega)⟩
  have haccept (ha : t.accepting ≠ 0) : total Task.refs rest = 0 ∧ c.rsock.lstSend = [] := by
    rcases h.alone t List.mem_cons_self ha with ⟨hone, hlst, _⟩
    rw [List.cons.injEq] at hone
    rw [hone.2]
    exact ⟨rfl, hlst⟩
  cases hf with
  | pass _ _ hc _ =>
    cases hc with
    | keeps => simp at hev
    | closes hcl =>
      cases t with
      | loop o => exact Or.inl ⟨o, rfl, by simp⟩
      | acceptClose => exact Or.inr (haccept (by decide))
      | earlyClose => exact Or.inr (hlast (by decide))
      | releaseClose k => exact Or.inr (hlast Nat.one_pos)
      | _ => exact False.elim hcl
  | acceptFreeRSock => exact Or.inr (haccept (by decide))
  | earlyFreeRSock => exact Or.inr (hlast (by decide))
  | releaseFreeRSock k => exact Or.inr (hlast Nat.one_pos)
  | _ => simp at hev

/-- Every BUFFER_OBJ of the connection relates to its RECV_SOCK. -/
def Related (c : ClientConn) : Prop := ∀ b ∈ c.objs, (c.bobj b).pRelateSock = some c.pRSock

theorem Related.frame (h : Related c) (hf : Frame c t c' new) : Related c' := by
  intro b hb
  rw [hf.pRSock]
  rcases hf.relates b hb with hnew | ⟨hmem, hsame⟩
  · exact hnew
  · rw [hsame]
    exact h b hmem

end Step

theorem run_accounted {g_dwPagesize : DWORD} {pRSock : SockPtr} {rsock : RecvSock} {sock : SOCKET}
    {robj : RecvObj} {mem : BufferObjPtr → BufferObj} (hsock : sock ≠ INVALID_SOCKET)
    {conf : Conf ClientConn Task} {evs : List Event}
    (h : Run machine (start g_dwPagesize pRSock rsock sock robj mem) evs conf) :
    Owned conf.shared conf.tasks ∧ Accounted sock evs conf.shared ∧ Related conf.shared := by
  apply h.invariant (fun evs conf => Owned conf.shared conf.tasks ∧
    Accounted sock evs conf.shared ∧ Related conf.shared)
  · refine ⟨start_owned _ _ _ _ _ _, ⟨?_, fun _ => rfl, rfl, rfl, List.Perm.refl _⟩, ?_⟩
    · change [] = if sock = INVALID_SOCKET then [sock] else []
      rw [if_neg hsock]
    · intro b hb
      contradiction
  · intro evs conf es conf' hinv hstep
    rcases hinv with ⟨howned, hacc, hrel⟩
    cases hstep with
    | turn hp hfresh hs =>
      have hturn := step_turn hfresh hs
      exact ⟨(howned.perm hp).turn hturn, hacc.fires (howned.perm hp) hturn.fires,
        hrel.frame hturn.frame⟩

/-- What the count promises in a state that a run with events `evs` reaches. -/
structure RefcountSafe (evs : List Event) (conf : Conf ClientConn Task) : Prop where
  exact : conf.shared.rsockLive = true → conf.shared.rsock.nRef =
    (if conf.shared.robjLive then 1 else 0) + conf.shared.objs.length +
      (conf.tasks.map Task.lag).sum
  related : ∀ b ∈ conf.shared.objs, (conf.shared.bobj b).pRelateSock = some conf.shared.pRSock
  closedOnce : (evs.filterMap Event.closed?).length ≤ 1
  freedOnce : evs.count .freeRSock ≤ 1
  -- Nobody else holds a reference when the handle is closed or the RECV_SOCK freed, unless
  -- it is GetCmdDataLength that closes the handle on a frame that it rejects.
  lastCloses : ∀ t rest ch c' new es, conf.tasks.Perm (t :: rest) → machine.allowed conf.shared ch →
    conf.shared.step t ch = .ok (c', new, es) → .freeRSock ∈ es ∨ (∃ sock, .closesocket sock ∈ es) →
      (∃ o, t = .loop o ∧ .freeRSock ∉ es) ∨
        (total Task.refs rest = 0 ∧ conf.shared.rsock.lstSend = [])
  noUse : NoFault machine conf .useAfterFree
  noDoubleFree : NoFault machine conf .doubleFree
  unchecked : ∀ b, .acceptDecRef b ∈ conf.tasks ∨ .nextDecRef b ∈ conf.tasks →
    0 < conf.shared.rsock.nRef - 1
  noEarlyReturn : .earlyClose ∉ conf.tasks ∧ .earlyFreeRSock ∉ conf.tasks

/-- The count is exact and safe along every interleaving of the completions of a client
connection and every pattern of failures. -/
theorem refcount_exact_and_safe (g_dwPagesize : DWORD) (pRSock : SockPtr) (rsock : RecvSock)
    (sock : SOCKET) (robj : RecvObj) (mem : BufferObjPtr → BufferObj)
    (hsock : sock ≠ INVALID_SOCKET) (evs : List Event) (conf : Conf ClientConn Task)
    (h : Run machine (start g_dwPagesize pRSock rsock sock robj mem) evs conf) :
    RefcountSafe evs conf := by
  obtain ⟨howned, hacc, hrel⟩ := run_accounted hsock h
  refine ⟨howned.count, hrel, ?_, ?_, ?_, howned.noFault (by simp), howned.noFault (by simp), ?_,
    ?_⟩
  · rw [hacc.closed]
    split <;> simp
  · rw [hacc.rsock]
    split <;> simp
  · intro t rest ch c' new es hp hfresh hs hev
    exact (step_turn hfresh hs).fires.closer (howned.perm hp) hev
  · intro b hb
    rcases hb with hb | hb
    · exact (howned.perm (List.perm_cons_erase hb)).shared (Nat.le_add_right 2 _)
    · have hcons := howned.perm (List.perm_cons_erase hb)
      have hmem := List.length_pos_of_mem (hcons.front_mem (b := b) rfl)
      apply hcons.shared
      change 2 ≤ 1 + _
      omega
  · constructor
    · intro hmem
      exact howned.early _ hmem (Or.inl rfl)
    · intro hmem
      exact howned.early _ hmem (Or.inr rfl)

/-- A connection on a new RECV_SOCK with the handle 7 and pages of 4096 bytes. -/
def sample : Conf ClientConn Task :=
  start 4096 1 RecvSock.zeroed 7 ⟨Overlapped.zero, none, none, none⟩ (fun _ => BufferObj.zeroed)

/-- The environment lets the step succeed, and hands it `bytes`. -/
def gives (bytes : List Byte) : Choice := ⟨true, bytes, 0, 0, BufferObj.zeroed⟩

/-- AcceptEx and CreateIoCompletionPort succeed, and the loop runs its first step. -/
def accepted (bytes : List Byte) : List (ℕ × Choice) :=
  [(0, gives bytes), (0, gives []), (0, gives [])]

theorem refcount_first_command : ∃ evs conf, Run machine sample evs conf ∧
    RefcountSafe evs conf ∧ conf.tasks = [.addRef .accept 0] := by
  have hplay : (play machine sample (accepted [0xfb, 0xfc, 0, 0, 0, 0, 0, 0x0d])).map
      (fun r => r.2.tasks) = some [.addRef .accept 0] := rfl
  obtain ⟨evs, conf, hrun, htasks⟩ := play_reaches hplay
  exact ⟨evs, conf, hrun, refcount_exact_and_safe _ _ _ _ _ _ (by decide) evs conf hrun, htasks⟩

/-- GetCmdDataLength closes the handle while the receive chain owns the RECV_SOCK, and between
allocBObj and AddRef the count is one behind. -/
theorem closed_while_owned :
    (∃ evs conf, Run machine sample evs conf ∧ .closesocket 7 ∈ evs ∧
      conf.shared.rsockLive = true ∧ conf.shared.robjLive = true ∧ conf.shared.rsock.nRef = 1) ∧
    (∃ evs conf, Run machine sample evs conf ∧ conf.shared.rsockLive = true ∧
      conf.shared.rsock.nRef ≠
        (if conf.shared.robjLive then 1 else 0) + conf.shared.objs.length) := by
  constructor
  · have hplay : (play machine sample (accepted [1, 2, 3, 4, 5, 6])).map
        (fun r => (r.1, r.2.shared.rsockLive, r.2.shared.robjLive, r.2.shared.rsock.nRef)) =
          some ([.closesocket 7], true, true, 1) := rfl
    obtain ⟨evs, conf, hrun, hres⟩ := play_reaches hplay
    rw [Prod.mk.injEq, Prod.mk.injEq, Prod.mk.injEq] at hres
    rcases hres with ⟨hevs, hlive, hrobj, hn⟩
    dsimp only at hevs
    exact ⟨evs, conf, hrun, by rw [hevs]; exact List.mem_singleton_self _, hlive, hrobj, hn⟩
  · have hplay : (play machine sample (accepted [0xfb, 0xfc, 0, 0, 0, 0, 0, 0x0d])).map
        (fun r => (r.2.shared.rsockLive, r.2.shared.robjLive, r.2.shared.rsock.nRef,
          r.2.shared.objs)) = some (true, true, 1, [0]) := rfl
    obtain ⟨evs, conf, hrun, hres⟩ := play_reaches hplay
    rw [Prod.mk.injEq, Prod.mk.injEq, Prod.mk.injEq] at hres
    rcases hres with ⟨hlive, hrobj, hn, hobjs⟩
    refine ⟨evs, conf, hrun, hlive, ?_⟩
    change conf.shared.rsock.nRef = 1 at hn
    change conf.shared.objs = [0] at hobjs
    change conf.shared.robjLive = true at hrobj
    rw [hn, hobjs, hrobj]
    decide

end ClientConn

end CustomersCard
