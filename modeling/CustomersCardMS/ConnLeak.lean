import CustomersCardMS.NcLifetime
import CustomersCardMS.RefcountSafety

namespace CustomersCard
open Interleaving

namespace Task

/-- The tasks behind CMCloseSocket, up to freeRSock. -/
def shut : Task → Prop
  | .acceptFreeRObj | .acceptFreeRSock | .earlyFreeRSock | .releaseFreeRSock _ => True
  | _ => False

/-- CMCloseSocket itself. -/
def closes : Task → Prop
  | .acceptClose | .earlyClose | .releaseClose _ => True
  | _ => False

def commands : Task → ℕ
  | .command _ => 1
  | _ => 0

end Task

namespace ClientConn

/-- Client_CmdCompletionSuccess returns at once, and a command that it got is kept for good. -/
def asTheyStand : Monitor Bool ClientConn Task Choice where
  next kept _ t ch :=
    match t with
    | .cmd _ => kept || ch.ok
    | _ => kept
  permits _ _ t _ := t.commands == 0

/-- No operation is outstanding, no completion queued and no handler running. -/
def Quiescent (ts : List Task) : Prop := ∀ t ∈ ts, ∃ b, t = .command b

structure Released (sock : SOCKET) (evs : List Event) : Prop where
  closed : .closesocket sock ∈ evs
  rsock : .freeRSock ∈ evs
  robj : .freeRObj ∈ evs
  bobjs : (evs.filterMap Event.freed?).Perm (evs.filterMap Event.allocated?)

section Step

variable {c c' : ClientConn} {t : Task} {rest new : List Task} {evs : List Event} {ch : Choice}

theorem cmCloseSocket_invalid {next : List Task} (h : c.cmCloseSocket next = .ok (c', new, evs)) :
    c'.rsock.sock = INVALID_SOCKET := by
  unfold cmCloseSocket at h
  split at h
  · rw [ok_inj] at h
    rw [← h.1]
    rfl
  · case isFalse hinvalid =>
    rw [ok_inj] at h
    rw [← h.1]
    exact not_not.mp hinvalid

theorem closes_invalid (ht : t.closes) (h : c.step t ch = .ok (c', new, evs)) :
    c'.rsock.sock = INVALID_SOCKET := by
  cases t with
  | acceptClose | earlyClose | releaseClose =>
    simp only [step, withRSock, guarded_ok] at h
    exact cmCloseSocket_invalid h.2
  | _ => contradiction

/-- Only CMCloseSocket leads to the tasks behind it. -/
theorem Fires.shut (hf : Fires c t c' new evs) (h : ∃ u ∈ new, u.shut) : t.closes ∨ t.shut := by
  obtain ⟨u, hu, hshut⟩ := h
  have hone {t' : Task} (hu : u ∈ [t']) (hn : ¬ t'.shut) : t.closes ∨ t.shut := by
    rw [List.mem_singleton.mp hu] at hshut
    contradiction
  cases hf with
  | pass hpass =>
    cases hpass with
    | closed | earlyClosed | releaseClosed => exact Or.inl trivial
    | _ => exact hone hu not_false
  | acceptFreeRObj => exact Or.inr trivial
  | releaseFreeRSock => exact Or.inr trivial
  | queue =>
    rcases List.mem_cons.mp hu with rfl | hu
    · contradiction
    · exact hone hu not_false
  | freeBObj b _ hfree =>
    cases hfree with
    | cmd => contradiction
    | _ => exact hone hu not_false
  | acceptFreeRSock | earlyFreeRSock | releaseFreeRObj | releaseNothing => contradiction
  | enqueue =>
    split at hu
    · exact hone hu not_false
    · contradiction
  | start b _ ht' =>
    rcases ht' with rfl | rfl
    · exact hone hu not_false
    · exact hone hu not_false
  | sent =>
    split at hu
    · exact hone hu not_false
    · exact hone hu not_false
  | _ => exact hone hu not_false

theorem Fires.freed (hf : Fires c t c' new evs) (hlive : c'.rsockLive = false) :
    c.rsockLive = false ∨ t.shut := by
  cases hf with
  | pass _ hl | queue _ _ hl | start _ _ _ hl | sent _ _ _ _ hl =>
    exact Or.inl (hl.rsockLive.symm.trans hlive)
  | alloc _ _ _ _ _ hl => exact Or.inl (hl.symm.trans hlive)
  | enqueue _ _ _ _ _ hl => exact Or.inl (hl.symm.trans hlive)
  | acceptFreeRSock | earlyFreeRSock | releaseFreeRSock => exact Or.inr trivial
  | _ => exact Or.inl hlive

theorem Fires.no_command (hf : Fires c t c' new evs) (hcmd : ∀ b, t ≠ .cmd b)
    (ht : t.commands = 0) : total Task.commands new = 0 := by
  cases hf with
  | pass hpass =>
    cases hpass with
    | cmdRuns b => exact absurd rfl (hcmd b)
    | kept => contradiction
    | _ => rfl
  | freeBObj b _ hfree => cases hfree <;> rfl
  | enqueue => contradiction
  | start b _ ht' => rcases ht' with rfl | rfl <;> rfl
  | sent => split <;> rfl
  | _ => rfl

/-- A command is kept from its completion on. -/
theorem step_commands (hstep : c.step t ch = .ok (c', new, evs)) (hfresh : ch.pBObj ∉ c.objs)
    (ht : t.commands = 0) (kept : Bool) :
    asTheyStand.next kept c t ch = (kept || (total Task.commands new != 0)) := by
  have hnone (hcmd : ∀ b, t ≠ .cmd b) : kept = (kept || (total Task.commands new != 0)) := by
    rw [(step_turn hfresh hstep).fires.no_command hcmd ht, bne_self_eq_false, Bool.or_false]
  cases t with
  | cmd b =>
    simp only [step, dispatchBObj, withBObj, guarded_ok, ok_inj] at hstep
    rcases hstep with ⟨_, _, _, rfl, _⟩
    change (kept || ch.ok) = _
    cases ch.ok with
    | true => rfl
    | false => rfl
  | _ =>
    apply hnone
    intro b
    simp

end Step

/-- What a run of the handlers as they stand keeps. -/
structure Traced (sock : SOCKET) (evs : List Event) (c : ClientConn) (kept : Bool)
    (ts : List Task) : Prop where
  owned : Owned c ts
  accounted : Accounted sock evs c
  kept : kept = (total Task.commands ts != 0)
  shut : (c.rsockLive = false ∨ ∃ t ∈ ts, t.shut) → c.rsock.sock = INVALID_SOCKET

theorem Traced.perm {sock : SOCKET} {evs : List Event} {c : ClientConn} {kept : Bool}
    {ts us : List Task} (h : Traced sock evs c kept ts) (hp : ts.Perm us) :
    Traced sock evs c kept us where
  owned := h.owned.perm hp
  accounted := h.accounted
  kept := by
    rw [← total_perm _ hp]
    exact h.kept
  shut := by
    intro hshut
    apply h.shut
    rcases hshut with hlive | ⟨t, ht, hs⟩
    · exact Or.inl hlive
    · exact Or.inr ⟨t, hp.mem_iff.mpr ht, hs⟩

/-- A handle that is closed stays closed. -/
theorem Accounted.invalid {sock : SOCKET} {es evs : List Event} {c c' : ClientConn}
    (h : Accounted sock es c) (h' : Accounted sock (es ++ evs) c')
    (hsock : c.rsock.sock = INVALID_SOCKET) : c'.rsock.sock = INVALID_SOCKET := by
  by_contra hvalid
  have hclosed := h'.closed
  rw [List.filterMap_append, h.closed, if_pos hsock, if_neg hvalid] at hclosed
  contradiction

theorem Traced.step {sock : SOCKET} {es evs : List Event} {c c' : ClientConn} {kept : Bool}
    {t : Task} {ch : Choice} {rest new : List Task} (h : Traced sock es c kept (t :: rest))
    (hfresh : ch.pBObj ∉ c.objs) (ht : t.commands = 0)
    (hstep : c.step t ch = .ok (c', new, evs)) :
    Traced sock (es ++ evs) c' (asTheyStand.next kept c t ch) (new ++ rest) := by
  have hturn := step_turn hfresh hstep
  have hacc := h.accounted.fires h.owned hturn.fires
  refine ⟨h.owned.turn hturn, hacc, ?_, ?_⟩
  · rw [step_commands hstep hfresh ht, h.kept, total_cons, total_append, ht, Nat.zero_add]
    cases total Task.commands rest with
    | zero => rw [Nat.add_zero, bne_self_eq_false, Bool.false_or]
    | succ n => rfl
  · intro hshut
    have hbefore (hs : c.rsockLive = false ∨ ∃ u ∈ t :: rest, u.shut) :
        c'.rsock.sock = INVALID_SOCKET := h.accounted.invalid hacc (h.shut hs)
    rcases hshut with hlive | ⟨u, hu, hs⟩
    · rcases hturn.fires.freed hlive with hlive | hs
      · exact hbefore (Or.inl hlive)
      · exact hbefore (Or.inr ⟨t, List.mem_cons_self, hs⟩)
    · rcases List.mem_append.mp hu with hu | hu
      · rcases hturn.fires.shut ⟨u, hu, hs⟩ with hcloses | hs
        · exact closes_invalid hcloses hstep
        · exact hbefore (Or.inr ⟨t, List.mem_cons_self, hs⟩)
      · exact hbefore (Or.inr ⟨u, List.mem_cons_of_mem t hu, hs⟩)

/-- Where no task is left nothing is. -/
theorem Owned.gone {c : ClientConn} (h : Owned c []) :
    c.rsockLive = false ∧ c.robjLive = false ∧ c.objs = [] := by
  have hlst : c.rsock.lstSend = [] := by
    have hlast := List.nil_perm.mp h.sender
    cases hget : c.rsock.lstSend.getLast? with
    | none => exact List.getLast?_eq_none_iff.mp hget
    | some b =>
      rw [hget] at hlast
      contradiction
  have hunheld := h.exact.unheld
  have howners := h.owners
  have hchain := h.chain
  unfold ledger at hunheld
  rw [hlst] at hunheld howners
  refine ⟨?_, ?_, List.nil_perm.mp howners⟩
  · by_contra hlive
    rw [if_pos (Bool.of_not_eq_false hlive)] at hunheld
    exact absurd (hunheld rfl) Nat.zero_ne_one
  · by_contra hlive
    rw [if_pos (Bool.of_not_eq_false hlive)] at hchain
    exact absurd hchain Nat.zero_ne_one

theorem mem_of_count_one {evs : List Event} {e : Event} (h : evs.count e = 1) : e ∈ evs := by
  apply List.count_pos_iff.mp
  rw [h]
  exact Nat.one_pos

/-- A connection at rest has given everything back unless it keeps a command. -/
theorem Traced.released_iff {sock : SOCKET} {evs : List Event} {c : ClientConn} {kept : Bool}
    {ts : List Task} (h : Traced sock evs c kept ts) (hq : Quiescent ts) :
    Released sock evs ↔ kept = false := by
  constructor
  · intro hreleased
    by_contra hkept
    have hcommands := h.kept
    rw [Bool.of_not_eq_false hkept] at hcommands
    cases ts with
    | nil => contradiction
    | cons t rest =>
      obtain ⟨b, rfl⟩ := hq t List.mem_cons_self
      have hlive : c.rsockLive = true := by
        apply h.owned.live
        change 0 < 1 + 0 + _
        omega
      have hcount := h.accounted.rsock
      rw [if_pos hlive] at hcount
      exact List.count_eq_zero.mp hcount hreleased.rsock
  · intro hkept
    have hcommands := h.kept
    rw [hkept] at hcommands
    cases ts with
    | cons t rest =>
      obtain ⟨b, rfl⟩ := hq t List.mem_cons_self
      rw [total_cons, show (Task.command b).commands = 1 from rfl, Nat.add_comm] at hcommands
      contradiction
    -- No task is left, and with them went every reference and every object.
    | nil =>
      obtain ⟨hrsock, hrobj, hobjs⟩ := h.owned.gone
      have hacc := h.accounted
      have hclosed := hacc.closed
      have hrsockFrees := hacc.rsock
      have hrobjFrees := hacc.robj
      have hfrees := hacc.objs
      rw [if_pos (h.shut (Or.inl hrsock))] at hclosed
      rw [if_neg (Bool.not_eq_true _ ▸ hrsock)] at hrsockFrees
      rw [if_neg (Bool.not_eq_true _ ▸ hrobj)] at hrobjFrees
      rw [hobjs, List.append_nil] at hfrees
      refine ⟨?_, mem_of_count_one hrsockFrees, mem_of_count_one hrobjFrees, hfrees⟩
      have hmem : sock ∈ evs.filterMap Event.closed? := by
        rw [hclosed]
        exact List.mem_singleton_self sock
      obtain ⟨e, he, hsome⟩ := List.mem_filterMap.mp hmem
      cases e with
      | closesocket s =>
        rw [← Option.some.inj hsome]
        exact he
      | _ => contradiction

theorem run_traced {g_dwPagesize : DWORD} {pRSock : SockPtr} {rsock : RecvSock} {sock : SOCKET}
    {robj : RecvObj} {mem : BufferObjPtr → BufferObj} (hsock : sock ≠ INVALID_SOCKET)
    {conf : Conf (ClientConn × Bool) Task} {evs : List Event}
    (h : Run (machine.watched asTheyStand)
      ((start g_dwPagesize pRSock rsock sock robj mem).watch false) evs conf) :
    Traced sock evs conf.shared.1 conf.shared.2 conf.tasks := by
  apply h.invariant (fun evs conf => Traced sock evs conf.shared.1 conf.shared.2 conf.tasks)
  · obtain ⟨howned, hacc, _⟩ := run_accounted hsock Run.nil
    refine ⟨howned, hacc, rfl, ?_⟩
    intro hshut
    rcases hshut with hlive | ⟨t, ht, hs⟩
    · contradiction
    · rw [List.mem_singleton.mp ht] at hs
      contradiction
  · intro evs conf es conf' hinv hstep
    cases hstep with
    | turn hp hfresh hok =>
      obtain ⟨hpermits, hstep, hnext⟩ := watched_step hok
      have hnew := (hinv.perm hp).step hfresh (eq_of_beq hpermits) hstep
      rw [← hnext] at hnew
      exact hnew

end ClientConn

namespace NcConn

/-- The branch for a complete request has no statement, and the objects are kept for good. -/
def asTheyStand : Monitor Bool NcConn NcTask NcChoice where
  next kept c t _ :=
    match t with
    | .check => kept || c.bobj.completes
    | _ => kept
  permits _ _ _ _ := true

def Quiescent (ts : List NcTask) : Prop := ts = []

structure Released (sock : SOCKET) (evs : List NcEvent) : Prop where
  closed : .closesocket sock ∈ evs
  bsock : .freeBSock ∈ evs
  bobj : .freeBObj ∈ evs

theorem Fires.completed {c c' : NcConn} {t : NcTask} {ch : NcChoice} {new : List NcTask}
    {evs : List NcEvent} (hf : Fires c t c' new evs) (kept : Bool) :
    asTheyStand.next kept c t ch = true ↔ kept = true ∨ ∃ n, .complete n ∈ evs := by
  have hsame (hn : ∀ n, .complete n ∉ evs) :
      kept = true ↔ kept = true ∨ ∃ n, .complete n ∈ evs := by
    rw [or_iff_left]
    intro hmem
    exact hn hmem.choose hmem.choose_spec
  have hfalse (hd : ∀ n, c.bobj.ncDecision ≠ .ok (.complete n)) : c.bobj.completes = false := by
    rw [← Bool.not_eq_true, BufferObj.completes_iff]
    intro h
    exact hd h.choose h.choose_spec
  cases hf with
  | completes n hd =>
    have hc : c.bobj.completes = true := BufferObj.completes_iff.mpr ⟨n, hd⟩
    change (kept || c.bobj.completes) = true ↔ _
    rw [hc, Bool.or_true]
    exact ⟨fun _ => Or.inr ⟨n, List.mem_cons_self⟩, fun _ => rfl⟩
  | strays hd =>
    change (kept || c.bobj.completes) = true ↔ _
    rw [hfalse (by simp [hd]), Bool.or_false]
    apply hsame
    intro n hmem
    rcases List.mem_map.mp hmem with ⟨_, _, heq⟩
    contradiction
  | waits hd =>
    change (kept || c.bobj.completes) = true ↔ _
    rw [hfalse (by simp [hd]), Bool.or_false]
    exact hsame fun n => List.not_mem_nil
  | goes _ hcheck =>
    have hnext : asTheyStand.next kept c t ch = kept := by
      cases t with
      | check => exact absurd rfl hcheck
      | _ => rfl
    rw [hnext]
    exact hsame fun n => List.not_mem_nil
  | closes =>
    apply hsame
    intro n hmem
    split at hmem
    · rw [List.mem_singleton] at hmem
      contradiction
    · contradiction
  | freeBSock => exact hsame (by simp)
  | freeBObj => exact hsame (by simp)

theorem run_completed {conf₀ : Conf NcConn NcTask} {conf : Conf (NcConn × Bool) NcTask}
    {evs : List NcEvent} (h : Run (machine.watched asTheyStand) (conf₀.watch false) evs conf) :
    conf.shared.2 = true ↔ ∃ n, .complete n ∈ evs := by
  apply h.invariant (fun evs conf => conf.shared.2 = true ↔ ∃ n, .complete n ∈ evs)
  · constructor
    · intro hkept
      contradiction
    · intro hmem
      exact absurd hmem.choose_spec List.not_mem_nil
  · intro es conf evs conf' hinv hstep
    cases hstep with
    | turn _ _ hok =>
      obtain ⟨_, hstep, hnext⟩ := watched_step hok
      dsimp only at hinv hnext ⊢
      rw [hnext, (step_fires hstep).completed, hinv, ← exists_or]
      apply exists_congr
      intro n
      exact List.mem_append.symm

theorem Stands.released_iff {sock : SOCKET} {evs : List NcEvent} {c : NcConn}
    (h : Stands sock evs c []) (ha : Accounted evs c) :
    Released sock evs ↔ ¬ ∃ n, .complete n ∈ evs := by
  have hbsock := ha.bsock
  have hbobj := ha.bobj
  cases h with
  | kept n hmem _ hl =>
    rw [if_pos hl] at hbsock
    constructor
    · intro hreleased
      exact absurd hreleased.bsock (List.count_eq_zero.mp hbsock)
    · intro hn
      exact absurd ⟨n, hmem⟩ hn
  | released hshut hl hl' =>
    rw [if_neg (Bool.not_eq_true _ ▸ hl)] at hbsock
    rw [if_neg (Bool.not_eq_true _ ▸ hl')] at hbobj
    constructor
    · intro _ hmem
      exact hshut.incomplete hmem.choose hmem.choose_spec
    · intro _
      refine ⟨hshut.closed, ?_, ?_⟩
      · apply List.count_pos_iff.mp
        rw [hbsock]
        exact Nat.one_pos
      · apply List.count_pos_iff.mp
        rw [hbobj]
        exact Nat.one_pos

end NcConn

/-- A connection on which nothing goes on any more has been closed and released if and only if no
command of it was completed or, on the other server, no complete request found. -/
theorem released_at_rest_iff (g_dwPagesize : DWORD) :
    (∀ (pRSock : SockPtr) (rsock : RecvSock) (sock : SOCKET) (robj : RecvObj)
        (mem : BufferObjPtr → BufferObj) (evs : List Event)
        (conf : Conf (ClientConn × Bool) Task), sock ≠ INVALID_SOCKET →
      Run (ClientConn.machine.watched ClientConn.asTheyStand)
        ((ClientConn.start g_dwPagesize pRSock rsock sock robj mem).watch false) evs conf →
      ClientConn.Quiescent conf.tasks →
      (ClientConn.Released sock evs ↔ conf.shared.2 = false)) ∧
    (∀ (pBSock : SockPtr) (bsock : BufferSock) (bobj : BufferObj) (evs : List NcEvent)
        (conf : Conf (NcConn × Bool) NcTask), bsock.sock ≠ INVALID_SOCKET →
      Run (NcConn.machine.watched NcConn.asTheyStand)
        ((NcConn.start g_dwPagesize pBSock bsock bobj).watch false) evs conf →
      NcConn.Quiescent conf.tasks →
      (NcConn.Released bsock.sock evs ↔ conf.shared.2 = false)) := by
  constructor
  · intro pRSock rsock sock robj mem evs conf hsock hrun hq
    exact (ClientConn.run_traced hsock hrun).released_iff hq
  · intro pBSock bsock bobj evs conf hsock hrun hq
    obtain ⟨hstands, hacc⟩ := NcConn.run_stands hsock hrun.unwatch
    change NcConn.Stands _ _ _ conf.tasks at hstands
    rw [show conf.tasks = [] from hq] at hstands
    rw [hstands.released_iff hacc, ← NcConn.run_completed hrun, Bool.not_eq_true]

namespace ClientConn

/-- What the environment decides while the BUFFER_OBJ 0 is in use. -/
def later (ok : Bool) : Choice := ⟨ok, [], 0, 1, BufferObj.zeroed⟩

/-- An empty command is queued, the peer goes, and then the command is completed. -/
def keepsCommand : List (ℕ × Choice) :=
  accepted [0xfb, 0xfc, 0, 0, 0, 0, 0, 0x0d] ++
    [(0, later true), (0, later true), (1, later true), (0, later true), (0, later false),
      (0, later true), (0, later true), (0, later true)]

/-- An empty command is queued, the peer goes, and the completion of the command fails. -/
def dropsCommand : List (ℕ × Choice) :=
  accepted [0xfb, 0xfc, 0, 0, 0, 0, 0, 0x0d] ++
    [(0, later true), (0, later true), (1, later true), (0, later true), (0, later false),
      (0, later true), (0, later true)] ++ List.replicate 5 (0, later false)

end ClientConn

namespace NcConn

/-- A connection with the handle 7 and pages of 4096 bytes. -/
def sample : Conf NcConn NcTask := start 4096 1 ⟨0, 7⟩ BufferObj.zeroed

/-- AcceptEx comes back with a whole request. -/
def keepsRequest : List (ℕ × NcChoice) :=
  [(0, ⟨true, contentLength ++ [0x30] ++ headerEnd, []⟩), (0, ⟨true, [], []⟩), (0, ⟨true, [], []⟩)]

/-- A first part of a request comes, and the peer goes. -/
def dropsRequest : List (ℕ × NcChoice) :=
  (0, ⟨true, contentLength, []⟩) :: List.replicate 5 (0, ⟨true, [], []⟩) ++
    List.replicate 4 (0, ⟨false, [], []⟩)

end NcConn

theorem dropped_connections_released :
    (∃ evs conf, Run (ClientConn.machine.watched ClientConn.asTheyStand)
      (ClientConn.sample.watch false) evs conf ∧ .queued 0 ∈ evs ∧ ClientConn.Released 7 evs) ∧
    (∃ evs conf, Run (NcConn.machine.watched NcConn.asTheyStand) (NcConn.sample.watch false) evs
      conf ∧ conf.shared.1.bobj.dwRecvedCount = 16 ∧ NcConn.Released 7 evs) := by
  constructor
  · have hplay : (play (ClientConn.machine.watched ClientConn.asTheyStand)
        (ClientConn.sample.watch false) ClientConn.dropsCommand).map
          (fun r => (r.2.tasks, r.2.shared.2, decide (.queued 0 ∈ r.1))) =
            some ([], false, true) := by decide +kernel
    obtain ⟨evs, conf, hrun, hres⟩ := play_reaches hplay
    rw [Prod.mk.injEq, Prod.mk.injEq] at hres
    refine ⟨evs, conf, hrun, of_decide_eq_true hres.2.2, ?_⟩
    apply ((released_at_rest_iff _).1 _ _ _ _ _ evs conf (by decide) hrun ?_).mpr hres.2.1
    intro t ht
    rw [hres.1] at ht
    contradiction
  · have hplay : (play (NcConn.machine.watched NcConn.asTheyStand)
        (NcConn.sample.watch false) NcConn.dropsRequest).map
          (fun r => (r.2.tasks, r.2.shared.2, r.2.shared.1.bobj.dwRecvedCount)) =
            some ([], false, 16) := by decide +kernel
    obtain ⟨evs, conf, hrun, hres⟩ := play_reaches hplay
    rw [Prod.mk.injEq, Prod.mk.injEq] at hres
    exact ⟨evs, conf, hrun, hres.2.2,
      ((released_at_rest_iff _).2 _ _ _ evs conf (by decide) hrun hres.1).mpr hres.2.1⟩

/-- A client that goes while its command is worked on, and a complete push request, leave a
socket object and a BUFFER_OBJ behind. -/
theorem command_and_request_leak :
    (∃ evs conf, Run (ClientConn.machine.watched ClientConn.asTheyStand)
      (ClientConn.sample.watch false) evs conf ∧ ClientConn.Quiescent conf.tasks ∧
        .closesocket 7 ∉ evs ∧ .freeRSock ∉ evs ∧ .freeBObj 0 ∉ evs ∧ .allocBObj 0 ∈ evs) ∧
    (∃ evs conf, Run (NcConn.machine.watched NcConn.asTheyStand) (NcConn.sample.watch false) evs
      conf ∧ NcConn.Quiescent conf.tasks ∧ .closesocket 7 ∉ evs ∧ .freeBSock ∉ evs ∧
        .freeBObj ∉ evs) := by
  constructor
  · have hplay : (play (ClientConn.machine.watched ClientConn.asTheyStand)
        (ClientConn.sample.watch false) ClientConn.keepsCommand).map (fun r => (r.1, r.2.tasks)) =
          some ([.allocBObj 0, .queued 0, .freeRObj], [.command 0]) := by decide +kernel
    obtain ⟨evs, conf, hrun, hres⟩ := play_reaches hplay
    rw [Prod.mk.injEq] at hres
    rcases hres with ⟨hevs, htasks⟩
    refine ⟨evs, conf, hrun, ?_, ?_⟩
    · intro t ht
      rw [show conf.tasks = _ from htasks, List.mem_singleton] at ht
      exact ⟨0, ht⟩
    · rw [show evs = _ from hevs]
      decide
  · have hplay : (play (NcConn.machine.watched NcConn.asTheyStand) (NcConn.sample.watch false)
        NcConn.keepsRequest).map (fun r => (r.1, r.2.tasks)) = some ([.complete 21], []) := by
      decide +kernel
    obtain ⟨evs, conf, hrun, hres⟩ := play_reaches hplay
    rw [Prod.mk.injEq] at hres
    rcases hres with ⟨hevs, htasks⟩
    refine ⟨evs, conf, hrun, htasks, ?_⟩
    rw [show evs = _ from hevs]
    decide

end CustomersCard
