import Mathlib.Algebra.Order.BigOperators.Group.Finset
import CustomersCardMS.HandlerTermination

namespace CustomersCard
open Interleaving

namespace NcTask

def outstanding : NcTask → Prop
  | .accept | .zeroRecv | .recv => True
  | _ => False

def work : NcTask → ℕ
  | .accept | .zeroRecv | .recv => 0
  | .createPort _ => 6
  | .check => 5
  | .postZeroRecv | .postRecv => 4
  | .close => 3
  | .freeBSock => 2
  | .freeBObj => 1

theorem Leads.work {t u : NcTask} (h : t.Leads u) (ht : ¬ t.outstanding) : u.work < t.work := by
  cases h with
  | accepted | refused | readable | zeroFailed | received | recvFailed => exact absurd trivial ht
  | associated | unassociated | checked | zeroPosted | zeroRefused => simp [NcTask.work]
  | recvPosted | recvRefused | closed | freed => simp [NcTask.work]

end NcTask

namespace NcConn

/-- A handler of this server does one thing after the other. -/
theorem step_work {c c' : NcConn} {t : NcTask} {new : List NcTask} {evs : List NcEvent}
    {ch : NcChoice} (ht : ¬ t.outstanding) (h : c.step t ch = .ok (c', new, evs)) :
    total NcTask.work new < t.work := by
  have hnone : 0 < t.work := by
    cases t with
    | accept | zeroRecv | recv => exact absurd trivial ht
    | _ => simp [NcTask.work]
  have hone {u : NcTask} (hu : u ∈ new) (hnew : new = [u]) : total NcTask.work new < t.work := by
    have hlt := (step_next h hu).work ht
    rw [hnew]
    simp only [total, List.map_cons, List.map_nil, List.sum_cons, List.sum_nil]
    omega
  cases step_fires h with
  | goes | waits | strays | closes | freeBSock => exact hone List.mem_cons_self rfl
  | completes | freeBObj => exact hnone

end NcConn

/-- An operation that waits for its completion, a command handler, or the thread of main. -/
def Running.outstanding : Running → Prop
  | .acceptex _ => True
  | .client _ t _ => t.outstanding
  | .nc _ t _ => t.outstanding

namespace Process

/-- What the handlers of all connections have left to do. -/
def work (s : Process) (ts : List Running) : ℕ :=
  ∑ i ∈ Finset.range s.nClients, (s.clients i).conn.work (clientTasks i ts) +
    ∑ i ∈ Finset.range s.nNcs, total NcTask.work (ncTasks i ts)

/-- Only a completion comes with a key. -/
def Unkeyed : Running → Prop
  | .acceptex _ => True
  | .client _ t key => t.outstanding ∨ key = none
  | .nc _ t key => t.outstanding ∨ key = none

/-- A process whose connections are each in a run of their own. -/
structure Serving (g_dwPagesize : DWORD) (conf : Conf Process Running) : Prop where
  inv : Inv conf.shared conf.tasks
  alone : ∃ ns, Alone g_dwPagesize ns conf.shared conf.tasks
  unkeyed : ∀ r ∈ conf.tasks, Unkeyed r

section Step

variable {g_dwPagesize : DWORD} {s s' : Process} {i : ℕ} {key : Option Key} {ts us : List Running}
  {rest new : List Running} {evs es : List WorkerEvent} {r : Running} {ch : WorkerChoice}

theorem work_perm (s : Process) (h : ts.Perm us) : s.work ts = s.work us := by
  unfold work
  congr 1
  · apply Finset.sum_congr rfl
    intro i _
    unfold ClientConn.work
    rw [total_perm _ (clientTasks_perm i h)]
  · apply Finset.sum_congr rfl
    intro i _
    exact total_perm _ (ncTasks_perm i h)

theorem clientKey_unkeyed (sock : SOCKET) (t : Task) :
    Unkeyed (.client i t (s.clientKey sock t)) := by
  cases t with
  | zeroRecv | recv | send _ | cmd _ | accept | command _ => exact Or.inl trivial
  | _ => exact Or.inr rfl

theorem ncKey_unkeyed (sock : SOCKET) (t : NcTask) : Unkeyed (.nc i t (s.ncKey sock t)) := by
  cases t with
  | zeroRecv | recv | accept => exact Or.inl trivial
  | _ => exact Or.inr rfl

theorem step_unkeyed (h : s.step r ch = .ok (s', new, es)) : ∀ u ∈ new, Unkeyed u := by
  intro u hu
  cases r with
  | acceptex server =>
    rcases postAcceptEx_opened h with ⟨_, hnew⟩ | ⟨_, hopened⟩ | ⟨_, hopened⟩
    · rw [hnew, List.mem_singleton] at hu
      rw [hu]
      trivial
    · rw [hopened.tasks] at hu
      rcases List.mem_pair.mp hu with rfl | rfl
      · trivial
      · exact Or.inl trivial
    · rw [hopened.tasks] at hu
      rcases List.mem_pair.mp hu with rfl | rfl
      · trivial
      · exact Or.inl trivial
  | client i t key =>
    obtain ⟨ok, conn, next, es', rfl, hturn⟩ := clientStep_own h
    rw [hturn.tasks] at hu
    obtain ⟨t', _, rfl⟩ := List.mem_map.mp hu
    exact clientKey_unkeyed _ _
  | nc i t key =>
    obtain ⟨_, ok, conn, next, es', rfl, hturn⟩ := ncStep_turn h
    rw [hturn.tasks] at hu
    obtain ⟨t', _, rfl⟩ := List.mem_map.mp hu
    exact ncKey_unkeyed _ _

/-- A handler at work does not ask for its key again. -/
theorem Unkeyed.fault {f : WorkerFault} (hk : Unkeyed r) (ht : ¬ r.outstanding)
    (h : s.step r ch = .error f) : f ≠ .wrongKey := by
  cases r with
  | acceptex server => exact absurd trivial ht
  | client i t key =>
    have hkey : key = none := hk.resolve_left ht
    have hexpects : t.expects (s.clients i).conn.pRSock = none := by
      cases t with
      | accept | zeroRecv | recv | cmd _ | send _ => exact absurd trivial ht
      | _ => rfl
    change s.clientStep i t key ch.client = _ at h
    unfold clientStep at h
    dsimp only at h
    rw [hkey, hexpects, if_pos rfl] at h
    split at h
    · cases h
      nofun
    · contradiction
  | nc i t key =>
    have hkey : key = none := hk.resolve_left ht
    have hexpects : t.expects (s.ncs i).pBSock = none := by
      cases t with
      | accept | zeroRecv | recv => exact absurd trivial ht
      | _ => rfl
    change s.ncStep i t key ch.nc = _ at h
    unfold ncStep at h
    dsimp only at h
    rw [hkey, hexpects, if_pos rfl] at h
    split at h
    · cases h
      nofun
    · contradiction

theorem Serving.step {conf conf' : Conf Process Running} (h : Serving g_dwPagesize conf)
    (hstep : Step machine conf es conf') : Serving g_dwPagesize conf' := by
  obtain ⟨ns, halone⟩ := h.alone
  cases hstep with
  | turn hp hallowed hok =>
    have hinv := h.inv.perm hp
    refine ⟨hinv.step hallowed hok, ⟨_, (halone.perm hp).step hinv hallowed hok⟩, ?_⟩
    intro u hu
    rcases List.mem_append.mp hu with hu | hu
    · exact step_unkeyed hok u hu
    · exact h.unkeyed u (hp.mem_iff.mpr (List.mem_cons_of_mem _ hu))

/-- The state of a connection in the process is that of a stream of its own. -/
theorem ClientAlone.streams {c : ClientConn} {ns : List (ClientConn.View × List Event)}
    {ts : List Task}
    (h64 : 64 < (g_dwPagesize * 8 - RECV_SOCK_SIZE).toNat)
    (h31 : (g_dwPagesize * 8 - RECV_SOCK_SIZE).toNat < 2^31)
    (h : ClientAlone g_dwPagesize c ns ts) :
    ∃ hist, ClientConn.Streams (g_dwPagesize * 8 - RECV_SOCK_SIZE) hist c ts := by
  obtain ⟨pRSock, rsock, sock, robj, mem, us, _, hperm, hrun⟩ := h
  have hstreaming : ClientConn.Streaming (g_dwPagesize * 8 - RECV_SOCK_SIZE) ⟨c, us⟩ :=
    hrun.plain.invariant (fun _ => ClientConn.Streaming _)
      (ClientConn.start_streaming g_dwPagesize pRSock rsock sock robj mem)
      fun _ _ _ _ hs hstep => hs.step h64 h31 hstep
  obtain ⟨hist, hs⟩ := hstreaming
  exact ⟨hist, hs.perm hperm⟩

theorem clientTurn_work {t : Task} {ch : Choice} {ok : Bool} {conn : ClientConn}
    {next : List Task} {es : List Event} (hi : i < s.nClients)
    (hturn : ClientTurn s i t ch s' new ok conn next es)
    (hlt : conn.work (next ++ clientTasks i rest) <
      (s.clients i).conn.work (t :: clientTasks i rest)) :
    s'.work (new ++ rest) < s.work (.client i t key :: rest) := by
  obtain ⟨_, hclients, hn, hncs, hm⟩ := clientTurn_state hturn
  rw [hturn.tasks]
  unfold work
  rw [hn, hm, hclients]
  have hsum : ∑ j ∈ Finset.range s.nClients,
      (Function.update s.clients i { s.clients i with conn } j).conn.work
        (clientTasks j ((next.map fun t' => .client i t' (s'.clientKey conn.rsock.sock t')) ++
          rest)) <
      ∑ j ∈ Finset.range s.nClients,
        (s.clients j).conn.work (clientTasks j (.client i t key :: rest)) := by
    have hself : (Function.update s.clients i { s.clients i with conn } i).conn.work
        (clientTasks i ((next.map fun t' => .client i t' (s'.clientKey conn.rsock.sock t')) ++
          rest)) < (s.clients i).conn.work (clientTasks i (.client i t key :: rest)) := by
      rw [Function.update_self, clientTasks_append, clientTasks_map, clientTasks_self]
      exact hlt
    apply Finset.sum_lt_sum
    · intro j _
      rcases eq_or_ne i j with rfl | hne
      · exact hself.le
      · rw [Function.update_of_ne hne.symm, clientTasks_append, clientTasks_map_other _ hne,
          List.nil_append, clientTasks_other hne]
    · exact ⟨i, Finset.mem_range.mpr hi, hself⟩
  have hother : ∑ j ∈ Finset.range s.nNcs, total NcTask.work
      (ncTasks j ((next.map fun t' => .client i t' (s'.clientKey conn.rsock.sock t')) ++ rest)) =
      ∑ j ∈ Finset.range s.nNcs, total NcTask.work (ncTasks j (.client i t key :: rest)) := by
    apply Finset.sum_congr rfl
    intro j _
    rw [ncTasks_append, ncTasks_client_map, List.nil_append, ncTasks_client]
  rw [hother]
  exact Nat.add_lt_add_right hsum _

theorem ncTurn_work {t : NcTask} {ch : NcChoice} {ok : Bool} {conn : NcConn}
    {next : List NcTask} {es : List NcEvent} (hi : i < s.nNcs)
    (hturn : NcTurn s i t ch s' new ok conn next es)
    (hlt : total NcTask.work next < t.work) :
    s'.work (new ++ rest) < s.work (.nc i t key :: rest) := by
  obtain ⟨_, hncs, hm, hclients, hn⟩ := ncTurn_state hturn
  rw [hturn.tasks]
  unfold work
  rw [hn, hm, hclients]
  have hsum : ∑ j ∈ Finset.range s.nNcs, total NcTask.work
      (ncTasks j ((next.map fun t' => .nc i t' (s'.ncKey conn.bsock.sock t')) ++ rest)) <
      ∑ j ∈ Finset.range s.nNcs, total NcTask.work (ncTasks j (.nc i t key :: rest)) := by
    have hself : total NcTask.work
        (ncTasks i ((next.map fun t' => .nc i t' (s'.ncKey conn.bsock.sock t')) ++ rest)) <
        total NcTask.work (ncTasks i (.nc i t key :: rest)) := by
      rw [ncTasks_append, ncTasks_map, ncTasks_self, total_append, total_cons]
      exact Nat.add_lt_add_right hlt _
    apply Finset.sum_lt_sum
    · intro j _
      rcases eq_or_ne i j with rfl | hne
      · exact hself.le
      · rw [ncTasks_append, ncTasks_map_other _ hne, List.nil_append, ncTasks_other hne]
    · exact ⟨i, Finset.mem_range.mpr hi, hself⟩
  have hother : ∑ j ∈ Finset.range s.nClients, (s.clients j).conn.work
      (clientTasks j ((next.map fun t' => .nc i t' (s'.ncKey conn.bsock.sock t')) ++ rest)) =
      ∑ j ∈ Finset.range s.nClients,
        (s.clients j).conn.work (clientTasks j (.nc i t key :: rest)) := by
    apply Finset.sum_congr rfl
    intro j _
    rw [clientTasks_append, clientTasks_nc_map, List.nil_append, clientTasks_nc]
  rw [hother]
  exact Nat.add_lt_add_left hsum _

/-- Every turn of a handler lowers what is left to do in the whole process. -/
theorem Serving.work {conf conf' : Conf Process Running}
    (h64 : 64 < (g_dwPagesize * 8 - RECV_SOCK_SIZE).toNat)
    (h31 : (g_dwPagesize * 8 - RECV_SOCK_SIZE).toNat < 2^31) (h : Serving g_dwPagesize conf)
    (hturn : TurnOf machine (¬ ·.outstanding) conf es conf') :
    conf'.shared.work conf'.tasks < conf.shared.work conf.tasks := by
  obtain ⟨ns, halone⟩ := h.alone
  cases hturn with
  | @turn s s' r ch tasks new rest _ ht hp hallowed hok =>
    have hinv := h.inv.perm hp
    have halone := halone.perm hp
    change s'.work (new ++ rest) < s.work tasks
    rw [work_perm s hp]
    cases r with
    | acceptex server => exact absurd trivial ht
    | client i t key =>
      obtain ⟨ok, conn, next, es', rfl, hturn⟩ := clientStep_own hok
      have hi := hinv.client_lt
      have hbefore := halone.client i hi
      rw [clientTasks_self] at hbefore
      obtain ⟨hist, hs⟩ := hbefore.streams h64 h31
      apply clientTurn_work hi hturn
      apply hs.work h64 h31 _ ht hturn.step
      intro hmem
      have hused := (hinv.client i hi).pool (.bufferObj ch.client.pBObj) hmem
      rw [hallowed.2.2.2] at hused
      contradiction
    | nc i t key =>
      obtain ⟨_, ok, conn, next, es', rfl, hturn⟩ := ncStep_turn hok
      exact ncTurn_work hinv.nc_lt hturn (NcConn.step_work ht hturn.step)

end Step

/-- From every state of every run, until an operation is posted on a handle that has become another
connection's, all worker threads come to rest, in whatever order the handlers of the connections
take their turns. They take at most so many turns as their work says, and what they leave waits for
a completion, keeps a command, or has left its ring or its buffer. -/
theorem workers_come_to_rest {g_dwPagesize : DWORD} {sListenSock : Server → SOCKET}
    {others : SOCKET → Bool} {clients : ℕ → Client} {ncs : ℕ → Pusher} {evs : List WorkerEvent}
    {conf : Conf Process Running}
    (h64 : 64 < (g_dwPagesize * 8 - RECV_SOCK_SIZE).toNat)
    (h31 : (g_dwPagesize * 8 - RECV_SOCK_SIZE).toNat < 2^31)
    (h : Run machine (booted g_dwPagesize sListenSock others clients ncs) evs conf) :
    (∀ n conf', Turns machine (¬ ·.outstanding) conf n conf' →
        n ≤ conf.shared.work conf.tasks) ∧
      ∃ n conf', Turns machine (¬ ·.outstanding) conf n conf' ∧
        ∀ r ∈ conf'.tasks, r.outstanding ∨ ∀ ch, machine.allowed conf'.shared ch →
          ∃ f, conf'.shared.step r ch = .error f ∧ OwnFault r f ∧ f ≠ .wrongKey := by
  have hstart : Serving g_dwPagesize (booted g_dwPagesize sListenSock others clients ncs) := by
    refine ⟨booted_inv _ _ _ _ _, ⟨[], booted_alone _ _ _ _ _ _⟩, ?_⟩
    intro r hr
    rcases List.mem_pair.mp hr with rfl | rfl
    · trivial
    · trivial
  have hconf : Serving g_dwPagesize conf :=
    h.invariant (fun _ => Serving g_dwPagesize) hstart fun _ _ _ _ hs hstep => hs.step hstep
  have hinv (c : Conf Process Running) (es : List WorkerEvent) (c' : Conf Process Running)
      (hs : Serving g_dwPagesize c) (hturn : TurnOf machine (¬ ·.outstanding) c es c') :
      Serving g_dwPagesize c' := hs.step hturn.step
  have hrank (c : Conf Process Running) (es : List WorkerEvent) (c' : Conf Process Running)
      (hs : Serving g_dwPagesize c) (hturn : TurnOf machine (¬ ·.outstanding) c es c') :
      c'.shared.work c'.tasks < c.shared.work c.tasks := hs.work h64 h31 hturn
  refine ⟨?_, ?_⟩
  · intro n conf' hturns
    have hle := (Turns.bounded hinv hrank hconf hturns).2
    omega
  · obtain ⟨n, conf', hturns, hserving, hrest⟩ := Turns.exhausted hinv hrank hconf
    refine ⟨n, conf', hturns, ?_⟩
    intro r hr
    by_cases hout : r.outstanding
    · exact Or.inl hout
    refine Or.inr ?_
    intro ch hallowed
    cases hstep : conf'.shared.step r ch with
    | ok res =>
      have hturn : TurnOf machine (¬ ·.outstanding) conf' res.2.2
          ⟨res.1, res.2.1 ++ conf'.tasks.erase r⟩ :=
        TurnOf.turn hout (List.perm_cons_erase hr) hallowed hstep
      exact absurd hturn (hrest _ _)
    | error f =>
      exact ⟨f, rfl, hserving.inv.faults hr hstep, (hserving.unkeyed r hr).fault hout hstep⟩

/-- A client has connected and sent one byte. -/
theorem first_client_comes_to_rest : ∃ evs conf, Run machine sample evs conf ∧
    conf.tasks = [.client 0 .postZeroRecv none, .acceptex .client, .acceptex .nc] ∧
    (∀ n conf', Turns machine (¬ ·.outstanding) conf n conf' → n ≤ 6) ∧
    ∃ n conf', Turns machine (¬ ·.outstanding) conf n conf' ∧
      ∀ r ∈ conf'.tasks, r.outstanding ∨ ∀ ch, machine.allowed conf'.shared ch →
        ∃ f, conf'.shared.step r ch = .error f ∧ OwnFault r f ∧ f ≠ .wrongKey := by
  have hplay : (play machine sample clientConnects).map
      (fun r => (r.2.tasks, r.2.shared.work r.2.tasks)) =
        some ([.client 0 .postZeroRecv none, .acceptex .client, .acceptex .nc], 6) := by
    decide +kernel
  obtain ⟨evs, conf, hrun, hres⟩ := play_reaches hplay
  rw [Prod.mk.injEq] at hres
  rcases hres with ⟨htasks, hwork⟩
  dsimp only at htasks hwork
  obtain ⟨hbound, hrest⟩ := workers_come_to_rest (by decide) (by decide) hrun
  refine ⟨evs, conf, hrun, htasks, ?_, hrest⟩
  intro n conf' hturns
  rw [← hwork]
  exact hbound n conf' hturns

end Process

end CustomersCard
