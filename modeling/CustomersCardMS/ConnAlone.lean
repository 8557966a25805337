import CustomersCardMS.CompletionDispatch
import CustomersCardMS.Simulation

namespace CustomersCard
open Interleaving

namespace WorkerEvent

def client? (i : ℕ) : WorkerEvent → Option Event
  | .client j e => if j = i then some e else none
  | .nc _ _ => none

def nc? (i : ℕ) : WorkerEvent → Option NcEvent
  | .client _ _ => none
  | .nc j e => if j = i then some e else none

end WorkerEvent

/-- What the process does for one connection. -/
def clientEvents (i : ℕ) (evs : List WorkerEvent) : List Event :=
  evs.filterMap (WorkerEvent.client? i)

def ncEvents (i : ℕ) (evs : List WorkerEvent) : List NcEvent := evs.filterMap (WorkerEvent.nc? i)

section Events

variable {i : ℕ}

theorem clientEvents_self (es : List Event) : clientEvents i (es.map (.client i)) = es := by
  induction es with
  | nil => rfl
  | cons e es ih =>
    have hhead : WorkerEvent.client? i (.client i e) = some e := if_pos rfl
    change List.filterMap _ (_ :: _) = _
    rw [List.filterMap_cons_some hhead]
    exact congrArg (e :: ·) ih

theorem ncEvents_self (es : List NcEvent) : ncEvents i (es.map (.nc i)) = es := by
  induction es with
  | nil => rfl
  | cons e es ih =>
    have hhead : WorkerEvent.nc? i (.nc i e) = some e := if_pos rfl
    change List.filterMap _ (_ :: _) = _
    rw [List.filterMap_cons_some hhead]
    exact congrArg (e :: ·) ih

end Events

/-- A turn of a connection: the task that has it, and what the kernel, the peer and the command
handler decided. What the pools hand out is not their decision. -/
abbrev ClientConn.Note := Task × Bool × List Byte × ℕ

def ClientConn.note (_c : ClientConn) (t : Task) (ch : Choice) : Note :=
  (t, ch.ok, ch.bytes, ch.count)

/-- A turn together with the state in which it is taken. -/
abbrev ClientConn.View := ClientConn × ClientConn.Note

def ClientConn.view (c : ClientConn) (t : Task) (ch : Choice) : View := (c, c.note t ch)

abbrev NcConn.View := NcConn × NcTask × NcChoice

def NcConn.view (c : NcConn) (t : NcTask) (ch : NcChoice) : View := (c, t, ch)

inductive WorkerNote
  | acceptex
  | client (i : ℕ) (n : ClientConn.View)
  | nc (i : ℕ) (n : NcConn.View)

namespace WorkerNote

def client? (i : ℕ) : WorkerNote → Option ClientConn.View
  | .client j n => if j = i then some n else none
  | _ => none

def nc? (i : ℕ) : WorkerNote → Option NcConn.View
  | .nc j n => if j = i then some n else none
  | _ => none

end WorkerNote

/-- The turns of one connection, with what they did for it. -/
def clientNotes (i : ℕ) (ns : List (WorkerNote × List WorkerEvent)) :
    List (ClientConn.View × List Event) :=
  ns.filterMap fun n => (n.1.client? i).map (·, clientEvents i n.2)

def ncNotes (i : ℕ) (ns : List (WorkerNote × List WorkerEvent)) :
    List (NcConn.View × List NcEvent) :=
  ns.filterMap fun n => (n.1.nc? i).map (·, ncEvents i n.2)

section Notes

variable {i : ℕ} {ns : List (WorkerNote × List WorkerEvent)} {w : WorkerNote}
  {es : List WorkerEvent}

theorem clientNotes_none (h : w.client? i = none) :
    clientNotes i (ns ++ [(w, es)]) = clientNotes i ns := by
  unfold clientNotes
  rw [List.filterMap_append, List.filterMap_cons_none, List.filterMap_nil, List.append_nil]
  rw [h, Option.map_none]

theorem ncNotes_none (h : w.nc? i = none) : ncNotes i (ns ++ [(w, es)]) = ncNotes i ns := by
  unfold ncNotes
  rw [List.filterMap_append, List.filterMap_cons_none, List.filterMap_nil, List.append_nil]
  rw [h, Option.map_none]

theorem clientNotes_other {j : ℕ} (h : j ≠ i) (n : ClientConn.View) :
    clientNotes i (ns ++ [(.client j n, es)]) = clientNotes i ns := clientNotes_none (if_neg h)

theorem ncNotes_other {j : ℕ} (h : j ≠ i) (n : NcConn.View) :
    ncNotes i (ns ++ [(.nc j n, es)]) = ncNotes i ns := ncNotes_none (if_neg h)

theorem clientNotes_self (n : ClientConn.View) (evs : List Event) :
    clientNotes i (ns ++ [(.client i n, evs.map (.client i))]) =
      clientNotes i ns ++ [(n, evs)] := by
  have hmine : (WorkerNote.client i n).client? i = some n := if_pos rfl
  unfold clientNotes
  rw [List.filterMap_append, List.filterMap_cons_some, List.filterMap_nil]
  rw [hmine, Option.map_some, clientEvents_self]

theorem ncNotes_self (n : NcConn.View) (evs : List NcEvent) :
    ncNotes i (ns ++ [(.nc i n, evs.map (.nc i))]) = ncNotes i ns ++ [(n, evs)] := by
  have hmine : (WorkerNote.nc i n).nc? i = some n := if_pos rfl
  unfold ncNotes
  rw [List.filterMap_append, List.filterMap_cons_some, List.filterMap_nil]
  rw [hmine, Option.map_some, ncEvents_self]

end Notes

namespace Process

/-- A turn as the connection has it, which sees a call fail whose handle is not open. -/
def note (s : Process) : Running → WorkerChoice → WorkerNote
  | .acceptex _, _ => .acceptex
  | .client i t _, ch =>
    let c := (s.clients i).conn
    let ok := ch.client.ok && s.grants c.rsock.sock t.posts t.associates
    .client i (c.view t { ch.client with ok })
  | .nc i t _, ch =>
    let c := (s.ncs i).conn
    let ok := ch.nc.ok && s.grants c.bsock.sock t.posts t.associates
    .nc i (c.view t { ch.nc with ok })

/-- From its AcceptEx on, the connection has gone through a run of its own. -/
def ClientAlone (g_dwPagesize : DWORD) (c : ClientConn) (ns : List (ClientConn.View × List Event))
    (ts : List Task) : Prop :=
  ∃ pRSock rsock sock robj mem us, sock ≠ INVALID_SOCKET ∧ us.Perm ts ∧
    Run (ClientConn.machine.noting ClientConn.view)
      (ClientConn.start g_dwPagesize pRSock rsock sock robj mem) ns ⟨c, us⟩

def NcAlone (g_dwPagesize : DWORD) (c : NcConn) (ns : List (NcConn.View × List NcEvent))
    (ts : List NcTask) : Prop :=
  ∃ pBSock bsock bobj us, bsock.sock ≠ INVALID_SOCKET ∧ us.Perm ts ∧
    Run (NcConn.machine.noting NcConn.view) (NcConn.start g_dwPagesize pBSock bsock bobj) ns ⟨c, us⟩

/-- Each connection on its own, and nothing of the connections that do not exist yet. -/
structure Alone (g_dwPagesize : DWORD) (ns : List (WorkerNote × List WorkerEvent)) (s : Process)
    (ts : List Running) : Prop where
  client : ∀ i < s.nClients,
    ClientAlone g_dwPagesize (s.clients i).conn (clientNotes i ns) (clientTasks i ts)
  nc : ∀ i < s.nNcs, NcAlone g_dwPagesize (s.ncs i).conn (ncNotes i ns) (ncTasks i ts)
  clients : ∀ i, s.nClients ≤ i → clientNotes i ns = []
  ncs : ∀ i, s.nNcs ≤ i → ncNotes i ns = []
  pagesize : s.g_dwPagesize = g_dwPagesize

section Keep

variable {g_dwPagesize : DWORD} {c c' : ClientConn} {n n' : NcConn} {es' : List Event}
  {es : List (ClientConn.View × List Event)} {fs : List (NcConn.View × List NcEvent)}
  {fs' : List NcEvent} {t : Task} {u : NcTask} {ts us new : List Task} {vs ws next : List NcTask}

theorem ClientAlone.perm (h : ClientAlone g_dwPagesize c es ts) (hp : ts.Perm us) :
    ClientAlone g_dwPagesize c es us := by
  obtain ⟨pRSock, rsock, sock, robj, mem, vs, hsock, hperm, hrun⟩ := h
  exact ⟨pRSock, rsock, sock, robj, mem, vs, hsock, hperm.trans hp, hrun⟩

theorem NcAlone.perm (h : NcAlone g_dwPagesize n fs vs) (hp : vs.Perm ws) :
    NcAlone g_dwPagesize n fs ws := by
  obtain ⟨pBSock, bsock, bobj, us, hsock, hperm, hrun⟩ := h
  exact ⟨pBSock, bsock, bobj, us, hsock, hperm.trans hp, hrun⟩

theorem ClientAlone.turn {ch : Choice} (h : ClientAlone g_dwPagesize c es (t :: ts))
    (hfresh : ch.pBObj ∉ c.objs) (hstep : c.step t ch = .ok (c', new, es')) :
    ClientAlone g_dwPagesize c' (es ++ [(c.view t ch, es')]) (new ++ ts) := by
  obtain ⟨pRSock, rsock, sock, robj, mem, us, hsock, hperm, hrun⟩ := h
  have hturn : Step (ClientConn.machine.noting ClientConn.view) ⟨c, us⟩ [(c.view t ch, es')]
      ⟨c', new ++ ts⟩ := Step.turn hperm hfresh (noting_ok hstep)
  exact ⟨pRSock, rsock, sock, robj, mem, new ++ ts, hsock, List.Perm.refl _, hrun.snoc hturn⟩

theorem NcAlone.turn {ch : NcChoice} (h : NcAlone g_dwPagesize n fs (u :: vs))
    (hstep : n.step u ch = .ok (n', next, fs')) :
    NcAlone g_dwPagesize n' (fs ++ [(n.view u ch, fs')]) (next ++ vs) := by
  obtain ⟨pBSock, bsock, bobj, us, hsock, hperm, hrun⟩ := h
  have hturn : Step (NcConn.machine.noting NcConn.view) ⟨n, us⟩ [(n.view u ch, fs')]
      ⟨n', next ++ vs⟩ := Step.turn hperm trivial (noting_ok hstep)
  exact ⟨pBSock, bsock, bobj, next ++ vs, hsock, List.Perm.refl _, hrun.snoc hturn⟩

variable {s : Process} {ns : List (WorkerNote × List WorkerEvent)} {rs rs' : List Running}

theorem Alone.perm (h : Alone g_dwPagesize ns s rs) (hp : rs.Perm rs') :
    Alone g_dwPagesize ns s rs' where
  client i hi := (h.client i hi).perm (clientTasks_perm i hp)
  nc i hi := (h.nc i hi).perm (ncTasks_perm i hp)
  clients := h.clients
  ncs := h.ncs
  pagesize := h.pagesize

end Keep

section Step

variable {g_dwPagesize : DWORD} {s s' : Process} {i : ℕ} {key : Option Key}
  {rest new : List Running} {ns : List (WorkerNote × List WorkerEvent)} {es : List WorkerEvent}

/-- What a step of a connection does, it does for that connection. -/
theorem clientStep_own {t : Task} {ch : Choice} (h : s.clientStep i t key ch = .ok (s', new, es)) :
    ∃ ok conn next es', es = es'.map (.client i) ∧
      ClientTurn s i t ch s' new ok conn next es' := by
  unfold clientStep at h
  dsimp only at h
  split at h
  · split at h
    · contradiction
    · case h_2 conn next es' hstep =>
      rw [Except.ok.injEq, Prod.mk.injEq, Prod.mk.injEq] at h
      rcases h with ⟨rfl, rfl, hes⟩
      exact ⟨_, conn, next, es', hes.symm, rfl, hstep, rfl, rfl⟩
  · contradiction

theorem associate_pagesize (sock : SOCKET) (key : Key) (done : Bool) :
    (s.associate sock key done).g_dwPagesize = s.g_dwPagesize := by
  cases done with
  | false => rfl
  | true => rfl

theorem ClientTurn.pagesize {t : Task} {ch : Choice} {ok : Bool} {conn : ClientConn}
    {next : List Task} {es : List Event} (h : ClientTurn s i t ch s' new ok conn next es) :
    s'.g_dwPagesize = s.g_dwPagesize := by
  rw [h.state, associate_pagesize]
  rfl

theorem NcTurn.pagesize {t : NcTask} {ch : NcChoice} {ok : Bool} {conn : NcConn}
    {next : List NcTask} {es : List NcEvent} (h : NcTurn s i t ch s' new ok conn next es) :
    s'.g_dwPagesize = s.g_dwPagesize := by
  rw [h.state, associate_pagesize]
  rfl

theorem postAcceptEx_quiet {server : Server} {ch : WorkerChoice}
    (h : s.postAcceptEx server ch = .ok (s', new, es)) :
    es = [] ∧ s'.g_dwPagesize = s.g_dwPagesize := by
  unfold postAcceptEx at h
  dsimp only at h
  split at h
  · cases server with
    | client | nc =>
      cases h
      exact ⟨rfl, rfl⟩
  · cases h
    exact ⟨rfl, rfl⟩

theorem Alone.clientTurn {t : Task} {ch : WorkerChoice} {ok : Bool} {conn : ClientConn}
    {next : List Task} {es : List Event} (h : Alone g_dwPagesize ns s (.client i t key :: rest))
    (hi : i < s.nClients) (hfresh : ch.client.pBObj ∉ (s.clients i).conn.objs)
    (hturn : ClientTurn s i t ch.client s' new ok conn next es) :
    Alone g_dwPagesize (ns ++ [(s.note (.client i t key) ch, es.map (.client i))]) s'
      (new ++ rest) := by
  obtain ⟨_, hclients, hn, hncs, hm⟩ := clientTurn_state hturn
  have hnote : s.note (.client i t key) ch =
      .client i ((s.clients i).conn.view t { ch.client with ok }) := by
    rw [hturn.granted]
    rfl
  rw [hturn.tasks, hnote]
  constructor
  · intro j hj
    rw [hn] at hj
    have hbefore := h.client j hj
    rcases eq_or_ne i j with rfl | hne
    · rw [clientTasks_self] at hbefore
      rw [hclients, Function.update_self, clientNotes_self, clientTasks_append, clientTasks_map]
      have hfresh : ({ ch.client with ok } : Choice).pBObj ∉ (s.clients i).conn.objs := hfresh
      exact hbefore.turn hfresh hturn.step
    · rw [clientTasks_other hne] at hbefore
      rwa [hclients, Function.update_of_ne hne.symm, clientNotes_other hne,
        clientTasks_append, clientTasks_map_other _ hne, List.nil_append]
  · intro j hj
    rw [hm] at hj
    have hbefore := h.nc j hj
    rw [ncTasks_client] at hbefore
    rwa [hncs, ncNotes_none rfl, ncTasks_append, ncTasks_client_map, List.nil_append]
  · intro j hj
    rw [hn] at hj
    rw [clientNotes_other (Nat.ne_of_lt (Nat.lt_of_lt_of_le hi hj)), h.clients j hj]
  · intro j hj
    rw [hm] at hj
    rw [ncNotes_none rfl, h.ncs j hj]
  · rw [hturn.pagesize, h.pagesize]

theorem Alone.ncTurn {t : NcTask} {ch : WorkerChoice} {ok : Bool} {conn : NcConn}
    {next : List NcTask} {es : List NcEvent} (h : Alone g_dwPagesize ns s (.nc i t key :: rest))
    (hi : i < s.nNcs) (hturn : NcTurn s i t ch.nc s' new ok conn next es) :
    Alone g_dwPagesize (ns ++ [(s.note (.nc i t key) ch, es.map (.nc i))]) s' (new ++ rest) := by
  obtain ⟨_, hncs, hm, hclients, hn⟩ := ncTurn_state hturn
  have hnote : s.note (.nc i t key) ch = .nc i ((s.ncs i).conn.view t { ch.nc with ok }) := by
    rw [hturn.granted]
    rfl
  rw [hturn.tasks, hnote]
  constructor
  · intro j hj
    rw [hn] at hj
    have hbefore := h.client j hj
    rw [clientTasks_nc] at hbefore
    rwa [hclients, clientNotes_none rfl, clientTasks_append, clientTasks_nc_map, List.nil_append]
  · intro j hj
    rw [hm] at hj
    have hbefore := h.nc j hj
    rcases eq_or_ne i j with rfl | hne
    · rw [ncTasks_self] at hbefore
      rw [hncs, Function.update_self, ncNotes_self, ncTasks_append, ncTasks_map]
      exact hbefore.turn hturn.step
    · rw [ncTasks_other hne] at hbefore
      rwa [hncs, Function.update_of_ne hne.symm, ncNotes_other hne, ncTasks_append,
        ncTasks_map_other _ hne, List.nil_append]
  · intro j hj
    rw [hn] at hj
    rw [clientNotes_none rfl, h.clients j hj]
  · intro j hj
    rw [hm] at hj
    rw [ncNotes_other (Nat.ne_of_lt (Nat.lt_of_lt_of_le hi hj)), h.ncs j hj]
  · rw [hturn.pagesize, h.pagesize]

/-- A call of fpAcceptex is no turn of a connection. -/
theorem Alone.quiet {ts : List Running} (h : Alone g_dwPagesize ns s ts) (server : Server)
    (ch : WorkerChoice) (es : List WorkerEvent) :
    Alone g_dwPagesize (ns ++ [(s.note (.acceptex server) ch, es)]) s ts where
  client i hi := by
    rw [clientNotes_none rfl]
    exact h.client i hi
  nc i hi := by
    rw [ncNotes_none rfl]
    exact h.nc i hi
  clients i hi := by
    rw [clientNotes_none rfl]
    exact h.clients i hi
  ncs i hi := by
    rw [ncNotes_none rfl]
    exact h.ncs i hi
  pagesize := h.pagesize

theorem Alone.clientOpened {ch : WorkerChoice}
    (h : Alone g_dwPagesize ns s (.acceptex .client :: rest))
    (hidle : clientTasks s.nClients rest = []) (hvalid : ch.sock ≠ INVALID_SOCKET)
    (hsize : s'.g_dwPagesize = s.g_dwPagesize) (hopened : ClientOpened s ch s' new) :
    Alone g_dwPagesize ns s' (new ++ rest) := by
  rw [hopened.tasks]
  constructor
  · intro j hj
    rw [hopened.nClients] at hj
    rcases eq_or_ne j s.nClients with rfl | hne
    · rw [hopened.clients, Function.update_self, h.clients _ (Nat.le_refl _), clientTasks_append,
        clientTasks_acceptex, clientTasks_self, hidle, h.pagesize]
      exact ⟨ch.pSock, ch.rsock, ch.sock, ch.robj, ch.mem, [.accept], hvalid, List.Perm.refl _,
        Run.nil⟩
    · have hbefore := h.client j (Nat.lt_of_le_of_ne (Nat.le_of_lt_succ hj) hne)
      rw [clientTasks_acceptex] at hbefore
      rwa [hopened.clients, Function.update_of_ne hne, clientTasks_append, clientTasks_acceptex,
        clientTasks_other hne.symm, clientTasks_nil, List.nil_append]
  · intro j hj
    rw [hopened.nNcs] at hj
    have hbefore := h.nc j hj
    rw [ncTasks_acceptex] at hbefore
    rwa [hopened.ncs, ncTasks_append, ncTasks_acceptex, ncTasks_client, ncTasks_nil,
      List.nil_append]
  · intro j hj
    rw [hopened.nClients] at hj
    exact h.clients j (Nat.le_of_succ_le hj)
  · intro j hj
    rw [hopened.nNcs] at hj
    exact h.ncs j hj
  · rw [hsize, h.pagesize]

theorem Alone.ncOpened {ch : WorkerChoice} (h : Alone g_dwPagesize ns s (.acceptex .nc :: rest))
    (hidle : ncTasks s.nNcs rest = []) (hvalid : ch.sock ≠ INVALID_SOCKET)
    (hsize : s'.g_dwPagesize = s.g_dwPagesize) (hopened : NcOpened s ch s' new) :
    Alone g_dwPagesize ns s' (new ++ rest) := by
  rw [hopened.tasks]
  constructor
  · intro j hj
    rw [hopened.nClients] at hj
    have hbefore := h.client j hj
    rw [clientTasks_acceptex] at hbefore
    rwa [hopened.clients, clientTasks_append, clientTasks_acceptex, clientTasks_nc,
      clientTasks_nil, List.nil_append]
  · intro j hj
    rw [hopened.nNcs] at hj
    rcases eq_or_ne j s.nNcs with rfl | hne
    · rw [hopened.ncs, Function.update_self, h.ncs _ (Nat.le_refl _), ncTasks_append,
        ncTasks_acceptex, ncTasks_self, hidle, h.pagesize]
      exact ⟨ch.pSock, ⟨ch.nKey, ch.sock⟩, ch.bobj, [.accept], hvalid, List.Perm.refl _, Run.nil⟩
    · have hbefore := h.nc j (Nat.lt_of_le_of_ne (Nat.le_of_lt_succ hj) hne)
      rw [ncTasks_acceptex] at hbefore
      rwa [hopened.ncs, Function.update_of_ne hne, ncTasks_append, ncTasks_acceptex,
        ncTasks_other hne.symm, ncTasks_nil, List.nil_append]
  · intro j hj
    rw [hopened.nClients] at hj
    exact h.clients j hj
  · intro j hj
    rw [hopened.nNcs] at hj
    exact h.ncs j (Nat.le_of_succ_le hj)
  · rw [hsize, h.pagesize]

theorem Alone.step {r : Running} {ch : WorkerChoice} (h : Alone g_dwPagesize ns s (r :: rest))
    (hinv : Inv s (r :: rest)) (hallowed : machine.allowed s ch)
    (hstep : s.step r ch = .ok (s', new, es)) :
    Alone g_dwPagesize (ns ++ [(s.note r ch, es)]) s' (new ++ rest) := by
  cases r with
  | acceptex server =>
    obtain ⟨_, hsize⟩ := postAcceptEx_quiet hstep
    have h := h.quiet server ch es
    rcases postAcceptEx_opened hstep with ⟨rfl, rfl⟩ | ⟨rfl, hopened⟩ | ⟨rfl, hopened⟩
    · exact h
    · exact h.clientOpened (hinv.clients _ (Nat.le_refl _)) hallowed.1.2 hsize hopened
    · exact h.ncOpened (hinv.ncs _ (Nat.le_refl _)) hallowed.1.2 hsize hopened
  | client i t key =>
    obtain ⟨ok, conn, next, es', rfl, hturn⟩ := clientStep_own hstep
    have hi := hinv.client_lt
    apply h.clientTurn hi _ hturn
    intro hmem
    have hused := (hinv.client i hi).pool (.bufferObj ch.client.pBObj) hmem
    rw [hallowed.2.2.2] at hused
    contradiction
  | nc i t key =>
    obtain ⟨_, ok, conn, next, es', rfl, hturn⟩ := ncStep_turn hstep
    exact h.ncTurn hinv.nc_lt hturn

end Step

section Run

variable {g_dwPagesize : DWORD} {sListenSock : Server → SOCKET} {others : SOCKET → Bool}
  {clients : ℕ → Client} {ncs : ℕ → Pusher} {conf : Conf Process Running}

theorem booted_alone (g_dwPagesize : DWORD) (sListenSock : Server → SOCKET)
    (others : SOCKET → Bool) (clients : ℕ → Client) (ncs : ℕ → Pusher) (ts : List Running) :
    Alone g_dwPagesize [] (booted g_dwPagesize sListenSock others clients ncs).shared ts where
  client i hi := absurd hi (Nat.not_lt_zero i)
  nc i hi := absurd hi (Nat.not_lt_zero i)
  clients _ _ := rfl
  ncs _ _ := rfl
  pagesize := rfl

theorem Alone.run {ns : List (WorkerNote × List WorkerEvent)}
    (h : Run (machine.noting note) (booted g_dwPagesize sListenSock others clients ncs) ns conf) :
    Inv conf.shared conf.tasks ∧ Alone g_dwPagesize ns conf.shared conf.tasks := by
  apply h.invariant fun ns conf => Inv conf.shared conf.tasks ∧
    Alone g_dwPagesize ns conf.shared conf.tasks
  · exact ⟨booted_inv _ _ _ _ _, booted_alone _ _ _ _ _ _⟩
  · rintro ns conf es conf' ⟨hinv, halone⟩ hstep
    cases hstep with
    | turn hp hallowed hs =>
      obtain ⟨evs, hok, rfl⟩ := noted_step hs
      have hpool := hinv.perm hp
      exact ⟨hpool.step hallowed hok, (halone.perm hp).step hpool hallowed hok⟩

/-- Whatever the other connections do and in whatever order the worker threads take their turns,
each connection goes through a run of the connection alone, in which the same tasks take the same
turns in the same states, with the same bytes, and do the same. That is so until an operation is
posted on a handle that has become another connection's: a run ends where its completion comes. -/
theorem connections_alone {ns : List (WorkerNote × List WorkerEvent)}
    (h : Run (machine.noting note) (booted g_dwPagesize sListenSock others clients ncs) ns conf) :
    Alone g_dwPagesize ns conf.shared conf.tasks := (Alone.run h).2

end Run

end Process

namespace ClientConn

/-- Not an access outside the ring or outside `data`. -/
def InBounds (o : Outcome) : Prop := o ≠ .error .outOfBounds

theorem InBounds.ok {r : ClientConn × List Task × List Event} : InBounds (.ok r) := nofun

section Guards

variable {p : Prop} [Decidable p] {k l : Outcome}

theorem InBounds.ite (hk : InBounds k) (hl : InBounds l) : InBounds (if p then k else l) := by
  split
  · exact hk
  · exact hl

theorem InBounds.uses (hk : InBounds k) : InBounds (guarded p .useAfterFree k) :=
  InBounds.ite hk nofun

theorem InBounds.frees (hk : InBounds k) : InBounds (guarded p .doubleFree k) :=
  InBounds.ite hk nofun

theorem InBounds.handles (hk : InBounds k) : InBounds (guarded p .wrongHandler k) :=
  InBounds.ite hk nofun

end Guards

/-- Only the delivery loop can leave the ring or the buffer of a command. -/
theorem step_inBounds {c : ClientConn} {t : Task} (ht : ∀ o, t ≠ .loop o) (ch : Choice) :
    InBounds (c.step t ch) := by
  have hclose (next : List Task) : InBounds (c.cmCloseSocket next) :=
    InBounds.ite InBounds.ok InBounds.ok
  have hpost (d : ClientConn) (b : BufferObjPtr) (evs : List Event) :
      InBounds (d.postSend b ch evs) :=
    InBounds.uses (InBounds.uses InBounds.ok)
  cases t with
  | loop o => exact absurd rfl (ht o)
  | accept | recv =>
    exact InBounds.handles (InBounds.uses (InBounds.uses (InBounds.ite InBounds.ok InBounds.ok)))
  | createPort n => exact InBounds.uses (InBounds.ite InBounds.ok InBounds.ok)
  | acceptClose | earlyClose => exact InBounds.uses (hclose _)
  | releaseClose k => exact InBounds.uses (hclose _)
  | acceptFreeRObj | acceptFreeRSock | earlyFreeRSock => exact InBounds.frees InBounds.ok
  | acceptFreeBObj b | recvFreeBObj b | releaseFreeRSock b => exact InBounds.frees InBounds.ok
  | addRef o b => exact InBounds.uses InBounds.ok
  | postCmd o b =>
    apply InBounds.uses
    apply InBounds.ite InBounds.ok
    cases o with
    | accept | recv => exact InBounds.ok
  | recvDecRef => exact InBounds.uses InBounds.ok
  | acceptDecRef b | release b | nextDecRef b => exact InBounds.uses InBounds.ok
  | postZeroRecv | postRecv => exact InBounds.uses (InBounds.uses InBounds.ok)
  | zeroRecv => exact InBounds.handles (InBounds.uses InBounds.ok)
  | releaseTail k =>
    cases k with
    | robj => exact InBounds.frees InBounds.ok
    | bobj b => exact InBounds.frees InBounds.ok
    | nothing => exact InBounds.ok
  | cmd b => exact InBounds.handles (InBounds.uses InBounds.ok)
  | command b => exact InBounds.uses (InBounds.ite (InBounds.uses InBounds.ok) InBounds.ok)
  | startSend b | repostSend b => exact hpost c b _
  | send b => exact InBounds.handles (InBounds.uses (InBounds.ite InBounds.ok InBounds.ok))
  | getNextData b =>
    apply InBounds.uses
    split
    · nofun
    · exact InBounds.ok
  | freeSent b obj =>
    cases obj with
    | none | some => exact InBounds.frees InBounds.ok
  | nextSend b => exact InBounds.uses (hpost _ b _)

end ClientConn

namespace Process

/-- A fault that no other connection and no other task has a part in. -/
inductive OwnFault : Running → WorkerFault → Prop
  | loop (i : ℕ) (o : Origin) (key : Option Key) : OwnFault (.client i (.loop o) key)
      (.client .outOfBounds)
  | check (i : ℕ) (key : Option Key) (f : NcFault) : OwnFault (.nc i .check key) (.nc (.check f))
  | wrongKey (r : Running) : OwnFault r .wrongKey

theorem Inv.faults {s : Process} {ts : List Running} (h : Inv s ts) {r : Running} (hr : r ∈ ts)
    {ch : WorkerChoice} {f : WorkerFault} (hstep : s.step r ch = .error f) : OwnFault r f := by
  cases r with
  | acceptex server =>
    change s.postAcceptEx server ch = _ at hstep
    unfold postAcceptEx at hstep
    dsimp only at hstep
    split at hstep
    · cases server with
      | client | nc => contradiction
    · contradiction
  | client i t key =>
    change s.clientStep i t key ch.client = _ at hstep
    unfold clientStep at hstep
    dsimp only at hstep
    split at hstep
    · split at hstep
      · case h_1 g herror =>
        have hready := h.ready hr
        have hg := ClientConn.step_ringOnly hready _ g herror
        rw [hg] at herror hstep
        have hloop : ∃ o, t = .loop o := by
          by_contra hno
          rw [not_exists] at hno
          exact ClientConn.step_inBounds hno _ herror
        obtain ⟨o, rfl⟩ := hloop
        cases hstep
        exact OwnFault.loop i o key
      · contradiction
    · cases hstep
      exact OwnFault.wrongKey _
  | nc i t key =>
    change s.ncStep i t key ch.nc = _ at hstep
    unfold ncStep at hstep
    dsimp only at hstep
    split at hstep
    · split at hstep
      · case h_1 g herror =>
        have hcons := h.perm (List.perm_cons_erase hr)
        obtain ⟨⟨sock, es, _, hstands⟩, _⟩ := hcons.nc_alone
        obtain ⟨rfl, g', rfl⟩ := hstands.faults herror
        cases hstep
        exact OwnFault.check i key g'
      · contradiction
    · cases hstep
      exact OwnFault.wrongKey _

/-- No interleaving of the connections makes a handler use what was freed, free anything twice, pop
an empty queue or run for an operation of another kind. The delivery loop and CheckNCData may leave
their buffers, and a completion may come with the key of another socket. -/
theorem process_faults {g_dwPagesize : DWORD} {sListenSock : Server → SOCKET}
    {others : SOCKET → Bool} {clients : ℕ → Client} {ncs : ℕ → Pusher} {evs : List WorkerEvent}
    {conf : Conf Process Running}
    (h : Run machine (booted g_dwPagesize sListenSock others clients ncs) evs conf) :
    ∀ r ∈ conf.tasks, ∀ ch f, conf.shared.step r ch = .error f → OwnFault r f := by
  intro r hr ch f hstep
  have hinv : Inv conf.shared conf.tasks := Inv.run (booted_inv _ _ _ _ _) h
  exact hinv.faults hr hstep

theorem client_connects : ∃ evs conf, Run machine sample evs conf ∧ 0 < conf.shared.nClients ∧
    conf.tasks = [.client 0 .postZeroRecv none, .acceptex .client, .acceptex .nc] := by
  have hplay : (play machine sample clientConnects).map
      (fun r => (decide (0 < r.2.shared.nClients), r.2.tasks)) =
        some (true, [.client 0 .postZeroRecv none, .acceptex .client, .acceptex .nc]) := by
    decide +kernel
  obtain ⟨evs, conf, hrun, hres⟩ := play_reaches hplay
  rw [Prod.mk.injEq] at hres
  exact ⟨evs, conf, hrun, of_decide_eq_true hres.1, hres.2⟩

theorem first_client_alone : ∃ ns conf, Run (machine.noting note) sample ns conf ∧
    ClientAlone 4096 (conf.shared.clients 0).conn (clientNotes 0 ns) [.postZeroRecv] := by
  obtain ⟨evs, conf, hrun, hclient, htasks⟩ := client_connects
  obtain ⟨ns, hnoted, _⟩ := hrun.noted note
  have halone := (connections_alone hnoted).client 0 hclient
  rw [htasks] at halone
  exact ⟨ns, conf, hnoted, halone⟩

theorem first_client_faults : ∃ evs conf, Run machine sample evs conf ∧
    ∀ ch f, conf.shared.step (.client 0 .postZeroRecv none) ch = .error f → f = .wrongKey := by
  obtain ⟨evs, conf, hrun, _, htasks⟩ := client_connects
  refine ⟨evs, conf, hrun, ?_⟩
  intro ch f hstep
  have hmem : .client 0 .postZeroRecv none ∈ conf.tasks := by
    rw [htasks]
    exact List.mem_cons_self
  cases process_faults hrun _ hmem ch f hstep with
  | wrongKey => rfl

end Process

end CustomersCard
