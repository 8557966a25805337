import CustomersCardMS.WorkerThread
import CustomersCardMS.ConnFaults
import CustomersCardMS.NcLifetime

namespace CustomersCard
open Interleaving

namespace Running

def client? (i : ℕ) : Running → Option Task
  | .client j t _ => if j = i then some t else none
  | _ => none

def nc? (i : ℕ) : Running → Option NcTask
  | .nc j t _ => if j = i then some t else none
  | _ => none

end Running

def clientTasks (i : ℕ) (ts : List Running) : List Task := ts.filterMap (Running.client? i)

def ncTasks (i : ℕ) (ts : List Running) : List NcTask := ts.filterMap (Running.nc? i)

section Tasks

variable {i j : ℕ} {key : Option Key} {ts us : List Running}

theorem clientTasks_perm (i : ℕ) (h : ts.Perm us) : (clientTasks i ts).Perm (clientTasks i us) :=
  h.filterMap _

theorem ncTasks_perm (i : ℕ) (h : ts.Perm us) : (ncTasks i ts).Perm (ncTasks i us) := h.filterMap _

@[simp] theorem clientTasks_append :
    clientTasks i (ts ++ us) = clientTasks i ts ++ clientTasks i us :=
  List.filterMap_append

@[simp] theorem ncTasks_append : ncTasks i (ts ++ us) = ncTasks i ts ++ ncTasks i us :=
  List.filterMap_append

@[simp] theorem clientTasks_self (t : Task) :
    clientTasks i (.client i t key :: ts) = t :: clientTasks i ts := by
  simp [clientTasks, Running.client?]

@[simp] theorem ncTasks_self (t : NcTask) : ncTasks i (.nc i t key :: ts) = t :: ncTasks i ts := by
  simp [ncTasks, Running.nc?]

theorem clientTasks_other (h : j ≠ i) (t : Task) :
    clientTasks i (.client j t key :: ts) = clientTasks i ts := by
  simp [clientTasks, Running.client?, h]

theorem ncTasks_other (h : j ≠ i) (t : NcTask) : ncTasks i (.nc j t key :: ts) = ncTasks i ts := by
  simp [ncTasks, Running.nc?, h]

@[simp] theorem clientTasks_nc (t : NcTask) :
    clientTasks i (.nc j t key :: ts) = clientTasks i ts :=
  rfl

@[simp] theorem ncTasks_client (t : Task) : ncTasks i (.client j t key :: ts) = ncTasks i ts := rfl

@[simp] theorem clientTasks_acceptex (server : Server) :
    clientTasks i (.acceptex server :: ts) = clientTasks i ts := rfl

@[simp] theorem ncTasks_acceptex (server : Server) :
    ncTasks i (.acceptex server :: ts) = ncTasks i ts := rfl

@[simp] theorem clientTasks_nil : clientTasks i [] = [] := rfl

@[simp] theorem ncTasks_nil : ncTasks i [] = [] := rfl

variable (key : Task → Option Key) (ncKey : NcTask → Option Key)

@[simp] theorem clientTasks_map (new : List Task) :
    clientTasks i (new.map fun t => .client i t (key t)) = new := by
  induction new with
  | nil => rfl
  | cons t new ih => rw [List.map_cons, clientTasks_self, ih]

@[simp] theorem ncTasks_map (new : List NcTask) :
    ncTasks i (new.map fun t => .nc i t (ncKey t)) = new := by
  induction new with
  | nil => rfl
  | cons t new ih => rw [List.map_cons, ncTasks_self, ih]

theorem clientTasks_map_other (h : j ≠ i) (new : List Task) :
    clientTasks i (new.map fun t => .client j t (key t)) = [] := by
  induction new with
  | nil => rfl
  | cons t new ih => rw [List.map_cons, clientTasks_other h, ih]

theorem ncTasks_map_other (h : j ≠ i) (new : List NcTask) :
    ncTasks i (new.map fun t => .nc j t (ncKey t)) = [] := by
  induction new with
  | nil => rfl
  | cons t new ih => rw [List.map_cons, ncTasks_other h, ih]

@[simp] theorem ncTasks_client_map (new : List Task) :
    ncTasks i (new.map fun t => .client j t (key t)) = [] := by
  induction new with
  | nil => rfl
  | cons t new ih => rw [List.map_cons, ncTasks_client, ih]

@[simp] theorem clientTasks_nc_map (new : List NcTask) :
    clientTasks i (new.map fun t => .nc j t (ncKey t)) = [] := by
  induction new with
  | nil => rfl
  | cons t new ih => rw [List.map_cons, clientTasks_nc, ih]

end Tasks

namespace ClientConn

/-- What a connection has of the pools. -/
def has (pRObj : ObjPtr) (c : ClientConn) : Object → Prop
  | .recvSock p => p = c.pRSock ∧ c.rsockLive = true
  | .recvObj p => p = pRObj ∧ c.robjLive = true
  | .bufferObj b => b ∈ c.objs
  | .bufferSock _ => False

end ClientConn

namespace Pusher

def has (c : Pusher) : Object → Prop
  | .bufferSock p => p = c.pBSock ∧ c.conn.bsockLive = true
  | .bufferObj p => p = c.pBObj ∧ c.conn.bobjLive = true
  | _ => False

end Pusher

namespace ClientConn

section Step

variable {c c' : ClientConn} {t : Task} {rest new : List Task} {evs : List Event} {ch : Choice}

/-- A step that leaves what the connection has. -/
theorem has_mono (c c' : ClientConn) {p : ObjPtr} (hsock : c'.pRSock = c.pRSock)
    (hlive : c'.rsockLive = true → c.rsockLive = true)
    (hlive' : c'.robjLive = true → c.robjLive = true) (hobjs : ∀ b ∈ c'.objs, b ∈ c.objs) :
    ∀ q, c'.has p q → c.has p q := by
  intro q hq
  cases q with
  | recvSock r => exact ⟨hq.1.trans hsock, hlive hq.2⟩
  | recvObj r => exact ⟨hq.1, hlive' hq.2⟩
  | bufferObj b => exact hobjs b hq
  | bufferSock r => exact hq

/-- What a step of a client connection does with the pools. -/
theorem Turn.moves (p : ObjPtr) (h : Owned c (t :: rest)) (hturn : Turn c t c' new evs) :
    OwnerTable.Moves (c.has p) (c'.has p) (evs.filterMap (Event.pool? c.pRSock p)) := by
  have hready := h.ready List.mem_cons_self
  have hsock := hturn.frame.pRSock
  have hkeep (hl : c'.rsockLive = c.rsockLive) (hl' : c'.robjLive = c.robjLive)
      (hobjs : c'.objs = c.objs) (hevs : evs.filterMap (Event.pool? c.pRSock p) = []) :
      OwnerTable.Moves (c.has p) (c'.has p) (evs.filterMap (Event.pool? c.pRSock p)) := by
    rw [hevs]
    apply OwnerTable.Moves.keep
    apply has_mono c c' hsock
    · rw [hl]
      exact id
    · rw [hl']
      exact id
    · rw [hobjs]
      exact fun _ hb => hb
  have hfreeRSock (hl : c.rsockLive = true) : OwnerTable.Moves (c.has p)
      ({ c with rsockLive := false }.has p) [.drop (.recvSock c.pRSock)] := by
    apply OwnerTable.Moves.drop _ ⟨rfl, hl⟩
    intro q hq
    refine ⟨?_, ?_⟩
    · exact has_mono c { c with rsockLive := false } rfl nofun id (fun _ hb => hb) q hq
    · intro heq
      rw [heq] at hq
      exact absurd hq.2 Bool.false_ne_true
  have hfreeRObj (hl : c.robjLive = true) : OwnerTable.Moves (c.has p)
      ({ c with robjLive := false }.has p) [.drop (.recvObj p)] := by
    apply OwnerTable.Moves.drop _ ⟨rfl, hl⟩
    intro q hq
    refine ⟨?_, ?_⟩
    · exact has_mono c { c with robjLive := false } rfl id nofun (fun _ hb => hb) q hq
    · intro heq
      rw [heq] at hq
      exact absurd hq.2 Bool.false_ne_true
  cases hturn.fires with
  | pass _ hl hc _ =>
    apply hkeep hl.rsockLive hl.robjLive hl.objs
    cases hc <;> rfl
  | queue _ _ hl => exact hkeep hl.rsockLive hl.robjLive hl.objs rfl
  | start _ _ _ hl => exact hkeep hl.rsockLive hl.robjLive hl.objs rfl
  | sent _ _ _ _ hl => exact hkeep hl.rsockLive hl.robjLive hl.objs rfl
  | enqueue _ _ _ _ _ hl hl' hobjs => exact hkeep hl hl' hobjs rfl
  -- allocBObj is the only call that takes something.
  | alloc o b _ _ _ hl hl' hobjs =>
    apply OwnerTable.Moves.take
    intro q hq
    cases q with
    | recvSock r => exact Or.inr ⟨hq.1.trans hsock, hl.symm.trans hq.2⟩
    | recvObj r => exact Or.inr ⟨hq.1, hl'.symm.trans hq.2⟩
    | bufferObj b' =>
      change b' ∈ c'.objs at hq
      rw [hobjs] at hq
      rcases List.mem_cons.mp hq with rfl | hmem
      · exact Or.inl rfl
      · exact Or.inr hmem
    | bufferSock r => exact Or.inr hq
  | freeBObj b hb =>
    have hb' : c.has p (.bufferObj b) := hb
    apply OwnerTable.Moves.drop _ hb'
    intro q hq
    refine ⟨has_mono c { c with objs := c.objs.erase b } rfl id id
      (fun _ hmem => List.mem_of_mem_erase hmem) q hq, ?_⟩
    intro heq
    rw [heq] at hq
    exact h.distinct.not_mem_erase hq
  | acceptFreeRSock => exact hfreeRSock (hready.rsock (by decide))
  | earlyFreeRSock => exact hfreeRSock (hready.rsock (by decide))
  | releaseFreeRSock k => exact hfreeRSock (hready.rsock (by decide : 0 < 1))
  | acceptFreeRObj => exact hfreeRObj (hready.robj rfl)
  | releaseFreeRObj => exact hfreeRObj (hready.robj rfl)
  | _ => exact hkeep rfl rfl rfl rfl

/-- The only object that a step takes is the one that the pool hands out. -/
theorem step_alloc (h : c.step t ch = .ok (c', new, evs)) (hfresh : ch.pBObj ∉ c.objs)
    {b : BufferObjPtr} (hb : .allocBObj b ∈ evs) : b = ch.pBObj := by
  cases (step_turn hfresh h).fires with
  | alloc o b' =>
    simp only [step, withRSock, guarded_ok, loopStep] at h
    rcases h with ⟨_, h⟩
    split at h
    · contradiction
    split at h
    · rw [ok_inj] at h
      rcases h with ⟨_, hnew, _⟩
      simp at hnew
    · unfold takeCommand at h
      split at h
      · contradiction
      split at h
      · contradiction
      · rw [ok_inj] at h
        rw [← h.2.2, List.mem_singleton] at hb
        exact Event.allocBObj.inj hb
  | pass _ _ hc =>
    cases hc with
    | keeps => contradiction
    | closes => simp at hb
  | _ => simp at hb

theorem step_takes {p : ObjPtr} (h : c.step t ch = .ok (c', new, evs)) (hfresh : ch.pBObj ∉ c.objs)
    {q : Object} (hq : .take q ∈ evs.filterMap (Event.pool? c.pRSock p)) :
    q = .bufferObj ch.pBObj := by
  rcases List.mem_filterMap.mp hq with ⟨e, he, hsome⟩
  cases e with
  | allocBObj b =>
    rw [← step_alloc h hfresh he]
    exact (OwnerTable.Change.take.inj (Option.some.inj hsome)).symm
  | freeBObj b | freeRSock | freeRObj =>
    have hchange := Option.some.inj hsome
    contradiction
  | _ => contradiction

end Step

end ClientConn

namespace NcConn

/-- What a step of a connection that pushes requests does with the pools. -/
theorem Fires.moves {sock : SOCKET} {es evs : List NcEvent} {p : Pusher} {conn : NcConn}
    {t : NcTask} {rest new : List NcTask} (h : Stands sock es p.conn (t :: rest))
    (hf : Fires p.conn t conn new evs) :
    OwnerTable.Moves p.has ({ p with conn }.has)
      (evs.filterMap (NcEvent.pool? p.pBSock p.pBObj)) := by
  have hkeep (hl : conn.bsockLive = p.conn.bsockLive) (hl' : conn.bobjLive = p.conn.bobjLive)
      (hevs : evs.filterMap (NcEvent.pool? p.pBSock p.pBObj) = []) :
      OwnerTable.Moves p.has ({ p with conn }.has)
        (evs.filterMap (NcEvent.pool? p.pBSock p.pBObj)) := by
    rw [hevs]
    apply OwnerTable.Moves.keep
    intro q hq
    cases q with
    | bufferSock r => exact ⟨hq.1, hl.symm.trans hq.2⟩
    | bufferObj r => exact ⟨hq.1, hl'.symm.trans hq.2⟩
    | recvSock r | recvObj r => exact hq
  cases hf with
  | goes _ _ _ _ _ hl hl' => exact hkeep hl hl' rfl
  | waits => exact hkeep rfl rfl rfl
  | strays =>
    apply hkeep rfl rfl
    apply List.filterMap_eq_nil_iff.mpr
    intro e he
    rcases List.mem_map.mp he with ⟨_, _, rfl⟩
    rfl
  | completes => exact hkeep rfl rfl rfl
  | closes =>
    apply hkeep rfl rfl
    split
    · rfl
    · rfl
  | freeBSock =>
    cases h with
    | serves hserves => contradiction
    | closed _ hl =>
      have hhas : p.has (.bufferSock p.pBSock) := ⟨rfl, hl⟩
      apply OwnerTable.Moves.drop _ hhas
      intro q hq
      cases q with
      | bufferSock r => exact absurd hq.2 (by simp)
      | bufferObj r => exact ⟨hq, by simp⟩
      | recvSock r | recvObj r => exact False.elim hq
  | freeBObj =>
    cases h with
    | serves hserves => contradiction
    | half _ _ hl' =>
      have hhas : p.has (.bufferObj p.pBObj) := ⟨rfl, hl'⟩
      apply OwnerTable.Moves.drop _ hhas
      intro q hq
      cases q with
      | bufferSock r => exact ⟨hq, by simp⟩
      | bufferObj r => exact absurd hq.2 (by simp)
      | recvSock r | recvObj r => exact False.elim hq

end NcConn

namespace Process

@[simp] theorem associate_owner (s : Process) (sock : SOCKET) (key : Key) (done : Bool) :
    (s.associate sock key done).owner = s.owner := by
  cases done <;> rfl

@[simp] theorem associate_user (s : Process) (sock : SOCKET) (key : Key) (done : Bool) :
    (s.associate sock key done).user = s.user := by
  cases done <;> rfl

@[simp] theorem associate_clients (s : Process) (sock : SOCKET) (key : Key) (done : Bool) :
    (s.associate sock key done).clients = s.clients ∧
      (s.associate sock key done).nClients = s.nClients := by
  cases done <;> exact ⟨rfl, rfl⟩

@[simp] theorem associate_ncs (s : Process) (sock : SOCKET) (key : Key) (done : Bool) :
    (s.associate sock key done).ncs = s.ncs ∧ (s.associate sock key done).nNcs = s.nNcs := by
  cases done <;> exact ⟨rfl, rfl⟩

/-- A step of the client connection `i`: what it is for the connection, and for the process. -/
structure ClientTurn (s : Process) (i : ℕ) (t : Task) (ch : Choice) (s' : Process)
    (new : List Running) (ok : Bool) (conn : ClientConn) (next : List Task)
    (es : List Event) : Prop where
  granted : ok = (ch.ok && s.grants (s.clients i).conn.rsock.sock t.posts t.associates)
  step : (s.clients i).conn.step t { ch with ok } = .ok (conn, next, es)
  state : s' = (s.clientEffects i conn es).associate (s.clients i).conn.rsock.sock
    (.recvSock (s.clients i).conn.pRSock) (t.associates && ok)
  tasks : new = next.map fun t' => .client i t' (s'.clientKey conn.rsock.sock t')

structure NcTurn (s : Process) (i : ℕ) (t : NcTask) (ch : NcChoice) (s' : Process)
    (new : List Running) (ok : Bool) (conn : NcConn) (next : List NcTask)
    (es : List NcEvent) : Prop where
  granted : ok = (ch.ok && s.grants (s.ncs i).conn.bsock.sock t.posts t.associates)
  step : (s.ncs i).conn.step t { ch with ok } = .ok (conn, next, es)
  state : s' = (s.ncEffects i conn es).associate (s.ncs i).conn.bsock.sock
    (.bufferSock (s.ncs i).pBSock) (t.associates && ok)
  tasks : new = next.map fun t' => .nc i t' (s'.ncKey conn.bsock.sock t')

section Step

variable {s s' : Process} {i : ℕ} {key : Option Key} {rest new : List Running}
  {evs : List WorkerEvent}

theorem clientStep_turn {t : Task} {ch : Choice}
    (h : s.clientStep i t key ch = .ok (s', new, evs)) :
    key = t.expects (s.clients i).conn.pRSock ∧
      ∃ ok conn next es, ClientTurn s i t ch s' new ok conn next es := by
  unfold clientStep at h
  dsimp only at h
  split at h
  · case isTrue hkey =>
    refine ⟨hkey, ?_⟩
    split at h
    · contradiction
    · case h_2 conn next es hstep =>
      rw [Except.ok.injEq, Prod.mk.injEq, Prod.mk.injEq] at h
      rcases h with ⟨rfl, rfl, _⟩
      exact ⟨_, conn, next, es, rfl, hstep, rfl, rfl⟩
  · contradiction

theorem ncStep_turn {t : NcTask} {ch : NcChoice} (h : s.ncStep i t key ch = .ok (s', new, evs)) :
    key = t.expects (s.ncs i).pBSock ∧ ∃ ok conn next es, evs = es.map (.nc i) ∧
      NcTurn s i t ch s' new ok conn next es := by
  unfold ncStep at h
  dsimp only at h
  split at h
  · case isTrue hkey =>
    refine ⟨hkey, ?_⟩
    split at h
    · contradiction
    · case h_2 conn next es hstep =>
      rw [Except.ok.injEq, Prod.mk.injEq, Prod.mk.injEq] at h
      rcases h with ⟨rfl, rfl, hevs⟩
      exact ⟨_, conn, next, es, hevs.symm, rfl, hstep, rfl, rfl⟩
  · contradiction

end Step

structure ClientInv (s : Process) (i : ℕ) (ts : List Task) : Prop where
  owned : ClientConn.Owned (s.clients i).conn ts
  pool : ∀ o, (s.clients i).conn.has (s.clients i).pRObj o → s.user o = some (.client i)

structure NcInv (s : Process) (i : ℕ) (ts : List NcTask) : Prop where
  stands : ∃ sock evs, sock ≠ INVALID_SOCKET ∧ NcConn.Stands sock evs (s.ncs i).conn ts
  pool : ∀ o, (s.ncs i).has o → s.user o = some (.nc i)

/-- Each connection keeps its own invariant, and has what the pools have it down for. -/
structure Inv (s : Process) (ts : List Running) : Prop where
  client : ∀ i < s.nClients, ClientInv s i (clientTasks i ts)
  nc : ∀ i < s.nNcs, NcInv s i (ncTasks i ts)
  clients : ∀ i, s.nClients ≤ i → clientTasks i ts = []
  ncs : ∀ i, s.nNcs ≤ i → ncTasks i ts = []

section Keep

variable {s s' : Process} {i : ℕ} {ts us : List Running}

theorem ClientInv.perm {ts us : List Task} (h : ClientInv s i ts) (hp : ts.Perm us) :
    ClientInv s i us := ⟨h.owned.perm hp, h.pool⟩

theorem NcInv.perm {ts us : List NcTask} (h : NcInv s i ts) (hp : ts.Perm us) : NcInv s i us := by
  obtain ⟨sock, evs, hsock, hstands⟩ := h.stands
  have hts : ts = us := by
    cases hstands with
    | serves | closed | half => exact List.singleton_perm.mp hp
    | kept | released => exact (List.nil_perm.mp hp).symm
  rwa [← hts]

theorem Inv.perm (h : Inv s ts) (hp : ts.Perm us) : Inv s us where
  client i hi := (h.client i hi).perm (clientTasks_perm i hp)
  nc i hi := (h.nc i hi).perm (ncTasks_perm i hp)
  clients i hi := by
    have hperm := clientTasks_perm i hp
    rw [h.clients i hi] at hperm
    exact List.nil_perm.mp hperm
  ncs i hi := by
    have hperm := ncTasks_perm i hp
    rw [h.ncs i hi] at hperm
    exact List.nil_perm.mp hperm

/-- A connection that does not take part in a step. -/
theorem ClientInv.congr {ts : List Task} (h : ClientInv s i ts) (hc : s'.clients i = s.clients i)
    (hu : ∀ o, s.user o = some (.client i) → s'.user o = some (.client i)) : ClientInv s' i ts := by
  constructor
  · rw [hc]
    exact h.owned
  · intro o ho
    rw [hc] at ho
    exact hu o (h.pool o ho)

theorem NcInv.congr {ts : List NcTask} (h : NcInv s i ts) (hc : s'.ncs i = s.ncs i)
    (hu : ∀ o, s.user o = some (.nc i) → s'.user o = some (.nc i)) : NcInv s' i ts := by
  constructor
  · rw [hc]
    exact h.stands
  · intro o ho
    rw [hc] at ho
    exact hu o (h.pool o ho)

end Keep

section Step

variable {s s' : Process} {i : ℕ} {key : Option Key} {rest new : List Running}
  {evs : List WorkerEvent}

theorem clientTurn_state {t : Task} {ch : Choice} {ok : Bool} {conn : ClientConn} {next : List Task}
    {es : List Event} (h : ClientTurn s i t ch s' new ok conn next es) :
    s'.user = OwnerTable.run (.client i) s.user (es.filterMap
        (Event.pool? (s.clients i).conn.pRSock (s.clients i).pRObj)) ∧
      s'.clients = Function.update s.clients i { s.clients i with conn } ∧
      s'.nClients = s.nClients ∧ s'.ncs = s.ncs ∧ s'.nNcs = s.nNcs := by
  rw [h.state]
  simp [clientEffects]

theorem ncTurn_state {t : NcTask} {ch : NcChoice} {ok : Bool} {conn : NcConn} {next : List NcTask}
    {es : List NcEvent} (h : NcTurn s i t ch s' new ok conn next es) :
    s'.user = OwnerTable.run (.nc i) s.user (es.filterMap
        (NcEvent.pool? (s.ncs i).pBSock (s.ncs i).pBObj)) ∧
      s'.ncs = Function.update s.ncs i { s.ncs i with conn } ∧
      s'.nNcs = s.nNcs ∧ s'.clients = s.clients ∧ s'.nClients = s.nClients := by
  rw [h.state]
  simp [ncEffects]

theorem Inv.client_lt {t : Task} (h : Inv s (.client i t key :: rest)) : i < s.nClients := by
  by_contra hge
  have hnil := h.clients i (Nat.le_of_not_lt hge)
  rw [clientTasks_self] at hnil
  contradiction

theorem Inv.nc_lt {t : NcTask} (h : Inv s (.nc i t key :: rest)) : i < s.nNcs := by
  by_contra hge
  have hnil := h.ncs i (Nat.le_of_not_lt hge)
  rw [ncTasks_self] at hnil
  contradiction

/-- A step of a client connection. -/
theorem Inv.clientTurn {t : Task} {ch : Choice} {ok : Bool} {conn : ClientConn} {next : List Task}
    {es : List Event} (h : Inv s (.client i t key :: rest))
    (hfresh : s.user (.bufferObj ch.pBObj) = none)
    (hturn : ClientTurn s i t ch s' new ok conn next es) : Inv s' (new ++ rest) := by
  have hi := h.client_lt
  have hinv := h.client i hi
  rw [clientTasks_self] at hinv
  obtain ⟨huser, hclients, hn, hncs, hm⟩ := clientTurn_state hturn
  have hnew : ({ ch with ok } : Choice).pBObj ∉ (s.clients i).conn.objs := by
    intro hmem
    have hused := hinv.pool (.bufferObj ch.pBObj) hmem
    rw [hfresh] at hused
    contradiction
  have hlocal := ClientConn.step_turn hnew hturn.step
  have hmoves := hlocal.moves (s.clients i).pRObj hinv.owned
  have hfair := hmoves.fair hinv.pool fun o ho => by
    rw [ClientConn.step_takes hturn.step hnew ho]
    exact hfresh
  -- The turn drops only what was its own, and takes only what nobody had.
  have hspares (w : Owner) (hw : w ≠ .client i) (o : Object) (ho : s.user o = some w) :
      s'.user o = some w := by
    rw [huser]
    exact OwnerTable.run_spares hfair hw ho
  rw [hturn.tasks]
  constructor
  · intro j hj
    rw [hn] at hj
    rcases eq_or_ne i j with rfl | hne
    · rw [clientTasks_append, clientTasks_map]
      constructor
      · rw [hclients, Function.update_self]
        exact hinv.owned.turn hlocal
      · intro o ho
        rw [hclients, Function.update_self] at ho
        rw [huser]
        exact hmoves.holds hinv.pool o ho
    · have hother := h.client j hj
      rw [clientTasks_other hne] at hother
      rw [clientTasks_append, clientTasks_map_other _ hne, List.nil_append]
      apply hother.congr
      · rw [hclients, Function.update_of_ne hne.symm]
      · exact hspares _ (by simpa using hne.symm)
  · intro j hj
    rw [hm] at hj
    have hother := h.nc j hj
    rw [ncTasks_client] at hother
    rw [ncTasks_append, ncTasks_client_map, List.nil_append]
    apply hother.congr
    · rw [hncs]
    · exact hspares _ (by simp)
  · intro j hj
    rw [hn] at hj
    have hother := h.clients j hj
    have hne : i ≠ j := Nat.ne_of_lt (Nat.lt_of_lt_of_le hi hj)
    rw [clientTasks_other hne] at hother
    rw [clientTasks_append, clientTasks_map_other _ hne, List.nil_append, hother]
  · intro j hj
    rw [hm] at hj
    have hother := h.ncs j hj
    rw [ncTasks_client] at hother
    rw [ncTasks_append, ncTasks_client_map, List.nil_append, hother]

/-- A step of a connection that pushes requests. -/
theorem Inv.ncTurn {t : NcTask} {ch : NcChoice} {ok : Bool} {conn : NcConn} {next : List NcTask}
    {es : List NcEvent} (h : Inv s (.nc i t key :: rest))
    (hturn : NcTurn s i t ch s' new ok conn next es) : Inv s' (new ++ rest) := by
  have hi := h.nc_lt
  have hinv := h.nc i hi
  rw [ncTasks_self] at hinv
  obtain ⟨huser, hncs, hm, hclients, hn⟩ := ncTurn_state hturn
  obtain ⟨sock, before, hsock, hstands⟩ := hinv.stands
  have hlocal := NcConn.step_fires hturn.step
  have hmoves := hlocal.moves hstands
  -- A pusher takes nothing after its AcceptEx.
  have hfair := hmoves.fair hinv.pool fun o ho => by
    rcases List.mem_filterMap.mp ho with ⟨e, _, hsome⟩
    cases e with
    | freeBSock | freeBObj =>
      have hchange := Option.some.inj hsome
      contradiction
    | _ => contradiction
  have hspares (w : Owner) (hw : w ≠ .nc i) (o : Object) (ho : s.user o = some w) :
      s'.user o = some w := by
    rw [huser]
    exact OwnerTable.run_spares hfair hw ho
  rw [hturn.tasks]
  constructor
  · intro j hj
    rw [hn] at hj
    have hother := h.client j hj
    rw [clientTasks_nc] at hother
    rw [clientTasks_append, clientTasks_nc_map, List.nil_append]
    apply hother.congr
    · rw [hclients]
    · exact hspares _ (by simp)
  · intro j hj
    rw [hm] at hj
    rcases eq_or_ne i j with rfl | hne
    · rw [ncTasks_append, ncTasks_map]
      constructor
      · rw [hncs, Function.update_self]
        exact ⟨sock, before ++ es, hsock, hstands.fires hsock hlocal⟩
      · intro o ho
        rw [hncs, Function.update_self] at ho
        rw [huser]
        exact hmoves.holds hinv.pool o ho
    · have hother := h.nc j hj
      rw [ncTasks_other hne] at hother
      rw [ncTasks_append, ncTasks_map_other _ hne, List.nil_append]
      apply hother.congr
      · rw [hncs, Function.update_of_ne hne.symm]
      · exact hspares _ (by simpa using hne.symm)
  · intro j hj
    rw [hn] at hj
    have hother := h.clients j hj
    rw [clientTasks_nc] at hother
    rw [clientTasks_append, clientTasks_nc_map, List.nil_append, hother]
  · intro j hj
    rw [hm] at hj
    have hother := h.ncs j hj
    have hne : i ≠ j := Nat.ne_of_lt (Nat.lt_of_lt_of_le hi hj)
    rw [ncTasks_other hne] at hother
    rw [ncTasks_append, ncTasks_map_other _ hne, List.nil_append, hother]

/-- A new connection, for which AcceptEx was called. -/
structure ClientOpened (s : Process) (ch : WorkerChoice) (s' : Process) (new : List Running) :
    Prop where
  listens : s.owner (s.sListenSock .client) = some (.listener .client)
  owner : s'.owner = Function.update s.owner ch.sock (some (.client s.nClients))
  key : s'.key = Function.update s.key ch.sock none
  user : s'.user = OwnerTable.run (.client s.nClients) s.user
    ([.recvSock ch.pSock, .recvObj ch.pObj].map .take)
  clients : s'.clients = Function.update s.clients s.nClients
    ⟨ClientConn.connected s.g_dwPagesize ch.pSock ch.rsock ch.sock ch.robj ch.mem, ch.pObj⟩
  nClients : s'.nClients = s.nClients+1
  ncs : s'.ncs = s.ncs
  nNcs : s'.nNcs = s.nNcs
  sListenSock : s'.sListenSock = s.sListenSock
  tasks : new = [.acceptex .client, .client s.nClients .accept (s.key (s.sListenSock .client))]

structure NcOpened (s : Process) (ch : WorkerChoice) (s' : Process) (new : List Running) :
    Prop where
  listens : s.owner (s.sListenSock .nc) = some (.listener .nc)
  owner : s'.owner = Function.update s.owner ch.sock (some (.nc s.nNcs))
  key : s'.key = Function.update s.key ch.sock none
  user : s'.user = OwnerTable.run (.nc s.nNcs) s.user
    ([.bufferSock ch.pSock, .bufferObj ch.pObj].map .take)
  ncs : s'.ncs = Function.update s.ncs s.nNcs
    ⟨NcConn.connected s.g_dwPagesize ch.pSock ⟨ch.nKey, ch.sock⟩ ch.bobj, ch.pSock, ch.pObj⟩
  nNcs : s'.nNcs = s.nNcs+1
  clients : s'.clients = s.clients
  nClients : s'.nClients = s.nClients
  sListenSock : s'.sListenSock = s.sListenSock
  tasks : new = [.acceptex .nc, .nc s.nNcs .accept (s.key (s.sListenSock .nc))]

theorem postAcceptEx_opened {server : Server} {ch : WorkerChoice}
    (h : s.postAcceptEx server ch = .ok (s', new, evs)) : (s' = s ∧ new = [.acceptex server]) ∨
      (server = .client ∧ ClientOpened s ch s' new) ∨ (server = .nc ∧ NcOpened s ch s' new) := by
  unfold postAcceptEx at h
  dsimp only at h
  split at h
  · case isTrue hok =>
    cases server with
    | client =>
      cases h
      exact Or.inr (Or.inl ⟨rfl, hok.2, rfl, rfl, rfl, rfl, rfl, rfl, rfl, rfl, rfl⟩)
    | nc =>
      cases h
      exact Or.inr (Or.inr ⟨rfl, hok.2, rfl, rfl, rfl, rfl, rfl, rfl, rfl, rfl, rfl⟩)
  · cases h
    exact Or.inl ⟨rfl, rfl⟩

/-- Two objects of different kinds that nobody uses. -/
theorem opens_fair {w : Owner} {o o' : Object} (hne : o ≠ o') (ho : s.user o = none)
    (ho' : s.user o' = none) : OwnerTable.FairRun w s.user ([o, o'].map .take) := by
  apply OwnerTable.takes_fair
  · simpa using hne
  · intro q hq
    rcases List.mem_cons.mp hq with rfl | hq
    · exact ho
    · rw [List.mem_singleton.mp hq]
      exact ho'

theorem Inv.clientOpened {ch : WorkerChoice} (h : Inv s (.acceptex .client :: rest))
    (hallowed : machine.allowed s ch) (hopened : ClientOpened s ch s' new) :
    Inv s' (new ++ rest) := by
  obtain ⟨_, ⟨hrsock, _⟩, ⟨hrobj, _⟩, _⟩ := hallowed
  have hfair := opens_fair (w := .client s.nClients) (by simp) hrsock hrobj
  have hspares (w : Owner) (hw : w ≠ .client s.nClients) (o : Object) (ho : s.user o = some w) :
      s'.user o = some w := by
    rw [hopened.user]
    exact OwnerTable.run_spares hfair hw ho
  have hnil := h.clients s.nClients (Nat.le_refl _)
  rw [clientTasks_acceptex] at hnil
  rw [hopened.tasks]
  constructor
  · intro j hj
    rw [hopened.nClients] at hj
    rcases eq_or_ne j s.nClients with rfl | hne
    -- The new one, with the two objects it has just taken.
    · rw [clientTasks_append, clientTasks_acceptex, clientTasks_self, hnil]
      constructor
      · rw [hopened.clients, Function.update_self]
        exact ClientConn.start_owned _ _ _ _ _ _
      · intro o ho
        rw [hopened.clients, Function.update_self] at ho
        rw [hopened.user]
        apply OwnerTable.takes_hold
        cases o with
        | recvSock r =>
          rw [ho.1]
          exact List.mem_cons_self
        | recvObj r =>
          rw [ho.1]
          exact List.mem_cons_of_mem _ List.mem_cons_self
        | bufferObj b => exact absurd ho List.not_mem_nil
        | bufferSock r => exact False.elim ho
    · have hother := h.client j (Nat.lt_of_le_of_ne (Nat.le_of_lt_succ hj) hne)
      rw [clientTasks_acceptex] at hother
      rw [clientTasks_append, clientTasks_acceptex, clientTasks_other hne.symm, clientTasks_nil,
        List.nil_append]
      apply hother.congr
      · rw [hopened.clients, Function.update_of_ne hne]
      · exact hspares _ (by simpa using hne)
  · intro j hj
    rw [hopened.nNcs] at hj
    have hother := h.nc j hj
    rw [ncTasks_acceptex] at hother
    rw [ncTasks_append, ncTasks_acceptex, ncTasks_client, ncTasks_nil, List.nil_append]
    apply hother.congr
    · rw [hopened.ncs]
    · exact hspares _ (by simp)
  · intro j hj
    rw [hopened.nClients] at hj
    have hother := h.clients j (Nat.le_of_succ_le hj)
    rw [clientTasks_acceptex] at hother
    rw [clientTasks_append, clientTasks_acceptex, clientTasks_other (Nat.ne_of_lt hj), hother]
    rfl
  · intro j hj
    rw [hopened.nNcs] at hj
    have hother := h.ncs j hj
    rw [ncTasks_acceptex] at hother
    rw [ncTasks_append, ncTasks_acceptex, ncTasks_client, hother]
    rfl

theorem Inv.ncOpened {ch : WorkerChoice} (h : Inv s (.acceptex .nc :: rest))
    (hallowed : machine.allowed s ch) (hopened : NcOpened s ch s' new) :
    Inv s' (new ++ rest) := by
  obtain ⟨⟨_, hvalid⟩, ⟨_, hbsock⟩, ⟨_, hbobj⟩, _⟩ := hallowed
  have hfair := opens_fair (w := .nc s.nNcs) (by simp) hbsock hbobj
  have hspares (w : Owner) (hw : w ≠ .nc s.nNcs) (o : Object) (ho : s.user o = some w) :
      s'.user o = some w := by
    rw [hopened.user]
    exact OwnerTable.run_spares hfair hw ho
  have hnil := h.ncs s.nNcs (Nat.le_refl _)
  rw [ncTasks_acceptex] at hnil
  rw [hopened.tasks]
  constructor
  · intro j hj
    rw [hopened.nClients] at hj
    have hother := h.client j hj
    rw [clientTasks_acceptex] at hother
    rw [clientTasks_append, clientTasks_acceptex, clientTasks_nc, clientTasks_nil, List.nil_append]
    apply hother.congr
    · rw [hopened.clients]
    · exact hspares _ (by simp)
  · intro j hj
    rw [hopened.nNcs] at hj
    rcases eq_or_ne j s.nNcs with rfl | hne
    · rw [ncTasks_append, ncTasks_acceptex, ncTasks_self, hnil]
      constructor
      · rw [hopened.ncs, Function.update_self]
        refine ⟨ch.sock, [], hvalid, ?_⟩
        apply NcConn.Stands.serves
        · trivial
        · exact ⟨rfl, rfl⟩
        · rfl
        · rfl
        · rfl
        · exact fun n => List.not_mem_nil
      · intro o ho
        rw [hopened.ncs, Function.update_self] at ho
        rw [hopened.user]
        apply OwnerTable.takes_hold
        cases o with
        | bufferSock r =>
          rw [ho.1]
          exact List.mem_cons_self
        | bufferObj r =>
          rw [ho.1]
          exact List.mem_cons_of_mem _ List.mem_cons_self
        | recvSock r | recvObj r => exact False.elim ho
    · have hother := h.nc j (Nat.lt_of_le_of_ne (Nat.le_of_lt_succ hj) hne)
      rw [ncTasks_acceptex] at hother
      rw [ncTasks_append, ncTasks_acceptex, ncTasks_other hne.symm, ncTasks_nil, List.nil_append]
      apply hother.congr
      · rw [hopened.ncs, Function.update_of_ne hne]
      · exact hspares _ (by simpa using hne)
  · intro j hj
    rw [hopened.nClients] at hj
    have hother := h.clients j hj
    rw [clientTasks_acceptex] at hother
    rw [clientTasks_append, clientTasks_acceptex, clientTasks_nc, hother]
    rfl
  · intro j hj
    rw [hopened.nNcs] at hj
    have hother := h.ncs j (Nat.le_of_succ_le hj)
    rw [ncTasks_acceptex] at hother
    rw [ncTasks_append, ncTasks_acceptex, ncTasks_other (Nat.ne_of_lt hj), hother]
    rfl

/-- Every step of every connection, and every new connection, keeps the invariant. -/
theorem Inv.step {r : Running} {ch : WorkerChoice} (h : Inv s (r :: rest))
    (hallowed : machine.allowed s ch) (hstep : s.step r ch = .ok (s', new, evs)) :
    Inv s' (new ++ rest) := by
  cases r with
  | acceptex server =>
    rcases postAcceptEx_opened hstep with ⟨rfl, rfl⟩ | ⟨rfl, hopened⟩ | ⟨rfl, hopened⟩
    · exact h
    · exact h.clientOpened hallowed hopened
    · exact h.ncOpened hallowed hopened
  | client i t key =>
    obtain ⟨_, ok, conn, next, es, hturn⟩ := clientStep_turn hstep
    exact h.clientTurn hallowed.2.2.2 hturn
  | nc i t key =>
    obtain ⟨_, ok, conn, next, es, _, hturn⟩ := ncStep_turn hstep
    exact h.ncTurn hturn

end Step

theorem booted_inv (g_dwPagesize : DWORD) (sListenSock : Server → SOCKET) (others : SOCKET → Bool)
    (clients : ℕ → Client) (ncs : ℕ → Pusher) :
    Inv (booted g_dwPagesize sListenSock others clients ncs).shared
      [.acceptex .client, .acceptex .nc] where
  client i hi := absurd hi (Nat.not_lt_zero i)
  nc i hi := absurd hi (Nat.not_lt_zero i)
  clients _ _ := rfl
  ncs _ _ := rfl

/-- Every run of the process keeps the invariant of each of its connections. -/
theorem Inv.run {conf₀ conf : Conf Process Running} {evs : List WorkerEvent}
    (h₀ : Inv conf₀.shared conf₀.tasks) (h : Run machine conf₀ evs conf) :
    Inv conf.shared conf.tasks := by
  apply h.invariant (fun _ conf => Inv conf.shared conf.tasks) h₀
  intro evs conf es conf' hinv hstep
  cases hstep with
  | turn hp hallowed hs => exact (hinv.perm hp).step hallowed hs

end Process

end CustomersCard
