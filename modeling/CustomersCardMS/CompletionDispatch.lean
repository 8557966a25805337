import CustomersCardMS.HandlePorts

namespace CustomersCard
open Interleaving

namespace Process

theorem booted_ports (g_dwPagesize : DWORD) (sListenSock : Server → SOCKET)
    (others : SOCKET → Bool) (clients : ℕ → Client) (ncs : ℕ → Pusher) :
    Ports (booted g_dwPagesize sListenSock others clients ncs).shared
      [.acceptex .client, .acceptex .nc] where
  client i hi := absurd hi (Nat.not_lt_zero i)
  nc i hi := absurd hi (Nat.not_lt_zero i)
  invalid := by
    unfold booted
    dsimp only
    exact if_pos rfl
  listens server howner := by
    unfold booted at howner ⊢
    dsimp only at howner ⊢
    cases server with
    | client => exact if_pos rfl
    | nc =>
      -- Where both servers had one socket it would be that of the first.
      by_cases hsame : sListenSock .nc = sListenSock .client
      · rw [if_pos hsame] at howner
        split at howner
        · contradiction
        · simp at howner
      · rw [if_neg hsame]
        exact if_pos rfl
  keyed r hr := by
    rcases List.mem_cons.mp hr with rfl | hr
    · trivial
    · rw [List.mem_singleton.mp hr]
      trivial

/-- The object whose OVERLAPPED an operation has, and the socket object that it belongs to. -/
def object (s : Process) : Running → Option Object
  | .acceptex _ => none
  | .client i t _ =>
    match t with
    | .accept | .zeroRecv | .recv => some (.recvObj (s.clients i).pRObj)
    | .cmd b | .send b => some (.bufferObj b)
    | _ => none
  | .nc i t _ =>
    match t with
    | .accept | .zeroRecv | .recv => some (.bufferObj (s.ncs i).pBObj)
    | _ => none

def sockObject (s : Process) : Running → Option Object
  | .acceptex _ => none
  | .client i _ _ => some (.recvSock (s.clients i).conn.pRSock)
  | .nc i _ _ => some (.bufferSock (s.ncs i).pBSock)

/-- The object holds the handlers of the operation that is outstanding on it. -/
def handled (s : Process) : Running → Prop
  | .acceptex _ => True
  | .client i t _ => t.handled (s.clients i).conn
  | .nc i t _ => t.handled (s.ncs i).conn.bobj

/-- What worker_thread relies on when it dispatches a completion. -/
structure Consistent (s : Process) (ts : List Running) : Prop where
  alone : ∀ r rest o, ts.Perm (r :: rest) → s.object r = some o → ∀ r' ∈ rest, s.object r' ≠ some o
  inUse : ∀ r ∈ ts, ∀ o, s.object r = some o → s.user o ≠ none
  sockInUse : ∀ r ∈ ts, s.object r ≠ none → ∀ o, s.sockObject r = some o → s.user o ≠ none
  handlers : ∀ r ∈ ts, s.object r ≠ none → s.handled r
  key : ∀ r ∈ ts, s.object r ≠ none → s.keyed r
  freedOnce : ∀ r ∈ ts, ∀ ch, machine.allowed s ch → s.step r ch ≠ .error (.client .doubleFree) ∧
    s.step r ch ≠ .error (.nc .doubleFree)

section Dispatch

variable {s : Process} {ts rest : List Running} {r r' : Running} {o : Object}

def owner? : Running → Option Owner
  | .acceptex _ => none
  | .client i _ _ => some (.client i)
  | .nc i _ _ => some (.nc i)

theorem Inv.ready {i : ℕ} {t : Task} {key : Option Key} (h : Inv s ts)
    (hr : .client i t key ∈ ts) : ClientConn.Ready (s.clients i).conn t := by
  have hcons := h.perm (List.perm_cons_erase hr)
  have hinv := hcons.client i hcons.client_lt
  rw [clientTasks_self] at hinv
  exact hinv.owned.ready List.mem_cons_self

/-- The tasks of a connection that pushes requests are one at most. -/
theorem Inv.nc_alone {i : ℕ} {t : NcTask} {key : Option Key} (h : Inv s (.nc i t key :: rest)) :
    (∃ sock evs, sock ≠ INVALID_SOCKET ∧ NcConn.Stands sock evs (s.ncs i).conn [t]) ∧
      ncTasks i rest = [] := by
  have hinv := h.nc i h.nc_lt
  rw [ncTasks_self] at hinv
  obtain ⟨sock, evs, hsock, hstands⟩ := hinv.stands
  have hnil : ncTasks i rest = [] := by
    generalize ncTasks i rest = us at hstands
    cases hstands with
    | serves | closed | half => rfl
  rw [hnil] at hstands
  exact ⟨⟨sock, evs, hsock, hstands⟩, hnil⟩

/-- An operation is on an object of its own connection, and so is its socket object. -/
theorem Inv.used (h : Inv s ts) (hr : r ∈ ts) (ho : s.object r = some o) :
    s.user o = owner? r ∧ ∀ q, s.sockObject r = some q → s.user q = owner? r := by
  cases r with
  | acceptex => contradiction
  | client i t key =>
    have hready := h.ready hr
    have hpool := (h.client i (h.client_mem hr)).pool
    have hsock (hpos : 0 < t.refs + t.last + (t.waiting ++ t.active).length) :
        ∀ q, s.sockObject (.client i t key) = some q → s.user q = some (.client i) := by
      intro q hq
      rw [← Option.some.inj hq]
      exact hpool _ ⟨rfl, hready.rsock hpos⟩
    cases t with
    | accept | zeroRecv | recv =>
      rw [← Option.some.inj ho]
      exact ⟨hpool _ ⟨rfl, hready.robj rfl⟩, hsock (by decide)⟩
    | cmd b =>
      rw [← Option.some.inj ho]
      exact ⟨hpool (.bufferObj b) (hready.objs b List.mem_cons_self), hsock Nat.one_pos⟩
    | send b =>
      rw [← Option.some.inj ho]
      exact ⟨hpool (.bufferObj b) (hready.objs b List.mem_cons_self), hsock Nat.one_pos⟩
    | _ => contradiction
  | nc i t key =>
    have hcons := h.perm (List.perm_cons_erase hr)
    obtain ⟨⟨sock, evs, _, hstands⟩, _⟩ := hcons.nc_alone
    have hpool := (h.nc i (h.nc_mem hr)).pool
    cases hstands with
    | serves _ _ _ hl hl' =>
      constructor
      · cases t with
        | accept | zeroRecv | recv =>
          rw [← Option.some.inj ho]
          exact hpool _ ⟨rfl, hl'⟩
        | _ => contradiction
      · intro q hq
        rw [← Option.some.inj hq]
        exact hpool _ ⟨rfl, hl⟩
    | closed | half => contradiction

/-- Two operations of one client connection are on different objects. -/
theorem Inv.client_apart {i : ℕ} {t u : Task} {key key' : Option Key}
    (h : Inv s (.client i t key :: rest)) (hr' : .client i u key' ∈ rest)
    (ho : s.object (.client i t key) = some o) : s.object (.client i u key') ≠ some o := by
  have hu : u ∈ clientTasks i rest := by
    apply List.mem_filterMap.mpr
    refine ⟨_, hr', ?_⟩
    simp [Running.client?]
  have hinv := h.client i h.client_lt
  rw [clientTasks_self] at hinv
  have hchain (ht : t.chain = 1) : u.chain = 0 :=
    total_eq_zero _ (hinv.owned.rest_chain ht).1 u hu
  have hbobj {b : BufferObjPtr} (ht : b ∈ t.uses) : b ∉ u.uses := by
    intro hb
    exact (hinv.owned.apart hu hb).2 ht
  intro ho'
  cases t with
  | accept | zeroRecv | recv =>
    have hz := hchain rfl
    cases u with
    | accept | zeroRecv | recv => contradiction
    | cmd b | send b =>
      have heq := (Option.some.inj ho').trans (Option.some.inj ho).symm
      contradiction
    | _ => contradiction
  | cmd b | send b =>
    cases u with
    | accept | zeroRecv | recv =>
      have heq := (Option.some.inj ho').trans (Option.some.inj ho).symm
      contradiction
    | cmd b' | send b' =>
      have heq := (Option.some.inj ho').trans (Option.some.inj ho).symm
      rw [Object.bufferObj.injEq] at heq
      rw [heq] at hbobj
      exact hbobj List.mem_cons_self List.mem_cons_self
    | _ => contradiction
  | _ => contradiction

/-- No object has two operations outstanding. -/
theorem Inv.alone (h : Inv s ts) (hp : ts.Perm (r :: rest)) (ho : s.object r = some o)
    (hr' : r' ∈ rest) : s.object r' ≠ some o := by
  have hcons := h.perm hp
  intro ho'
  have howner := (hcons.used List.mem_cons_self ho).1
  have howner' := (hcons.used (List.mem_cons_of_mem r hr') ho').1
  have hsame := howner.symm.trans howner'
  cases r with
  | acceptex => contradiction
  | client i t key =>
    cases r' with
    | client j u key' =>
      have hij := Owner.client.inj (Option.some.inj hsame)
      subst hij
      exact hcons.client_apart hr' ho ho'
    | acceptex | nc =>
      unfold owner? at hsame
      simp at hsame
  | nc i t key =>
    cases r' with
    | nc j u key' =>
      have hij := Owner.nc.inj (Option.some.inj hsame)
      subst hij
      have hu : u ∈ ncTasks i rest := by
        apply List.mem_filterMap.mpr
        refine ⟨_, hr', ?_⟩
        simp [Running.nc?]
      rw [hcons.nc_alone.2] at hu
      contradiction
    | acceptex | client =>
      unfold owner? at hsame
      simp at hsame

theorem Inv.handlers (h : Inv s ts) (hr : r ∈ ts) (ho : s.object r = some o) : s.handled r := by
  cases r with
  | acceptex => trivial
  | client i t key => exact (h.ready hr).handled
  | nc i t key =>
    have hcons := h.perm (List.perm_cons_erase hr)
    obtain ⟨⟨sock, evs, _, hstands⟩, _⟩ := hcons.nc_alone
    cases hstands with
    | serves _ hhandled => exact hhandled
    | closed | half => contradiction

/-- No connection frees an object twice. -/
theorem Inv.freedOnce (h : Inv s ts) (hr : r ∈ ts) (ch : WorkerChoice) :
    s.step r ch ≠ .error (.client .doubleFree) ∧ s.step r ch ≠ .error (.nc .doubleFree) := by
  cases r with
  | acceptex server =>
    change s.postAcceptEx server ch ≠ _ ∧ s.postAcceptEx server ch ≠ _
    have hok : ∃ res, s.postAcceptEx server ch = .ok res := by
      unfold postAcceptEx
      dsimp only
      split
      · cases server with
        | client => exact ⟨_, rfl⟩
        | nc => exact ⟨_, rfl⟩
      · exact ⟨_, rfl⟩
    obtain ⟨res, hres⟩ := hok
    rw [hres]
    simp
  | client i t key =>
    change s.clientStep i t key ch.client ≠ _ ∧ s.clientStep i t key ch.client ≠ _
    unfold clientStep
    dsimp only
    split
    · split
      · case h_1 f hf =>
        have honly := ClientConn.step_ringOnly (h.ready hr) _ f hf
        rw [honly]
        simp
      · simp
    · simp
  | nc i t key =>
    change s.ncStep i t key ch.nc ≠ _ ∧ s.ncStep i t key ch.nc ≠ _
    have hcons := h.perm (List.perm_cons_erase hr)
    obtain ⟨⟨sock, evs, _, hstands⟩, _⟩ := hcons.nc_alone
    unfold ncStep
    dsimp only
    split
    · split
      · case h_1 f hf =>
        obtain ⟨_, g, hg⟩ := hstands.faults hf
        rw [hg]
        simp
      · simp
    · simp

theorem Ports.consistent (hp : Ports s ts) (h : Inv s ts) : Consistent s ts where
  alone _ _ _ hperm ho _ hr' := h.alone hperm ho hr'
  inUse r hr o ho := by
    rw [(h.used hr ho).1]
    cases r with
    | acceptex => contradiction
    | client | nc => simp [owner?]
  sockInUse r hr hop o ho := by
    obtain ⟨q, hq⟩ := Option.ne_none_iff_exists'.mp hop
    rw [(h.used hr hq).2 o ho]
    cases r with
    | acceptex => contradiction
    | client | nc => simp [owner?]
  handlers r hr hop := by
    obtain ⟨q, hq⟩ := Option.ne_none_iff_exists'.mp hop
    exact h.handlers hr hq
  key r hr _ := hp.keyed r hr
  freedOnce r hr ch _ := h.freedOnce hr ch

end Dispatch

/-- Every connection keeps its own handle and key along every run in which CheckNCData closes no
handle that is open. -/
theorem run_ports {g_dwPagesize : DWORD} {sListenSock : Server → SOCKET} {others : SOCKET → Bool}
    {clients : ℕ → Client} {ncs : ℕ → Pusher} {evs : List WorkerEvent}
    {conf : Conf (Process × Unit) Running} (h : Run (machine.watched noStray)
      ((booted g_dwPagesize sListenSock others clients ncs).watch ()) evs conf) :
    Inv conf.shared.1 conf.tasks ∧ Ports conf.shared.1 conf.tasks := by
  apply h.invariant (fun _ conf => Inv conf.shared.1 conf.tasks ∧ Ports conf.shared.1 conf.tasks)
  · exact ⟨booted_inv _ _ _ _ _, booted_ports _ _ _ _ _⟩
  · intro evs conf es conf' hinv hstep
    cases hstep with
    | turn hp hallowed hok =>
      obtain ⟨hpermits, hstep, _⟩ := watched_step hok
      have hi := hinv.1.perm hp
      refine ⟨hi.step hallowed hstep, ?_⟩
      exact (hinv.2.perm hp).step hi hallowed (Bool.not_eq_true' _ ▸ hpermits) hstep

/-- The servers listen on the handles 4 and 8. -/
def sample : Conf Process Running :=
  booted 4096 (fun server => match server with | .client => 4 | .nc => 8) (fun _ => false)
    (fun _ => ⟨ClientConn.connected 4096 0 RecvSock.zeroed 0 ⟨Overlapped.zero, none, none, none⟩
      (fun _ => BufferObj.zeroed), 0⟩)
    (fun _ => ⟨NcConn.connected 4096 0 ⟨0, 0⟩ BufferObj.zeroed, 0, 0⟩)

/-- The environment lets the turn succeed, and hands it `bytes` or the handle `sock` and the objects
`p`. -/
def gives (bytes : List Byte) (sock : SOCKET) (p : ℕ) : WorkerChoice where
  ok := true
  client := ⟨true, bytes, 0, 99, BufferObj.zeroed⟩
  nc := ⟨true, bytes, []⟩
  sock := sock
  nKey := 0
  pSock := p
  pObj := p
  rsock := RecvSock.zeroed
  robj := ⟨Overlapped.zero, none, none, none⟩
  mem := fun _ => BufferObj.zeroed
  bobj := BufferObj.zeroed

/-- A client gets the handle 22 and sends a first byte. -/
def clientConnects : List (ℕ × WorkerChoice) :=
  [(0, gives [] 22 1), (1, gives [0xfb] 1000 50), (0, gives [] 1000 50), (0, gives [] 1000 50)]

/-- "Content-Length: 0", a blank line and one byte too many. -/
def overlong : List Byte := contentLength ++ [0x30] ++ headerEnd ++ [0x58]

/-- A push request of 22 bytes, the next connection of the server on the handle that is free again,
and then the next receive of the client. -/
def handleReused : List (ℕ × WorkerChoice) :=
  clientConnects ++
    [(2, gives [] 100 2), (1, gives overlong 1000 50), (0, gives [] 1000 50),
      (0, gives [] 1000 50), (1, gives [] 22 3), (1, gives [0x47] 1000 50),
      (0, gives [] 1000 50), (3, gives [] 1000 50)]

end Process

end CustomersCard
