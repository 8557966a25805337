import CustomersCardMS.ConnLeak
import CustomersCardMS.Sessions

namespace CustomersCard
open Interleaving

namespace ClientConn

section Step

variable {c c' : ClientConn} {t : Task} {ts us new rest : List Task} {evs : List Event}
  {ch : Choice}

/-- A step gives up nothing that the connection has of the pools but by freeing it. -/
theorem Turn.keeps (p : ObjPtr) (hturn : Turn c t c' new evs) :
    OwnerTable.Keeps (c.has p) (c'.has p) (evs.filterMap (Event.pool? c.pRSock p)) := by
  have hsock := hturn.frame.pRSock
  have hkeep (hl : c'.rsockLive = c.rsockLive) (hl' : c'.robjLive = c.robjLive)
      (hobjs : c'.objs = c.objs) (hevs : evs.filterMap (Event.pool? c.pRSock p) = []) :
      OwnerTable.Keeps (c.has p) (c'.has p) (evs.filterMap (Event.pool? c.pRSock p)) := by
    rw [hevs]
    apply OwnerTable.Keeps.keep
    apply has_mono c' c hsock.symm
    · rw [hl]
      exact id
    · rw [hl']
      exact id
    · rw [hobjs]
      exact fun _ hb => hb
  have hfreeRSock : OwnerTable.Keeps (c.has p) ({ c with rsockLive := false }.has p)
      [.drop (.recvSock c.pRSock)] := by
    apply OwnerTable.Keeps.drop
    intro q hq hne
    cases q with
    | recvSock r => exact absurd (congrArg Object.recvSock hq.1) hne
    | recvObj | bufferObj | bufferSock => exact hq
  have hfreeRObj : OwnerTable.Keeps (c.has p) ({ c with robjLive := false }.has p)
      [.drop (.recvObj p)] := by
    apply OwnerTable.Keeps.drop
    intro q hq hne
    cases q with
    | recvObj r => exact absurd (congrArg Object.recvObj hq.1) hne
    | recvSock | bufferObj | bufferSock => exact hq
  cases hturn.fires with
  | pass _ hl hc _ =>
    apply hkeep hl.rsockLive hl.robjLive hl.objs
    cases hc <;> rfl
  | queue _ _ hl => exact hkeep hl.rsockLive hl.robjLive hl.objs rfl
  | start _ _ _ hl => exact hkeep hl.rsockLive hl.robjLive hl.objs rfl
  | sent _ _ _ _ hl => exact hkeep hl.rsockLive hl.robjLive hl.objs rfl
  | enqueue _ _ _ _ _ hl hl' hobjs => exact hkeep hl hl' hobjs rfl
  | alloc o b _ _ _ hl hl' hobjs =>
    have hhas : c'.has p (.bufferObj b) := by
      change b ∈ c'.objs
      rw [hobjs]
      exact List.mem_cons_self
    apply OwnerTable.Keeps.take _ hhas
    apply has_mono c' c hsock.symm
    · rw [hl]
      exact id
    · rw [hl']
      exact id
    · rw [hobjs]
      exact fun _ hb => List.mem_cons_of_mem b hb
  | freeBObj b =>
    apply OwnerTable.Keeps.drop
    intro q hq hne
    cases q with
    | bufferObj b' =>
      have hb : b' ≠ b := fun heq => hne (congrArg Object.bufferObj heq)
      exact (List.mem_erase_of_ne hb).mpr hq
    | recvSock | recvObj | bufferSock => exact hq
  | acceptFreeRSock | earlyFreeRSock | releaseFreeRSock => exact hfreeRSock
  | acceptFreeRObj | releaseFreeRObj => exact hfreeRObj
  | _ => exact hkeep rfl rfl rfl rfl

theorem Fires.handle_keeps (hf : Fires c t c' new evs) :
    OwnerTable.Keeps c.handle c'.handle (evs.filterMap Event.handle?) := by
  have hkeep (hs : c'.rsock.sock = c.rsock.sock) (hevs : evs.filterMap Event.handle? = []) :
      OwnerTable.Keeps c.handle c'.handle (evs.filterMap Event.handle?) := by
    rw [hevs]
    apply OwnerTable.Keeps.keep
    intro q hq
    exact ⟨hq.1.trans hs.symm, hq.2⟩
  cases hf with
  | pass _ _ hc =>
    cases hc with
    | keeps hs => exact hkeep hs rfl
    | closes =>
      apply OwnerTable.Keeps.drop
      intro q hq hne
      exact absurd hq.1 hne
  | alloc _ _ _ _ _ _ _ _ hs => exact hkeep hs rfl
  | queue _ _ _ hs => exact hkeep hs rfl
  | enqueue _ _ _ _ hs => exact hkeep hs rfl
  | start _ _ _ _ hs => exact hkeep hs rfl
  | sent _ _ _ _ _ hs => exact hkeep hs rfl
  | _ => exact hkeep rfl rfl

/-- The handle is closed before the RECV_SOCK is freed. -/
def ClosedFirst (c : ClientConn) (ts : List Task) : Prop :=
  (c.rsockLive = false ∨ ∃ u ∈ ts, u.shut) → c.rsock.sock = INVALID_SOCKET

theorem ClosedFirst.perm (h : ClosedFirst c ts) (hp : ts.Perm us) : ClosedFirst c us := by
  rintro (hlive | ⟨u, hu, hshut⟩)
  · exact h (Or.inl hlive)
  · exact h (Or.inr ⟨u, hp.mem_iff.mpr hu, hshut⟩)

theorem ClosedFirst.turn (h : ClosedFirst c (t :: rest)) (hfresh : ch.pBObj ∉ c.objs)
    (hstep : c.step t ch = .ok (c', new, evs)) : ClosedFirst c' (new ++ rest) := by
  have hfires := (step_turn hfresh hstep).fires
  have hbefore (hs : c.rsockLive = false ∨ ∃ u ∈ t :: rest, u.shut) :
      c'.rsock.sock = INVALID_SOCKET := by
    by_contra hvalid
    exact hvalid ((hfires.sock_eq hvalid).trans (h hs))
  have ht (hs : t.shut) : c'.rsock.sock = INVALID_SOCKET :=
    hbefore (Or.inr ⟨t, List.mem_cons_self, hs⟩)
  rintro (hlive | ⟨u, hu, hs⟩)
  · rcases hfires.freed hlive with hlive | hs
    · exact hbefore (Or.inl hlive)
    · exact ht hs
  · rcases List.mem_append.mp hu with hu | hu
    · rcases hfires.shut ⟨u, hu, hs⟩ with hcloses | hs
      · exact closes_invalid hcloses hstep
      · exact ht hs
    · exact hbefore (Or.inr ⟨u, List.mem_cons_of_mem t hu, hs⟩)

theorem run_closedFirst {g_dwPagesize : DWORD} {pRSock : SockPtr} {rsock : RecvSock} {sock : SOCKET}
    {robj : RecvObj} {mem : BufferObjPtr → BufferObj} {conf : Conf ClientConn Task}
    (h : Run machine (start g_dwPagesize pRSock rsock sock robj mem) evs conf) :
    ClosedFirst conf.shared conf.tasks := by
  apply h.invariant fun _ conf => ClosedFirst conf.shared conf.tasks
  · rintro (hlive | ⟨u, hu, hshut⟩)
    · contradiction
    · rw [List.mem_singleton.mp hu] at hshut
      contradiction
  · intro _ conf es conf' hclosed hstep
    cases hstep with
    | turn hp hfresh hok => exact (hclosed.perm hp).turn hfresh hok

/-- Where only commands are kept, the RECV_SOCK is there for them and nothing else is. -/
theorem Owned.resting (h : Owned c ts) (hq : Quiescent ts) :
    (c.rsockLive = true ↔ ts ≠ []) ∧ c.robjLive = false ∧ ∀ b, b ∈ c.objs ↔ .command b ∈ ts := by
  have hlst : c.rsock.lstSend = [] := by
    have hnone : ts.flatMap Task.front = [] := by
      apply List.flatMap_eq_nil_iff.mpr
      intro t ht
      obtain ⟨b, rfl⟩ := hq t ht
      rfl
    have hsender := h.sender
    rw [hnone] at hsender
    cases hlast : c.rsock.lstSend.getLast? with
    | none => exact List.getLast?_eq_none_iff.mp hlast
    | some b =>
      rw [hlast] at hsender
      exact absurd (List.nil_perm.mp hsender) (List.cons_ne_nil _ _)
  refine ⟨?_, ?_, ?_⟩
  · cases ts with
    | nil =>
      rw [h.gone.1]
      simp
    | cons t rest =>
      obtain ⟨b, rfl⟩ := hq t List.mem_cons_self
      have hlive : c.rsockLive = true := h.live (show 0 < 1+0+_ by omega)
      exact ⟨fun _ => List.cons_ne_nil _ _, fun _ => hlive⟩
  · have hchain := h.chain
    rw [total_none] at hchain
    · by_contra hlive
      rw [if_pos (Bool.of_not_eq_false hlive)] at hchain
      exact Nat.zero_ne_one hchain
    · intro t ht
      obtain ⟨b, rfl⟩ := hq t ht
      rfl
  · intro b
    have howners := h.owners.mem_iff (a := b)
    rw [hlst, List.append_nil, List.mem_flatMap] at howners
    rw [← howners]
    constructor
    · rintro ⟨t, ht, hb⟩
      obtain ⟨b', rfl⟩ := hq t ht
      rwa [List.mem_singleton.mp hb]
    · intro ht
      exact ⟨_, ht, List.mem_singleton_self b⟩

end Step

end ClientConn

namespace NcConn

section Step

variable {c c' : NcConn} {t : NcTask} {new : List NcTask} {evs : List NcEvent}

theorem Fires.keeps {p : Pusher} {conn : NcConn} (hf : Fires p.conn t conn new evs) :
    OwnerTable.Keeps p.has ({ p with conn }.has)
      (evs.filterMap (NcEvent.pool? p.pBSock p.pBObj)) := by
  have hkeep (hl : conn.bsockLive = p.conn.bsockLive) (hl' : conn.bobjLive = p.conn.bobjLive)
      (hevs : evs.filterMap (NcEvent.pool? p.pBSock p.pBObj) = []) :
      OwnerTable.Keeps p.has ({ p with conn }.has)
        (evs.filterMap (NcEvent.pool? p.pBSock p.pBObj)) := by
    rw [hevs]
    apply OwnerTable.Keeps.keep
    intro q hq
    cases q with
    | bufferSock r => exact ⟨hq.1, hl.trans hq.2⟩
    | bufferObj r => exact ⟨hq.1, hl'.trans hq.2⟩
    | recvSock r | recvObj r => exact hq
  cases hf with
  | goes _ _ _ _ _ hl hl' => exact hkeep hl hl' rfl
  | waits | completes => exact hkeep rfl rfl rfl
  | strays =>
    apply hkeep rfl rfl
    apply List.filterMap_eq_nil_iff.mpr
    intro e he
    rcases List.mem_map.mp he with ⟨_, _, rfl⟩
    rfl
  | closes =>
    apply hkeep rfl rfl
    split
    · rfl
    · rfl
  | freeBSock =>
    apply OwnerTable.Keeps.drop
    intro q hq hne
    cases q with
    | bufferSock r => exact absurd (congrArg Object.bufferSock hq.1) hne
    | bufferObj | recvSock | recvObj => exact hq
  | freeBObj =>
    apply OwnerTable.Keeps.drop
    intro q hq hne
    cases q with
    | bufferObj r => exact absurd (congrArg Object.bufferObj hq.1) hne
    | bufferSock | recvSock | recvObj => exact hq

theorem Fires.handle_keeps (hf : Fires c t c' new evs) :
    OwnerTable.Keeps c.handle c'.handle (evs.filterMap NcEvent.handle?) := by
  have hkeep (hs : c'.bsock.sock = c.bsock.sock) (hevs : evs.filterMap NcEvent.handle? = []) :
      OwnerTable.Keeps c.handle c'.handle (evs.filterMap NcEvent.handle?) := by
    rw [hevs]
    apply OwnerTable.Keeps.keep
    intro q hq
    exact ⟨hq.1.trans hs.symm, hq.2⟩
  cases hf with
  | goes _ _ _ _ hs => exact hkeep (congrArg BufferSock.sock hs) rfl
  | waits | completes | freeBSock | freeBObj => exact hkeep rfl rfl
  | strays =>
    unfold BufferObj.cmCloseSocket
    split
    -- The handle that it closes may be anybody's.
    · apply OwnerTable.Keeps.drop
      exact fun _ hq _ => hq
    · apply OwnerTable.Keeps.keep
      exact fun _ hq => hq
  | closes =>
    split
    · apply OwnerTable.Keeps.drop
      intro q hq hne
      exact absurd hq.1 hne
    · case isFalse hinvalid =>
      apply OwnerTable.Keeps.keep
      intro q hq
      rw [hq.1] at hq
      exact absurd hq.2 hinvalid

end Step

end NcConn

namespace Process

/-- What a connection has, and which handle. -/
def has (s : Process) : Owner → Object → Prop
  | .client i, o => i < s.nClients ∧ (s.clients i).conn.has (s.clients i).pRObj o
  | .nc i, o => i < s.nNcs ∧ (s.ncs i).has o
  | _, _ => False

def hasHandle (s : Process) : Owner → SOCKET → Prop
  | .client i, sock => i < s.nClients ∧ (s.clients i).conn.handle sock
  | .nc i, sock => i < s.nNcs ∧ (s.ncs i).conn.handle sock
  | _, _ => True

/-- The tables of objects and handles list nothing for a connection that it does not have. -/
structure Tracked (s : Process) : Prop where
  objects : OwnerTable.Listed s.has s.user
  handles : OwnerTable.Listed s.hasHandle s.owner

section Step

variable {s s' : Process} {i : ℕ} {key : Option Key} {rest new : List Running}
  {es : List WorkerEvent}

theorem clientTurn_owner {t : Task} {ch : Choice} {ok : Bool} {conn : ClientConn}
    {next : List Task} {es : List Event} (hturn : ClientTurn s i t ch s' new ok conn next es) :
    s'.owner = OwnerTable.run (.client i) s.owner (es.filterMap Event.handle?) := by
  rw [hturn.state, associate_owner]
  rfl

/-- Whoever takes no part in a turn has what it had. -/
def Remains (s s' : Process) (w : Owner) : Prop :=
  (∀ o, s.has w o → s'.has w o) ∧ ∀ sock, s.hasHandle w sock → s'.hasHandle w sock

theorem client_remains (hn : s.nClients ≤ s'.nClients)
    (hsame : i < s.nClients → s'.clients i = s.clients i) : Remains s s' (.client i) := by
  constructor
  · rintro o ⟨hi, ho⟩
    refine ⟨Nat.lt_of_lt_of_le hi hn, ?_⟩
    rwa [hsame hi]
  · rintro sock ⟨hi, hsock⟩
    refine ⟨Nat.lt_of_lt_of_le hi hn, ?_⟩
    rwa [hsame hi]

theorem nc_remains (hm : s.nNcs ≤ s'.nNcs) (hsame : i < s.nNcs → s'.ncs i = s.ncs i) :
    Remains s s' (.nc i) := by
  constructor
  · rintro o ⟨hi, ho⟩
    refine ⟨Nat.lt_of_lt_of_le hi hm, ?_⟩
    rwa [hsame hi]
  · rintro sock ⟨hi, hsock⟩
    refine ⟨Nat.lt_of_lt_of_le hi hm, ?_⟩
    rwa [hsame hi]

theorem others_remain {w : Owner} (hclient : ∀ j, w = .client j → Remains s s' w)
    (hnc : ∀ j, w = .nc j → Remains s s' w) : Remains s s' w := by
  cases w with
  | client j => exact hclient j rfl
  | nc j => exact hnc j rfl
  | listener | other => exact ⟨fun _ ho => ho, fun _ hsock => hsock⟩

theorem clientTurn_remains {t : Task} {ch : Choice} {ok : Bool} {conn : ClientConn}
    {next : List Task} {es : List Event} (hturn : ClientTurn s i t ch s' new ok conn next es)
    (w : Owner) (hw : w ≠ .client i) : Remains s s' w := by
  obtain ⟨_, hclients, hn, hncs, hm⟩ := clientTurn_state hturn
  apply others_remain
  · rintro j rfl
    apply client_remains hn.ge
    intro _
    have hj : j ≠ i := fun heq => hw (congrArg Owner.client heq)
    rw [hclients, Function.update_of_ne hj]
  · rintro j rfl
    apply nc_remains hm.ge
    intro _
    rw [hncs]

theorem ncTurn_remains {t : NcTask} {ch : NcChoice} {ok : Bool} {conn : NcConn}
    {next : List NcTask} {es : List NcEvent} (hturn : NcTurn s i t ch s' new ok conn next es)
    (w : Owner) (hw : w ≠ .nc i) : Remains s s' w := by
  obtain ⟨_, hncs, hm, hclients, hn⟩ := ncTurn_state hturn
  apply others_remain
  · rintro j rfl
    apply client_remains hn.ge
    intro _
    rw [hclients]
  · rintro j rfl
    apply nc_remains hm.ge
    intro _
    have hj : j ≠ i := fun heq => hw (congrArg Owner.nc heq)
    rw [hncs, Function.update_of_ne hj]

theorem clientOpened_remains {ch : WorkerChoice} (h : ClientOpened s ch s' new) (w : Owner) :
    Remains s s' w := by
  apply others_remain
  · rintro j rfl
    apply client_remains
    · rw [h.nClients]
      exact Nat.le_succ _
    · intro hj
      rw [h.clients, Function.update_of_ne (Nat.ne_of_lt hj)]
  · rintro j rfl
    apply nc_remains h.nNcs.ge
    intro _
    rw [h.ncs]

theorem ncOpened_remains {ch : WorkerChoice} (h : NcOpened s ch s' new) (w : Owner) :
    Remains s s' w := by
  apply others_remain
  · rintro j rfl
    apply client_remains h.nClients.ge
    intro _
    rw [h.clients]
  · rintro j rfl
    apply nc_remains
    · rw [h.nNcs]
      exact Nat.le_succ _
    · intro hj
      rw [h.ncs, Function.update_of_ne (Nat.ne_of_lt hj)]

theorem Tracked.clientTurn {t : Task} {ch : Choice} {ok : Bool} {conn : ClientConn}
    {next : List Task} {es : List Event} (h : Tracked s) (hi : i < s.nClients)
    (hfresh : ch.pBObj ∉ (s.clients i).conn.objs)
    (hturn : ClientTurn s i t ch s' new ok conn next es) : Tracked s' := by
  obtain ⟨huser, hclients, hn, _⟩ := clientTurn_state hturn
  have hnew : ({ ch with ok } : Choice).pBObj ∉ (s.clients i).conn.objs := hfresh
  have hlocal := ClientConn.step_turn hnew hturn.step
  have hself : s'.clients i = { s.clients i with conn } := by
    rw [hclients, Function.update_self]
  have hlt : i < s'.nClients := Nat.lt_of_lt_of_le hi hn.ge
  constructor
  · rw [huser]
    refine OwnerTable.Keeps.listed ?_ h.objects fun w hw => (clientTurn_remains hturn w hw).1
    apply (hlocal.keeps (s.clients i).pRObj).mono
    · exact fun o ho => ho.2
    · intro o ho
      refine ⟨hlt, ?_⟩
      rwa [hself]
  · rw [clientTurn_owner hturn]
    refine OwnerTable.Keeps.listed ?_ h.handles fun w hw => (clientTurn_remains hturn w hw).2
    apply hlocal.fires.handle_keeps.mono
    · exact fun sock hsock => hsock.2
    · intro sock hsock
      refine ⟨hlt, ?_⟩
      rwa [hself]

theorem Tracked.ncTurn {t : NcTask} {ch : NcChoice} {ok : Bool} {conn : NcConn}
    {next : List NcTask} {es : List NcEvent} (h : Tracked s) (hi : i < s.nNcs)
    (hturn : NcTurn s i t ch s' new ok conn next es) : Tracked s' := by
  obtain ⟨huser, hncs, hm, _⟩ := ncTurn_state hturn
  have hfires := NcConn.step_fires hturn.step
  have hself : s'.ncs i = { s.ncs i with conn } := by
    rw [hncs, Function.update_self]
  have hlt : i < s'.nNcs := Nat.lt_of_lt_of_le hi hm.ge
  constructor
  · rw [huser]
    refine OwnerTable.Keeps.listed ?_ h.objects fun w hw => (ncTurn_remains hturn w hw).1
    apply hfires.keeps.mono
    · exact fun o ho => ho.2
    · intro o ho
      refine ⟨hlt, ?_⟩
      rwa [hself]
  · rw [ncTurn_owner hturn]
    refine OwnerTable.Keeps.listed ?_ h.handles fun w hw => (ncTurn_remains hturn w hw).2
    apply hfires.handle_keeps.mono
    · exact fun sock hsock => hsock.2
    · intro sock hsock
      refine ⟨hlt, ?_⟩
      rwa [hself]

theorem Tracked.clientOpened {ch : WorkerChoice} (h : Tracked s) (hvalid : ch.sock ≠ INVALID_SOCKET)
    (hopened : ClientOpened s ch s' new) : Tracked s' := by
  have hself : s'.clients s.nClients = ⟨ClientConn.connected s.g_dwPagesize ch.pSock ch.rsock
      ch.sock ch.robj ch.mem, ch.pObj⟩ := by
    rw [hopened.clients, Function.update_self]
  have hlt : s.nClients < s'.nClients := by
    rw [hopened.nClients]
    exact Nat.lt_succ_self _
  constructor
  · rw [hopened.user]
    refine OwnerTable.takes_listed h.objects ?_ fun w => (clientOpened_remains hopened w).1
    intro o ho
    refine ⟨hlt, ?_⟩
    rw [hself]
    rcases List.mem_pair.mp ho with rfl | rfl
    · exact ⟨rfl, rfl⟩
    · exact ⟨rfl, rfl⟩
  · rw [hopened.owner]
    have htake : OwnerTable.Listed s'.hasHandle (OwnerTable.run (.client s.nClients) s.owner
        ([ch.sock].map .take)) := by
      refine OwnerTable.takes_listed h.handles ?_ fun w => (clientOpened_remains hopened w).2
      intro sock hsock
      refine ⟨hlt, ?_⟩
      rw [hself, List.mem_singleton.mp hsock]
      exact ⟨rfl, hvalid⟩
    exact htake

theorem Tracked.ncOpened {ch : WorkerChoice} (h : Tracked s) (hvalid : ch.sock ≠ INVALID_SOCKET)
    (hopened : NcOpened s ch s' new) : Tracked s' := by
  have hself : s'.ncs s.nNcs = ⟨NcConn.connected s.g_dwPagesize ch.pSock ⟨ch.nKey, ch.sock⟩ ch.bobj,
      ch.pSock, ch.pObj⟩ := by
    rw [hopened.ncs, Function.update_self]
  have hlt : s.nNcs < s'.nNcs := by
    rw [hopened.nNcs]
    exact Nat.lt_succ_self _
  constructor
  · rw [hopened.user]
    refine OwnerTable.takes_listed h.objects ?_ fun w => (ncOpened_remains hopened w).1
    intro o ho
    refine ⟨hlt, ?_⟩
    rw [hself]
    rcases List.mem_pair.mp ho with rfl | rfl
    · exact ⟨rfl, rfl⟩
    · exact ⟨rfl, rfl⟩
  · rw [hopened.owner]
    have htake : OwnerTable.Listed s'.hasHandle (OwnerTable.run (.nc s.nNcs) s.owner
        ([ch.sock].map .take)) := by
      refine OwnerTable.takes_listed h.handles ?_ fun w => (ncOpened_remains hopened w).2
      intro sock hsock
      refine ⟨hlt, ?_⟩
      rw [hself, List.mem_singleton.mp hsock]
      exact ⟨rfl, hvalid⟩
    exact htake

theorem Tracked.step {r : Running} {ch : WorkerChoice} (h : Tracked s) (hinv : Inv s (r :: rest))
    (hallowed : machine.allowed s ch) (hstep : s.step r ch = .ok (s', new, es)) : Tracked s' := by
  cases r with
  | acceptex server =>
    rcases postAcceptEx_opened hstep with ⟨rfl, _⟩ | ⟨_, hopened⟩ | ⟨_, hopened⟩
    · exact h
    · exact h.clientOpened hallowed.1.2 hopened
    · exact h.ncOpened hallowed.1.2 hopened
  | client i t key =>
    obtain ⟨ok, conn, next, es', _, hturn⟩ := clientStep_own hstep
    have hi := hinv.client_lt
    apply h.clientTurn hi _ hturn
    intro hmem
    have hused := (hinv.client i hi).pool (.bufferObj ch.client.pBObj) hmem
    rw [hallowed.2.2.2] at hused
    contradiction
  | nc i t key =>
    obtain ⟨_, ok, conn, next, es', _, hturn⟩ := ncStep_turn hstep
    exact h.ncTurn hinv.nc_lt hturn

end Step

/-- Along every run. -/
theorem run_tracked {g_dwPagesize : DWORD} {sListenSock : Server → SOCKET}
    {others : SOCKET → Bool} {clients : ℕ → Client} {ncs : ℕ → Pusher} {evs : List WorkerEvent}
    {conf : Conf Process Running}
    (h : Run machine (booted g_dwPagesize sListenSock others clients ncs) evs conf) :
    Tracked conf.shared := by
  have hboth : Inv conf.shared conf.tasks ∧ Tracked conf.shared := by
    apply h.invariant fun _ conf => Inv conf.shared conf.tasks ∧ Tracked conf.shared
    · refine ⟨booted_inv _ _ _ _ _, ?_, ?_⟩
      · intro w o huser
        contradiction
      · intro w sock howner
        unfold booted at howner
        dsimp only at howner
        split at howner
        · contradiction
        split at howner
        · rw [← Option.some.inj howner]
          trivial
        split at howner
        · rw [← Option.some.inj howner]
          trivial
        split at howner
        · rw [← Option.some.inj howner]
          trivial
        · contradiction
    · rintro _ conf es conf' ⟨hinv, htracked⟩ hstep
      cases hstep with
      | turn hp hallowed hok =>
        have hinv := hinv.perm hp
        exact ⟨hinv.step hallowed hok, htracked.step hinv hallowed hok⟩
  exact hboth.2

end Process

namespace Owner

def connection : Owner → Bool
  | .client _ | .nc _ => true
  | .listener _ | .other => false

end Owner

namespace PooledProcess

/-- A connection that waits for nothing and does nothing: its operations are over, and so are its
handlers, but for those of commands, which keep their commands. -/
def Resting (ts : List Running) : Owner → Prop
  | .client i => ClientConn.Quiescent (clientTasks i ts)
  | .nc i => NcConn.Quiescent (ncTasks i ts)
  | .listener _ | .other => True

/-- CheckNCData has found the complete request of a connection, and its caller does nothing with
it. -/
def Completed (ns : List (WorkerNote × List PooledEvent)) (i : ℕ) : Prop :=
  ∃ n, .complete n ∈ (ncNotes i (workerNotes ns)).flatMap Prod.snd

/-- What is left in use: commands with their RECV_SOCK, and connections with a complete request. -/
def Left (ns : List (WorkerNote × List PooledEvent)) (s : Process) (ts : List Running) :
    Owner → Object → Prop
  | .client i, .recvSock p => p = (s.clients i).conn.pRSock ∧ clientTasks i ts ≠ []
  | .client i, .bufferObj b => .command b ∈ clientTasks i ts
  | .nc i, .bufferSock p => p = (s.ncs i).pBSock ∧ Completed ns i
  | .nc i, .bufferObj p => p = (s.ncs i).pBObj ∧ Completed ns i
  | _, _ => False

/-- A connection at rest has nothing but what is left, and no handle if nothing is left of it. Where
all are at rest, the rest of the heap is in the pools. -/
structure Accounted (ns : List (WorkerNote × List PooledEvent)) (s : PooledProcess)
    (ts : List Running) : Prop where
  objects : ∀ w, Resting ts w → ∀ o, s.process.user o = some w ↔ Left ns s.process ts w o
  handles : ∀ w, w.connection → Resting ts w → ∀ sock, s.process.owner sock = some w →
    ∃ o, Left ns s.process ts w o
  blocks : (∀ w, Resting ts w) → ∀ k p, (∃ n, s.pools.heap p = some (k, n)) ↔
    p ∈ s.pools.pool k ∨ ∃ w, Left ns s.process ts w (k.object p)

section Rest

variable {g_dwPagesize : DWORD} {s : Process} {i : ℕ} {ts : List Running}
  {ns : List (WorkerNote × List PooledEvent)}

theorem client_left (hinv : Process.Inv s ts) (htracked : Process.Tracked s)
    (hrest : Resting ts (.client i)) (o : Object) :
    s.user o = some (.client i) ↔ Left ns s ts (.client i) o := by
  have hhas (hi : i < s.nClients) :
      (s.clients i).conn.has (s.clients i).pRObj o ↔ Left ns s ts (.client i) o := by
    obtain ⟨hlive, hrobj, hobjs⟩ := (hinv.client i hi).owned.resting hrest
    cases o with
    | recvSock p => exact and_congr_right fun _ => hlive
    | recvObj p => exact ⟨fun hq => Bool.false_ne_true (hrobj.symm.trans hq.2), False.elim⟩
    | bufferObj b => exact hobjs b
    | bufferSock p => exact Iff.rfl
  constructor
  · intro huser
    obtain ⟨hi, ho⟩ := htracked.objects _ _ huser
    exact (hhas hi).mp ho
  · intro hleft
    have hi : i < s.nClients := by
      by_contra hge
      have hnil := hinv.clients i (Nat.le_of_not_lt hge)
      cases o with
      | recvSock p => exact hleft.2 hnil
      | bufferObj b =>
        change _ ∈ clientTasks i ts at hleft
        rw [hnil] at hleft
        contradiction
      | recvObj p | bufferSock p => exact hleft
    exact (hinv.client i hi).pool o ((hhas hi).mpr hleft)

theorem client_shut (htracked : Process.Tracked s)
    (halone : Process.Alone g_dwPagesize (workerNotes ns) s ts) (hinv : Process.Inv s ts)
    (hrest : Resting ts (.client i)) {sock : SOCKET} (howner : s.owner sock = some (.client i)) :
    ∃ o, Left ns s ts (.client i) o := by
  obtain ⟨hi, hsock, hvalid⟩ := htracked.handles _ _ howner
  obtain ⟨_, _, _, _, _, us, _, hperm, hrun⟩ := halone.client i hi
  have hclosed := (ClientConn.run_closedFirst hrun.plain).perm hperm
  refine ⟨.recvSock (s.clients i).conn.pRSock, rfl, ?_⟩
  intro hnil
  have hgone : (s.clients i).conn.rsockLive = false := by
    have hlive := ((hinv.client i hi).owned.resting hrest).1
    rw [hnil] at hlive
    exact Bool.eq_false_iff.mpr fun heq => hlive.mp heq rfl
  exact hvalid (hsock.trans (hclosed (Or.inl hgone)))

/-- A connection of the other server has both objects and its handle, or nothing. -/
theorem nc_stands (halone : Process.Alone g_dwPagesize (workerNotes ns) s ts) (hi : i < s.nNcs)
    (hrest : Resting ts (.nc i)) :
    ((s.ncs i).conn.bsockLive = true ↔ Completed ns i) ∧
      ((s.ncs i).conn.bobjLive = true ↔ Completed ns i) ∧
        (¬ Completed ns i → (s.ncs i).conn.bsock.sock = INVALID_SOCKET) := by
  obtain ⟨_, _, _, us, hsock, hperm, hrun⟩ := halone.nc i hi
  have hidle : ncTasks i ts = [] := hrest
  obtain ⟨hstands, _⟩ := NcConn.run_stands hsock hrun.plain
  dsimp only at hstands
  rw [hidle] at hperm
  rw [hperm.eq_nil] at hstands
  cases hstands with
  | kept n hmem _ hl hl' =>
    have hdone : Completed ns i := ⟨n, hmem⟩
    exact ⟨iff_of_true hl hdone, iff_of_true hl' hdone, fun hnot => absurd hdone hnot⟩
  | released hshut hl hl' =>
    have hnot : ¬ Completed ns i := by
      rintro ⟨n, hmem⟩
      exact hshut.incomplete n hmem
    refine ⟨iff_of_false ?_ hnot, iff_of_false ?_ hnot, fun _ => hshut.invalid⟩
    · exact Bool.eq_false_iff.mp hl
    · exact Bool.eq_false_iff.mp hl'

theorem nc_left (hinv : Process.Inv s ts) (htracked : Process.Tracked s)
    (halone : Process.Alone g_dwPagesize (workerNotes ns) s ts)
    (hrest : Resting ts (.nc i)) (o : Object) :
    s.user o = some (.nc i) ↔ Left ns s ts (.nc i) o := by
  have hhas (hi : i < s.nNcs) : (s.ncs i).has o ↔ Left ns s ts (.nc i) o := by
    obtain ⟨hl, hl', _⟩ := nc_stands halone hi hrest
    cases o with
    | bufferSock p => exact and_congr_right fun _ => hl
    | bufferObj p => exact and_congr_right fun _ => hl'
    | recvSock p | recvObj p => exact Iff.rfl
  constructor
  · intro huser
    obtain ⟨hi, ho⟩ := htracked.objects _ _ huser
    exact (hhas hi).mp ho
  · intro hleft
    have hdone : Completed ns i := by
      cases o with
      | bufferSock p | bufferObj p => exact hleft.2
      | recvSock p | recvObj p => exact False.elim hleft
    have hi : i < s.nNcs := by
      by_contra hge
      obtain ⟨n, hmem⟩ := hdone
      rw [halone.ncs i (Nat.le_of_not_lt hge)] at hmem
      contradiction
    exact (hinv.nc i hi).pool o ((hhas hi).mpr hleft)

theorem nc_shut (htracked : Process.Tracked s)
    (halone : Process.Alone g_dwPagesize (workerNotes ns) s ts) (hrest : Resting ts (.nc i))
    {sock : SOCKET} (howner : s.owner sock = some (.nc i)) : ∃ o, Left ns s ts (.nc i) o := by
  obtain ⟨hi, hsock, hvalid⟩ := htracked.handles _ _ howner
  obtain ⟨_, _, hinvalid⟩ := nc_stands halone hi hrest
  refine ⟨.bufferSock (s.ncs i).pBSock, rfl, ?_⟩
  by_contra hnot
  exact hvalid (hsock.trans (hinvalid hnot))

end Rest

/-- The account of the whole process in every state of every run, whatever fails, until an operation
is posted on a handle that has become another connection's: a connection that has come to rest has
given back all its objects and has no handle any more, unless nobody has answered one of its
commands, or taken its complete request any further. -/
theorem rest_accounted {g_dwPagesize : DWORD} {sListenSock : Server → SOCKET}
    {others : SOCKET → Bool} {clients : ℕ → Client} {ncs : ℕ → Pusher}
    {ns : List (WorkerNote × List PooledEvent)} {conf : Conf PooledProcess Running}
    (h : Run (machine.noting note) (booted g_dwPagesize sListenSock others clients ncs) ns conf) :
    Accounted ns conf.shared conf.tasks := by
  obtain ⟨hworkers, os, hholds⟩ := holds_run h
  obtain ⟨hinv, halone⟩ := Process.Alone.run hworkers
  have htracked := Process.run_tracked hworkers.plain
  dsimp only at hinv halone htracked
  have hobjects (w : Owner) (hw : Resting conf.tasks w) (o : Object) :
      conf.shared.process.user o = some w ↔ Left ns conf.shared.process conf.tasks w o := by
    cases w with
    | client i => exact client_left hinv htracked hw o
    | nc i => exact nc_left hinv htracked halone hw o
    | listener server => exact ⟨fun huser => htracked.objects _ _ huser, False.elim⟩
    | other => exact ⟨fun huser => htracked.objects _ _ huser, False.elim⟩
  constructor
  · exact hobjects
  · intro w hconn hw sock howner
    cases w with
    | client i => exact client_shut htracked halone hinv hw howner
    | nc i => exact nc_shut htracked halone hw howner
    | listener | other => contradiction
  · intro hall k p
    rw [(holds_order hholds).known, Option.isSome_iff_exists]
    exact or_congr_right (exists_congr fun w => hobjects w (hall w) (k.object p))

/-- A client sends a frame and disconnects, and its command stays where it is. -/
def commandKept : List (ℕ × PooledChoice) :=
  [(0, heapGives 22 1 2 3), (1, handed 51 [0xfb, 0xfc, 1, 0, 0, 0, 0x41, 0x41, 0x0d] 0)] ++
    List.replicate 2 (0, handed 51 [] 0) ++ List.replicate 3 (0, handed 61 [] 0) ++
    [(1, handed 61 [] 0)] ++ List.replicate 6 (0, handed 61 [] 0)

theorem kept_command_accounted : ∃ ns conf, Run (machine.noting note) sample ns conf ∧
    conf.tasks = [.client 0 (.command 51) none, .acceptex .client, .acceptex .nc] ∧
      Accounted ns conf.shared conf.tasks := by
  have hplay : (play (machine.noting note) sample commandKept).map (fun r => r.2.tasks) =
      some [.client 0 (.command 51) none, .acceptex .client, .acceptex .nc] := by
    decide +kernel
  obtain ⟨ns, conf, hrun, htasks⟩ := play_reaches hplay
  exact ⟨ns, conf, hrun, htasks, rest_accounted hrun⟩

end PooledProcess

end CustomersCard
