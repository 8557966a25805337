import CustomersCardMS.CompletionDispatch

namespace CustomersCard
open Interleaving

namespace NcTask

/-- The tasks between the completion of a transfer and the end of CheckNCData. -/
def counted (c : NcConn) : NcTask → Prop
  | .createPort _ | .check => c.bobj.ol.internalHigh.toNat < 2^32
  | _ => True

end NcTask

namespace NcConn

theorem transferred_lt {b : BufferObj} {bytes : List Byte} {len : DWORD} :
    (b.transferred (bytes.take len.toNat).length).ol.internalHigh.toNat < 2^32 := by
  have hlen : (bytes.take len.toNat).length ≤ len.toNat := List.length_take_le _ _
  have hbound := len.isLt
  change (BitVec.ofNat 64 _).toNat < 2^32
  rw [BitVec.toNat_ofNat, Nat.mod_eq_of_lt (by omega)]
  omega

/-- InternalHigh is the byte count of a transfer when CheckNCData runs. -/
theorem step_counted {c c' : NcConn} {t u : NcTask} {new : List NcTask} {evs : List NcEvent}
    {ch : NcChoice} (h : c.step t ch = .ok (c', new, evs)) (ht : t.counted c) (hu : u ∈ new) :
    u.counted c' := by
  cases step_next h hu with
  | accepted n =>
    simp only [step, dispatch, withBObj, withBSock, guarded_ok, ok_inj] at h
    rcases h with ⟨_, _, _, rfl, _⟩
    exact transferred_lt
  | associated n =>
    simp only [step, withBObj, withBSock, guarded_ok] at h
    rcases h with ⟨_, _, h⟩
    split at h
    · rw [← (ok_inj.mp h).1]
      exact ht
    · rw [← (ok_inj.mp h).2.1, List.mem_singleton] at hu
      contradiction
  | received =>
    simp only [step, dispatch, withBObj, withBSock, guarded_ok] at h
    rcases h with ⟨_, _, _, h⟩
    split at h
    · rw [← (ok_inj.mp h).1]
      exact transferred_lt
    · rw [← (ok_inj.mp h).2.1, List.mem_singleton] at hu
      contradiction
  | _ => trivial

theorem check_close {c : NcConn} (hlive : c.bobjLive = true) (hd : c.bobj.ncDecision = .ok .close)
    (hvalid : c.bobj.ol.internalHigh ≠ INVALID_SOCKET) (ch : NcChoice) :
    c.step .check ch = .ok (c.setBObj
      { c.bobj with ol := { c.bobj.ol with internalHigh := INVALID_SOCKET } }, [.postZeroRecv],
        [.closesocket c.bobj.ol.internalHigh]) := by
  have hcheck : c.bobj.checkNCData = .ok (0,
      { c.bobj with ol := { c.bobj.ol with internalHigh := INVALID_SOCKET } },
        some c.bobj.ol.internalHigh) := by
    unfold BufferObj.checkNCData BufferObj.cmCloseSocket
    rw [hd, if_pos hvalid]
  change guarded _ _ _ = _
  unfold guarded
  rw [if_pos hlive, hcheck]
  rfl

end NcConn

namespace Process

def Counted (s : Process) (ts : List Running) : Prop :=
  ∀ i t key, .nc i t key ∈ ts → t.counted (s.ncs i).conn

section Step

variable {s s' : Process} {ts rest new : List Running} {r : Running} {evs : List WorkerEvent}
  {ch : WorkerChoice}

/-- Only its own turns change a connection. -/
theorem Counted.keep (h : Counted s rest)
    (hsame : ∀ i t key, .nc i t key ∈ rest → s'.ncs i = s.ncs i) : Counted s' rest := by
  intro i t key hr
  rw [hsame i t key hr]
  exact h i t key hr

theorem Counted.append (hnew : Counted s new) (hrest : Counted s rest) :
    Counted s (new ++ rest) := by
  intro i t key hr
  rcases List.mem_append.mp hr with hr | hr
  · exact hnew i t key hr
  · exact hrest i t key hr

theorem Counted.step (hc : Counted s (r :: rest)) (h : Inv s (r :: rest))
    (hstep : s.step r ch = .ok (s', new, evs)) : Counted s' (new ++ rest) := by
  have hrest : Counted s rest := fun i t key hr => hc i t key (List.mem_cons_of_mem r hr)
  cases r with
  | acceptex server =>
    rcases postAcceptEx_opened hstep with ⟨rfl, rfl⟩ | ⟨rfl, hopened⟩ | ⟨rfl, hopened⟩
    · exact hc
    · rw [hopened.tasks]
      apply Counted.append
      · intro i t key hr
        simp at hr
      · apply hrest.keep
        intro i t key _
        rw [hopened.ncs]
    · rw [hopened.tasks]
      apply Counted.append
      · intro i t key hr
        simp only [List.mem_cons, List.not_mem_nil, or_false, reduceCtorEq, false_or,
          Running.nc.injEq] at hr
        rw [hr.2.1]
        trivial
      · apply hrest.keep
        intro i t key hr
        have hi := h.nc_mem (List.mem_cons_of_mem _ hr)
        rw [hopened.ncs, Function.update_of_ne (Nat.ne_of_lt hi)]
  | client i t key =>
    obtain ⟨_, ok, conn, next, es, hturn⟩ := clientStep_turn hstep
    rw [hturn.tasks]
    apply Counted.append
    · intro j u key' hr
      rcases List.mem_map.mp hr with ⟨_, _, heq⟩
      contradiction
    · apply hrest.keep
      intro j u key' _
      rw [(clientTurn_state hturn).2.2.2.1]
  | nc i t key =>
    obtain ⟨_, ok, conn, next, es, _, hturn⟩ := ncStep_turn hstep
    have hncs := (ncTurn_state hturn).2.1
    apply Counted.append
    · intro j u key' hr
      rw [hturn.tasks] at hr
      rcases List.mem_map.mp hr with ⟨u', hu, heq⟩
      rw [Running.nc.injEq] at heq
      rcases heq with ⟨rfl, rfl, _⟩
      rw [hncs, Function.update_self]
      exact NcConn.step_counted hturn.step (hc _ t key List.mem_cons_self) hu
    · apply hrest.keep
      intro j u key' hr
      -- A pusher has one task at a time, so the others are of other pushers.
      have hne : j ≠ i := by
        rintro rfl
        have hu : u ∈ ncTasks j rest := by
          apply List.mem_filterMap.mpr
          refine ⟨_, hr, ?_⟩
          simp [Running.nc?]
        rw [h.nc_alone.2] at hu
        contradiction
      rw [hncs, Function.update_of_ne hne]

end Step

theorem run_counted {g_dwPagesize : DWORD} {sListenSock : Server → SOCKET} {others : SOCKET → Bool}
    {clients : ℕ → Client} {ncs : ℕ → Pusher} {evs : List WorkerEvent}
    {conf : Conf Process Running}
    (h : Run machine (booted g_dwPagesize sListenSock others clients ncs) evs conf) :
    Inv conf.shared conf.tasks ∧ Counted conf.shared conf.tasks := by
  apply h.invariant (fun _ conf => Inv conf.shared conf.tasks ∧ Counted conf.shared conf.tasks)
  · refine ⟨booted_inv _ _ _ _ _, ?_⟩
    intro i t key hr
    simp [booted] at hr
  · intro evs conf es conf' hinv hstep
    rcases hinv with ⟨hinv, hcount⟩
    cases hstep with
    | turn hp hallowed hs =>
      have hi := hinv.perm hp
      have hc : Counted _ _ := fun i t key hr => hcount i t key (hp.mem_iff.mpr hr)
      exact ⟨hi.step hallowed hs, hc.step hi hs⟩

/-- The end of an over-long request: its connection is closed and released, and nothing else is
touched. -/
structure Contained (s : Process) (i : ℕ) (s' : Process) (ts : List Running)
    (evs : List WorkerEvent) : Prop where
  closed : evs = [.nc i (.closesocket (s.ncs i).conn.bsock.sock)]
  invalid : (s'.ncs i).conn.bsock.sock = INVALID_SOCKET
  overlapped : (s'.ncs i).conn.bobj.ol = (s.ncs i).conn.bobj.ol
  clients : s'.clients = s.clients
  ncs : ∀ j ≠ i, s'.ncs j = s.ncs j
  handles : ∀ sock ≠ (s.ncs i).conn.bsock.sock, s'.owner sock = s.owner sock
  released : ∀ es conf, Run machine ⟨s', ts⟩ es conf → ∀ key,
    .nc i .zeroRecv key ∉ conf.tasks ∧ .nc i .recv key ∉ conf.tasks

/-- What happens instead. -/
structure Uncontained (s : Process) (i : ℕ) (s' : Process) (new : List Running)
    (evs : List WorkerEvent) : Prop where
  -- The byte count is closed, whosever handle it is, and overwritten.
  closed : evs = [.nc i (.closesocket (s.ncs i).conn.bobj.ol.internalHigh)]
  handle : s'.owner (s.ncs i).conn.bobj.ol.internalHigh = none
  overlapped : (s'.ncs i).conn.bobj.ol ≠ (s.ncs i).conn.bobj.ol
  -- The socket object keeps its handle, and the next receive is accepted if that is open.
  kept : (s'.ncs i).conn.bsock.sock = (s.ncs i).conn.bsock.sock ∧
    (s'.ncs i).conn.bsock.sock ≠ INVALID_SOCKET
  receives : s'.owner (s.ncs i).conn.bsock.sock ≠ none → ∀ ch : WorkerChoice, ch.nc.ok = true →
    ∃ s'' key es, .nc i .postZeroRecv none ∈ new ∧
      s'.step (.nc i .postZeroRecv none) ch = .ok (s'', [.nc i .zeroRecv key], es)

section Check

variable {s : Process} {i : ℕ} {key : Option Key} {rest new : List Running}

theorem Inv.checking (h : Inv s (.nc i .check key :: rest)) :
    (s.ncs i).conn.bsock.sock ≠ INVALID_SOCKET ∧ (s.ncs i).conn.bsockLive = true ∧
      (s.ncs i).conn.bobjLive = true := by
  obtain ⟨⟨sock, evs, hsock, hstands⟩, _⟩ := h.nc_alone
  cases hstands with
  | serves _ _ hs hl hl' =>
    rw [hs]
    exact ⟨hsock, hl, hl'⟩

theorem byteCount_valid {n : SOCKET} (h : n.toNat < 2^32) : n ≠ INVALID_SOCKET := by
  intro heq
  rw [heq] at h
  contradiction

/-- The next zero-byte receive is accepted on a handle that is open. -/
theorem zeroRecv_accepted {s : Process} (hl : (s.ncs i).conn.bsockLive = true)
    (hl' : (s.ncs i).conn.bobjLive = true) (hvalid : (s.ncs i).conn.bsock.sock ≠ INVALID_SOCKET)
    (hopen : s.owner (s.ncs i).conn.bsock.sock ≠ none) (ch : WorkerChoice)
    (hok : ch.nc.ok = true) : ∃ s' key es,
      s.step (.nc i .postZeroRecv none) ch = .ok (s', [.nc i .zeroRecv key], es) := by
  have hgrants : (ch.nc.ok && s.grants (s.ncs i).conn.bsock.sock NcTask.postZeroRecv.posts
      NcTask.postZeroRecv.associates) = true := by
    rw [hok]
    unfold grants
    simp [NcTask.posts, NcTask.associates, Option.isSome_iff_ne_none, hopen]
  change ∃ s' key es, s.ncStep i .postZeroRecv none ch.nc = .ok (s', [.nc i .zeroRecv key], es)
  unfold ncStep
  dsimp only
  have hkey : (none : Option Key) = NcTask.postZeroRecv.expects (s.ncs i).pBSock := rfl
  rw [if_pos hkey, hgrants]
  have hstep (c : NcConn) (bytes block : List Byte) (hc : c.bsockLive = true)
      (hc' : c.bobjLive = true) (hs : c.bsock.sock ≠ INVALID_SOCKET) : ∃ c' es,
      c.step .postZeroRecv ⟨true, bytes, block⟩ = .ok (c', [.zeroRecv], es) := by
    have hposts : c.posts ⟨true, bytes, block⟩ = true :=
      Bool.and_eq_true_iff.mpr ⟨rfl, bne_iff_ne.mpr hs⟩
    change ∃ c' es, NcConn.guarded _ _ (NcConn.guarded _ _ _) = _
    unfold NcConn.guarded
    rw [if_pos hc', if_pos hc, if_pos hposts]
    exact ⟨_, _, rfl⟩
  obtain ⟨c', es, hc⟩ := hstep (s.ncs i).conn ch.nc.bytes ch.nc.block hl hl' hvalid
  rw [hc]
  exact ⟨_, _, _, rfl⟩

end Check

/-- CheckNCData never ends an over-long request in the way it is meant to. -/
theorem overlong_uncontained (g_dwPagesize : DWORD) (sListenSock : Server → SOCKET)
    (others : SOCKET → Bool) (clients : ℕ → Client) (ncs : ℕ → Pusher) (evs : List WorkerEvent)
    (conf : Conf Process Running)
    (h : Run machine (booted g_dwPagesize sListenSock others clients ncs) evs conf) (i : ℕ)
    (key : Option Key) (rest : List Running) (hp : conf.tasks.Perm (.nc i .check key :: rest))
    (hd : (conf.shared.ncs i).conn.bobj.ncDecision = .ok .close) (ch : WorkerChoice)
    (s' : Process) (new : List Running) (es : List WorkerEvent)
    (hstep : conf.shared.step (.nc i .check key) ch = .ok (s', new, es)) :
    ¬ Contained conf.shared i s' (new ++ rest) es ∧ Uncontained conf.shared i s' new es := by
  obtain ⟨hinv, hcount⟩ := run_counted h
  obtain ⟨hvalid, hl, hl'⟩ := (hinv.perm hp).checking
  have hhigh : (conf.shared.ncs i).conn.bobj.ol.internalHigh ≠ INVALID_SOCKET :=
    byteCount_valid (hcount i .check key (hp.mem_iff.mpr List.mem_cons_self))
  obtain ⟨_, ok, conn, next, evs', hes, hturn⟩ := ncStep_turn hstep
  have hlocal := hturn.step
  rw [NcConn.check_close hl' hd hhigh, NcConn.ok_inj] at hlocal
  rcases hlocal with ⟨rfl, rfl, rfl⟩
  have hsame : s'.ncs i = { conf.shared.ncs i with
      conn := (conf.shared.ncs i).conn.setBObj { (conf.shared.ncs i).conn.bobj with
        ol := { (conf.shared.ncs i).conn.bobj.ol with internalHigh := INVALID_SOCKET } } } := by
    rw [(ncTurn_state hturn).2.1, Function.update_self]
  have hbsock : (s'.ncs i).conn.bsock = (conf.shared.ncs i).conn.bsock := by
    rw [hsame]
    rfl
  have hlive : (s'.ncs i).conn.bsockLive = true ∧ (s'.ncs i).conn.bobjLive = true := by
    rw [hsame]
    exact ⟨hl, hl'⟩
  have hkept : (s'.ncs i).conn.bsock.sock ≠ INVALID_SOCKET := by
    rwa [hbsock]
  refine ⟨fun hcontained => hkept hcontained.invalid, hes, ?_, ?_, ⟨by rw [hbsock], hkept⟩, ?_⟩
  · rw [ncTurn_owner hturn]
    exact Function.update_self _ _ _
  · rw [hsame]
    intro hol
    have hfield := congrArg Overlapped.internalHigh hol
    exact hhigh hfield.symm
  · intro hopen ch' hok
    rw [← hbsock] at hopen
    obtain ⟨s'', key', es', hzero⟩ := zeroRecv_accepted hlive.1 hlive.2 hkept hopen ch' hok
    refine ⟨s'', key', es', ?_, hzero⟩
    rw [hturn.tasks]
    exact List.mem_cons_self

def rejects (s : Process) (i : ℕ) : Bool :=
  match (s.ncs i).conn.bobj.ncDecision with
  | .ok .close => true
  | _ => false

def goesOn (s : Process) (r : Running) (ch : WorkerChoice) : Bool :=
  match s.step r ch with
  | .ok _ => true
  | .error _ => false

theorem rejects_close {s : Process} {i : ℕ} (h : s.rejects i = true) :
    (s.ncs i).conn.bobj.ncDecision = .ok .close := by
  unfold rejects at h
  split at h
  · case h_1 hd => exact hd
  · contradiction

theorem goesOn_ok {s : Process} {r : Running} {ch : WorkerChoice} (h : s.goesOn r ch = true) :
    ∃ res, s.step r ch = .ok res := by
  unfold goesOn at h
  split at h
  · case h_1 res hres => exact ⟨res, hres⟩
  · contradiction

theorem overlong_request_strays : ∃ evs conf, Run machine sample evs conf ∧
    ∃ s' new es, Uncontained conf.shared 0 s' new es := by
  have hplay : (play machine sample (handleReused.take 7)).map (fun r => (r.2.tasks,
      r.2.shared.rejects 0, r.2.shared.goesOn (.nc 0 .check none) (gives [] 1000 50))) =
      some ([.nc 0 .check none, .acceptex .nc, .client 0 .postZeroRecv none, .acceptex .client],
        true, true) := by decide +kernel
  obtain ⟨evs, conf, hrun, hres⟩ := play_reaches hplay
  rw [Prod.mk.injEq, Prod.mk.injEq] at hres
  rcases hres with ⟨htasks, hrejects, hgoes⟩
  obtain ⟨⟨s', new, es⟩, hstep⟩ := goesOn_ok hgoes
  refine ⟨evs, conf, hrun, s', new, es, ?_⟩
  exact (overlong_uncontained _ _ _ _ _ evs conf hrun 0 none _ (List.Perm.of_eq htasks)
    (rejects_close hrejects) _ _ _ _ hstep).2

/-- A push request that is one byte too long closes the handle of a client. -/
theorem overlong_closes_client : ∃ evs conf, Run machine sample evs conf ∧
    .nc 0 (.closesocket 22) ∈ evs ∧ (conf.shared.clients 0).conn.rsock.sock = 22 ∧
      conf.shared.owner 22 = none ∧ (conf.shared.ncs 0).conn.bsock.sock = 100 := by
  have hplay : (play machine sample (handleReused.take 8)).map (fun r => (r.1,
      (r.2.shared.clients 0).conn.rsock.sock, r.2.shared.owner 22,
        (r.2.shared.ncs 0).conn.bsock.sock)) =
      some ([.nc 0 (.closesocket 22)], 22, none, 100) := by decide +kernel
  obtain ⟨evs, conf, hrun, hres⟩ := play_reaches hplay
  rw [Prod.mk.injEq, Prod.mk.injEq, Prod.mk.injEq] at hres
  rcases hres with ⟨hevs, hclient, howner, hnc⟩
  refine ⟨evs, conf, hrun, ?_, hclient, howner, hnc⟩
  rw [show evs = _ from hevs]
  exact List.mem_cons_self

end Process

end CustomersCard
