import CustomersCardMS.NcConn

namespace CustomersCard
open Interleaving

namespace NcTask

/-- The tasks before CMCloseSocket. -/
def serves : NcTask → Prop
  | .freeBSock | .freeBObj => False
  | _ => True

/-- The BUFFER_OBJ of an outstanding operation holds the handlers of that very operation. -/
def handled (b : BufferObj) : NcTask → Prop
  | .accept => b.fpFailed = some .ncAcceptCompletionFailed ∧
      b.fpSuccess = some .ncAcceptCompletionSuccess
  | .zeroRecv => b.fpFailed = some .ncRecvZeroCompFailed ∧ b.fpSuccess = some .ncRecvZeroCompSuccess
  | .recv => b.fpFailed = some .ncRecvCompFailed ∧ b.fpSuccess = some .ncRecvCompSuccess
  | _ => True

/-- The order of the statements and completions. -/
inductive Leads : NcTask → NcTask → Prop
  | accepted (n : DWORD) : Leads .accept (.createPort n)
  | refused : Leads .accept .close
  | associated (n : DWORD) : Leads (.createPort n) .check
  | unassociated (n : DWORD) : Leads (.createPort n) .close
  | checked : Leads .check .postZeroRecv
  | zeroPosted : Leads .postZeroRecv .zeroRecv
  | zeroRefused : Leads .postZeroRecv .close
  | readable : Leads .zeroRecv .postRecv
  | zeroFailed : Leads .zeroRecv .close
  | recvPosted : Leads .postRecv .recv
  | recvRefused : Leads .postRecv .close
  | received : Leads .recv .check
  | recvFailed : Leads .recv .close
  | closed : Leads .close .freeBSock
  | freed : Leads .freeBSock .freeBObj

end NcTask

namespace BufferObj

/-- CheckNCData finds a complete request. -/
def completes (b : BufferObj) : Bool :=
  match b.ncDecision with
  | .ok (.complete _) => true
  | _ => false

theorem completes_iff {b : BufferObj} :
    b.completes = true ↔ ∃ n, b.ncDecision = .ok (.complete n) := by
  unfold completes
  split
  · case h_1 n hd => exact ⟨fun _ => ⟨n, hd⟩, fun _ => rfl⟩
  · case h_2 hne =>
    constructor
    · intro h
      contradiction
    · intro h
      obtain ⟨n, hd⟩ := h
      exact absurd hd (hne n)

theorem compareLength_complete {b : BufferObj} {headerLen n : ℕ} {text : List Byte} {len : ℤ}
    (h : b.compareLength headerLen text len = .ok (.complete n)) : n = headerLen := by
  unfold compareLength at h
  split at h
  · cases h
  split at h
  · cases h
  split at h
  · cases h
  split at h
  · cases h
    rfl
  · cases h

/-- A header length that is returned is not zero. -/
theorem ncDecision_complete {b : BufferObj} {n : ℕ} (h : b.ncDecision = .ok (.complete n)) :
    n ≠ 0 := by
  unfold ncDecision at h
  split at h
  · cases h
  · cases h
  split at h
  · cases h
  · cases h
  split at h
  · cases h
  · cases h
  · rw [compareLength_complete h]
    exact Nat.succ_ne_zero _

end BufferObj

namespace NcConn

/-- Everything a step can do. -/
inductive Fires (c : NcConn) : NcTask → NcConn → List NcTask → List NcEvent → Prop
  | goes {t t' : NcTask} {c' : NcConn} : t.serves → t ≠ .check → t'.serves →
      t'.handled c'.bobj → c'.bsock = c.bsock → c'.bsockLive = c.bsockLive →
      c'.bobjLive = c.bobjLive → Fires c t c' [t'] []
  | waits : c.bobj.ncDecision = .ok .wait → Fires c .check c [.postZeroRecv] []
  -- CheckNCData closes what it takes for a socket.
  | strays : c.bobj.ncDecision = .ok .close →
      Fires c .check (c.setBObj c.bobj.cmCloseSocket.1) [.postZeroRecv]
        (c.bobj.cmCloseSocket.2.toList.map .closesocket)
  | completes (n : ℕ) : c.bobj.ncDecision = .ok (.complete n) → Fires c .check c [] [.complete n]
  | closes : Fires c .close { c with bsock := { c.bsock with sock := INVALID_SOCKET } } [.freeBSock]
      (if c.bsock.sock ≠ INVALID_SOCKET then [.closesocket c.bsock.sock] else [])
  | freeBSock : Fires c .freeBSock { c with bsockLive := false } [.freeBObj] [.freeBSock]
  | freeBObj : Fires c .freeBObj { c with bobjLive := false } [] [.freeBObj]

theorem guarded_ok {p : Prop} [Decidable p] {f : NcConnFault} {k : Outcome}
    {r : NcConn × List NcTask × List NcEvent} : guarded p f k = .ok r ↔ p ∧ k = .ok r := by
  unfold guarded
  split
  · case isTrue h => exact ⟨fun hk => ⟨h, hk⟩, fun hk => hk.2⟩
  · case isFalse h => simp [h]

theorem ok_inj {c c' : NcConn} {new new' : List NcTask} {evs evs' : List NcEvent} :
    (Except.ok (c, new, evs) : Outcome) = .ok (c', new', evs') ↔
      c = c' ∧ new = new' ∧ evs = evs' := by
  rw [Except.ok.injEq, Prod.mk.injEq, Prod.mk.injEq]

section Step

variable {c c' : NcConn} {t : NcTask} {rest new : List NcTask} {evs : List NcEvent} {ch : NcChoice}

theorem check_fires (h : c.step .check ch = .ok (c', new, evs)) : Fires c .check c' new evs := by
  simp only [step, withBObj, guarded_ok] at h
  rcases h with ⟨_, h⟩
  unfold BufferObj.checkNCData at h
  cases hd : c.bobj.ncDecision with
  | error f =>
    rw [hd] at h
    contradiction
  | ok d =>
    rw [hd] at h
    cases d with
    | wait =>
      cases h
      exact Fires.waits hd
    | complete n =>
      dsimp only at h
      rw [if_neg (BufferObj.ncDecision_complete hd), ok_inj] at h
      rcases h with ⟨rfl, rfl, rfl⟩
      exact Fires.completes n hd
    | close =>
      cases h
      exact Fires.strays hd

/-- Every step is one of these. -/
theorem step_fires (h : c.step t ch = .ok (c', new, evs)) : Fires c t c' new evs := by
  have hone {d : NcConn} {t' u : NcTask} {p : Prop} [Decidable p] (hs : t.serves)
      (hcheck : t ≠ .check) (ht : t'.serves) (hu : u.serves) (ht' : t'.handled d.bobj)
      (hu' : u.handled d.bobj) (hbsock : d.bsock = c.bsock)
      (hl : d.bsockLive = c.bsockLive) (hl' : d.bobjLive = c.bobjLive) :
      Fires c t d (if p then [t'] else [u]) [] := by
    split
    · exact Fires.goes hs hcheck ht ht' hbsock hl hl'
    · exact Fires.goes hs hcheck hu hu' hbsock hl hl'
  cases t with
  | check => exact check_fires h
  | accept =>
    simp only [step, dispatch, withBObj, withBSock, guarded_ok, ok_inj] at h
    rcases h with ⟨_, _, _, rfl, rfl, rfl⟩
    exact hone trivial (by simp) trivial trivial trivial trivial rfl rfl rfl
  | createPort n =>
    simp only [step, withBObj, withBSock, guarded_ok] at h
    rcases h with ⟨_, _, h⟩
    split at h
    · rw [ok_inj] at h
      rcases h with ⟨rfl, rfl, rfl⟩
      exact Fires.goes trivial (by simp) trivial trivial rfl rfl rfl
    · rw [ok_inj] at h
      rcases h with ⟨rfl, rfl, rfl⟩
      exact Fires.goes trivial (by simp) trivial trivial rfl rfl rfl
  | postZeroRecv =>
    simp only [step, withBObj, withBSock, guarded_ok, ok_inj] at h
    rcases h with ⟨_, _, rfl, rfl, rfl⟩
    exact hone trivial (by simp) trivial trivial ⟨rfl, rfl⟩ trivial rfl rfl rfl
  | zeroRecv =>
    simp only [step, dispatch, withBObj, withBSock, guarded_ok, ok_inj] at h
    rcases h with ⟨_, _, _, rfl, rfl, rfl⟩
    exact hone trivial (by simp) trivial trivial trivial trivial rfl rfl rfl
  | postRecv =>
    simp only [step, withBObj, withBSock, guarded_ok, ok_inj] at h
    rcases h with ⟨_, _, rfl, rfl, rfl⟩
    exact hone trivial (by simp) trivial trivial ⟨rfl, rfl⟩ trivial rfl rfl rfl
  | recv =>
    simp only [step, dispatch, withBObj, withBSock, guarded_ok] at h
    rcases h with ⟨_, _, _, h⟩
    split at h
    · rw [ok_inj] at h
      rcases h with ⟨rfl, rfl, rfl⟩
      exact Fires.goes trivial (by simp) trivial trivial rfl rfl rfl
    · rw [ok_inj] at h
      rcases h with ⟨rfl, rfl, rfl⟩
      exact Fires.goes trivial (by simp) trivial trivial rfl rfl rfl
  -- CMCloseSocket, whether there is a handle or not.
  | close =>
    simp only [step, withBSock, guarded_ok, cmCloseSocket] at h
    rcases h with ⟨_, h⟩
    split at h
    · case isTrue hvalid =>
      rw [ok_inj] at h
      rcases h with ⟨rfl, rfl, rfl⟩
      have hclose := Fires.closes (c := c)
      rwa [if_pos hvalid] at hclose
    · case isFalse hinvalid =>
      rw [ok_inj] at h
      rcases h with ⟨rfl, rfl, rfl⟩
      have hclose := Fires.closes (c := c)
      rw [if_neg hinvalid, ← not_not.mp hinvalid] at hclose
      exact hclose
  | freeBSock =>
    simp only [step, guarded_ok, ok_inj] at h
    rcases h with ⟨_, rfl, rfl, rfl⟩
    exact Fires.freeBSock
  | freeBObj =>
    simp only [step, guarded_ok, ok_inj] at h
    rcases h with ⟨_, rfl, rfl, rfl⟩
    exact Fires.freeBObj

theorem step_next {u : NcTask} (h : c.step t ch = .ok (c', new, evs)) (hu : u ∈ new) :
    t.Leads u := by
  have htwo {p : Prop} [Decidable p] {a b : NcTask} (ha : t.Leads a) (hb : t.Leads b)
      (hu : u ∈ if p then [a] else [b]) : t.Leads u := by
    split at hu
    · rwa [List.mem_singleton.mp hu]
    · rwa [List.mem_singleton.mp hu]
  cases t with
  | accept =>
    simp only [step, dispatch, withBObj, withBSock, guarded_ok, ok_inj] at h
    rcases h with ⟨_, _, _, _, rfl, _⟩
    exact htwo (.accepted _) .refused hu
  | createPort n =>
    simp only [step, withBObj, withBSock, guarded_ok] at h
    rcases h with ⟨_, _, h⟩
    split at h
    · rw [← (ok_inj.mp h).2.1, List.mem_singleton] at hu
      rw [hu]
      exact .associated n
    · rw [← (ok_inj.mp h).2.1, List.mem_singleton] at hu
      rw [hu]
      exact .unassociated n
  | check =>
    cases check_fires h with
    | goes _ hne => exact absurd rfl hne
    | waits | strays =>
      rw [List.mem_singleton.mp hu]
      exact .checked
    | completes => contradiction
  | postZeroRecv =>
    simp only [step, withBObj, withBSock, guarded_ok, ok_inj] at h
    rcases h with ⟨_, _, _, rfl, _⟩
    exact htwo .zeroPosted .zeroRefused hu
  | zeroRecv =>
    simp only [step, dispatch, withBObj, withBSock, guarded_ok, ok_inj] at h
    rcases h with ⟨_, _, _, _, rfl, _⟩
    exact htwo .readable .zeroFailed hu
  | postRecv =>
    simp only [step, withBObj, withBSock, guarded_ok, ok_inj] at h
    rcases h with ⟨_, _, _, rfl, _⟩
    exact htwo .recvPosted .recvRefused hu
  | recv =>
    simp only [step, dispatch, withBObj, withBSock, guarded_ok] at h
    rcases h with ⟨_, _, _, h⟩
    split at h
    · rw [← (ok_inj.mp h).2.1, List.mem_singleton] at hu
      rw [hu]
      exact .received
    · rw [← (ok_inj.mp h).2.1, List.mem_singleton] at hu
      rw [hu]
      exact .recvFailed
  | close =>
    simp only [step, withBSock, guarded_ok, cmCloseSocket] at h
    rcases h with ⟨_, h⟩
    split at h
    · rw [← (ok_inj.mp h).2.1, List.mem_singleton] at hu
      rw [hu]
      exact .closed
    · rw [← (ok_inj.mp h).2.1, List.mem_singleton] at hu
      rw [hu]
      exact .closed
  | freeBSock =>
    simp only [step, guarded_ok, ok_inj] at h
    rcases h with ⟨_, _, rfl, _⟩
    rw [List.mem_singleton.mp hu]
    exact .freed
  | freeBObj =>
    simp only [step, guarded_ok, ok_inj] at h
    rcases h with ⟨_, _, rfl, _⟩
    contradiction

/-- The handle is closed, and no complete request was found. -/
structure Shut (sock : SOCKET) (evs : List NcEvent) (c : NcConn) : Prop where
  invalid : c.bsock.sock = INVALID_SOCKET
  closed : .closesocket sock ∈ evs
  incomplete : ∀ n, .complete n ∉ evs

/-- Who has the two objects of a connection on `sock`. -/
inductive Stands (sock : SOCKET) (evs : List NcEvent) (c : NcConn) : List NcTask → Prop
  | serves {t : NcTask} : t.serves → t.handled c.bobj → c.bsock.sock = sock →
      c.bsockLive = true → c.bobjLive = true → (∀ n, .complete n ∉ evs) → Stands sock evs c [t]
  | kept (n : ℕ) : .complete n ∈ evs → c.bsock.sock = sock → c.bsockLive = true →
      c.bobjLive = true → Stands sock evs c []
  | closed : Shut sock evs c → c.bsockLive = true → c.bobjLive = true →
      Stands sock evs c [.freeBSock]
  | half : Shut sock evs c → c.bsockLive = false → c.bobjLive = true → Stands sock evs c [.freeBObj]
  | released : Shut sock evs c → c.bsockLive = false → c.bobjLive = false → Stands sock evs c []

theorem Shut.mono {sock : SOCKET} {es : List NcEvent} (h : Shut sock es c)
    (hs : c'.bsock.sock = c.bsock.sock) (hn : ∀ n, .complete n ∉ evs) :
    Shut sock (es ++ evs) c' := by
  refine ⟨hs.trans h.invalid, List.mem_append_left _ h.closed, ?_⟩
  intro n hmem
  rcases List.mem_append.mp hmem with hmem | hmem
  · exact h.incomplete n hmem
  · exact hn n hmem

/-- Every step hands the objects on, or releases the next one. -/
theorem Stands.fires {sock : SOCKET} {es : List NcEvent} (hsock : sock ≠ INVALID_SOCKET)
    (h : Stands sock es c (t :: rest)) (hf : Fires c t c' new evs) :
    Stands sock (es ++ evs) c' (new ++ rest) := by
  have hopen (hn : ∀ n, .complete n ∉ es) (hevs : ∀ n, .complete n ∉ evs) :
      ∀ n, .complete n ∉ es ++ evs := by
    intro n hmem
    rcases List.mem_append.mp hmem with hmem | hmem
    · exact hn n hmem
    · exact hevs n hmem
  cases h with
  | serves _ _ hs hl hl' hn =>
    cases hf with
    | waits hd => exact Stands.serves trivial trivial hs hl hl' (hopen hn fun n => List.not_mem_nil)
    | goes _ _ ht' hhandled hbsock hbl hbl' =>
      apply Stands.serves ht' hhandled
      · rw [hbsock, hs]
      · rw [hbl, hl]
      · rw [hbl', hl']
      · exact hopen hn (fun n => List.not_mem_nil)
    -- The handle that CheckNCData closes is not the one of this connection.
    | strays hd =>
      refine Stands.serves (by trivial) (by trivial) hs hl hl' ?_
      apply hopen hn
      intro n hmem
      rcases List.mem_map.mp hmem with ⟨_, _, heq⟩
      contradiction
    -- A complete request leaves both objects to nobody.
    | completes n hd => exact Stands.kept n (List.mem_append_right _ List.mem_cons_self) hs hl hl'
    | closes =>
      rw [hs, if_pos hsock] at hopen ⊢
      refine Stands.closed ⟨rfl, List.mem_append_right _ List.mem_cons_self, ?_⟩ hl hl'
      apply hopen hn
      intro n hmem
      rw [List.mem_singleton] at hmem
      contradiction
    | freeBSock => contradiction
    | freeBObj => contradiction
  | closed hshut hl hl' =>
    cases hf with
    | goes hserves => contradiction
    | freeBSock =>
      refine Stands.half (hshut.mono rfl ?_) rfl hl'
      intro n hmem
      rw [List.mem_singleton] at hmem
      contradiction
  | half hshut hl hl' =>
    cases hf with
    | goes hserves => contradiction
    | freeBObj =>
      refine Stands.released (hshut.mono rfl ?_) hl rfl
      intro n hmem
      rw [List.mem_singleton] at hmem
      contradiction

/-- The frees of both objects show in the events. -/
structure Accounted (evs : List NcEvent) (c : NcConn) : Prop where
  bsock : evs.count .freeBSock = if c.bsockLive then 0 else 1
  bobj : evs.count .freeBObj = if c.bobjLive then 0 else 1

theorem Accounted.fires {sock : SOCKET} {es : List NcEvent} (ha : Accounted es c)
    (h : Stands sock es c (t :: rest)) (hf : Fires c t c' new evs) : Accounted (es ++ evs) c' := by
  have hkeep (hl : c'.bsockLive = c.bsockLive) (hl' : c'.bobjLive = c.bobjLive)
      (hn : evs.count .freeBSock = 0) (hn' : evs.count .freeBObj = 0) :
      Accounted (es ++ evs) c' := by
    constructor
    · rw [List.count_append, hn, hl, ha.bsock, Nat.add_zero]
    · rw [List.count_append, hn', hl', ha.bobj, Nat.add_zero]
  cases hf with
  | goes _ _ _ _ _ hl hl' => exact hkeep hl hl' rfl rfl
  | waits hd => exact hkeep rfl rfl rfl rfl
  | strays hd =>
    have hcount (e : NcEvent) (he : ∀ s, e ≠ .closesocket s) :
        (c.bobj.cmCloseSocket.2.toList.map NcEvent.closesocket).count e = 0 := by
      apply List.count_eq_zero.mpr
      intro hmem
      rcases List.mem_map.mp hmem with ⟨s, _, heq⟩
      exact he s heq.symm
    exact hkeep rfl rfl (hcount _ (by simp)) (hcount _ (by simp))
  | completes n hd => exact hkeep rfl rfl rfl rfl
  | closes =>
    apply hkeep rfl rfl
    · split
      · rfl
      · rfl
    · split
      · rfl
      · rfl
  | freeBSock =>
    cases h with
    | serves hserves => contradiction
    | closed _ hl hl' =>
      constructor
      · rw [List.count_append, ha.bsock, hl]
        rfl
      · rw [List.count_append, ha.bobj]
        rfl
  | freeBObj =>
    cases h with
    | serves hserves => contradiction
    | half _ hl hl' =>
      constructor
      · rw [List.count_append, ha.bsock]
        rfl
      · rw [List.count_append, ha.bobj, hl']
        rfl

theorem guarded_error {p : Prop} [Decidable p] {f g : NcConnFault} {k : Outcome} (hp : p)
    (h : guarded p f k = .error g) : k = .error g := by
  unfold guarded at h
  rwa [if_pos hp] at h

/-- Only CheckNCData can fault. -/
theorem Stands.faults {sock : SOCKET} {es : List NcEvent} {f : NcConnFault}
    (h : Stands sock es c (t :: rest)) (hstep : c.step t ch = .error f) :
    t = .check ∧ ∃ g, f = .check g := by
  cases h with
  | serves hserves hhandled _ hl hl' =>
    cases t with
    | check =>
      have hcheck := guarded_error hl' hstep
      refine ⟨rfl, ?_⟩
      split at hcheck
      · case h_1 g _ => exact ⟨g, (Except.error.inj hcheck).symm⟩
      · split at hcheck
        · contradiction
        · contradiction
    | accept | zeroRecv =>
      simp only [NcTask.handled] at hhandled
      have hbody := guarded_error hl (guarded_error hl' (guarded_error hhandled hstep))
      contradiction
    | recv =>
      simp only [NcTask.handled] at hhandled
      have hbody := guarded_error hl (guarded_error hl' (guarded_error hhandled hstep))
      dsimp only at hbody
      split at hbody
      · contradiction
      · contradiction
    | createPort n =>
      have hbody := guarded_error hl (guarded_error hl' hstep)
      split at hbody
      · contradiction
      · contradiction
    | postZeroRecv | postRecv =>
      have hbody := guarded_error hl (guarded_error hl' hstep)
      contradiction
    | close =>
      have hbody := guarded_error hl hstep
      unfold cmCloseSocket at hbody
      split at hbody
      · contradiction
      · contradiction
    | freeBSock | freeBObj => contradiction
  | closed _ hl =>
    have hbody := guarded_error hl hstep
    contradiction
  | half _ _ hl' =>
    have hbody := guarded_error hl' hstep
    contradiction

end Step

/-- Every run from AcceptEx on keeps track of the two objects. -/
theorem run_stands {g_dwPagesize : DWORD} {pBSock : SockPtr} {bsock : BufferSock} {bobj : BufferObj}
    (hsock : bsock.sock ≠ INVALID_SOCKET) {evs : List NcEvent} {conf : Conf NcConn NcTask}
    (h : Run machine (start g_dwPagesize pBSock bsock bobj) evs conf) :
    Stands bsock.sock evs conf.shared conf.tasks ∧ Accounted evs conf.shared := by
  apply h.invariant (fun evs conf => Stands bsock.sock evs conf.shared conf.tasks ∧
    Accounted evs conf.shared)
  · refine ⟨Stands.serves trivial ⟨rfl, rfl⟩ rfl rfl rfl ?_, rfl, rfl⟩
    intro n
    exact List.not_mem_nil
  · intro es conf evs conf' hinv hstep
    rcases hinv with ⟨hstands, hacc⟩
    cases hstep with
    | @turn c c' t ch tasks new rest evs hp _ hs =>
      have hpool : tasks = t :: rest := by
        have hlen := hp.length_eq
        rw [List.length_cons] at hlen
        cases hstands with
        | serves | closed | half =>
          rw [List.singleton_perm.mp hp]
        | kept | released => contradiction
      dsimp only at hstands hacc
      rw [hpool] at hstands
      have hfires := step_fires hs
      exact ⟨hstands.fires hsock hfires, hacc.fires hstands hfires⟩

end NcConn

end CustomersCard
