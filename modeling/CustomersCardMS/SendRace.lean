import CustomersCardMS.RestAccount

namespace CustomersCard
open Interleaving

namespace Task

/-- The tasks that call CLient_PostSend. -/
def postsSend : Task → Bool
  | .startSend _ | .repostSend _ | .nextSend _ => true
  | _ => false

/-- What a handler goes on with when it has closed the socket. -/
def afterClose : Task → Prop
  | .postZeroRecv | .acceptFreeRObj | .earlyFreeRSock | .releaseFreeRSock _ => True
  | _ => False

/-- The tasks that read `pRSock->sock`. -/
def looks (t : Task) : Prop := t.posts = true ∨ t.associates = true ∨ t.closing

end Task

abbrev SendTask := { t : Task // t.postsSend = true }

theorem Task.postsSend_call {t : Task} (h : t.postsSend = true) (pRSock : SockPtr) :
    t.expects pRSock = none ∧ t.posts = true ∧ t.associates = false := by
  cases t with
  | startSend | repostSend | nextSend => exact ⟨rfl, rfl, rfl⟩
  | _ => contradiction

/-- The turns of the threads where two accesses to `pRSock->sock` are one turn in `Process`. -/
inductive Access
  | whole (r : Running)
  -- CLient_PostSend has read `sock`, and its WSASend is still to come.
  | sending (i : ℕ) (t : SendTask) (sock : SOCKET)
  -- closesocket(sock) has returned, and `sock = INVALID_SOCKET` is still to come.
  | storing (i : ℕ) (rs : List Running)
  deriving DecidableEq

structure Threads where
  process : Process
  -- What `pRSock->sock` still holds of a handle that is closed.
  unstored : ℕ → Option SOCKET

namespace Running

/-- The connection and the task of a thread that calls CLient_PostSend. -/
def sender? : Running → Option (ℕ × SendTask)
  | .client i t none => if ht : t.postsSend = true then some (i, ⟨t, ht⟩) else none
  | _ => none

end Running

/-- The choice in which a client's calls succeed or fail. -/
def WorkerChoice.lets (ch : WorkerChoice) (ok : Bool) : WorkerChoice :=
  { ch with client := { ch.client with ok } }

namespace Process

/-- The connection whose socket a turn has closed. -/
def closed? (s s' : Process) : Running → Option ℕ
  | .client i _ _ =>
    if (s'.clients i).conn.rsock.sock = (s.clients i).conn.rsock.sock then none else some i
  | _ => none

end Process

/-- A connection of which `pRSock->sock` is read as `sock`. -/
def ClientConn.withSock (c : ClientConn) (sock : SOCKET) : ClientConn :=
  c.setRSock { c.rsock with sock }

namespace Threads

abbrev Outcome := Except WorkerFault (Threads × List Access × List WorkerEvent)

section Step

variable (s : Threads)

/-- `pRSock->sock` -/
def sock (i : ℕ) : SOCKET := (s.unstored i).getD (s.process.clients i).conn.rsock.sock

def readSock (i : ℕ) (t : SendTask) : Outcome :=
  if (s.process.clients i).conn.rsockLive then .ok (s, [.sending i t (s.sock i)], [])
  else .error (.client .useAfterFree)

/-- WSASend on the handle that was read. Its completion has the key of that handle. -/
def wsaSend (i : ℕ) (t : SendTask) (sock : SOCKET) (ch : Choice) : Outcome :=
  let c := (s.process.clients i).conn
  let ok := ch.ok && s.process.grants sock true false
  match (c.withSock sock).step t.1 { ch with ok } with
  | .error f => .error (.client f)
  | .ok (conn, new, evs) =>
    .ok ({ s with process := s.process.clientEffects i (conn.withSock c.rsock.sock) evs },
      new.map (fun t' => .whole (.client i t' (s.process.clientKey sock t'))), evs.map (.client i))

/-- Any other turn of `Process`. Where it closes a socket, the thread has still to store
INVALID_SOCKET. -/
def turn (r : Running) (ch : WorkerChoice) : Outcome :=
  match s.process.step r ch with
  | .error f => .error f
  | .ok (process, new, evs) =>
    match s.process.closed? process r with
    | none => .ok ({ s with process }, new.map .whole, evs)
    | some i =>
      let sock := (s.process.clients i).conn.rsock.sock
      .ok (⟨process, Function.update s.unstored i (some sock)⟩, [.storing i new], evs)

def step : Access → WorkerChoice → Outcome
  | .whole r, ch =>
    match r.sender? with
    | some (i, t) => s.readSock i t
    | none => s.turn r ch
  | .sending i t sock, ch => s.wsaSend i t sock ch.client
  | .storing i rs, _ =>
    .ok ({ s with unstored := Function.update s.unstored i none }, rs.map .whole, [])

end Step

def machine : Machine Threads Access WorkerChoice WorkerEvent WorkerFault where
  step := step
  allowed s ch := Process.machine.allowed s.process ch

instance (s : Threads) (ch : WorkerChoice) : Decidable (machine.allowed s ch) :=
  inferInstanceAs (Decidable (Process.machine.allowed s.process ch))

/-- Every thread is where it is in a configuration of `Process`. -/
def ofProcess (c : Conf Process Running) : Conf Threads Access :=
  ⟨⟨c.shared, fun _ => none⟩, c.tasks.map .whole⟩

/-- CheckNCData closes no handle that is open. -/
def closesOwn : Monitor Unit Threads Access WorkerChoice where
  next _ _ _ _ := ()
  permits _ s a _ :=
    match a with
    | .whole r => !s.process.strays r
    | _ => true

/-- No WSASend is called on a handle that somebody else has got since its number was read. -/
def sendsOwn : Monitor Unit Threads Access WorkerChoice where
  next _ _ _ _ := ()
  permits _ s a _ :=
    match a with
    | .sending i _ sock =>
      decide (s.process.owner sock = none ∨ s.process.owner sock = some (.client i))
    | _ => true

def ownHandles : Monitor Unit Threads Access WorkerChoice where
  next _ _ _ _ := ()
  permits b s a ch := closesOwn.permits b s a ch && sendsOwn.permits b s a ch

end Threads

namespace Access

/-- What a thread does next in `Process`. -/
def turns? : Access → Option Running
  | .whole r => some r
  | .sending i t _ => some (.client i t.1 none)
  | .storing _ _ => none

/-- The tasks of `Process` that a thread has before it. -/
def running : Access → List Running
  | .whole r => [r]
  | .sending i t _ => [.client i t.1 none]
  | .storing _ rs => rs

theorem running_of_turns {a : Access} {r : Running} (h : a.turns? = some r) : a.running = [r] := by
  cases a with
  | whole | sending =>
    cases h
    rfl
  | storing => contradiction

end Access

namespace ClientConn

section Send

variable {c conn : ClientConn} {t : Task} {ch : Choice} {new : List Task} {evs : List Event}
  {sock : SOCKET}

/-- CLient_PostSend changes the BUFFER_OBJ alone. -/
theorem send_step (ht : t.postsSend = true) (h : c.step t ch = .ok (conn, new, evs)) :
    conn.rsock = c.rsock ∧ ∃ b, new = if c.posts ch then [.send b] else [.getNextData b] := by
  cases t with
  | startSend b | repostSend b =>
    simp only [step, postSend, withRSock, withBObj, guarded_ok, ok_inj] at h
    obtain ⟨_, _, rfl, rfl, _⟩ := h
    exact ⟨rfl, b, rfl⟩
  | nextSend b =>
    simp only [step, postSend, withRSock, withBObj, guarded_ok, ok_inj] at h
    obtain ⟨_, _, _, rfl, rfl, _⟩ := h
    exact ⟨rfl, b, rfl⟩
  | _ => contradiction

theorem send_faults {f : Fault} (ht : t.postsSend = true) (h : c.step t ch = .error f) :
    f = .useAfterFree := by
  cases t with
  | startSend b | repostSend b =>
    simp only [step, postSend, withRSock, withBObj, guarded] at h
    split at h
    · split at h
      · contradiction
      · exact (Except.error.inj h).symm
    · exact (Except.error.inj h).symm
  | nextSend b =>
    simp only [step, postSend, withRSock, withBObj, guarded] at h
    split at h
    · split at h
      · split at h
        · contradiction
        · exact (Except.error.inj h).symm
      · exact (Except.error.inj h).symm
    · exact (Except.error.inj h).symm
  | _ => contradiction

/-- Where WSASend fails, it does not matter on which handle. -/
theorem send_refused (ht : t.postsSend = true)
    (h : (c.withSock sock).step t { ch with ok := false } = .ok (conn, new, evs)) :
    c.step t { ch with ok := false } = .ok (conn.withSock c.rsock.sock, new, evs) := by
  cases t with
  | startSend b | repostSend b =>
    simp only [step, postSend, withRSock, withBObj, guarded_ok, ok_inj] at h ⊢
    obtain ⟨hlive, hb, rfl, rfl, rfl⟩ := h
    exact ⟨hlive, hb, rfl, rfl, rfl⟩
  | nextSend b =>
    simp only [step, postSend, withRSock, withBObj, guarded_ok, ok_inj] at h ⊢
    obtain ⟨hb, hlive, hb', rfl, rfl, rfl⟩ := h
    exact ⟨hb, hlive, hb', rfl, rfl, rfl⟩
  | _ => contradiction

end Send

/-- A task that closes the socket goes on with one of these. -/
theorem Turn.closed {c c' : ClientConn} {t : Task} {new : List Task} {evs : List Event}
    (hturn : Turn c t c' new evs) (hne : c'.rsock.sock ≠ c.rsock.sock) :
    ∃ u, new = [u] ∧ u.afterClose := by
  cases hturn.fires with
  | pass hpass _ hcloses =>
    cases hcloses with
    | keeps hsame => exact absurd hsame hne
    | closes hclosing =>
      cases hpass with
      | closed | drained | earlyClosed | releaseClosed => exact ⟨_, rfl, trivial⟩
      | _ => contradiction
  | alloc _ _ _ _ _ _ _ _ hsame => exact absurd hsame hne
  | queue _ _ _ hsame => exact absurd hsame hne
  | enqueue _ _ _ _ hsame => exact absurd hsame hne
  | start _ _ _ _ hsame => exact absurd hsame hne
  | sent _ _ _ _ _ hsame => exact absurd hsame hne
  | _ => exact absurd rfl hne

/-- Until INVALID_SOCKET has been stored, only sends read the socket. -/
theorem Owned.unseen {c : ClientConn} {t u : Task} {rest : List Task} (h : Owned c (t :: rest))
    (ht : t.afterClose) (hu : u ∈ rest) (hlooks : u.looks) : u.postsSend = true := by
  have hexact := h.exact
  rw [ledger_cons] at hexact
  have hrefs := le_total_of_mem Task.refs hu
  have hlast := le_total_of_mem Task.last hu
  have hearly := h.early u (List.mem_cons_of_mem t hu)
  have hlone (hacc : t.accepting ≠ 0) : rest = [] :=
    (List.cons.inj (h.alone t List.mem_cons_self hacc).1).2
  cases t with
  | postZeroRecv =>
    have hchain := total_eq_zero _ (h.rest_chain rfl).1 u hu
    have hheld := (hexact.held (by change 0 < 1+_+_; omega)).1
    change 0+total Task.last rest = 0 at hheld
    cases u with
    | startSend | repostSend | nextSend => rfl
    | releaseClose k =>
      change 1 ≤ total Task.last rest at hlast
      omega
    | earlyClose => exact absurd (Or.inl rfl) hearly
    | postZeroRecv | postRecv | createPort | loop | acceptClose => contradiction
    | _ => rcases hlooks with hposts | hassoc | hclosing <;> contradiction
  | acceptFreeRObj =>
    rw [hlone (by decide)] at hu
    contradiction
  | earlyFreeRSock => exact absurd (Or.inr rfl) (h.early _ List.mem_cons_self)
  | releaseFreeRSock k =>
    obtain ⟨hnone, hone, _⟩ := hexact.last_alone (by change 0 < 1+_; omega)
    change 0+total Task.refs rest+_ = 0 at hnone
    change 1+total Task.last rest = 1 at hone
    cases u with
    | startSend | repostSend | nextSend => rfl
    | releaseClose | earlyClose =>
      change 1 ≤ total Task.last rest at hlast
      omega
    | postZeroRecv | postRecv | createPort | loop | acceptClose =>
      change 1 ≤ total Task.refs rest at hrefs
      omega
    | _ => rcases hlooks with hposts | hassoc | hclosing <;> contradiction
  | _ => contradiction

end ClientConn

namespace Threads

section Step

variable {s s' : Threads} {a : Access} {ch : WorkerChoice} {new : List Access}
  {evs : List WorkerEvent}

theorem whole_running (rs : List Running) : (rs.map .whole).flatMap Access.running = rs := by
  rw [List.flatMap_map]
  exact List.flatMap_singleton' rs

/-- What a turn is in `Process`: nothing, or a turn of the same thread. -/
inductive Follows (s : Threads) (a : Access) (ch : WorkerChoice) (s' : Threads) :
    List Running → List WorkerEvent → Prop
  | still : s'.process = s.process → Follows s a ch s' a.running []
  | turn {r : Running} {new : List Running} {evs : List WorkerEvent} (ok : Bool) :
      a.turns? = some r →
      s.process.step r (ch.lets ok) = .ok (s'.process, new, evs) →
      Follows s a ch s' new evs

theorem turn_ok {r : Running} (h : s.turn r ch = .ok (s', new, evs)) :
    s.process.step r ch = .ok (s'.process, new.flatMap Access.running, evs) := by
  unfold turn at h
  split at h
  · contradiction
  · case h_2 process next es hstep =>
    split at h
    · cases h
      rw [whole_running]
      exact hstep
    · cases h
      rw [hstep]
      congr
      simp [Access.running]

/-- CLient_PostSend in `Process`. -/
theorem send_turn (ch : Choice) {s : Process} {i : ℕ} {t : SendTask} {ok : Bool} {conn : ClientConn}
    {next : List Task} {es : List Event}
    (hok : ok = (ch.ok && s.grants (s.clients i).conn.rsock.sock true false))
    (h : (s.clients i).conn.step t.1 { ch with ok } = .ok (conn, next, es)) :
    s.clientStep i t.1 none ch = .ok (s.clientEffects i conn es,
      next.map (fun t' => .client i t' (s.clientKey conn.rsock.sock t')), es.map (.client i)) := by
  obtain ⟨hexpects, hposts, hassociates⟩ := t.1.postsSend_call t.2 (s.clients i).conn.pRSock
  rw [hok] at h
  unfold Process.clientStep
  dsimp only
  rw [hexpects, hposts, hassociates, if_pos rfl, h]
  rfl

/-- WSASend on the connection's own handle, or on one that is not open. -/
theorem wsaSend_follows {i : ℕ} {t : SendTask} {sock : SOCKET}
    (hlisted : OwnerTable.Listed s.process.hasHandle s.process.owner)
    (hown : s.process.owner sock = none ∨ s.process.owner sock = some (.client i))
    (h : s.wsaSend i t sock ch.client = .ok (s', new, evs)) :
    Follows s (.sending i t sock) ch s' (new.flatMap Access.running) evs := by
  unfold wsaSend at h
  dsimp only at h
  split at h
  · contradiction
  · case h_2 conn next es hstep =>
    cases h
    have hrunning (key : Task → Option Key) : (next.map fun t' =>
        Access.whole (.client i t' (key t'))).flatMap Access.running =
          next.map fun t' => .client i t' (key t') := by
      rw [List.flatMap_map]
      exact List.flatMap_pure_eq_map _ _
    rw [hrunning]
    rcases hown with hnone | hmine
    -- The handle was closed: WSASend fails, as on INVALID_SOCKET.
    · have hfails : s.process.grants sock true false = false := by
        unfold Process.grants
        rw [hnone]
        rfl
      rw [hfails, Bool.and_false] at hstep
      obtain ⟨_, b, hnext⟩ := ClientConn.send_step t.2 hstep
      have hturn := send_turn (s := s.process) (i := i) (t := t) { ch.client with ok := false } rfl
        (ClientConn.send_refused t.2 hstep)
      apply Follows.turn false rfl
      change s.process.clientStep i t.1 none { ch.client with ok := false } = _
      -- Nothing is posted, so no key is asked for.
      rw [hturn, show next = [.getNextData b] from hnext]
      rfl
    -- The handle is open and this connection's, so it is the one that the object still has.
    · have hsock : sock = (s.process.clients i).conn.rsock.sock := (hlisted _ _ hmine).2.1
      rw [hsock] at hstep ⊢
      have hsame : conn.rsock = (s.process.clients i).conn.rsock :=
        (ClientConn.send_step t.2 hstep).1
      have hturn := send_turn (s := s.process) (i := i) (t := t) ch.client rfl hstep
      have hconn : conn.withSock (s.process.clients i).conn.rsock.sock = conn := by
        unfold ClientConn.withSock ClientConn.setRSock
        rw [← hsame]
      apply Follows.turn ch.client.ok rfl
      change s.process.clientStep i t.1 none ch.client = _
      rw [hturn, hconn, hsame]

theorem step_follows (hlisted : OwnerTable.Listed s.process.hasHandle s.process.owner)
    (hown : sendsOwn.permits () s a ch = true) (h : s.step a ch = .ok (s', new, evs)) :
    Follows s a ch s' (new.flatMap Access.running) evs := by
  cases a with
  | whole r =>
    dsimp only [step] at h
    split at h
    · case h_1 i t hsender =>
      unfold readSock at h
      split at h
      · cases h
        unfold Running.sender? at hsender
        split at hsender
        · split at hsender
          · cases hsender
            exact Follows.still rfl
          · contradiction
        · contradiction
      · contradiction
    · exact Follows.turn ch.client.ok rfl (turn_ok h)
  | sending i t sock => exact wsaSend_follows hlisted (of_decide_eq_true hown) h
  | storing i rs =>
    cases h
    rw [whole_running]
    exact Follows.still rfl

/-- A turn that closes a socket. -/
theorem turn_storing {r : Running} {rest : List Running} {i : ℕ} {rs : List Running}
    (hinv : Process.Inv s.process (r :: rest)) (hallowed : machine.allowed s ch)
    (h : s.turn r ch = .ok (s', new, evs)) (hmem : .storing i rs ∈ new) :
    ∃ t key, rs = [.client i t key] ∧ t.afterClose := by
  unfold turn at h
  split at h
  · contradiction
  · case h_2 process next es hstep =>
    split at h
    · cases h
      simp at hmem
    · case h_2 j hclosed =>
      cases h
      rw [List.mem_singleton, Access.storing.injEq] at hmem
      obtain ⟨rfl, rfl⟩ := hmem
      unfold Process.closed? at hclosed
      split at hclosed
      · case h_1 k t key =>
        split at hclosed
        · contradiction
        · case isFalse hne =>
          -- Its `sock` has changed, and only a close changes it.
          obtain rfl := Option.some.inj hclosed
          obtain ⟨ok, conn, next', es', _, hturn⟩ := Process.clientStep_own hstep
          have hfresh : ch.client.pBObj ∉ (s.process.clients k).conn.objs := by
            intro hobj
            have hused := (hinv.client k hinv.client_lt).pool (.bufferObj ch.client.pBObj) hobj
            rw [hallowed.2.2.2] at hused
            contradiction
          have hnew : ({ ch.client with ok } : Choice).pBObj ∉ (s.process.clients k).conn.objs :=
            hfresh
          rw [(Process.clientTurn_state hturn).2.1, Function.update_self] at hne
          obtain ⟨u, rfl, hu⟩ := (ClientConn.step_turn hnew hturn.step).closed hne
          exact ⟨u, _, hturn.tasks, hu⟩
      · contradiction

theorem step_storing {rest : List Running} {i : ℕ} {rs : List Running}
    (hinv : Process.Inv s.process (a.running ++ rest)) (hallowed : machine.allowed s ch)
    (h : s.step a ch = .ok (s', new, evs)) (hmem : .storing i rs ∈ new) :
    ∃ t key, rs = [.client i t key] ∧ t.afterClose := by
  cases a with
  | whole r =>
    dsimp only [step] at h
    split at h
    · unfold readSock at h
      split at h
      · cases h
        simp at hmem
      · contradiction
    · exact turn_storing hinv hallowed h hmem
  | sending j t sock =>
    dsimp only [step, wsaSend] at h
    split at h
    · contradiction
    · cases h
      simp at hmem
  | storing j ts =>
    cases h
    simp at hmem

end Step

section Run

variable {g_dwPagesize : DWORD} {sListenSock : Server → SOCKET} {others : SOCKET → Bool}
  {clients : ℕ → Client} {ncs : ℕ → Pusher} {evs : List WorkerEvent}
  {conf : Conf (Threads × Unit) Access} {W : Monitor Unit Threads Access WorkerChoice}
  {V : Monitor Unit Process Running WorkerChoice}

/-- A run of the threads is one of `Process`, as long as every WSASend finds the handle of its
connection, or none. -/
theorem process_follows
    (hsends : ∀ s a ch, W.permits () s a ch = true → sendsOwn.permits () s a ch = true)
    (hturns : ∀ s a ch r ok, W.permits () s a ch = true → a.turns? = some r →
      V.permits () s.process r (ch.lets ok) = true)
    (h : Run (machine.watched W)
      ((ofProcess (Process.booted g_dwPagesize sListenSock others clients ncs)).watch ())
        evs conf) :
    ∃ c, Run (Process.machine.watched V)
      ((Process.booted g_dwPagesize sListenSock others clients ncs).watch ()) evs c ∧
        c.shared.1 = conf.shared.1.process ∧ c.tasks.Perm (conf.tasks.flatMap Access.running) := by
  apply h.invariant fun evs conf => ∃ c, Run (Process.machine.watched V)
    ((Process.booted g_dwPagesize sListenSock others clients ncs).watch ()) evs c ∧
      c.shared.1 = conf.shared.1.process ∧ c.tasks.Perm (conf.tasks.flatMap Access.running)
  · refine ⟨_, Run.nil, rfl, ?_⟩
    change List.Perm _ (((Process.booted g_dwPagesize sListenSock others clients ncs).tasks.map
      .whole).flatMap Access.running)
    rw [whole_running]
    exact List.Perm.refl _
  · rintro evs conf es conf' ⟨⟨⟨p, _⟩, ts⟩, hrun, rfl, htasks⟩ hstep
    cases hstep with
    | @turn s s' a ch as new rest _ hp hallowed hok =>
      obtain ⟨hpermits, hstep, _⟩ := watched_step hok
      have hlisted := (Process.run_tracked hrun.unwatch).handles
      have hbefore : ts.Perm (a.running ++ rest.flatMap Access.running) :=
        htasks.trans (hp.flatMap_right _)
      have hfollows := step_follows hlisted (hsends _ _ _ hpermits) hstep
      generalize hnew : new.flatMap Access.running = rs at hfollows
      rw [List.flatMap_append, hnew]
      cases hfollows with
      -- A look at the socket, or the store: the process has not moved.
      | still hsame => exact ⟨_, (List.append_nil evs).symm ▸ hrun, hsame.symm, hbefore⟩
      | @turn r _ _ ok hr hturn =>
        rw [Access.running_of_turns hr] at hbefore
        have hpermitted := hturns _ _ _ _ ok hpermits hr
        have hallowed : (Process.machine.watched V).allowed (s.1.process, ()) (ch.lets ok) :=
          hallowed
        have hcoarse : Step (Process.machine.watched V) ⟨(s.1.process, ()), ts⟩ es
            ⟨(s'.1.process, ()), rs ++ rest.flatMap Access.running⟩ :=
          Step.turn hbefore hallowed (watched_turn hpermitted hturn)
        exact ⟨_, hrun.snoc hcoarse, rfl, List.Perm.refl _⟩

/-- Whatever the threads do, the process is in a state that `Process` reaches. -/
theorem threads_follow (h : Run (machine.watched sendsOwn)
    ((ofProcess (Process.booted g_dwPagesize sListenSock others clients ncs)).watch ()) evs conf) :
    ∃ c, Run Process.machine (Process.booted g_dwPagesize sListenSock others clients ncs) evs c ∧
      c.shared = conf.shared.1.process ∧ c.tasks.Perm (conf.tasks.flatMap Access.running) := by
  obtain ⟨c, hrun, hprocess, htasks⟩ := process_follows
    (V := ⟨fun _ _ _ _ => (), fun _ _ _ _ => true⟩) (fun _ _ _ hpermits => hpermits)
    (fun _ _ _ _ _ _ _ => rfl) h
  exact ⟨c.unwatch, hrun.unwatch, hprocess, htasks⟩

/-- Whoever has closed a socket goes on with one of the tasks that follow a close. -/
theorem storing_after (h : Run (machine.watched sendsOwn)
    ((ofProcess (Process.booted g_dwPagesize sListenSock others clients ncs)).watch ()) evs conf) :
    ∀ i rs, .storing i rs ∈ conf.tasks → ∃ t key, rs = [.client i t key] ∧ t.afterClose := by
  induction h with
  | nil =>
    intro i rs hmem
    obtain ⟨r, _, hr⟩ := List.mem_map.mp hmem
    contradiction
  | snoc hrun hstep ih =>
    intro i rs hmem
    cases hstep with
    | turn hp hallowed hok =>
      rcases List.mem_append.mp hmem with hnew | hrest
      -- The turn is one of `Process`, whose invariant says which tasks close.
      · obtain ⟨c, hcoarse, hprocess, htasks⟩ := threads_follow hrun
        have hinv := ((Process.booted_inv _ _ _ _ _).run hcoarse).perm
          (htasks.trans (hp.flatMap_right _))
        rw [hprocess] at hinv
        exact step_storing hinv hallowed (watched_step hok).2.1 hnew
      · exact ih i rs (hp.mem_iff.mpr (List.mem_cons_of_mem _ hrest))

/-- Until INVALID_SOCKET is stored, only a CLient_PostSend reads the handle that was closed. -/
theorem storing_unseen (h : Run (machine.watched sendsOwn)
    ((ofProcess (Process.booted g_dwPagesize sListenSock others clients ncs)).watch ()) evs conf)
    {i : ℕ} {rs : List Running} (hstoring : .storing i rs ∈ conf.tasks) {t : Task}
    {key : Option Key} (ht : .whole (.client i t key) ∈ conf.tasks) (hlooks : t.looks) :
    t.postsSend = true := by
  obtain ⟨c, hrun, hprocess, htasks⟩ := threads_follow h
  obtain ⟨u, key', rfl, hu⟩ := storing_after h i rs hstoring
  have hinv := ((Process.booted_inv _ _ _ _ _).run hrun).perm htasks
  rw [hprocess] at hinv
  have hperm := List.perm_cons_erase hstoring
  have hmem : Access.whole (.client i t key) ∈
      conf.tasks.erase (.storing i [.client i u key']) :=
    (List.mem_erase_of_ne (by simp)).mpr ht
  have hcons := hinv.perm (hperm.flatMap_right Access.running)
  rw [List.flatMap_cons] at hcons
  have hi := Process.Inv.client_lt (h := hcons)
  have howned := (hcons.client i hi).owned
  change ClientConn.Owned _ (clientTasks i (.client i u key' :: _)) at howned
  rw [clientTasks_self] at howned
  apply howned.unseen hu _ hlooks
  apply List.mem_filterMap.mpr
  refine ⟨.client i t key, List.mem_flatMap.mpr ⟨_, hmem, List.mem_singleton_self _⟩, ?_⟩
  simp [Running.client?]

/-- What worker_thread relies on when it dispatches a completion, and no turn that frees an object
frees it again. -/
structure Consistent (s : Threads) (as : List Access) : Prop where
  operations : s.process.Consistent (as.flatMap Access.running)
  freedOnce : ∀ a ∈ as, ∀ ch, machine.allowed s ch → s.step a ch ≠ .error (.client .doubleFree) ∧
    s.step a ch ≠ .error (.nc .doubleFree)

theorem freed_once {s : Threads} {as : List Access}
    (h : s.process.Consistent (as.flatMap Access.running)) {a : Access} (ha : a ∈ as)
    {ch : WorkerChoice} (hallowed : machine.allowed s ch) :
    s.step a ch ≠ .error (.client .doubleFree) ∧ s.step a ch ≠ .error (.nc .doubleFree) := by
  cases a with
  | whole r =>
    have hr : r ∈ as.flatMap Access.running :=
      List.mem_flatMap.mpr ⟨_, ha, List.mem_singleton_self r⟩
    have hfreed := h.freedOnce r hr ch hallowed
    dsimp only [step]
    split
    · unfold readSock
      split <;> simp
    · unfold turn
      split
      · case h_1 f hf =>
        rw [hf] at hfreed
        simpa using hfreed
      · split <;> simp
  | sending i t sock =>
    dsimp only [step, wsaSend]
    split
    · case h_1 f hf =>
      rw [ClientConn.send_faults t.2 hf]
      simp
    · simp
  | storing i rs => simp [step]

/-- Every completion finds its object, its handlers and its key along every run in which CheckNCData
closes no handle that is open, and WSASend is called on nobody else's. -/
theorem dispatch_consistent (g_dwPagesize : DWORD) (sListenSock : Server → SOCKET)
    (others : SOCKET → Bool) (clients : ℕ → Client) (ncs : ℕ → Pusher) (evs : List WorkerEvent)
    (conf : Conf (Threads × Unit) Access) (h : Run (machine.watched ownHandles)
      ((ofProcess (Process.booted g_dwPagesize sListenSock others clients ncs)).watch ())
        evs conf) : Consistent conf.shared.1 conf.tasks := by
  have hsends (s : Threads) (a : Access) (ch : WorkerChoice)
      (hpermits : ownHandles.permits () s a ch = true) : sendsOwn.permits () s a ch = true :=
    ((Bool.and_eq_true _ _).mp hpermits).2
  obtain ⟨c, hrun, hprocess, htasks⟩ := process_follows (V := Process.noStray) hsends (by
    intro s a ch r ok hpermits hr
    have hown : closesOwn.permits () s a ch = true := ((Bool.and_eq_true _ _).mp hpermits).1
    cases a with
    | whole =>
      cases hr
      exact hown
    | sending =>
      cases hr
      rfl
    | storing => contradiction) h
  obtain ⟨hinv, hports⟩ := Process.run_ports hrun
  rw [hprocess] at hinv hports
  have hconsistent := (hports.perm htasks).consistent (hinv.perm htasks)
  exact ⟨hconsistent, fun a ha ch hallowed => freed_once hconsistent ha hallowed⟩

end Run

open Process

def sample : Conf Threads Access := ofProcess Process.sample

/-- The environment lets the turn succeed, with the BUFFER_OBJ 98 for the next command. -/
def lends (bytes : List Byte) (sock : SOCKET) (p : ℕ) : WorkerChoice :=
  { gives bytes sock p with client := ⟨true, bytes, 0, 98, BufferObj.zeroed⟩ }

/-- A client on the handle 22 sends an empty command and six zeros, its command is answered with one
byte, and CLient_PostSend has read the handle. -/
def clientAnswers : List (ℕ × WorkerChoice) :=
  [(0, gives [] 22 1),
    (1, gives ([0xfb, 0xfc, 0, 0, 0, 0, 0, 0x0d] ++ List.replicate 6 0) 1000 50),
    (0, gives [] 1000 50), (0, gives [] 1000 50), (0, lends [] 1000 50), (0, lends [] 1000 50),
    (0, lends [] 1000 50), (0, lends [0x41] 1000 50), (0, lends [] 1000 50)]

theorem answer_dispatched : ∃ evs conf,
    Run (machine.watched ownHandles) (sample.watch ()) evs conf ∧
      .whole (.client 0 (.send 99) (some (.recvSock 1))) ∈ conf.tasks ∧
        Consistent conf.shared.1 conf.tasks := by
  have hplay : (play (machine.watched ownHandles) (sample.watch ())
      (clientAnswers ++ [(0, lends [] 1000 50)])).map (fun r => r.2.tasks) =
        some [.whole (.client 0 (.send 99) (some (.recvSock 1))),
          .whole (.client 0 (.loop .accept) none), .whole (.acceptex .client),
          .whole (.acceptex .nc)] := by decide +kernel
  obtain ⟨evs, conf, hrun, htasks⟩ := play_reaches hplay
  refine ⟨evs, conf, hrun, ?_, dispatch_consistent _ _ _ _ _ evs conf hrun⟩
  rw [show conf.tasks = _ from htasks]
  exact List.mem_cons_self

/-- The delivery loop closes the handle before WSASend is called, and the server of push requests
gets it for a connection of its own. -/
def sendLate : List (ℕ × WorkerChoice) :=
  clientAnswers ++
    [(1, lends [] 1000 50), (3, lends [] 22 3), (1, lends [0x47] 1000 50), (0, lends [] 1000 50),
      (3, lends [] 1000 50)]

theorem foreign_of_mem {s : Threads} {as : List Access} {t : Task} {p : SockPtr}
    (hmem : .whole (.client 0 t (some (.bufferSock p))) ∈ as)
    (ht : s.process.object (.client 0 t (some (.bufferSock p))) ≠ none) : ¬Consistent s as := by
  intro h
  have hr : Running.client 0 t (some (.bufferSock p)) ∈ as.flatMap Access.running :=
    List.mem_flatMap.mpr ⟨_, hmem, List.mem_singleton_self _⟩
  have hkey : some (Key.bufferSock p) = t.expects (s.process.clients 0).conn.pRSock :=
    h.operations.key _ hr ht
  cases t with
  | cmd => simp [Task.expects] at hkey
  | accept | zeroRecv | recv | send => simp [Task.expects] at hkey
  | _ => simp [Process.object] at ht

/-- A push request that is one byte too long closes a client's handle, and a completion of the
client comes back with the BUFFER_SOCK of the connection that the handle has become; or the client's
own delivery loop has closed it, between CLient_PostSend's look at it and WSASend. -/
theorem foreign_key :
    (∃ evs conf, Run (machine.watched sendsOwn) (sample.watch ()) evs conf ∧
      .whole (.client 0 .zeroRecv (some (.bufferSock 3))) ∈ conf.tasks ∧
        ¬Consistent conf.shared.1 conf.tasks) ∧
    ∃ evs conf, Run (machine.watched closesOwn) (sample.watch ()) evs conf ∧
      .whole (.client 0 (.send 99) (some (.bufferSock 3))) ∈ conf.tasks ∧
        ¬Consistent conf.shared.1 conf.tasks := by
  constructor
  · have hplay : (play (machine.watched sendsOwn) (sample.watch ()) handleReused).map
        (fun r => r.2.tasks.head?) =
          some (some (.whole (.client 0 .zeroRecv (some (.bufferSock 3))))) := by decide +kernel
    obtain ⟨evs, conf, hrun, htasks⟩ := play_reaches hplay
    have hmem := List.mem_of_head? htasks
    exact ⟨evs, conf, hrun, hmem, foreign_of_mem hmem (Option.some_ne_none _)⟩
  · have hplay : (play (machine.watched closesOwn) (sample.watch ()) sendLate).map
        (fun r => r.2.tasks.head?) =
          some (some (.whole (.client 0 (.send 99) (some (.bufferSock 3))))) := by decide +kernel
    obtain ⟨evs, conf, hrun, htasks⟩ := play_reaches hplay
    have hmem := List.mem_of_head? htasks
    exact ⟨evs, conf, hrun, hmem, foreign_of_mem hmem (Option.some_ne_none _)⟩

end Threads

end CustomersCard
