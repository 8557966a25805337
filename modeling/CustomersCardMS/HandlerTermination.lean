import CustomersCardMS.ConnLeftovers
import CustomersCardMS.ConnAlone

namespace CustomersCard
open Interleaving

namespace Task

/-- An operation that waits for its completion, or a command handler. -/
def outstanding : Task → Prop
  | .accept | .zeroRecv | .recv | .cmd _ | .send _ | .command _ => True
  | _ => False

/-- What is left to do until the handler returns, besides the bytes in the ring and lstSend. -/
def work : Task → ℕ
  | .accept | .zeroRecv | .recv | .cmd _ | .send _ | .command _ => 0
  | .createPort n => n.toNat+7
  | .addRef _ _ => 10
  | .postCmd _ _ => 9
  | .acceptDecRef _ | .recvFreeBObj _ => 8
  | .acceptFreeBObj _ | .recvDecRef => 7
  | .loop _ => 6
  | .postZeroRecv | .postRecv | .freeSent _ _ => 5
  | .release _ => 4
  | .acceptClose | .releaseClose _ | .nextDecRef _ => 3
  | .acceptFreeRObj | .releaseFreeRSock _ | .earlyClose => 2
  | .startSend _ | .repostSend _ | .nextSend _ => 2
  | .acceptFreeRSock | .earlyFreeRSock | .releaseTail _ | .getNextData _ => 1

end Task

namespace RecvSock

theorem SameRing.unreadCount {s t : RecvSock} (h : SameRing s t) :
    t.unreadCount = s.unreadCount := by
  unfold RecvSock.unreadCount
  rw [h.empty, h.readpos, h.writepos, h.size]

end RecvSock

namespace ClientConn

/-- Every frame takes more of the ring than its loop body adds, and every send one of lstSend. -/
def work (c : ClientConn) (ts : List Task) : ℕ :=
  c.rsock.unreadCount + 10*c.rsock.lstSend.length + total Task.work ts

section Step

variable {c c' : ClientConn} {t : Task} {new rest : List Task} {evs : List Event} {ch : Choice}

theorem Passes.work {t' : Task} (h : Passes t t') (ht : ¬ t.outstanding) :
    t'.work < t.work := by
  cases h with
  | accepted | refused | readable | zeroFailed | received | recvFailed => exact absurd trivial ht
  | cmdRuns | cmdFailed | kept => exact absurd trivial ht
  | associated n | unassociated n =>
    change _ < n.toNat+7
    simp only [Task.work]
    omega
  | closed | drained | unqueuedAccept | unqueuedRecv | earlyClosed => simp [Task.work]
  | zeroPosted | zeroRefused | recvPosted | recvRefused => simp [Task.work]
  | releaseClosed | reposted | repostRefused => simp [Task.work]

theorem FreesBObj.work {b : BufferObjPtr} (h : FreesBObj b t new) :
    total Task.work new < t.work := by
  cases h with
  | accept | recv | cmd | lastSent | sent => simp [total, Task.work]

/-- But for the loop, a turn lowers what its own handler and the sends have left to do. -/
theorem Fires.work (h : Fires c t c' new evs) (ht : ¬ t.outstanding) (hloop : ∀ o, t ≠ .loop o) :
    total Task.work new + 10*c'.rsock.lstSend.length < t.work + 10*c.rsock.lstSend.length := by
  cases h with
  | pass hp hl =>
    have hlt := hp.work ht
    rw [hl.lstSend]
    simp only [total, List.map_cons, List.map_nil, List.sum_cons, List.sum_nil]
    omega
  | alloc o b => exact absurd rfl (hloop o)
  | queue o b hl =>
    rw [hl.lstSend]
    simp [total, Task.work]
  | freeBObj b hb hf =>
    have hlt := hf.work
    change _ + 10*c.rsock.lstSend.length < _
    omega
  | enqueue | sent | sendFailed => exact absurd trivial ht
  | start b hs hs' hl =>
    rw [hl.lstSend]
    rcases hs with rfl | rfl
    · rcases hs' with rfl | rfl
      · simp [total, Task.work]
      · simp [total, Task.work]
    · rcases hs' with rfl | rfl
      · simp [total, Task.work]
      · simp [total, Task.work]
  | dequeue b x front hlst =>
    rw [hlst, List.length_append]
    change _ + 10*front.length < _
    simp only [total, Task.work, List.map_cons, List.map_nil, List.sum_cons, List.sum_nil,
      List.length_cons, List.length_nil]
    omega
  | acquire | acceptDecRef | recvDecRef | recvDecRefZero | release | releaseZero | nextDecRef =>
    simp [total, Task.work, setRSock, RecvSock.addRef, RecvSock.decRef]
  | acceptFreeRSock | earlyFreeRSock | releaseFreeRSock | acceptFreeRObj | releaseFreeRObj
  | releaseNothing => simp [total, Task.work]

/-- Outside the loop no handler but the one that accepts changes what is unread. -/
theorem step_sameRing (ht : ¬ t.outstanding) (hloop : ∀ o, t ≠ .loop o)
    (hport : ∀ n, t ≠ .createPort n) (h : c.step t ch = .ok (c', new, evs)) :
    RecvSock.SameRing c.rsock c'.rsock := by
  by_cases hchain : t.chain = 0
  · exact (step_keeps hchain h).same
  cases t with
  | createPort n => exact absurd rfl (hport n)
  | loop o => exact absurd rfl (hloop o)
  | acceptClose | earlyClose | releaseClose k =>
    simp only [step, withRSock, guarded_ok] at h
    exact (cmCloseSocket_keeps h.2).same
  | acceptFreeRObj | acceptFreeRSock | earlyFreeRSock | releaseFreeRSock k =>
    simp only [step, freeRObj, freeRSock, guarded_ok, ok_inj] at h
    rcases h with ⟨_, rfl, _⟩
    exact (RecvSock.Kept.refl _).same
  | addRef | acceptDecRef | recvDecRef | release =>
    simp only [step, withRSock, guarded_ok, ok_inj] at h
    rcases h with ⟨_, rfl, _⟩
    exact ⟨rfl, rfl, rfl, rfl, rfl, rfl⟩
  | postCmd o b =>
    simp only [step, withBObj, guarded_ok] at h
    rcases h with ⟨_, h⟩
    split at h
    · rw [ok_inj] at h
      rcases h with ⟨rfl, _⟩
      exact (RecvSock.Kept.refl _).same
    · cases o with
      | accept | recv =>
        rw [ok_inj] at h
        rcases h with ⟨rfl, _⟩
        exact (RecvSock.Kept.refl _).same
  | acceptFreeBObj | recvFreeBObj =>
    simp only [step, freeBObj, guarded_ok, ok_inj] at h
    rcases h with ⟨_, rfl, _⟩
    exact (RecvSock.Kept.refl _).same
  | postZeroRecv =>
    simp only [step, withRObj, withRSock, guarded_ok, ok_inj] at h
    rcases h with ⟨_, _, rfl, _⟩
    exact ⟨rfl, rfl, rfl, rfl, rfl, rfl⟩
  -- Client_PostRecv computes sizes from the positions and leaves these alone.
  | postRecv =>
    simp only [step, withRObj, withRSock, guarded_ok, ok_inj] at h
    rcases h with ⟨_, _, rfl, _⟩
    exact RecvSock.initWSABUFS_same _
  | releaseTail k =>
    cases k with
    | robj =>
      simp only [step, freeRObj, guarded_ok, ok_inj] at h
      rcases h with ⟨_, rfl, _⟩
      exact (RecvSock.Kept.refl _).same
    | bobj | nothing => exact absurd rfl hchain
  | accept | zeroRecv | recv => exact absurd trivial ht
  | _ => exact absurd rfl hchain

/-- The first bytes of a connection are all there is to read after the accept. -/
theorem createPort_unread {n : DWORD} {_Bufsize : DWORD} {hist : History}
    (hphase : Task.phase _Bufsize hist c (.createPort n))
    (h : c.step (.createPort n) ch = .ok (c', new, evs)) :
    c'.rsock.unreadCount ≤ c.rsock.unreadCount+n.toNat := by
  obtain ⟨_, hne, hle, rfl, g, sock, hrsock⟩ := hphase
  simp only [step, withRSock, guarded_ok] at h
  rcases h with ⟨_, h⟩
  split at h
  · rw [ok_inj] at h
    rcases h with ⟨rfl, _⟩
    obtain ⟨hring, hunread, _⟩ := RecvSock.acceptFill_spec g (g.connect _Bufsize sock) _Bufsize sock
      rfl hist.received hne (by omega)
    have hlength := RecvSock.length_unread _ hring.toPosInv
    rw [hunread] at hlength
    change (c.rsock.initWRpos _).unreadCount ≤ _
    rw [hrsock, RecvSock.toNat_ofNat_of_le _Bufsize _ (by omega)]
    change RecvSock.unreadCount (RecvSock.acceptFill _ _) ≤ _
    omega
  · rw [ok_inj] at h
    rcases h with ⟨rfl, _⟩
    exact Nat.le_add_right _ _

/-- The loop stops, or takes at least the eight bytes around a message out of the ring. -/
theorem loop_unread {o : Origin} {_Bufsize : DWORD} {hist : History} (h64 : 64 < _Bufsize.toNat)
    (h31 : _Bufsize.toNat < 2^31) (hphase : Task.phase _Bufsize hist c (.loop o))
    (h : c.step (.loop o) ch = .ok (c', new, evs)) :
    c'.rsock.unreadCount+total Task.work new < c.rsock.unreadCount+6 := by
  have hring := hphase.ring
  have h6 : 6 ≤ c.rsock.dwBufsize.toNat := by
    rw [hphase.size]
    omega
  have hlim : c.rsock.dwBufsize.toNat < 2^31 := by
    rw [hphase.size]
    exact h31
  simp only [step, withRSock, guarded_ok, loopStep] at h
  rcases h with ⟨_, h⟩
  split at h
  · contradiction
  · case h_2 len rsock hd =>
    split at h
    · case isTrue hz =>
      rw [hz] at hd
      rw [ok_inj] at h
      rcases h with ⟨rfl, rfl, _⟩
      change rsock.unreadCount+5 < _
      rw [(RecvSock.refused_ring _ hring h6 hlim hd).unreadCount]
      omega
    · case isFalse hlen =>
      unfold takeCommand at h
      split at h
      · contradiction
      · case h_2 n bytes rsock' hread =>
        obtain ⟨_, _, _, _, _, hlt⟩ := RecvSock.command_taken hring h6 hlim hd hlen hread
        split at h
        · contradiction
        · rw [ok_inj] at h
          rcases h with ⟨rfl, rfl, _⟩
          change rsock'.unreadCount+10 < _
          omega

/-- Every turn of a handler lowers what is left to do. -/
theorem Streams.work {_Bufsize : DWORD} {hist : History} (h64 : 64 < _Bufsize.toNat)
    (h31 : _Bufsize.toNat < 2^31) (hs : Streams _Bufsize hist c (t :: rest))
    (hfresh : ch.pBObj ∉ c.objs) (ht : ¬ t.outstanding) (h : c.step t ch = .ok (c', new, evs)) :
    c'.work (new ++ rest) < c.work (t :: rest) := by
  have hphase := hs.phase t List.mem_cons_self
  have hfires := (step_turn hfresh h).fires
  unfold ClientConn.work
  rw [total_append, total_cons]
  by_cases hloop : ∃ o, t = .loop o
  · obtain ⟨o, rfl⟩ := hloop
    have hlt := loop_unread h64 h31 hphase h
    have hsends : c'.rsock.lstSend = c.rsock.lstSend := by
      cases hfires with
      | pass _ hl => exact hl.lstSend
      | alloc _ _ _ _ hlst => exact hlst
      | freeBObj b hb hf => rfl
      | start b hs => rcases hs with hs | hs <;> contradiction
    rw [hsends]
    change _ < _+(6+_)
    omega
  · have hlt := hfires.work ht fun o heq => hloop ⟨o, heq⟩
    by_cases hport : ∃ n, t = .createPort n
    · obtain ⟨n, rfl⟩ := hport
      have hle := createPort_unread hphase h
      have hnew : total Task.work new ≤ 6 ∧ c'.rsock.lstSend = c.rsock.lstSend := by
        cases hfires with
        | pass hp hl =>
          refine ⟨?_, hl.lstSend⟩
          cases hp with
          | associated | unassociated => simp [total, Task.work]
        | freeBObj b hb hf => cases hf
        | start b hs => rcases hs with hs | hs <;> contradiction
      rw [hnew.2]
      change _ < _+(n.toNat+7+_)
      omega
    · have hsame := step_sameRing ht (fun o heq => hloop ⟨o, heq⟩) (fun n heq => hport ⟨n, heq⟩) h
      rw [hsame.unreadCount]
      omega

end Step

/-- From every state of every run the handlers come to rest, whichever of them takes the next turn
and whatever the environment decides: they take at most so many turns as their work says, and
what they leave are operations that wait for a completion, command handlers, and at most a
delivery loop that has left its ring or whose command is too long for its BUFFER_OBJ. -/
theorem handlers_come_to_rest (g_dwPagesize : DWORD)
    (h64 : 64 < (g_dwPagesize * 8 - RECV_SOCK_SIZE).toNat)
    (h31 : (g_dwPagesize * 8 - RECV_SOCK_SIZE).toNat < 2^31) (pRSock : SockPtr) (rsock : RecvSock)
    (sock : SOCKET) (robj : RecvObj) (mem : BufferObjPtr → BufferObj) (evs : List Event)
    (conf : Conf ClientConn Task)
    (h : Run machine (start g_dwPagesize pRSock rsock sock robj mem) evs conf) :
    (∀ n conf', Turns machine (¬ ·.outstanding) conf n conf' →
        n ≤ conf.shared.work conf.tasks) ∧
      ∃ n conf', Turns machine (¬ ·.outstanding) conf n conf' ∧
        ∀ t ∈ conf'.tasks, t.outstanding ∨ (∃ o, t = .loop o) ∧
          ∀ ch, ch.pBObj ∉ conf'.shared.objs → conf'.shared.step t ch = .error .outOfBounds := by
  have hstart := start_streaming g_dwPagesize pRSock rsock sock robj mem
  have hconf : Streaming (g_dwPagesize * 8 - RECV_SOCK_SIZE) conf :=
    h.invariant (fun _ => Streaming _) hstart fun _ _ _ _ hs hstep => hs.step h64 h31 hstep
  have hinv (c : Conf ClientConn Task) (es : List Event) (c' : Conf ClientConn Task)
      (hs : Streaming (g_dwPagesize * 8 - RECV_SOCK_SIZE) c)
      (hturn : TurnOf machine (¬ ·.outstanding) c es c') :
      Streaming (g_dwPagesize * 8 - RECV_SOCK_SIZE) c' := hs.step h64 h31 hturn.step
  have hrank (c : Conf ClientConn Task) (es : List Event) (c' : Conf ClientConn Task)
      (hs : Streaming (g_dwPagesize * 8 - RECV_SOCK_SIZE) c)
      (hturn : TurnOf machine (¬ ·.outstanding) c es c') :
      c'.shared.work c'.tasks < c.shared.work c.tasks := by
    obtain ⟨hist, hs⟩ := hs
    cases hturn with
    | turn ht hp hfresh hstep =>
      have hlt := (hs.perm hp).work h64 h31 hfresh ht hstep
      unfold ClientConn.work at hlt ⊢
      rwa [total_perm _ hp]
  refine ⟨?_, ?_⟩
  · intro n conf' hturns
    have hle := (Turns.bounded hinv hrank hconf hturns).2
    omega
  · obtain ⟨n, conf', hturns, ⟨hist, hs⟩, hrest⟩ :=
      Turns.exhausted hinv hrank hconf
    refine ⟨n, conf', hturns, ?_⟩
    intro t ht
    by_cases hout : t.outstanding
    · exact Or.inl hout
    -- A handler that could take a turn would not be at rest.
    have hstuck (ch : Choice) (hfresh : ch.pBObj ∉ conf'.shared.objs) :
        conf'.shared.step t ch = .error .outOfBounds := by
      cases hstep : conf'.shared.step t ch with
      | ok r =>
        have hturn : TurnOf machine (¬ ·.outstanding) conf' r.2.2
            ⟨r.1, r.2.1 ++ conf'.tasks.erase t⟩ :=
          TurnOf.turn hout (List.perm_cons_erase ht) hfresh hstep
        exact absurd hturn (hrest _ _)
      | error f => rw [step_ringOnly (hs.owned.ready ht) ch f hstep]
    refine Or.inr ⟨?_, hstuck⟩
    by_contra hloop
    -- Some address is free.
    have hfree : total id conf'.shared.objs+1 ∉ conf'.shared.objs := by
      intro hmem
      have hle := le_total_of_mem id hmem
      exact absurd hle (by simp)
    let ch : Choice := ⟨true, [], 0, total id conf'.shared.objs+1, BufferObj.zeroed⟩
    exact step_inBounds (fun o heq => hloop ⟨o, heq⟩) ch (hstuck ch hfree)

/-- Two frames are there to be read. -/
theorem two_frames_come_to_rest : ∃ evs conf, Run machine sample evs conf ∧
    conf.tasks = [.createPort 18] ∧
    (∀ n conf', Turns machine (¬ ·.outstanding) conf n conf' → n ≤ 25) ∧
    ∃ n conf', Turns machine (¬ ·.outstanding) conf n conf' ∧
      ∀ t ∈ conf'.tasks, t.outstanding ∨ ∃ o, t = .loop o := by
  have hplay : (play machine sample [(0, gives twoFrames)]).map
      (fun r => (r.2.tasks, r.2.shared.work r.2.tasks)) = some ([.createPort 18], 25) := by
    decide +kernel
  obtain ⟨evs, conf, hrun, hres⟩ := play_reaches hplay
  rw [Prod.mk.injEq] at hres
  rcases hres with ⟨htasks, hwork⟩
  dsimp only at htasks hwork
  obtain ⟨hbound, n, conf', hturns, hrest⟩ := handlers_come_to_rest 4096 (by decide) (by decide) 1
    RecvSock.zeroed 7 _ _ evs conf hrun
  refine ⟨evs, conf, hrun, htasks, ?_, n, conf', hturns, ?_⟩
  · intro m conf'' hturns'
    rw [← hwork]
    exact hbound m conf'' hturns'
  · intro t ht
    rcases hrest t ht with hout | ⟨hloop, _⟩
    · exact Or.inl hout
    · exact Or.inr hloop

end ClientConn

end CustomersCard
