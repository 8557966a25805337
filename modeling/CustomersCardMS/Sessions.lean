import CustomersCardMS.ConnIsolation
import CustomersCardMS.SendDiscipline
import Mathlib.Data.List.Perm.Subperm

namespace CustomersCard
open Interleaving SendQueue

/-- What a turn is to the client. -/
inductive Deed
  | received (bytes : List Byte)
  | queued (pBObj : BufferObjPtr) (command : List Byte)
  -- PostQueuedCompletionStatus has failed, and the command is dropped.
  | lost (command : List Byte)
  -- A command handler has queued its response, in the BUFFER_OBJ of the command.
  | answered (pBObj : BufferObjPtr) (command : List Byte)

namespace Deed

def bytes : Deed → List Byte
  | .received bytes => bytes
  | _ => []

def taken? : Deed → Option (List Byte)
  | .queued _ command | .lost command => some command
  | _ => none

def queued? : Deed → Option (BufferObjPtr × List Byte)
  | .queued pBObj command => some (pBObj, command)
  | _ => none

def answered? : Deed → Option (BufferObjPtr × List Byte)
  | .answered pBObj command => some (pBObj, command)
  | _ => none

end Deed

/-- The BUFFER_OBJs of the commands that are queued or at their handler. -/
def Task.commanded : Task → List BufferObjPtr
  | .cmd b | .command b => [b]
  | _ => []

namespace ClientConn

def deed : View → Option Deed
  | (c, .accept, ok, bytes, _) =>
    if ok then some (.received (bytes.take (c.rsock.dwBufsize - 64).toNat)) else none
  | (c, .recv, ok, bytes, _) =>
    if ok then
      some (.received (bytes.take (c.rsock.wsabuf.1.len.toNat+c.rsock.wsabuf.2.len.toNat)))
    else none
  | (c, .postCmd _ b, ok, _, _) =>
    some (if ok then .queued b (c.bobj b).command else .lost (c.bobj b).command)
  | (c, .command b, ok, _, _) => if ok then some (.answered b (c.bobj b).command) else none
  | _ => none

def deeds (ns : List (View × List Event)) : List Deed := ns.filterMap fun n => deed n.1

theorem deeds_snoc (ns : List (View × List Event)) (v : View) (es : List Event) :
    deeds (ns ++ [(v, es)]) = deeds ns ++ (deed v).toList := by
  unfold deeds
  rw [List.filterMap_append, List.filterMap_cons, List.filterMap_nil]
  cases deed v with
  | none => rfl
  | some d => rfl

/-- The commands of the pool, as they stand in their BUFFER_OBJs. -/
def atHand (c : ClientConn) (ts : List Task) : List (BufferObjPtr × List Byte) :=
  (ts.flatMap Task.commanded).map fun b => (b, (c.bobj b).command)

/-- The commands are the first frames of what was received, in their order, each response is to a
command that was queued and to none twice, and of each response that was started an initial part is
sent, in the order of the responses. -/
structure Session (ds : List Deed) (evs : List Event) : Prop where
  parsed : ds.filterMap Deed.taken? <+: frames (ds.flatMap Deed.bytes)
  answered : (ds.filterMap Deed.answered?).Subperm (ds.filterMap Deed.queued?)
  responses : (evs.filterMap Event.enqueued?).map Prod.fst =
    (ds.filterMap Deed.answered?).map Prod.fst
  sent : PartsOf
    ((evs.filterMap Event.enqueued?).take (evs.filterMap Event.started?).length)
    (evs.flatMap Event.sentBytes)

/-- A session under way. -/
structure Served (_Bufsize : DWORD) (ds : List Deed) (evs : List Event) (c : ClientConn)
    (ts : List Task) : Prop where
  streams : Streams _Bufsize
    ⟨ds.flatMap Deed.bytes, ds.filterMap Deed.taken?, ds.filterMap Deed.taken?, false⟩ c ts
  commands : (ds.filterMap Deed.answered? ++ c.atHand ts).Subperm (ds.filterMap Deed.queued?)
  responses : (evs.filterMap Event.enqueued?).map Prod.fst =
    (ds.filterMap Deed.answered?).map Prod.fst
  sends : ∃ q, Ordered q ∧ Counted c q ∧ Sends evs c ts q ∧ Parted q

section Step

variable {_Bufsize : DWORD} {c c' : ClientConn} {t u : Task} {new rest ts us : List Task}
  {ds : List Deed} {evs es : List Event} {ch : Choice}

theorem atHand_append (c : ClientConn) (ts us : List Task) :
    c.atHand (ts ++ us) = c.atHand ts ++ c.atHand us := by
  unfold atHand
  rw [List.flatMap_append, List.map_append]

theorem atHand_cons (c : ClientConn) (t : Task) (ts : List Task) :
    c.atHand (t :: ts) = c.atHand [t] ++ c.atHand ts := atHand_append c [t] ts

theorem atHand_none (c : ClientConn) (h : ts.flatMap Task.commanded = []) : c.atHand ts = [] := by
  unfold atHand
  rw [h, List.map_nil]

theorem commanded_uses {b : BufferObjPtr} (hb : b ∈ u.commanded) : b ∈ u.uses := by
  cases u with
  | cmd | command => exact List.mem_append_left _ hb
  | _ => contradiction

/-- The commands of the other tasks stay as they are. -/
theorem Turn.others (h : Owned c (t :: rest)) (hturn : Turn c t c' new evs) :
    c'.atHand rest = c.atHand rest := by
  unfold atHand
  apply List.map_congr_left
  intro b hb
  obtain ⟨u, hu, hbu⟩ := List.mem_flatMap.mp hb
  obtain ⟨hmem, hapart⟩ := h.apart hu (commanded_uses hbu)
  rw [hturn.frame.bobj b hmem hapart]

theorem Fires.uncommanded (hf : Fires c t c' new evs) (ht : t.commanded = [])
    (hpost : ∀ o b, t ≠ .postCmd o b) : new.flatMap Task.commanded = [] := by
  cases hf with
  | pass hpass =>
    cases hpass with
    | cmdRuns | kept => contradiction
    | _ => rfl
  | queue o b => exact absurd rfl (hpost o b)
  | freeBObj b _ hfree => cases hfree <;> rfl
  | enqueue => contradiction
  | start b _ ht' => rcases ht' with rfl | rfl <;> rfl
  | sent => split <;> rfl
  | _ => rfl

theorem Fires.unanswered (hf : Fires c t c' new evs) (ht : ∀ b, t ≠ .command b) :
    evs.filterMap Event.enqueued? = [] := by
  cases hf with
  | pass _ _ hc => exact hc.silent.enqueued
  | enqueue b => exact absurd rfl (ht b)
  | _ => rfl

/-- What a turn does to the commands: it hands them on, or drops them, but makes none. -/
theorem commands_turn (hfresh : ch.pBObj ∉ c.objs) (hstep : c.step t ch = .ok (c', new, evs)) :
    ((deed (c.view t ch)).toList.filterMap Deed.answered? ++ c'.atHand new).Sublist
      ((deed (c.view t ch)).toList.filterMap Deed.queued? ++ c.atHand [t]) := by
  have hfires := (step_turn hfresh hstep).fires
  have hother (hd : (deed (c.view t ch)).toList.filterMap Deed.answered? = [])
      (ht : t.commanded = []) (hpost : ∀ o b, t ≠ .postCmd o b) :
      ((deed (c.view t ch)).toList.filterMap Deed.answered? ++ c'.atHand new).Sublist
        ((deed (c.view t ch)).toList.filterMap Deed.queued? ++ c.atHand [t]) := by
    rw [hd, atHand_none c' (hfires.uncommanded ht hpost)]
    exact List.nil_sublist _
  cases t with
  | cmd b =>
    simp only [step, dispatchBObj, withBObj, guarded_ok, ok_inj] at hstep
    obtain ⟨_, _, rfl, rfl, _⟩ := hstep
    cases ch.ok with
    | true => exact List.Sublist.refl _
    | false => exact List.nil_sublist _
  | command b =>
    simp only [step, withBObj, guarded_ok] at hstep
    obtain ⟨_, hstep⟩ := hstep
    unfold deed view note
    cases hok : ch.ok with
    | true =>
      rw [hok, if_pos rfl] at hstep
      simp only [withRSock, guarded_ok, respond, ok_inj] at hstep
      obtain ⟨_, rfl, rfl, _⟩ := hstep
      rw [atHand_none _ (by split <;> rfl)]
      exact List.Sublist.refl _
    | false =>
      rw [hok, if_neg Bool.false_ne_true, ok_inj] at hstep
      obtain ⟨rfl, rfl, _⟩ := hstep
      exact List.Sublist.refl _
  | postCmd o b =>
    simp only [step, withBObj, guarded_ok] at hstep
    obtain ⟨_, hstep⟩ := hstep
    unfold deed view note
    cases hok : ch.ok with
    | true =>
      rw [hok, if_pos rfl, ok_inj] at hstep
      obtain ⟨rfl, rfl, _⟩ := hstep
      have hsame : (c.setBObj b ((c.bobj b).setIoRequestFunction .clientCmdCompletionFailed
          .clientCmdCompletionSuccess)).atHand [.cmd b, .loop o] = [(b, (c.bobj b).command)] := by
        change [(b, ((c.setBObj b _).bobj b).command)] = _
        rw [setBObj_bobj]
        rfl
      rw [hsame]
      exact List.Sublist.refl _
    | false =>
      rw [hok, if_neg Bool.false_ne_true] at hstep
      cases o with
      | accept | recv =>
        rw [ok_inj] at hstep
        obtain ⟨rfl, rfl, _⟩ := hstep
        exact List.nil_sublist _
  | accept | recv =>
    refine hother ?_ rfl (by simp)
    unfold deed view note
    cases ch.ok with
    | true | false => rfl
  | _ => exact hother rfl rfl (by simp)

/-- A response is queued by the handler of a command, and by nobody else. -/
theorem responses_turn (hfresh : ch.pBObj ∉ c.objs) (hstep : c.step t ch = .ok (c', new, evs)) :
    (evs.filterMap Event.enqueued?).map Prod.fst =
      ((deed (c.view t ch)).toList.filterMap Deed.answered?).map Prod.fst := by
  have hfires := (step_turn hfresh hstep).fires
  have hother (hd : (deed (c.view t ch)).toList.filterMap Deed.answered? = [])
      (ht : ∀ b, t ≠ .command b) : (evs.filterMap Event.enqueued?).map Prod.fst =
        ((deed (c.view t ch)).toList.filterMap Deed.answered?).map Prod.fst := by
    rw [hfires.unanswered ht, hd]
  cases t with
  | command b =>
    simp only [step, withBObj, guarded_ok] at hstep
    obtain ⟨_, hstep⟩ := hstep
    unfold deed view note
    cases hok : ch.ok with
    | true =>
      rw [hok, if_pos rfl] at hstep
      simp only [withRSock, guarded_ok, respond, ok_inj] at hstep
      obtain ⟨_, _, _, rfl⟩ := hstep
      rfl
    | false =>
      rw [hok, if_neg Bool.false_ne_true, ok_inj] at hstep
      obtain ⟨_, _, rfl⟩ := hstep
      rfl
  | accept | recv | postCmd =>
    refine hother ?_ (by simp)
    unfold deed view note
    cases ch.ok with
    | true | false => rfl
  | _ => exact hother rfl (by simp)

/-- The history of the connection is what its deeds say. -/
theorem next_deed (h : History) (c : ClientConn) (t : Task) (ch : Choice) :
    (inOrder.next h c t ch).received =
        h.received ++ (deed (c.view t ch)).toList.flatMap Deed.bytes ∧
      (inOrder.next h c t ch).taken =
        h.taken ++ (deed (c.view t ch)).toList.filterMap Deed.taken? := by
  have hnone : h.received = h.received ++ [] ∧ h.taken = h.taken ++ [] :=
    ⟨(List.append_nil _).symm, (List.append_nil _).symm⟩
  cases t with
  | accept | recv =>
    unfold deed view note
    dsimp only [inOrder, observer]
    cases ch.ok with
    | true =>
      refine ⟨?_, hnone.2⟩
      change h.received ++ _ = h.received ++ (_ ++ [])
      rw [List.append_nil]
      rfl
    | false => exact hnone
  | postCmd o b =>
    unfold deed view note
    dsimp only [inOrder, observer]
    cases ch.ok with
    | true | false => exact ⟨hnone.1, rfl⟩
  | command b =>
    unfold deed view note
    cases ch.ok with
    | true | false => exact hnone
  | _ => exact hnone

/-- What is done with some of what was handed over. -/
theorem handed_over {α : Type*} {done more now left held queued new : List α}
    (h : (done ++ (held ++ left)).Subperm queued) (hs : (more ++ now).Sublist (new ++ held)) :
    ((done ++ more) ++ (now ++ left)).Subperm (queued ++ new) := by
  have hsub : ((done ++ more) ++ (now ++ left)).Sublist (done ++ ((new ++ held) ++ left)) := by
    rw [List.append_assoc, ← List.append_assoc more]
    exact (List.Sublist.refl done).append (hs.append (List.Sublist.refl left))
  have hperm : (done ++ ((new ++ held) ++ left)).Perm ((done ++ (held ++ left)) ++ new) := by
    rw [List.append_assoc new, List.append_assoc done]
    exact List.perm_append_comm.append_left done
  exact (hsub.subperm.trans hperm.subperm).trans ((List.subperm_append_right new).mpr h)

/-- Every turn of every task keeps the session. -/
theorem Served.turn (h64 : 64 < _Bufsize.toNat) (h31 : _Bufsize.toNat < 2^31)
    (h : Served _Bufsize ds es c (t :: rest)) (hfresh : ch.pBObj ∉ c.objs)
    (hstep : c.step t ch = .ok (c', new, evs)) :
    Served _Bufsize (ds ++ (deed (c.view t ch)).toList) (es ++ evs) c' (new ++ rest) := by
  have hturn := step_turn hfresh hstep
  have howned := h.streams.owned
  obtain ⟨q, ho, hcount, hsends, hparted⟩ := h.sends
  obtain ⟨q', ⟨q₁, hm₁, hm₂, hwire⟩, _, hcount', hsends'⟩ :=
    hsends.fires ho hcount howned hturn.fires
  have ho₁ := ho.move hm₁
  constructor
  · have hstreams := h.streams.turn h64 h31 hfresh hstep (permits_taken rfl)
    have hnext := next_deed ⟨ds.flatMap Deed.bytes, ds.filterMap Deed.taken?,
      ds.filterMap Deed.taken?, false⟩ c t ch
    rw [List.flatMap_append, List.filterMap_append, ← hnext.1, ← hnext.2]
    exact hstreams.taken
  · have hcommands := h.commands
    rw [atHand_cons] at hcommands
    rw [List.filterMap_append, List.filterMap_append, atHand_append, hturn.others howned]
    exact handed_over hcommands (commands_turn hfresh hstep)
  · rw [List.filterMap_append, List.filterMap_append, List.map_append, List.map_append,
      h.responses, responses_turn hfresh hstep]
  · exact ⟨q', ho₁.move hm₂, hcount', hsends', (hparted.move ho hm₁).move ho₁ hm₂⟩

theorem Served.perm (h : Served _Bufsize ds es c ts) (hp : ts.Perm us) :
    Served _Bufsize ds es c us := by
  obtain ⟨q, ho, hcount, hsends, hparted⟩ := h.sends
  refine ⟨h.streams.perm hp, ?_, h.responses, q, ho, hcount, hsends.perm hp, hparted⟩
  have hhand : (c.atHand ts).Perm (c.atHand us) := (hp.flatMap_right _).map _
  exact ((hhand.append_left _).symm.subperm).trans h.commands

theorem Served.session (h : Served _Bufsize ds es c ts) : Session ds es := by
  obtain ⟨q, ho, _, hsends, hparted⟩ := h.sends
  obtain ⟨rest, hrest⟩ := h.streams.ordered.parsed
  refine ⟨hrest.prefix_frames, ?_, h.responses, ?_⟩
  · exact (List.sublist_append_left _ _).subperm.trans h.commands
  · have hsent := hparted.sent ho
    rw [← List.length_map (f := Prod.fst), hsends.started, hsends.enqueued, hsends.wire] at hsent
    exact hsent

end Step

theorem start_served (g_dwPagesize : DWORD) (pRSock : SockPtr) (rsock : RecvSock) (sock : SOCKET)
    (robj : RecvObj) (mem : BufferObjPtr → BufferObj) :
    Served (g_dwPagesize * 8 - RECV_SOCK_SIZE) [] []
      (connected g_dwPagesize pRSock rsock sock robj mem) [.accept] := by
  obtain ⟨hcount, hsends⟩ := (Begins.accept g_dwPagesize pRSock rsock sock robj mem).sends
  exact ⟨start_streams g_dwPagesize pRSock rsock sock robj mem, List.Subperm.refl _, rfl,
    State.empty, Ordered.empty, hcount, hsends, Parted.empty⟩

/-- Along every run of a connection, whatever fails and in whatever order its tasks take their
turns. -/
theorem session_run {g_dwPagesize : DWORD} {pRSock : SockPtr} {rsock : RecvSock} {sock : SOCKET}
    {robj : RecvObj} {mem : BufferObjPtr → BufferObj} {ns : List (View × List Event)}
    {conf : Conf ClientConn Task} (h64 : 64 < (g_dwPagesize * 8 - RECV_SOCK_SIZE).toNat)
    (h31 : (g_dwPagesize * 8 - RECV_SOCK_SIZE).toNat < 2^31)
    (h : Run (machine.noting view) (start g_dwPagesize pRSock rsock sock robj mem) ns conf) :
    Session (deeds ns) (ns.flatMap Prod.snd) := by
  have hserved : Served (g_dwPagesize * 8 - RECV_SOCK_SIZE) (deeds ns) (ns.flatMap Prod.snd)
      conf.shared conf.tasks := by
    apply h.invariant fun ns conf => Served (g_dwPagesize * 8 - RECV_SOCK_SIZE) (deeds ns)
      (ns.flatMap Prod.snd) conf.shared conf.tasks
    · exact start_served g_dwPagesize pRSock rsock sock robj mem
    · intro ns conf es conf' hserved hstep
      cases hstep with
      | turn hp hfresh hnoted =>
        obtain ⟨evs, hok, rfl⟩ := noted_step hnoted
        rw [deeds_snoc, List.flatMap_append, List.flatMap_singleton]
        exact (hserved.perm hp).turn h64 h31 hfresh hok
  exact hserved.session

end ClientConn

namespace PooledProcess

/-- In the whole process over its pools, whatever the other clients and the pushers do and whatever
fails, each client gets its commands handled and answered as if the server were there for it: its
commands are the first frames that it has sent, no response is to anything else and none is twice,
and what it is sent is made up of its responses, in their order. A client whose handle has become
another connection's is not served so any more: a run ends where the completion of an operation on
such a handle comes. -/
theorem sessions_served {g_dwPagesize : DWORD} {sListenSock : Server → SOCKET}
    {others : SOCKET → Bool} {clients : ℕ → Client} {ncs : ℕ → Pusher}
    {ns : List (WorkerNote × List PooledEvent)} {conf : Conf PooledProcess Running}
    (h64 : 64 < (g_dwPagesize * 8 - RECV_SOCK_SIZE).toNat)
    (h31 : (g_dwPagesize * 8 - RECV_SOCK_SIZE).toNat < 2^31)
    (h : Run (machine.noting note) (booted g_dwPagesize sListenSock others clients ncs) ns conf) :
    ∀ i < conf.shared.process.nClients,
      ClientConn.Session (ClientConn.deeds (clientNotes i (workerNotes ns)))
        ((clientNotes i (workerNotes ns)).flatMap Prod.snd) := by
  intro i hi
  obtain ⟨hworkers, _⟩ := holds_run h
  obtain ⟨_, halone⟩ := Process.Alone.run hworkers
  obtain ⟨_, _, _, _, _, _, _, _, hrun⟩ := halone.client i hi
  exact ClientConn.session_run h64 h31 hrun

/-- The next blocks of the heap are `p` and the two behind it. -/
def handed (p : Addr) (bytes : List Byte) (count : ℕ) : PooledChoice :=
  let w := (heapGives 30 p (p+1) (p+2)).worker
  { heapGives 30 p (p+1) (p+2) with worker := { w with client := { w.client with bytes, count } } }

/-- A client sends a frame, its command is answered, and a byte of the response is sent. -/
def commandAnswered : List (ℕ × PooledChoice) :=
  [(0, heapGives 22 1 2 3), (1, handed 51 [0xfb, 0xfc, 1, 0, 0, 0, 0x41, 0x41, 0x0d] 0)] ++
    List.replicate 2 (0, handed 51 [] 0) ++ List.replicate 3 (0, handed 61 [] 0) ++
    [(0, handed 61 [7, 8] 0), (0, handed 61 [] 0), (0, handed 61 [] 1)]

theorem first_client_served : ∃ ns conf, Run (machine.noting note) sample ns conf ∧
    ClientConn.Session (ClientConn.deeds (clientNotes 0 (workerNotes ns)))
      ((clientNotes 0 (workerNotes ns)).flatMap Prod.snd) ∧
    (ClientConn.deeds (clientNotes 0 (workerNotes ns))).filterMap Deed.answered? =
      [(51, [0x41, 0x41, 0x0d])] ∧
    ((clientNotes 0 (workerNotes ns)).flatMap Prod.snd).flatMap Event.sentBytes = [7] := by
  have hplay : (play (machine.noting note) sample commandAnswered).map (fun r =>
      (decide (0 < r.2.shared.process.nClients),
        (ClientConn.deeds (clientNotes 0 (workerNotes r.1))).filterMap Deed.answered?,
        ((clientNotes 0 (workerNotes r.1)).flatMap Prod.snd).flatMap Event.sentBytes)) =
          some (true, [(51, [0x41, 0x41, 0x0d])], [7]) := by
    decide +kernel
  obtain ⟨ns, conf, hrun, hres⟩ := play_reaches hplay
  rw [Prod.mk.injEq, Prod.mk.injEq] at hres
  rcases hres with ⟨hclient, hanswered, hsent⟩
  dsimp only at hclient hanswered hsent
  exact ⟨ns, conf, hrun,
    sessions_served (by decide) (by decide) hrun 0 (of_decide_eq_true hclient), hanswered, hsent⟩

end PooledProcess

end CustomersCard
