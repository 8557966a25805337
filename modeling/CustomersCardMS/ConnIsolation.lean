import CustomersCardMS.ConnLeftovers
import CustomersCardMS.PooledSafety

namespace CustomersCard
open Interleaving

/-- What a client was given to do, without the states that it was in. -/
def ClientConn.given (ns : List (ClientConn.View × List Event)) :
    List (ClientConn.Note × List Event) := ns.map fun n => (n.1.2, n.2)

namespace PooledProcess

/-- A client of the process over its pools does what it would do alone, with new objects that hold
nothing but zeros: the same tasks take the same turns with the same bytes, show the same events and
leave the same tasks and commands, until an operation is posted on a handle that has become another
connection's. All that the others decide is which of its calls fail, and the addresses of its
BUFFER_OBJs. -/
theorem clients_isolated {g_dwPagesize : DWORD} {sListenSock : Server → SOCKET}
    {others : SOCKET → Bool} {clients : ℕ → Client} {ncs : ℕ → Pusher}
    {ns : List (WorkerNote × List PooledEvent)} {conf : Conf PooledProcess Running}
    (h64 : 64 < (g_dwPagesize * 8 - RECV_SOCK_SIZE).toNat)
    (h31 : (g_dwPagesize * 8 - RECV_SOCK_SIZE).toNat < 2^31)
    (h : Run (machine.noting note) (booted g_dwPagesize sListenSock others clients ncs) ns conf) :
    ∀ i < conf.shared.process.nClients, ∃ pRSock sock conf',
      Run ((ClientConn.machineOver fun _ _ => BufferObj.zeroed).noting ClientConn.note)
        (ClientConn.start g_dwPagesize pRSock RecvSock.zeroed sock
          ⟨Overlapped.zero, none, none, none⟩ fun _ => BufferObj.zeroed)
        (ClientConn.given (clientNotes i (workerNotes ns))) conf' ∧
      conf'.tasks.Perm (clientTasks i conf.tasks) ∧
      ∀ b ∈ (conf.shared.process.clients i).conn.objs, (conf'.shared.bobj b).command =
        ((conf.shared.process.clients i).conn.bobj b).command := by
  intro i hi
  obtain ⟨hworkers, _⟩ := holds_run h
  obtain ⟨_, halone⟩ := Process.Alone.run hworkers
  obtain ⟨pRSock, rsock, sock, robj, mem, us, _, hperm, hrun⟩ := halone.client i hi
  have hstart := ClientConn.Beside.start g_dwPagesize pRSock sock rsock RecvSock.zeroed robj
    ⟨Overlapped.zero, none, none, none⟩ mem fun _ => BufferObj.zeroed
  obtain ⟨conf', hrun', hbeside⟩ :=
    hstart.run h64 h31 (fun _ _ => BufferObj.zeroed) (hrun.renoted Prod.snd)
  exact ⟨pRSock, sock, conf', hrun', hbeside.tasks ▸ hperm, fun b => hbeside.command⟩

/-- The objects that a client gets were full of the first byte of a frame. -/
def stainedGives (bytes : List Byte) (sock : SOCKET) : PooledChoice :=
  let w := (heapGives sock 51 52 53).worker
  { heapGives sock 51 52 53 with
    worker :=
      { w with
        rsock := ClientConn.stained
        mem := fun _ => ClientConn.stainedObj
        client := { w.client with bytes, left := ClientConn.stainedObj } } }

/-- The second client sends a frame, and its command is about to be queued. -/
def secondSends : List (ℕ × PooledChoice) :=
  objectsReused.dropLast ++ [(0, stainedGives [] 22),
    (1, stainedGives [0xfb, 0xfc, 1, 0, 0, 0, 0x41, 0x41, 0x0d] 30), (0, stainedGives [] 30),
    (0, stainedGives [] 30)]

theorem second_client_isolated : ∃ ns conf, Run (machine.noting note) sample ns conf ∧
    ∃ pRSock sock conf',
      Run ((ClientConn.machineOver fun _ _ => BufferObj.zeroed).noting ClientConn.note)
        (ClientConn.start 4096 pRSock RecvSock.zeroed sock ⟨Overlapped.zero, none, none, none⟩
          fun _ => BufferObj.zeroed) (ClientConn.given (clientNotes 1 (workerNotes ns))) conf' ∧
      conf'.tasks = [.addRef .accept 51] ∧
      (conf'.shared.bobj 51).command = [0x41, 0x41, 0x0d] := by
  have hplay : (play machine sample secondSends).map (fun r =>
      (decide (1 < r.2.shared.process.nClients), clientTasks 1 r.2.tasks,
        (r.2.shared.process.clients 1).conn.objs,
        ((r.2.shared.process.clients 1).conn.bobj 51).command)) =
          some (true, [.addRef .accept 51], [51], [0x41, 0x41, 0x0d]) := by
    decide +kernel
  obtain ⟨evs, conf, hplain, hres⟩ := play_reaches hplay
  obtain ⟨ns, hrun, _⟩ := hplain.noted note
  rw [Prod.mk.injEq, Prod.mk.injEq, Prod.mk.injEq] at hres
  rcases hres with ⟨hclient, htasks, hobjs, hcommand⟩
  dsimp only at hclient htasks hobjs hcommand
  obtain ⟨pRSock, sock, conf', hrun', hperm, hcommands⟩ := clients_isolated (by decide) (by decide)
    hrun 1 (of_decide_eq_true hclient)
  refine ⟨ns, conf, hrun, pRSock, sock, conf', hrun', ?_, ?_⟩
  · rw [htasks] at hperm
    exact List.perm_singleton.mp hperm
  · rw [hcommands 51 (by rw [hobjs]; exact List.mem_singleton_self 51), hcommand]

end PooledProcess

end CustomersCard
