import CustomersCardMS.ConnAlone
import CustomersCardMS.PostAccept

namespace CustomersCard
open Interleaving

namespace Object

def kind : Object → Kind
  | .recvSock _ => .rsock
  | .recvObj _ => .robj
  | .bufferSock _ => .bsock
  | .bufferObj _ => .bobj

def addr : Object → Addr
  | .recvSock p | .recvObj p | .bufferSock p | .bufferObj p => p

end Object

def Kind.object : Kind → Addr → Object
  | .rsock, p => .recvSock p
  | .robj, p => .recvObj p
  | .bsock, p => .bufferSock p
  | .bobj, p => .bufferObj p

inductive PooledFault
  | worker (f : WorkerFault)
  | pools (f : PoolFault)

/-- What HeapAlloc and `new` return for the first and the second object of a turn. -/
structure PooledChoice where
  worker : WorkerChoice
  obj : HeapChoice
  sock : HeapChoice

abbrev PooledEvent := WorkerEvent ⊕ PoolEvent

structure PooledProcess where
  process : Process
  pools : Pools

namespace Pools

/-- The size with which the code calls the allocator of a kind. -/
def asked (g_dwPagesize : DWORD) : Kind → DWORD
  | .rsock => g_dwPagesize * 8
  | .robj => RECV_OBJ_SIZE
  | .bsock => BUFER_SOCK_SIZE
  | .bobj => g_dwPagesize

/-- A call that a handler makes. The delivery loops write to what allocBObj returns as it is. -/
def call (m : Pools) (g_dwPagesize : DWORD) (ch : HeapChoice) :
    OwnerTable.Change Object → Except PoolFault (Pools × List PoolEvent)
  | .take o =>
    match m.allocate o.kind (asked g_dwPagesize o.kind) ch with
    | .error f => .error f
    | .ok (_, none, _) => .error .nullPointer
    | .ok (m, some _, es) => .ok (m, es)
  | .drop o => .ok (m.release o.kind o.addr)

def calls (g_dwPagesize : DWORD) (ch : HeapChoice) :
    Pools → List (OwnerTable.Change Object) → Except PoolFault (Pools × List PoolEvent)
  | m, [] => .ok (m, [])
  | m, c :: cs =>
    match m.call g_dwPagesize ch c with
    | .error f => .error f
    | .ok (m, es) =>
      match calls g_dwPagesize ch m cs with
      | .error f => .error f
      | .ok (m, es') => .ok (m, es ++ es')

end Pools

namespace PooledProcess

abbrev Outcome := Except PooledFault (PooledProcess × List Running × List PooledEvent)

section Access

variable (s : PooledProcess)

/-- What a handler does with the pools. -/
def changes : Running → List WorkerEvent → List (OwnerTable.Change Object)
  | .acceptex _, _ => []
  | .client i _ _, evs =>
    let c := s.process.clients i
    (clientEvents i evs).filterMap (Event.pool? c.conn.pRSock c.pRObj)
  | .nc i _ _, evs =>
    let c := s.process.ncs i
    (ncEvents i evs).filterMap (NcEvent.pool? c.pBSock c.pBObj)

/-- allocBObj hands out what is next in its pool. -/
def choose (ch : PooledChoice) : WorkerChoice :=
  let pBObj := (s.pools.next .bobj ch.obj).getD ch.worker.client.pBObj
  { ch.worker with client := { ch.worker.client with pBObj } }

def handle (r : Running) (ch : PooledChoice) : Outcome :=
  match s.process.step r (s.choose ch) with
  | .error f => .error (.worker f)
  | .ok (process, new, evs) =>
    match s.pools.calls s.process.g_dwPagesize ch.obj (s.changes r evs) with
    | .error f => .error (.pools f)
    | .ok (pools, es) => .ok (⟨process, pools⟩, new, evs.map .inl ++ es.map .inr)

/-- A call that fails. -/
def refuse (server : Server) (pools : Pools) (es : List PoolEvent) : Outcome :=
  .ok ({ s with pools }, [.acceptex server], es.map .inr)

/-- Client_PostAcceptEx and Nc_PostAcceptEx, whose objects differ in their kinds. -/
def postAcceptEx (server : Server) (ch : PooledChoice) : Outcome :=
  let size := Pools.asked s.process.g_dwPagesize
  match s.pools.allocate server.objKind (size server.objKind) ch.obj with
  | .error f => .error (.pools f)
  | .ok (pools, none, es) => s.refuse server pools es
  | .ok (pools, some pObj, es) =>
    match pools.allocate server.sockKind (size server.sockKind) ch.sock with
    | .error f => .error (.pools f)
    | .ok (pools, none, es') =>
      let r := pools.release server.objKind pObj
      -- No memory for the socket object.
      s.refuse server r.1 (es ++ es' ++ r.2)
    | .ok (pools, some pSock, es') =>
      if ch.worker.ok ∧
          s.process.owner (s.process.sListenSock server) = some (.listener server) then
        match s.process.postAcceptEx server { ch.worker with pObj, pSock } with
        | .error f => .error (.worker f)
        | .ok (process, new, evs) =>
          .ok (⟨process, pools⟩, new, evs.map .inl ++ (es ++ es').map .inr)
      else
        let r := pools.release server.objKind pObj
        let r' := r.1.release server.sockKind pSock
        -- socket() or AcceptEx fails, and both objects go back.
        s.refuse server r'.1 (es ++ es' ++ r.2 ++ r'.2)

def step : Running → PooledChoice → Outcome
  | .acceptex server, ch => s.postAcceptEx server ch
  | r, ch => s.handle r ch

end Access

/-- socket() gives a handle that is not open, and the heap blocks that are not in use. The pools are
not assumed to do anything. -/
def machine : Machine PooledProcess Running PooledChoice PooledEvent PooledFault where
  step := step
  allowed s ch :=
    (s.process.owner ch.worker.sock = none ∧ ch.worker.sock ≠ INVALID_SOCKET) ∧
    (∀ p ∈ ch.obj.block, s.pools.heap p = none ∧ ch.sock.block ≠ some p) ∧
    (∀ p ∈ ch.sock.block, s.pools.heap p = none) ∧
    (∀ l ∈ ch.obj.list, s.pools.lists l = none) ∧ ∀ l ∈ ch.sock.list, s.pools.lists l = none

instance (s : PooledProcess) (ch : PooledChoice) : Decidable (machine.allowed s ch) :=
  inferInstanceAs (Decidable ((_ ∧ _) ∧ _ ∧ _ ∧ _ ∧ _))

/-- After InitMemory and the two calls of InitListenSock. -/
def booted (g_dwPagesize : DWORD) (sListenSock : Server → SOCKET) (others : SOCKET → Bool)
    (clients : ℕ → Client) (ncs : ℕ → Pusher) : Conf PooledProcess Running :=
  let conf := Process.booted g_dwPagesize sListenSock others clients ncs
  ⟨⟨conf.shared, Pools.initMemory⟩, conf.tasks⟩

end PooledProcess

end CustomersCard
