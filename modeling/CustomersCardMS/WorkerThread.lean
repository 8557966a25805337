import CustomersCardMS.ClientConn
import CustomersCardMS.NcConn
import CustomersCardMS.Listener
import CustomersCardMS.OwnerTable

/-! The connections of both servers in one process. They share its handles, its completion
port and the pools, and worker_thread passes each completion to a handler of its object. -/
namespace CustomersCard
open Interleaving

/-- What CreateIoCompletionPort and PostQueuedCompletionStatus give as the completion key. -/
inductive Key
  | listener (server : Server)
  | recvSock (pRSock : SockPtr)
  | bufferSock (pBSock : SockPtr)
  | bufferObj (pBObj : BufferObjPtr)
  deriving DecidableEq

inductive Owner
  | listener (server : Server)
  | client (i : ℕ)
  | nc (i : ℕ)
  -- Everything else in the process that has handles.
  | other
  deriving DecidableEq

/-- What the pools hand out. -/
inductive Object
  | recvSock (pRSock : SockPtr)
  | recvObj (pRObj : ObjPtr)
  | bufferSock (pBSock : SockPtr)
  | bufferObj (pBObj : BufferObjPtr)
  deriving DecidableEq

structure Client where
  conn : ClientConn
  pRObj : ObjPtr

structure Pusher where
  conn : NcConn
  pBSock : SockPtr
  pBObj : BufferObjPtr

inductive Running
  -- The thread that calls fpAcceptex.
  | acceptex (server : Server)
  -- A task of a connection; for an operation, with the key that its completion will have.
  | client (i : ℕ) (t : Task) (key : Option Key)
  | nc (i : ℕ) (t : NcTask) (key : Option Key)
  deriving DecidableEq

inductive WorkerFault
  | client (f : Fault)
  | nc (f : NcConnFault)
  -- A completion comes with the key of another socket. No handler compares the key: it casts it,
  -- and works on the object of that socket if the type is the right one. The run ends here instead.
  | wrongKey

inductive WorkerEvent
  | client (i : ℕ) (e : Event)
  | nc (i : ℕ) (e : NcEvent)
  deriving DecidableEq

structure WorkerChoice where
  ok : Bool
  client : Choice
  nc : NcChoice
  -- What PostAcceptEx gets from socket(), GetRand and the pools.
  sock : SOCKET
  nKey : ℤ
  pSock : SockPtr
  pObj : ℕ
  rsock : RecvSock
  robj : RecvObj
  mem : BufferObjPtr → BufferObj
  bobj : BufferObj

namespace Task

/-- The key that the handlers of an operation expect. -/
def expects (pRSock : SockPtr) : Task → Option Key
  | .accept => some (.listener .client)
  | .zeroRecv | .recv | .send _ => some (.recvSock pRSock)
  | .cmd pBObj => some (.bufferObj pBObj)
  | _ => none

/-- Calls that need an open handle. -/
def posts : Task → Bool
  | .postZeroRecv | .postRecv | .startSend _ | .repostSend _ | .nextSend _ => true
  | _ => false

def associates : Task → Bool
  | .createPort _ => true
  | _ => false

end Task

namespace NcTask

def expects (pBSock : SockPtr) : NcTask → Option Key
  | .accept => some (.listener .nc)
  | .zeroRecv | .recv => some (.bufferSock pBSock)
  | _ => none

def posts : NcTask → Bool
  | .postZeroRecv | .postRecv => true
  | _ => false

def associates : NcTask → Bool
  | .createPort _ => true
  | _ => false

end NcTask

/-- What an event changes in the table of open handles, and in the pools. -/
def Event.handle? : Event → Option (OwnerTable.Change SOCKET)
  | .closesocket sock => some (.drop sock)
  | _ => none

def Event.pool? (pRSock : SockPtr) (pRObj : ObjPtr) : Event → Option (OwnerTable.Change Object)
  | .allocBObj b => some (.take (.bufferObj b))
  | .freeBObj b => some (.drop (.bufferObj b))
  | .freeRSock => some (.drop (.recvSock pRSock))
  | .freeRObj => some (.drop (.recvObj pRObj))
  | _ => none

def NcEvent.handle? : NcEvent → Option (OwnerTable.Change SOCKET)
  | .closesocket sock => some (.drop sock)
  | _ => none

def NcEvent.pool? (pBSock : SockPtr) (pBObj : BufferObjPtr) :
    NcEvent → Option (OwnerTable.Change Object)
  | .freeBSock => some (.drop (.bufferSock pBSock))
  | .freeBObj => some (.drop (.bufferObj pBObj))
  | _ => none

structure Process where
  g_dwPagesize : DWORD
  sListenSock : Server → SOCKET
  -- Whose an open handle is, and the key under which it is associated with hComport.
  owner : SOCKET → Option Owner
  key : SOCKET → Option Key
  -- Who uses an object that is in none of the pools.
  user : Object → Option Owner
  clients : ℕ → Client
  nClients : ℕ
  ncs : ℕ → Pusher
  nNcs : ℕ

namespace Process

abbrev Outcome := Except WorkerFault (Process × List Running × List WorkerEvent)

section Access

variable (s : Process)

/-- A request on a handle that is not open fails, and a handle is associated only once. -/
def grants (sock : SOCKET) (posts associates : Bool) : Bool :=
  (!posts || (s.owner sock).isSome) &&
    (!associates || ((s.owner sock).isSome && (s.key sock).isNone))

/-- CreateIoCompletionPort, where it succeeds. -/
def associate (sock : SOCKET) (key : Key) (done : Bool) : Process :=
  if done then { s with key := Function.update s.key sock (some key) } else s

/-- The key with which an operation on `sock` completes. -/
def clientKey (sock : SOCKET) : Task → Option Key
  | .zeroRecv | .recv | .send _ => s.key sock
  | .cmd pBObj => some (.bufferObj pBObj)
  | _ => none

def ncKey (sock : SOCKET) : NcTask → Option Key
  | .zeroRecv | .recv => s.key sock
  | _ => none

def clientEffects (i : ℕ) (conn : ClientConn) (evs : List Event) : Process :=
  let c := s.clients i
  { s with
    owner := OwnerTable.run (.client i) s.owner (evs.filterMap Event.handle?)
    user := OwnerTable.run (.client i) s.user (evs.filterMap (Event.pool? c.conn.pRSock c.pRObj))
    clients := Function.update s.clients i { c with conn } }

def ncEffects (i : ℕ) (conn : NcConn) (evs : List NcEvent) : Process :=
  let c := s.ncs i
  { s with
    owner := OwnerTable.run (.nc i) s.owner (evs.filterMap NcEvent.handle?)
    user := OwnerTable.run (.nc i) s.user (evs.filterMap (NcEvent.pool? c.pBSock c.pBObj))
    ncs := Function.update s.ncs i { c with conn } }

/-- A completion with the key of the RECV_SOCK, and what its handler does. -/
def clientStep (i : ℕ) (t : Task) (key : Option Key) (ch : Choice) : Outcome :=
  let c := (s.clients i).conn
  let sock := c.rsock.sock
  let ok := ch.ok && s.grants sock t.posts t.associates
  -- Only the tasks that are operations have a key; for all others both sides are `none`.
  if key = t.expects c.pRSock then
    match c.step t { ch with ok } with
    | .error f => .error (.client f)
    | .ok (conn, new, evs) =>
      let s := (s.clientEffects i conn evs).associate sock (.recvSock c.pRSock) (t.associates && ok)
      .ok (s, new.map (fun t' => .client i t' (s.clientKey conn.rsock.sock t')),
        evs.map (.client i))
  else .error .wrongKey

def ncStep (i : ℕ) (t : NcTask) (key : Option Key) (ch : NcChoice) : Outcome :=
  let c := s.ncs i
  let sock := c.conn.bsock.sock
  let ok := ch.ok && s.grants sock t.posts t.associates
  if key = t.expects c.pBSock then
    match c.conn.step t { ch with ok } with
    | .error f => .error (.nc f)
    | .ok (conn, new, evs) =>
      let s := (s.ncEffects i conn evs).associate sock (.bufferSock c.pBSock) (t.associates && ok)
      .ok (s, new.map (fun t' => .nc i t' (s.ncKey conn.bsock.sock t')), evs.map (.nc i))
  else .error .wrongKey

/-- The handle of socket(), not associated yet, and the objects of a new connection. -/
def opens (w : Owner) (sock : SOCKET) (objs : List Object) : Process :=
  { s with
    owner := OwnerTable.apply w s.owner (.take sock)
    key := Function.update s.key sock none
    user := OwnerTable.run w s.user (objs.map .take) }

/-- Client_PostAcceptEx and Nc_PostAcceptEx: a call that fails has given everything back, and
AcceptEx needs a listening socket. -/
def postAcceptEx (server : Server) (ch : WorkerChoice) : Outcome :=
  let listen := s.sListenSock server
  if ch.ok ∧ s.owner listen = some (.listener server) then
    match server with
    | .client =>
      let c : Client :=
        ⟨ClientConn.connected s.g_dwPagesize ch.pSock ch.rsock ch.sock ch.robj ch.mem, ch.pObj⟩
      let s' := s.opens (.client s.nClients) ch.sock [.recvSock ch.pSock, .recvObj ch.pObj]
      .ok ({ s' with clients := Function.update s.clients s.nClients c, nClients := s.nClients+1 },
        [.acceptex .client, .client s.nClients .accept (s.key listen)], [])
    | .nc =>
      let c : Pusher :=
        ⟨NcConn.connected s.g_dwPagesize ch.pSock ⟨ch.nKey, ch.sock⟩ ch.bobj, ch.pSock, ch.pObj⟩
      let s' := s.opens (.nc s.nNcs) ch.sock [.bufferSock ch.pSock, .bufferObj ch.pObj]
      .ok ({ s' with ncs := Function.update s.ncs s.nNcs c, nNcs := s.nNcs+1 },
        [.acceptex .nc, .nc s.nNcs .accept (s.key listen)], [])
  else .ok (s, [.acceptex server], [])

def step : Running → WorkerChoice → Outcome
  | .acceptex server, ch => s.postAcceptEx server ch
  | .client i t key, ch => s.clientStep i t key ch.client
  | .nc i t key, ch => s.ncStep i t key ch.nc

end Access

/-- socket() gives a handle that is not open, and the pools objects that nobody uses. -/
def machine : Machine Process Running WorkerChoice WorkerEvent WorkerFault where
  step := step
  allowed s ch := (s.owner ch.sock = none ∧ ch.sock ≠ INVALID_SOCKET) ∧
    (s.user (.recvSock ch.pSock) = none ∧ s.user (.bufferSock ch.pSock) = none) ∧
    (s.user (.recvObj ch.pObj) = none ∧ s.user (.bufferObj ch.pObj) = none) ∧
    s.user (.bufferObj ch.client.pBObj) = none

instance (s : Process) (ch : WorkerChoice) : Decidable (machine.allowed s ch) :=
  inferInstanceAs (Decidable ((_ ∧ _) ∧ (_ ∧ _) ∧ (_ ∧ _) ∧ _))

/-- Both servers listen, the rest of the process has the handles `others`, and the pools have handed
out nothing. -/
def booted (g_dwPagesize : DWORD) (sListenSock : Server → SOCKET) (others : SOCKET → Bool)
    (clients : ℕ → Client) (ncs : ℕ → Pusher) : Conf Process Running where
  shared :=
    { g_dwPagesize, sListenSock, clients, ncs
      owner := fun sock =>
        if sock = INVALID_SOCKET then none
        else if sock = sListenSock .client then some (.listener .client)
        else if sock = sListenSock .nc then some (.listener .nc)
        else if others sock then some .other
        else none
      key := fun sock =>
        if sock = sListenSock .client then some (.listener .client)
        else if sock = sListenSock .nc then some (.listener .nc)
        else none
      user := fun _ => none
      nClients := 0
      nNcs := 0 }
  tasks := [.acceptex .client, .acceptex .nc]

end Process

end CustomersCard
