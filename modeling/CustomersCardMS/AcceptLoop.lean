import CustomersCardMS.ListenSetup

/-! The thread of main, once InitListenSock has set up the listeners: it posts accepts whenever a
listener is signalled, and when many are pending it closes the clients that have sent nothing for
a minute. The worker threads take the entries of the tables at the same time. -/
namespace CustomersCard
open Interleaving

/-- The nodes of a tbb::concurrent_hash_map. -/
abbrev PendingTable := List (ℤ × SockPtr)

def PendingTable.find (m : PendingTable) (k : ℤ) : Option SockPtr := List.lookup k m

/-- What an operation on one key leaves. -/
def PendingTable.store (m : PendingTable) (k : ℤ) (v : Option SockPtr) : PendingTable :=
  (v.map (k, ·)).toList ++ m.filter (·.1 != k)

inductive LoopTask
  -- The first ten accepts of each listener.
  | boot (nIndex i : ℕ)
  -- WSAWaitForMultipleEvents, WaitForSingleObject, and the ten accepts of an event.
  | wait
  | poll (nIndex : ℕ)
  | post (nIndex i : ℕ)
  | size (nIndex : ℕ)
  -- The sweep: `i != end()`, getsockopt, the argument of closesocket, closesocket,
  -- `sock = INVALID_SOCKET` and `++i`.
  | next (nIndex : ℕ)
  | age (nIndex : ℕ)
  | close (nIndex : ℕ)
  | shut (nIndex : ℕ) (sock : SOCKET)
  | clear (nIndex : ℕ)
  | advance (nIndex : ℕ)
  -- An AcceptEx that is outstanding, and the objects of a connection.
  | accept (nIndex : ℕ) (pObj : ObjPtr)
  | obj (pObj : ObjPtr)
  | sock (pSock : SockPtr)
  deriving DecidableEq

/-- The tasks that a listener leaves to the worker threads. -/
def LoopTask.ofListener (nIndex : ℕ) : ListenTask → Option LoopTask
  | .acceptex => none
  | .accept pObj => some (.accept nIndex pObj)
  | .obj pObj => some (.obj pObj)
  | .sock pSock => some (.sock pSock)

inductive LoopFault
  | nullPointer
  -- The node that the iterator stands on was deleted.
  | useAfterFree

inductive Waited
  | signalled
  | timeout
  | failed

/-- What the system calls return, and which node the iterator comes to: a find of another thread may
move the nodes of a bucket. -/
structure LoopChoice where
  accept : AcceptChoice
  waited : Waited
  node : Option ℕ
  optval : Option DWORD
  hangUp : Bool

structure AcceptLoop where
  -- The pools and the handles. Its map stands for that of the listener at work.
  listener : Listener
  acceptPendingMap : ℕ → PendingTable
  -- `fpAcceptex` of `LSock_Array[nIndex]`
  fpAcceptex : ℕ → Server
  g_dwListenCount : ℕ
  -- The table and the key of the node that the iterator of the sweep stands on.
  i : Option (ℕ × ℤ)
  exited : Bool

namespace AcceptLoop

abbrev Outcome := Except LoopFault (AcceptLoop × List LoopTask × List ListenEvent)

section Access

variable (s : AcceptLoop)

def setListener (l : Listener) : AcceptLoop := { s with listener := l }

/-- `LSock_Array[nIndex]` -/
def lsock (nIndex : ℕ) : Listener :=
  { s.listener with acceptPendingMap := fun k => (s.acceptPendingMap nIndex).find k }

def putLSock (nIndex : ℕ) (k : ℤ) (l : Listener) : AcceptLoop :=
  { s with
    listener := l
    acceptPendingMap := Function.update s.acceptPendingMap nIndex
      ((s.acceptPendingMap nIndex).store k (l.acceptPendingMap k)) }

/-- `i->second`, unless the node is gone. -/
def second : Option SockPtr := s.i.bind fun (nIndex, k) => (s.acceptPendingMap nIndex).find k

def withNode (next : SockPtr → Outcome) : Outcome :=
  match s.second with
  | none => .error .useAfterFree
  | some pSock => next pSock

/-- The call of a listener, whose only key is `k`. -/
def call (nIndex : ℕ) (k : ℤ) (next : List LoopTask) : Listener.Outcome → Outcome
  | .error _ => .error .nullPointer
  | .ok (l, new, evs) =>
    .ok (s.putLSock nIndex k l, next ++ new.filterMap (LoopTask.ofListener nIndex), evs)

def post (nIndex : ℕ) (next : List LoopTask) (ch : AcceptChoice) : Outcome :=
  s.call nIndex ch.rand next
    ((s.lsock nIndex).postAcceptEx { ch with server := s.fpAcceptex nIndex })

/-- `getsockopt(SO_CONNECT_TIME)`, which is -1 as long as nobody has connected. -/
def overdue (pSock : SockPtr) (optval : Option DWORD) : Bool :=
  match optval with
  | none => false
  | some v => decide ((s.listener.sockObj pSock).sock ∈ s.listener.opened) && v != 0xffffffff &&
      decide (60 < v.toInt)

def step : LoopTask → LoopChoice → Outcome
  | .boot nIndex i, ch =>
    if nIndex < s.g_dwListenCount then
      if i < 10 then s.post nIndex [.boot nIndex (i+1)] ch.accept
      else .ok (s, [.boot (nIndex+1) 0], [])
    else .ok (s, [.wait], [])
  | .wait, ch =>
    match ch.waited with
    | .failed => .ok ({ s with exited := true }, [], [])
    | _ => .ok (s, [.poll 0], [])
  | .poll nIndex, ch =>
    if nIndex < s.g_dwListenCount then
      match ch.waited with
      | .timeout => .ok (s, [.poll (nIndex+1)], [])
      | .failed => .ok ({ s with exited := true }, [], [])
      | .signalled => .ok (s, [.post nIndex 0], [])
    else .ok (s, [.wait], [])
  | .post nIndex i, ch =>
    if i < 10 then s.post nIndex [.post nIndex (i+1)] ch.accept else .ok (s, [.size nIndex], [])
  | .size nIndex, _ =>
    .ok (s, [if 100 < (s.acceptPendingMap nIndex).length then .next nIndex
      else .poll (nIndex+1)], [])
  | .next nIndex, ch =>
    match ch.node.bind fun j => (s.acceptPendingMap nIndex)[j]? with
    | none => .ok (s, [.poll (nIndex+1)], [])
    | some (k, _) => .ok ({ s with i := some (nIndex, k) }, [.age nIndex], [])
  | .age nIndex, ch => s.withNode fun pSock =>
      .ok (s, [if s.overdue pSock ch.optval then .close nIndex else .advance nIndex], [])
  | .close nIndex, _ => s.withNode fun pSock =>
      .ok (s, [.shut nIndex (s.listener.sockObj pSock).sock], [])
  | .shut nIndex sock, _ =>
    .ok (s.setListener (s.listener.closesocket sock), [.clear nIndex], [.closesocket sock])
  | .clear nIndex, _ => s.withNode fun pSock =>
      .ok (s.setListener (s.listener.setSock pSock
        { s.listener.sockObj pSock with sock := INVALID_SOCKET }), [.advance nIndex], [])
  | .advance nIndex, _ => s.withNode fun _ => .ok ({ s with i := none }, [.next nIndex], [])
  | .accept nIndex pObj, _ =>
    match (s.listener.obj pObj).pRelateSock with
    | none => .error .nullPointer
    | some pSock =>
      s.call nIndex (s.listener.nKey pSock) [] ((s.lsock nIndex).acceptCompletion pObj)
  | .obj pObj, ch =>
    if ch.accept.release then .ok (s.setListener (s.listener.freeObj pObj), [], [.freeObj pObj])
    else .ok (s, [.obj pObj], [])
  | .sock pSock, ch =>
    let l := s.listener.cmCloseSocket pSock
    if ch.accept.release then .ok (s.setListener (l.freeSock pSock), [], [.freeSock pSock])
    else if ch.hangUp then .ok (s.setListener l, [.sock pSock], [])
    else .ok (s, [.sock pSock], [])

end Access

/-- No handle is 0, which is what the heap puts into a socket object. -/
def machine : Machine AcceptLoop LoopTask LoopChoice ListenEvent LoopFault where
  step := step
  allowed s ch := s.exited = false ∧ Listener.machine.allowed s.listener ch.accept ∧
    ch.accept.socket ≠ 0

instance (s : AcceptLoop) (ch : LoopChoice) : Decidable (machine.allowed s ch) :=
  inferInstanceAs (Decidable (_ ∧ _ ∧ _))

/-- main after InitListenSock. The heap hands out zeros. -/
def booted (g_dwListenCount : ℕ) (fpAcceptex : ℕ → Server) : Conf AcceptLoop LoopTask :=
  ⟨⟨(Listener.listening (fun _ => ⟨Overlapped.zero, none, none, none⟩) (fun _ => ⟨0, 0⟩)).shared,
    fun _ => [], fpAcceptex, g_dwListenCount, none, false⟩, [.boot 0 0]⟩

end AcceptLoop

end CustomersCard
