import CustomersCardMS.BufferObj
import CustomersCardMS.Interleaving

/-! A LISTEN_SOCK, the AcceptEx operations that are outstanding on it, and its map of the
sockets that wait in them. -/
namespace CustomersCard
open Interleaving

/-- The address of a RECV_OBJ or BUFFER_OBJ. -/
abbrev ObjPtr := ℕ

inductive Server
  | client
  | nc
  deriving DecidableEq

/-- What a RECV_SOCK and a BUFFER_SOCK start with. -/
structure KeyValue where
  nKey : ℤ
  sock : SOCKET

inductive ListenTask
  -- The thread that calls fpAcceptex.
  | acceptex
  -- An AcceptEx that is outstanding.
  | accept (pObj : ObjPtr)
  -- An object of a connection, until it is given back.
  | obj (pObj : ObjPtr)
  | sock (pSock : SockPtr)
  deriving DecidableEq

inductive ListenFault
  | nullPointer

inductive ListenEvent
  | returns (posted : Bool)
  | closesocket (sock : SOCKET)
  | freeObj (pObj : ObjPtr)
  | freeSock (pSock : SockPtr)
  deriving DecidableEq

/-- What the allocators, GetRand and the socket calls return. -/
structure AcceptChoice where
  server : Server
  pObj : Option ObjPtr
  pSock : Option SockPtr
  socket : SOCKET
  rand : ℕ
  pending : Bool
  release : Bool

structure Listener where
  acceptPendingMap : ℤ → Option SockPtr
  -- The fields that a RECV_OBJ and a BUFFER_OBJ share.
  obj : ObjPtr → RecvObj
  sockObj : SockPtr → KeyValue
  -- What the pools have handed out and not got back, and the handles that are open.
  objs : List ObjPtr
  socks : List SockPtr
  opened : List SOCKET

namespace Server

def acceptFailed : Server → FPFailed
  | .client => .clientAcceptCompletionFailed
  | .nc => .ncAcceptCompletionFailed

def acceptSuccess : Server → FPSuccess
  | .client => .clientAcceptCompletionSuccess
  | .nc => .ncAcceptCompletionSuccess

end Server

namespace Listener

section Access

variable (l : Listener)

def setObj (pObj : ObjPtr) (o : RecvObj) : Listener :=
  { l with obj := Function.update l.obj pObj o }

def setSock (pSock : SockPtr) (s : KeyValue) : Listener :=
  { l with sockObj := Function.update l.sockObj pSock s }

def nKey (pSock : SockPtr) : ℤ := (l.sockObj pSock).nKey

/-- `insert` finds the entry of the key if there is one, and its value is overwritten. -/
def insertIntoPendingMap (pSock : SockPtr) : Listener :=
  { l with acceptPendingMap := Function.update l.acceptPendingMap (l.nKey pSock) (some pSock) }

def deleteFromPendingMap (pSock : SockPtr) : Listener :=
  { l with acceptPendingMap := Function.update l.acceptPendingMap (l.nKey pSock) none }

def closesocket (sock : SOCKET) : Listener := { l with opened := l.opened.erase sock }

/-- `Init` of a RECV_SOCK and of a BUFFER_SOCK, and CMCloseSocket: the handle is closed unless there
is none. -/
def cmCloseSocket (pSock : SockPtr) : Listener :=
  if (l.sockObj pSock).sock ≠ INVALID_SOCKET then
    (l.closesocket (l.sockObj pSock).sock).setSock pSock
      { l.sockObj pSock with sock := INVALID_SOCKET }
  else l

def allocObj (pObj : ObjPtr) : Listener :=
  { l.setObj pObj (l.obj pObj).init with objs := pObj :: l.objs }

def allocSock (pSock : SockPtr) : Listener :=
  let l := l.setSock pSock { l.sockObj pSock with nKey := 0 }
  { l.cmCloseSocket pSock with socks := pSock :: l.socks }

def freeObj (pObj : ObjPtr) : Listener := { l with objs := l.objs.erase pObj }

def freeSock (pSock : SockPtr) : Listener := { l with socks := l.socks.erase pSock }

def openSocket (pSock : SockPtr) (sock : SOCKET) : Listener :=
  { l.setSock pSock { l.sockObj pSock with sock } with opened := sock :: l.opened }

/-- The socket is entered under a random key before AcceptEx is called. -/
def announce (server : Server) (pObj : ObjPtr) (pSock : SockPtr) (rand : ℕ) : Listener :=
  let o := { l.obj pObj with pRelateSock := some pSock }
  let l := l.setObj pObj (o.setIoRequestFunction server.acceptFailed server.acceptSuccess)
  (l.setSock pSock { l.sockObj pSock with nKey := rand }).insertIntoPendingMap pSock

end Access

abbrev Outcome := Except ListenFault (Listener × List ListenTask × List ListenEvent)

/-- Client_PostAcceptEx and Nc_PostAcceptEx, which differ in the kinds of their objects and
in what happens when there is no memory for the socket object: allocRSock writes to it. -/
def postAcceptEx (l : Listener) (ch : AcceptChoice) : Outcome :=
  match ch.pObj with
  | none => .ok (l, [.acceptex], [.returns false])
  | some pObj =>
    let l := l.allocObj pObj
    match ch.pSock with
    | none =>
      match ch.server with
      -- allocRSock writes to the object without a look at it; allocBSock returns NULL.
      | .client => .error .nullPointer
      | .nc => .ok (l.freeObj pObj, [.acceptex], [.freeObj pObj, .returns false])
    | some pSock =>
      let l := l.allocSock pSock
      if ch.socket = INVALID_SOCKET then
        .ok ((l.freeObj pObj).freeSock pSock, [.acceptex],
          [.freeObj pObj, .freeSock pSock, .returns false])
      else
        let l := (l.openSocket pSock ch.socket).announce ch.server pObj pSock ch.rand
        -- `false` is a SOCKET_ERROR other than ERROR_IO_PENDING: all is taken back again.
        if ch.pending then .ok (l, [.acceptex, .accept pObj], [.returns true])
        else
          .ok ((((l.deleteFromPendingMap pSock).cmCloseSocket pSock).freeObj pObj).freeSock pSock,
            [.acceptex],
            [.closesocket ch.socket, .freeObj pObj, .freeSock pSock, .returns false])

/-- Every handler of an AcceptEx completion starts with DeleteFromPendingMap; the rest of it is
about the connection. -/
def acceptCompletion (l : Listener) (pObj : ObjPtr) : Outcome :=
  match (l.obj pObj).pRelateSock with
  | none => .error .nullPointer
  | some pSock => .ok (l.deleteFromPendingMap pSock, [.obj pObj, .sock pSock], [])

def step (l : Listener) : ListenTask → AcceptChoice → Outcome
  | .acceptex, ch => l.postAcceptEx ch
  | .accept pObj, _ => l.acceptCompletion pObj
  | .obj pObj, ch =>
    if ch.release then .ok (l.freeObj pObj, [], [.freeObj pObj]) else .ok (l, [.obj pObj], [])
  | .sock pSock, ch =>
    if ch.release then
      .ok ((l.cmCloseSocket pSock).freeSock pSock, [], [.freeSock pSock])
    else .ok (l, [.sock pSock], [])

/-- The pools hand out objects that are not in use, and socket() a handle that is not open. -/
def machine : Machine Listener ListenTask AcceptChoice ListenEvent ListenFault where
  step := step
  allowed l ch := (∀ pObj ∈ ch.pObj, pObj ∉ l.objs) ∧ (∀ pSock ∈ ch.pSock, pSock ∉ l.socks) ∧
    ch.socket ∉ l.opened

instance (l : Listener) (ch : AcceptChoice) : Decidable (machine.allowed l ch) :=
  inferInstanceAs (Decidable (_ ∧ _ ∧ _))

/-- A listener after Init, over whatever memory the pools and the heap hold. -/
def listening (obj : ObjPtr → RecvObj) (sockObj : SockPtr → KeyValue) : Conf Listener ListenTask :=
  ⟨⟨fun _ => none, obj, sockObj, [], [], []⟩, [.acceptex]⟩

end Listener

end CustomersCard
