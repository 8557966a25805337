import CustomersCardMS.NcCheck
import CustomersCardMS.Interleaving

/-! One connection that pushes requests: its BUFFER_SOCK, its BUFFER_OBJ, and the one
operation or handler that works on them. -/
namespace CustomersCard
open Interleaving

/-- The part of a BUFFER_SOCK that an accepted connection uses. -/
structure BufferSock where
  nKey : ℤ
  sock : SOCKET

inductive NcTask
  -- Operations outstanding on the BUFFER_OBJ.
  | accept
  | zeroRecv
  | recv
  -- Nc_AcceptCompletionSuccess before CheckNCData, and both handlers from there on.
  | createPort (dwTranstion : DWORD)
  | check
  | postZeroRecv
  | postRecv
  -- `CMCloseSocket(pBSock); freeBSock(pBSock); freeBObj(pBObj);`
  | close
  | freeBSock
  | freeBObj
  deriving DecidableEq

inductive NcConnFault
  | useAfterFree
  | doubleFree
  | wrongHandler
  | check (f : NcFault)
  deriving DecidableEq

inductive NcEvent
  | closesocket (sock : SOCKET)
  -- CheckNCData has returned a header length, and its caller has done nothing with it.
  | complete (headerLen : ℕ)
  | freeBSock
  | freeBObj
  deriving DecidableEq

/-- What the kernel decides, and the addresses that AcceptEx stores. -/
structure NcChoice where
  ok : Bool
  bytes : List Byte
  block : List Byte

namespace BufferObj

/-- The completion of a transfer. -/
def transferred (b : BufferObj) (n : ℕ) : BufferObj :=
  { b with ol := { b.ol with internalHigh := BitVec.ofNat 64 n } }

/-- AcceptEx stores what was received at `data[0]`, and the two addresses in the last 64 bytes. -/
def kernelAccept (b : BufferObj) (bytes block : List Byte) : BufferObj :=
  let data := Circular.writeAt b.data (List.range' (b.datalen.toNat-64) 64) (block.take 64)
  { b with
    data := Circular.writeAt data (List.range' 0 bytes.length) bytes }.transferred bytes.length

/-- WSARecv stores at `wsaBuf.buf`. -/
def kernelRecv (b : BufferObj) (bytes : List Byte) : BufferObj :=
  { b with data := Circular.writeAt b.data b.wsaBuf.cells bytes }.transferred bytes.length

/-- `dwRecvedCount += dwTranstion` -/
def addReceived (b : BufferObj) (dwTranstion : DWORD) : BufferObj :=
  { b with dwRecvedCount := b.dwRecvedCount + dwTranstion }

/-- The WSABUFs of Nc_PostZeroRecv and Nc_PostRecv. -/
def setZeroWsaBuf (b : BufferObj) : BufferObj := { b with wsaBuf := ⟨none, 0⟩ }

def setRecvWsaBuf (b : BufferObj) : BufferObj :=
  { b with wsaBuf := ⟨some b.dwRecvedCount.toNat, b.datalen - b.dwRecvedCount⟩ }

end BufferObj

structure NcConn where
  bsock : BufferSock
  bsockLive : Bool
  bobj : BufferObj
  bobjLive : Bool

namespace NcConn

abbrev Outcome := Except NcConnFault (NcConn × List NcTask × List NcEvent)

/-- A statement that faults unless `p` holds. -/
def guarded (p : Prop) [Decidable p] (f : NcConnFault) (k : Outcome) : Outcome :=
  if p then k else .error f

section Access

variable (c : NcConn)

def setBObj (bobj : BufferObj) : NcConn := { c with bobj }

def withBSock (k : Outcome) : Outcome := guarded c.bsockLive .useAfterFree k

def withBObj (k : Outcome) : Outcome := guarded c.bobjLive .useAfterFree k

/-- worker_thread calls the handlers that the object of the completion holds. -/
def dispatch (_fpFailed : FPFailed) (_fpSuccess : FPSuccess) (k : Outcome) : Outcome :=
  guarded (c.bobj.fpFailed = some _fpFailed ∧ c.bobj.fpSuccess = some _fpSuccess) .wrongHandler k

/-- A request on INVALID_SOCKET fails at once. -/
def posts (ch : NcChoice) : Bool := ch.ok && c.bsock.sock != INVALID_SOCKET

/-- CMCloseSocket(pBSock) -/
def cmCloseSocket (next : List NcTask) : Outcome :=
  if c.bsock.sock ≠ INVALID_SOCKET then
    .ok ({ c with bsock := { c.bsock with sock := INVALID_SOCKET } }, next,
      [.closesocket c.bsock.sock])
  else .ok (c, next, [])

end Access

def step (c : NcConn) : NcTask → NcChoice → Outcome
  -- Nc_AcceptCompletionFailed, or Nc_AcceptCompletionSuccess up to CreateIoCompletionPort. Even
  -- where it fails, AcceptEx may have written its address block.
  | .accept, ch =>
    c.dispatch .ncAcceptCompletionFailed .ncAcceptCompletionSuccess <|
    c.withBObj <| c.withBSock <|
      let bytes := ch.bytes.take (c.bobj.datalen - 64).toNat
      let c := c.setBObj (c.bobj.kernelAccept bytes ch.block)
      .ok (c, if ch.ok ∧ bytes ≠ [] then [.createPort (BitVec.ofNat 32 bytes.length)]
        else [.close], [])
  | .createPort dwTranstion, ch => c.withBObj <| c.withBSock <|
      if ch.ok then .ok (c.setBObj (c.bobj.addReceived dwTranstion), [.check], [])
      else .ok (c, [.close], [])
  -- CheckNCData. Nothing is done with a complete request, and no task is left.
  | .check, _ => c.withBObj <|
      match c.bobj.checkNCData with
      | .error f => .error (.check f)
      | .ok (headerLen, bobj, closed) =>
        if headerLen = 0 then
          .ok (c.setBObj bobj, [.postZeroRecv], closed.toList.map .closesocket)
        else .ok (c.setBObj bobj, [], [.complete headerLen])
  -- Nc_PostZeroRecv and its completions.
  | .postZeroRecv, ch => c.withBObj <| c.withBSock <|
      .ok (c.setBObj (c.bobj.setIoRequestFunction .ncRecvZeroCompFailed
        .ncRecvZeroCompSuccess).setZeroWsaBuf, if c.posts ch then [.zeroRecv] else [.close], [])
  | .zeroRecv, ch =>
    c.dispatch .ncRecvZeroCompFailed .ncRecvZeroCompSuccess <|
    c.withBObj <| c.withBSock <|
      .ok (c.setBObj (c.bobj.transferred 0), if ch.ok then [.postRecv] else [.close], [])
  -- NC_RecvZeroCompSuccess goes on with Nc_PostRecv, behind what it has received so far.
  | .postRecv, ch => c.withBObj <| c.withBSock <|
      .ok (c.setBObj (c.bobj.setIoRequestFunction .ncRecvCompFailed
        .ncRecvCompSuccess).setRecvWsaBuf, if c.posts ch then [.recv] else [.close], [])
  -- NC_RecvCompFailed and NC_RecvCompSuccess.
  | .recv, ch =>
    c.dispatch .ncRecvCompFailed .ncRecvCompSuccess <|
    c.withBObj <| c.withBSock <|
      let bytes := ch.bytes.take c.bobj.wsaBuf.len.toNat
      let bobj := c.bobj.kernelRecv bytes
      if ch.ok ∧ bytes ≠ [] then
        .ok (c.setBObj (bobj.addReceived (BitVec.ofNat 32 bytes.length)), [.check], [])
      else .ok (c.setBObj bobj, [.close], [])
  -- CMCloseSocket, freeBSock and freeBObj, at the end of every handler that fails.
  | .close, _ => c.withBSock <| c.cmCloseSocket [.freeBSock]
  | .freeBSock, _ =>
    guarded c.bsockLive .doubleFree (.ok ({ c with bsockLive := false }, [.freeBObj], [.freeBSock]))
  | .freeBObj, _ =>
    guarded c.bobjLive .doubleFree (.ok ({ c with bobjLive := false }, [], [.freeBObj]))

def machine : Machine NcConn NcTask NcChoice NcEvent NcConnFault where
  step := step
  allowed _ _ := True

instance (c : NcConn) (ch : NcChoice) : Decidable (machine.allowed c ch) :=
  inferInstanceAs (Decidable True)

/-- Nc_PostAcceptEx has posted AcceptEx on a fresh or pooled BUFFER_SOCK and BUFFER_OBJ. -/
def connected (g_dwPagesize : DWORD) (pBSock : SockPtr) (bsock : BufferSock) (bobj : BufferObj) :
    NcConn where
  bsock := bsock
  bsockLive := true
  bobj := { allocBObj bobj g_dwPagesize with pRelateSock := some pBSock }.setIoRequestFunction
    .ncAcceptCompletionFailed .ncAcceptCompletionSuccess
  bobjLive := true

def start (g_dwPagesize : DWORD) (pBSock : SockPtr) (bsock : BufferSock) (bobj : BufferObj) :
    Conf NcConn NcTask := ⟨connected g_dwPagesize pBSock bsock bobj, [.accept]⟩

end NcConn

end CustomersCard
