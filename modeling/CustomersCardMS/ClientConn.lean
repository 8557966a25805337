import CustomersCardMS.DeliveryLoop
import CustomersCardMS.Interleaving

/-! One client connection: its RECV_SOCK, its RECV_OBJ, its BUFFER_OBJs, and the
operations and handlers that work on them at the same time. A task is an operation that
is outstanding or the rest of a handler up to its next access to shared memory. -/
namespace CustomersCard

/-- The handler that runs the delivery loop. -/
inductive Origin
  | accept
  | recv
  deriving DecidableEq

/-- What a handler frees after it has given its reference back. -/
inductive Tail
  | robj
  | bobj (pBObj : BufferObjPtr)
  | nothing
  deriving DecidableEq

inductive Task
  -- Operations outstanding: on the RECV_OBJ, and on a BUFFER_OBJ.
  | accept
  | zeroRecv
  | recv
  | cmd (pBObj : BufferObjPtr)
  | send (pBObj : BufferObjPtr)
  -- Client_AcceptCompletionSuccess before the loop, and both ways to give up an accept.
  | createPort (dwTranstion : DWORD)
  | acceptClose
  | acceptFreeRObj
  | acceptFreeRSock
  -- The delivery loop.
  | loop (o : Origin)
  | addRef (o : Origin) (pBObj : BufferObjPtr)
  | postCmd (o : Origin) (pBObj : BufferObjPtr)
  | acceptDecRef (pBObj : BufferObjPtr)
  | acceptFreeBObj (pBObj : BufferObjPtr)
  | recvFreeBObj (pBObj : BufferObjPtr)
  | recvDecRef
  | earlyClose
  | earlyFreeRSock
  | postZeroRecv
  | postRecv
  -- `if (0 == InterlockedDecrement(&nRef)) { CMCloseSocket; freeRSock; }` and what follows it.
  | release (k : Tail)
  | releaseClose (k : Tail)
  | releaseFreeRSock (k : Tail)
  | releaseTail (k : Tail)
  -- The command handler, for as long as it keeps its BUFFER_OBJ.
  | command (pBObj : BufferObjPtr)
  -- The first send, the next part of a send, and Client_SendCompletionFailed or the same
  -- statements at the end of Client_SendCompletionSuccess.
  | startSend (pBObj : BufferObjPtr)
  | repostSend (pBObj : BufferObjPtr)
  | getNextData (pBObj : BufferObjPtr)
  | freeSent (pBObj : BufferObjPtr) (obj : Option BufferObjPtr)
  | nextDecRef (obj : BufferObjPtr)
  | nextSend (obj : BufferObjPtr)
  deriving DecidableEq

inductive Fault
  | useAfterFree
  | doubleFree
  | popEmpty
  -- A completion finds handlers of another kind of operation in its object.
  | wrongHandler
  -- An access outside the ring or outside `data`.
  | outOfBounds

inductive Event
  | closesocket (sock : SOCKET)
  | freeRSock
  | freeRObj
  | allocBObj (pBObj : BufferObjPtr)
  | freeBObj (pBObj : BufferObjPtr)
  | queued (pBObj : BufferObjPtr)
  | enqueue (pBObj : BufferObjPtr) (bytes : List Byte)
  | start (pBObj : BufferObjPtr)
  | transmit (pBObj : BufferObjPtr) (bytes : List Byte)
  | dequeue (pBObj : BufferObjPtr)
  deriving DecidableEq

/-- What the kernel, the allocator and the command handlers decide. -/
structure Choice where
  ok : Bool
  bytes : List Byte
  count : ℕ
  pBObj : BufferObjPtr
  left : BufferObj

namespace BufferObj

/-- What is left to send: `data[dwSendedCount..dwRecvedCount)`. -/
def unsent (b : BufferObj) : List Byte := b.command.drop b.dwSendedCount.toNat

/-- The WSABUF of a send. -/
def setWsaBuf (b : BufferObj) : BufferObj :=
  { b with wsaBuf := ⟨some b.dwSendedCount.toNat, b.dwRecvedCount - b.dwSendedCount⟩ }

/-- The bytes of the WSABUF. -/
def offered (b : BufferObj) : List Byte := b.wsaBuf.cells.map b.data

/-- `dwSendedCount += dwTranstion` -/
def advance (b : BufferObj) (dwTranstion : DWORD) : BufferObj :=
  { b with dwSendedCount := b.dwSendedCount + dwTranstion }

/-- A command handler puts its response into the BUFFER_OBJ of the command. -/
def answer (b : BufferObj) (bytes : List Byte) : BufferObj :=
  { b with
    data := Circular.writeAt b.data (List.range' 0 bytes.length) bytes
    dwRecvedCount := BitVec.ofNat 32 bytes.length
    dwSendedCount := 0 }.setIoRequestFunction
      .clientSendCompletionFailed .clientSendCompletionSuccess

end BufferObj

structure ClientConn where
  g_dwPagesize : DWORD
  pRSock : SockPtr
  rsock : RecvSock
  rsockLive : Bool
  robj : RecvObj
  robjLive : Bool
  bobj : BufferObjPtr → BufferObj
  -- The BUFFER_OBJs allocated for this connection and not freed.
  objs : List BufferObjPtr

namespace ClientConn

abbrev Outcome := Except Fault (ClientConn × List Task × List Event)

/-- A statement that faults unless `p` holds. -/
def guarded (p : Prop) [Decidable p] (f : Fault) (k : Outcome) : Outcome :=
  if p then k else .error f

section Access

variable (c : ClientConn)

def setRSock (rsock : RecvSock) : ClientConn := { c with rsock }

def setBObj (pBObj : BufferObjPtr) (b : BufferObj) : ClientConn :=
  { c with bobj := Function.update c.bobj pBObj b }

def withRSock (k : Outcome) : Outcome := guarded c.rsockLive .useAfterFree k

def withRObj (k : Outcome) : Outcome := guarded c.robjLive .useAfterFree k

def withBObj (pBObj : BufferObjPtr) (k : Outcome) : Outcome :=
  guarded (pBObj ∈ c.objs) .useAfterFree k

def freeRSock (next : List Task) : Outcome :=
  guarded c.rsockLive .doubleFree (.ok ({ c with rsockLive := false }, next, [.freeRSock]))

def freeRObj (next : List Task) : Outcome :=
  guarded c.robjLive .doubleFree (.ok ({ c with robjLive := false }, next, [.freeRObj]))

def freeBObj (pBObj : BufferObjPtr) (next : List Task) : Outcome :=
  guarded (pBObj ∈ c.objs) .doubleFree
    (.ok ({ c with objs := c.objs.erase pBObj }, next, [.freeBObj pBObj]))

/-- worker_thread calls the handlers that the object of the completion holds. -/
def dispatchRObj (_fpFailed : FPFailed) (_fpSuccess : FPSuccess) (k : Outcome) : Outcome :=
  guarded (c.robj.fpFailed = some _fpFailed ∧ c.robj.fpSuccess = some _fpSuccess) .wrongHandler k

def dispatchBObj (pBObj : BufferObjPtr) (_fpFailed : FPFailed) (_fpSuccess : FPSuccess)
    (k : Outcome) : Outcome :=
  guarded ((c.bobj pBObj).fpFailed = some _fpFailed ∧ (c.bobj pBObj).fpSuccess = some _fpSuccess)
    .wrongHandler k

def setRObjHandlers (_fpFailed : FPFailed) (_fpSuccess : FPSuccess) : ClientConn :=
  { c with robj := c.robj.setIoRequestFunction _fpFailed _fpSuccess }

/-- CMCloseSocket(pRSock) -/
def cmCloseSocket (next : List Task) : Outcome :=
  if c.rsock.sock ≠ INVALID_SOCKET then
    .ok (c.setRSock c.rsock.closeSock, next, [.closesocket c.rsock.sock])
  else .ok (c, next, [])

/-- A request on INVALID_SOCKET fails at once. -/
def posts (ch : Choice) : Bool := ch.ok && c.rsock.sock != INVALID_SOCKET

end Access

/-- The part of the loop body up to AddRef: allocBObj, Read, and the fields of `pBObj`. -/
def takeCommand (c : ClientConn) (o : Origin) (rsock : RecvSock) (len : DWORD) (ch : Choice) :
    Outcome :=
  match rsock.read len with
  | none => .error .outOfBounds
  | some (_, bytes, rsock) =>
    match (allocBObj ch.left c.g_dwPagesize).storeData bytes with
    | none => .error .outOfBounds
    | some b =>
      let b := { b with dwRecvedCount := len, pRelateSock := some c.pRSock }
      .ok ({ (c.setRSock rsock).setBObj ch.pBObj b with objs := ch.pBObj :: c.objs },
        [.addRef o ch.pBObj], [.allocBObj ch.pBObj])

/-- The closesocket of GetCmdDataLength and its `sock = INVALID_SOCKET` are one turn here, and so
are the look at `sock` and the WSASend of CLient_PostSend; `Threads` takes them apart. -/
def loopStep (c : ClientConn) (o : Origin) (ch : Choice) : Outcome :=
  match c.rsock.getCmdDataLength with
  | none => .error .outOfBounds
  | some (len, rsock) =>
    if len = 0 then
      .ok (c.setRSock rsock, [.postZeroRecv],
        if c.rsock.sock ≠ INVALID_SOCKET ∧ rsock.sock = INVALID_SOCKET then
          [.closesocket c.rsock.sock] else [])
    else c.takeCommand o rsock len ch

/-- CLient_PostSend; a refused send goes on in Client_SendCompletionFailed. -/
def postSend (c : ClientConn) (pBObj : BufferObjPtr) (ch : Choice) (evs : List Event) : Outcome :=
  c.withRSock <| c.withBObj pBObj <|
    .ok (c.setBObj pBObj (c.bobj pBObj).setWsaBuf,
      if c.posts ch then [.send pBObj] else [.getNextData pBObj], evs)

/-- The completion of a send, of which at most the WSABUF was transmitted. -/
def sendCompletion (c : ClientConn) (pBObj : BufferObjPtr) (ch : Choice) : Outcome :=
  c.dispatchBObj pBObj .clientSendCompletionFailed .clientSendCompletionSuccess <|
  c.withBObj pBObj <|
    let bytes := (c.bobj pBObj).offered.take ch.count
    if ch.ok ∧ bytes ≠ [] then
      let b := (c.bobj pBObj).advance (BitVec.ofNat 32 bytes.length)
      .ok (c.setBObj pBObj b,
        if b.dwSendedCount < b.dwRecvedCount then [.repostSend pBObj] else [.getNextData pBObj],
        [.transmit pBObj bytes])
    else .ok (c, [.getNextData pBObj], [.transmit pBObj bytes])

/-- A command handler that answers calls CheckSend with the BUFFER_OBJ of the command; the caller
that finds the list empty starts the send. -/
def respond (c : ClientConn) (pBObj : BufferObjPtr) (ch : Choice) : Outcome :=
  let bytes := ch.bytes.take (c.bobj pBObj).datalen.toNat
  let (first, rsock) := c.rsock.checkSend pBObj
  .ok ((c.setBObj pBObj ((c.bobj pBObj).answer bytes)).setRSock rsock,
    if first then [.startSend pBObj] else [], [.enqueue pBObj bytes])

def step (c : ClientConn) : Task → Choice → Outcome
  -- Client_AcceptCompletionFailed and the start of Client_AcceptCompletionSuccess: AcceptEx has
  -- room for `dwBufsize` less the 64 bytes of the addresses, and no bytes count as a failure.
  | .accept, ch =>
    c.dispatchRObj .clientAcceptCompletionFailed .clientAcceptCompletionSuccess <|
    c.withRObj <| c.withRSock <|
      let bytes := ch.bytes.take (c.rsock.dwBufsize - 64).toNat
      if ch.ok ∧ bytes ≠ [] then
        .ok (c.setRSock (c.rsock.kernelAccept bytes),
          [.createPort (BitVec.ofNat 32 bytes.length)], [])
      else .ok (c, [.acceptClose], [])
  -- CreateIoCompletionPort returns NULL, or the handler goes on with InitWRpos.
  | .createPort dwTranstion, ch => c.withRSock <|
      if ch.ok then .ok (c.setRSock (c.rsock.initWRpos dwTranstion), [.loop .accept], [])
      else .ok (c, [.acceptClose], [])
  -- What both of them do with an accept that they give up.
  | .acceptClose, _ => c.withRSock <| c.cmCloseSocket [.acceptFreeRObj]
  | .acceptFreeRObj, _ => c.freeRObj [.acceptFreeRSock]
  | .acceptFreeRSock, _ => c.freeRSock []
  | .loop o, ch => c.withRSock <| c.loopStep o ch
  -- The rest of the loop body, from AddRef to PostQueuedCompletionStatus.
  | .addRef o pBObj, _ => c.withRSock <|
      .ok (c.setRSock c.rsock.addRef, [.postCmd o pBObj], [])
  | .postCmd o pBObj, ch => c.withBObj pBObj <|
      let b := (c.bobj pBObj).setIoRequestFunction .clientCmdCompletionFailed
        .clientCmdCompletionSuccess
      if ch.ok then .ok (c.setBObj pBObj b, [.cmd pBObj, .loop o], [.queued pBObj])
      else
        match o with
        | .accept => .ok (c.setBObj pBObj b, [.acceptDecRef pBObj], [])
        | .recv => .ok (c.setBObj pBObj b, [.recvFreeBObj pBObj], [])
  -- The two handlers differ where PostQueuedCompletionStatus fails: the one frees last and goes on,
  -- the other frees first and asks whether that was the last reference.
  | .acceptDecRef pBObj, _ => c.withRSock <|
      .ok (c.setRSock c.rsock.decRef, [.acceptFreeBObj pBObj], [])
  | .acceptFreeBObj pBObj, _ => c.freeBObj pBObj [.loop .accept]
  | .recvFreeBObj pBObj, _ => c.freeBObj pBObj [.recvDecRef]
  | .recvDecRef, _ => c.withRSock <|
      .ok (c.setRSock c.rsock.decRef,
        if c.rsock.nRef - 1 = 0 then [.earlyClose] else [.loop .recv], [])
  | .earlyClose, _ => c.withRSock <| c.cmCloseSocket [.earlyFreeRSock]
  | .earlyFreeRSock, _ => c.freeRSock []
  -- Client_PostZeroRecv, behind the loop of either handler.
  | .postZeroRecv, ch => c.withRObj <| c.withRSock <|
      let c := c.setRObjHandlers .clientZeroRecvCompletionFailed .clientZeroRecvCompletionSuccess
      let c := c.setRSock { c.rsock with wsabuf := (⟨none, 0⟩, ⟨none, 0⟩) }
      .ok (c, if c.posts ch then [.zeroRecv] else [.release .robj], [])
  -- Client_ZeroRecvCompletionFailed and Client_ZeroRecvCompletionSuccess, which calls
  -- Client_PostRecv.
  | .zeroRecv, ch =>
    c.dispatchRObj .clientZeroRecvCompletionFailed .clientZeroRecvCompletionSuccess <|
    c.withRObj <| .ok (c, if ch.ok then [.postRecv] else [.release .robj], [])
  | .postRecv, ch => c.withRObj <| c.withRSock <|
      let c := c.setRObjHandlers .clientRecvCompletionFailed .clientRecvCompletionSuccess
      let c := c.setRSock c.rsock.initWSABUFS
      .ok (c, if c.posts ch then [.recv] else [.release .robj], [])
  -- Client_RecvCompletionFailed and Client_RecvCompletionSuccess: WSARecv fills the two WSABUFs.
  | .recv, ch =>
    c.dispatchRObj .clientRecvCompletionFailed .clientRecvCompletionSuccess <|
    c.withRObj <| c.withRSock <|
      let bytes := ch.bytes.take (c.rsock.wsabuf.1.len.toNat+c.rsock.wsabuf.2.len.toNat)
      if ch.ok ∧ bytes ≠ [] then
        .ok (c.setRSock ((c.rsock.kernelRecv bytes).initWRpos (BitVec.ofNat 32 bytes.length)),
          [.loop .recv], [])
      else .ok (c, [.release .robj], [])
  -- InterlockedDecrement and what a handler does at zero, before it frees its own object.
  | .release k, _ => c.withRSock <|
      .ok (c.setRSock c.rsock.decRef,
        if c.rsock.nRef - 1 = 0 then [.releaseClose k] else [.releaseTail k], [])
  | .releaseClose k, _ => c.withRSock <| c.cmCloseSocket [.releaseFreeRSock k]
  | .releaseFreeRSock k, _ => c.freeRSock [.releaseTail k]
  | .releaseTail .robj, _ => c.freeRObj []
  | .releaseTail (.bobj pBObj), _ => c.freeBObj pBObj []
  | .releaseTail .nothing, _ => .ok (c, [], [])
  -- Client_CmdCompletionFailed, or Client_CmdCompletionSuccess, which keeps the BUFFER_OBJ for as
  -- long as its command takes and then answers or not.
  | .cmd pBObj, ch =>
    c.dispatchBObj pBObj .clientCmdCompletionFailed .clientCmdCompletionSuccess <|
    c.withBObj pBObj <|
      .ok (c, if ch.ok then [.command pBObj] else [.release (.bobj pBObj)], [])
  | .command pBObj, ch => c.withBObj pBObj <|
      if ch.ok then c.withRSock <| c.respond pBObj ch else .ok (c, [.command pBObj], [])
  -- CLient_PostSend, first for what CheckSend found alone in the list and then for what is left.
  | .startSend pBObj, ch => c.postSend pBObj ch [.start pBObj]
  | .send pBObj, ch => c.sendCompletion pBObj ch
  | .repostSend pBObj, ch => c.postSend pBObj ch []
  -- Client_SendCompletionFailed: GetNextData, freeBObj, and the next send or the last reference.
  | .getNextData pBObj, _ => c.withRSock <|
      match c.rsock.getNextData with
      | none => .error .popEmpty
      | some (obj, rsock) =>
        .ok (c.setRSock rsock, [.freeSent pBObj obj],
          c.rsock.lstSend.getLast?.toList.map .dequeue)
  | .freeSent pBObj none, _ => c.freeBObj pBObj [.release .nothing]
  | .freeSent pBObj (some obj), _ => c.freeBObj pBObj [.nextDecRef obj]
  | .nextDecRef obj, _ => c.withRSock <| .ok (c.setRSock c.rsock.decRef, [.nextSend obj], [])
  | .nextSend obj, ch => c.withBObj obj <|
      (c.setBObj obj ((c.bobj obj).setIoRequestFunction .clientSendCompletionFailed
        .clientSendCompletionSuccess)).postSend obj ch [.start obj]

/-- allocBObj gives an object that is not in use. -/
def machine : Interleaving.Machine ClientConn Task Choice Event Fault where
  step := step
  allowed c ch := ch.pBObj ∉ c.objs

instance (c : ClientConn) (ch : Choice) : Decidable (machine.allowed c ch) :=
  inferInstanceAs (Decidable (ch.pBObj ∉ c.objs))

/-- Client_PostAcceptEx has posted AcceptEx on a fresh or pooled RECV_SOCK and RECV_OBJ. -/
def connected (g_dwPagesize : DWORD) (pRSock : SockPtr) (rsock : RecvSock) (sock : SOCKET)
    (robj : RecvObj) (mem : BufferObjPtr → BufferObj) : ClientConn where
  g_dwPagesize := g_dwPagesize
  pRSock := pRSock
  rsock := { allocRSock rsock (g_dwPagesize * 8) with sock }
  rsockLive := true
  robj := { robj.init with pRelateSock := some pRSock }.setIoRequestFunction
    .clientAcceptCompletionFailed .clientAcceptCompletionSuccess
  robjLive := true
  bobj := mem
  objs := []

def start (g_dwPagesize : DWORD) (pRSock : SockPtr) (rsock : RecvSock) (sock : SOCKET)
    (robj : RecvObj) (mem : BufferObjPtr → BufferObj) : Interleaving.Conf ClientConn Task :=
  ⟨connected g_dwPagesize pRSock rsock sock robj mem, [.accept]⟩

/-- A connection in its delivery loop, with command handlers that keep `bs`. -/
def serving (c : ClientConn) (bs : List BufferObjPtr) : Interleaving.Conf ClientConn Task :=
  ⟨{ c with
      rsock := { c.rsock with nRef := bs.length+1, lstSend := [] }
      rsockLive := true
      robjLive := true
      objs := bs },
    .loop .recv :: bs.map .command⟩

inductive Begins : Interleaving.Conf ClientConn Task → Prop
  | accept (g_dwPagesize : DWORD) (pRSock : SockPtr) (rsock : RecvSock) (sock : SOCKET)
      (robj : RecvObj) (mem : BufferObjPtr → BufferObj) :
      Begins (start g_dwPagesize pRSock rsock sock robj mem)
  | serve (c : ClientConn) (bs : List BufferObjPtr) : bs.Nodup → Begins (serving c bs)

end ClientConn

end CustomersCard
