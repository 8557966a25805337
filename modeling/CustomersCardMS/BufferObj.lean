import CustomersCardMS.RecvSock

namespace CustomersCard

structure Overlapped where
  internal : BitVec 64
  -- The byte count of the last transfer.
  internalHigh : BitVec 64
  offset : BitVec 64
  hEvent : BitVec 64

def Overlapped.zero : Overlapped := ⟨0, 0, 0, 0⟩

inductive FPSuccess
  | clientAcceptCompletionSuccess
  | clientZeroRecvCompletionSuccess
  | clientRecvCompletionSuccess
  | clientCmdCompletionSuccess
  | clientSendCompletionSuccess
  | ncAcceptCompletionSuccess
  | ncRecvZeroCompSuccess
  | ncRecvCompSuccess
  | ncSendCompSuccess
  deriving DecidableEq

inductive FPFailed
  | clientAcceptCompletionFailed
  | clientZeroRecvCompletionFailed
  | clientRecvCompletionFailed
  | clientCmdCompletionFailed
  | clientSendCompletionFailed
  | ncAcceptCompletionFailed
  | ncRecvZeroCompFailed
  | ncRecvCompFailed
  | ncSendCompFailed
  deriving DecidableEq

/-- The address of a RECV_SOCK or BUFFER_SOCK. -/
abbrev SockPtr := ℕ

structure RecvObj where
  ol : Overlapped
  fpSuccess : Option FPSuccess
  fpFailed : Option FPFailed
  pRelateSock : Option SockPtr

namespace RecvObj

def init (_o : RecvObj) : RecvObj := ⟨Overlapped.zero, none, none, none⟩

def setIoRequestFunction (o : RecvObj) (_fpFailed : FPFailed) (_fpSuccess : FPSuccess) : RecvObj :=
  { o with fpSuccess := some _fpSuccess, fpFailed := some _fpFailed }

end RecvObj

structure BufferObj where
  ol : Overlapped
  fpSuccess : Option FPSuccess
  fpFailed : Option FPFailed
  pRelateSock : Option SockPtr
  wsaBuf : Wsabuf
  dwRecvedCount : DWORD
  dwSendedCount : DWORD
  datalen : DWORD
  data : ℕ → Byte

/-- sizeof(BUFFER_OBJ) - sizeof(TCHAR), with three bytes of padding behind `data[1]`. -/
def BUFFER_OBJ_SIZE : DWORD := 87

namespace BufferObj

/-- What HeapAlloc with HEAP_ZERO_MEMORY gives. -/
def zeroed : BufferObj where
  ol := Overlapped.zero
  fpSuccess := none
  fpFailed := none
  pRelateSock := none
  wsaBuf := ⟨none, 0⟩
  dwRecvedCount := 0
  dwSendedCount := 0
  datalen := 0
  data := fun _ => 0

def init (b : BufferObj) (dwSize : DWORD) : BufferObj :=
  { b with
    ol := Overlapped.zero
    fpSuccess := none
    fpFailed := none
    pRelateSock := none
    dwRecvedCount := 0
    dwSendedCount := 0
    datalen := dwSize }

def setIoRequestFunction (b : BufferObj) (_fpFailed : FPFailed) (_fpSuccess : FPSuccess) :
    BufferObj :=
  { b with fpSuccess := some _fpSuccess, fpFailed := some _fpFailed }

/-- The object reaches three bytes beyond `data[0..datalen)`. -/
def dataRoom (b : BufferObj) : ℕ := b.datalen.toNat+3

/-- The stores of a `memcpy` to `data`; `none` when they leave the object. -/
def storeData (b : BufferObj) (bytes : List Byte) : Option BufferObj :=
  if bytes.length ≤ b.dataRoom then
    some { b with data := Circular.writeAt b.data (List.range' 0 bytes.length) bytes }
  else none

end BufferObj

/-- Both take an object of their pool, with whatever its last user left in it, or new memory. -/
def allocRSock (pRSock : RecvSock) (dwSize : DWORD) : RecvSock :=
  pRSock.init (dwSize - RECV_SOCK_SIZE)

def allocBObj (pBObj : BufferObj) (dwSize : DWORD) : BufferObj :=
  pBObj.init (dwSize - BUFFER_OBJ_SIZE)

end CustomersCard
