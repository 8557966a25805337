import CustomersCardMS.CircularArc

/-! The RECV_SOCK of a client connection: the receive ring, the frame decoder
and the reads that take a decoded command out of the ring. An access outside
`buf[0..dwBufsize)` has no defined result and is modelled by `none`. -/
namespace CustomersCard

abbrev Byte := BitVec 8
abbrev DWORD := BitVec 32
abbrev SOCKET := BitVec 64

def INVALID_SOCKET : SOCKET := BitVec.allOnes 64

/-- The address of a BUFFER_OBJ. -/
abbrev BufferObjPtr := ℕ

/-- A WSABUF whose `buf` points into the ring of the same RECV_SOCK, or is NULL. -/
structure Wsabuf where
  buf : Option ℕ
  len : DWORD

def Wsabuf.cells (w : Wsabuf) : List ℕ :=
  match w.buf with
  | none => []
  | some off => List.range' off w.len.toNat

structure RecvSock where
  nKey : ℤ
  sock : SOCKET
  lstSend : List BufferObjPtr
  wsabuf : Wsabuf × Wsabuf
  dwBufsize : DWORD
  dwWritepos : DWORD
  dwReadpos : DWORD
  dwRightsize : DWORD
  dwLeftsize : DWORD
  bFull : Bool
  bEmpty : Bool
  sum : Byte
  nRef : ℤ
  buf : ℕ → Byte

/-- sizeof(RECV_SOCK) - sizeof(TCHAR), with three bytes of padding behind `buf[1]`. -/
def RECV_SOCK_SIZE : DWORD := 127

namespace RecvSock

/-- What HeapAlloc with HEAP_ZERO_MEMORY gives. -/
def zeroed : RecvSock where
  nKey := 0
  sock := 0
  lstSend := []
  wsabuf := (⟨none, 0⟩, ⟨none, 0⟩)
  dwBufsize := 0
  dwWritepos := 0
  dwReadpos := 0
  dwRightsize := 0
  dwLeftsize := 0
  bFull := false
  bEmpty := false
  sum := 0
  nRef := 0
  buf := fun _ => 0

/-- `closesocket(sock); sock = INVALID_SOCKET;` -/
def closeSock (s : RecvSock) : RecvSock := { s with sock := INVALID_SOCKET }

def init (s : RecvSock) (_Bufsize : DWORD) : RecvSock :=
  { s with
    nKey := 0
    sock := INVALID_SOCKET
    dwBufsize := _Bufsize
    dwWritepos := 0
    dwReadpos := 0
    dwRightsize := 0
    dwLeftsize := 0
    bFull := false
    bEmpty := true
    sum := 0
    nRef := 1
    lstSend := [] }

/-- Init, and the handle that Client_PostAcceptEx takes from socket(). -/
def connect (s : RecvSock) (_Bufsize : DWORD) (sock : SOCKET) : RecvSock :=
  { s.init _Bufsize with sock }

def initRLsize (s : RecvSock) : RecvSock :=
  if s.bFull then
    { s with dwRightsize := 0, dwLeftsize := 0 }
  else if s.dwReadpos ≤ s.dwWritepos then
    { s with dwRightsize := s.dwBufsize - s.dwWritepos, dwLeftsize := s.dwReadpos }
  else
    { s with dwRightsize := s.dwReadpos - s.dwWritepos, dwLeftsize := 0 }

def initWSABUFS (s : RecvSock) : RecvSock :=
  let s := s.initRLsize
  { s with wsabuf := (⟨some s.dwWritepos.toNat, s.dwRightsize⟩, ⟨some 0, s.dwLeftsize⟩) }

def initWRpos (s : RecvSock) (dwTranstion : DWORD) : RecvSock :=
  if dwTranstion ≤ 0 then s
  else if s.bFull then s
  else
    -- What does not fit on the right has gone to the left. A ring that is filled just to its end
    -- leaves `dwWritepos = dwBufsize`.
    let dwWritepos := if dwTranstion > s.dwRightsize then dwTranstion - s.dwRightsize
      else s.dwWritepos + dwTranstion
    { s with dwWritepos, bFull := dwWritepos == s.dwReadpos, bEmpty := false }

/-- `buf[i]` -/
def fetch (s : RecvSock) (i : ℕ) : Option Byte :=
  if i < s.dwBufsize.toNat then some (s.buf i) else none

/-- The `n` bytes that memcpy takes from `buf + off`. -/
def memcpy (s : RecvSock) (off n : ℕ) : Option (List Byte) :=
  if off+n ≤ s.dwBufsize.toNat then some ((List.range' off n).map s.buf) else none

def leWord (b₀ b₁ b₂ b₃ : Byte) : DWORD := b₃ ++ b₂ ++ b₁ ++ b₀

/-- `*(INT*)(buf + off)` -/
def fetchINT (s : RecvSock) (off : ℕ) : Option DWORD := do
  some (leWord (← s.fetch off) (← s.fetch (off+1)) (← s.fetch (off+2)) (← s.fetch (off+3)))

def csumFrom (s : RecvSock) (addr : ℕ) : ℕ → Byte → Option Byte
  | 0, sum => some sum
  | n+1, sum => do csumFrom s (addr+1) n (sum + (← s.fetch addr))

/-- `csum` takes its count as an int, so a count from 2^31 on adds nothing. -/
def csum (s : RecvSock) (addr : ℕ) (count : DWORD) : Option RecvSock := do
  let sum ← s.csumFrom addr count.toInt.toNat s.sum
  some { s with sum }

/-- GetCmdDataLength where `dwWritepos > dwReadpos`: checksum and terminator of a frame. -/
def frameContiguous (s : RecvSock) (dwFrameLen : DWORD) : Option (DWORD × RecvSock) := do
  let nSum ← s.fetch (s.dwReadpos + 6 + dwFrameLen).toNat
  let s ← s.csum (s.dwReadpos.toNat + 6) dwFrameLen
  if nSum ≠ s.sum then some (0, s.closeSock)
  else
    let tail ← s.fetch (s.dwReadpos + dwFrameLen + 7).toNat
    if 0x0d ≠ tail then some (0, s.closeSock)
    else some (dwFrameLen + 2, { s with dwReadpos := s.dwReadpos + 6 })

def cmdLengthContiguous (s : RecvSock) : Option (DWORD × RecvSock) :=
  let nDataNum := s.dwWritepos - s.dwReadpos
  if nDataNum < 6 then some (0, s)
  else do
    let m₀ ← s.fetch s.dwReadpos.toNat
    let m₁ ← s.fetch (s.dwReadpos + 1).toNat
    if m₀ ≠ 0xfb ∨ m₁ ≠ 0xfc then some (0, s.closeSock)
    else
      let dwFrameLen ← s.fetchINT (s.dwReadpos.toNat + 2)
      -- The sum is a DWORD and may wrap. Of the three paths this one alone waits in a full ring.
      if dwFrameLen + 8 > nDataNum then some (0, s)
      else s.frameContiguous dwFrameLen

/-- The six bytes of `subchar`: what is left before the end of the ring, then its start. -/
def subchar (s : RecvSock) (dwLeft : DWORD) : Option (List Byte) := do
  some ((← s.memcpy s.dwReadpos.toNat dwLeft.toNat) ++ (← s.memcpy 0 (6 - dwLeft).toNat))

def skipHeader (s : RecvSock) : RecvSock :=
  { s with dwReadpos := if s.dwReadpos + 6 > s.dwBufsize then s.dwReadpos + 6 - s.dwBufsize
      else s.dwReadpos + 6 }

/-- GetCmdDataLength where the six header bytes cross the end of the ring. -/
def frameHeaderSplit (s : RecvSock) (dwFrameLen : DWORD) : Option (DWORD × RecvSock) := do
  let dwIndex := s.dwReadpos + 6 - s.dwBufsize
  let nSum ← s.fetch (dwIndex + dwFrameLen).toNat
  let s ← s.csum dwIndex.toNat dwFrameLen
  if nSum ≠ s.sum then some (0, s.closeSock)
  else
    let tail ← s.fetch (dwIndex + dwFrameLen + 1).toNat
    if 0x0d ≠ tail then some (0, s.closeSock)
    else some (dwFrameLen + 2, s.skipHeader)

def cmdLengthHeaderSplit (s : RecvSock) : Option (DWORD × RecvSock) := do
  let dwLeft := s.dwBufsize - s.dwReadpos
  let subchar ← s.subchar dwLeft
  if subchar.getD 0 0 ≠ 0xfb ∨ subchar.getD 1 0 ≠ 0xfc then some (0, s.closeSock)
  else
    let dwFrameLen := leWord (subchar.getD 2 0) (subchar.getD 3 0) (subchar.getD 4 0)
      (subchar.getD 5 0)
    if dwFrameLen + 8 > dwLeft + s.dwWritepos then
      some (0, if s.bFull then s.closeSock else s)
    else s.frameHeaderSplit dwFrameLen

/-- `i >= dwBufsize ? i - dwBufsize : i` -/
def wrapIndex (s : RecvSock) (i : DWORD) : DWORD :=
  if i ≥ s.dwBufsize then i - s.dwBufsize else i

/-- The checksum of a payload that may cross the end of the ring. -/
def csumSplit (s : RecvSock) (dwFrameLen : DWORD) : Option RecvSock :=
  let dwLeft := s.dwBufsize - s.dwReadpos
  if dwFrameLen + 6 > dwLeft then do
    -- The two calls add up in `sum`.
    let s ← s.csum (s.dwReadpos.toNat + 6) (dwLeft - 6)
    s.csum 0 (dwFrameLen - dwLeft + 6)
  else s.csum (s.dwReadpos.toNat + 6) dwFrameLen

/-- GetCmdDataLength where the header is contiguous and the rest may cross the end. -/
def framePayloadSplit (s : RecvSock) (dwFrameLen : DWORD) : Option (DWORD × RecvSock) := do
  let nSum ← s.fetch (s.wrapIndex (s.dwReadpos + 6 + dwFrameLen)).toNat
  let s ← s.csumSplit dwFrameLen
  if nSum ≠ s.sum then some (0, s.closeSock)
  else
    let tail ← s.fetch (s.wrapIndex (s.dwReadpos + dwFrameLen + 7)).toNat
    if 0x0d ≠ tail then some (0, s.closeSock)
    else some (dwFrameLen + 2, s.skipHeader)

def cmdLengthPayloadSplit (s : RecvSock) : Option (DWORD × RecvSock) := do
  let dwLeft := s.dwBufsize - s.dwReadpos
  let m₀ ← s.fetch s.dwReadpos.toNat
  let m₁ ← s.fetch (s.dwReadpos + 1).toNat
  if m₀ ≠ 0xfb ∨ m₁ ≠ 0xfc then some (0, s.closeSock)
  else
    let dwFrameLen ← s.fetchINT (s.dwReadpos.toNat + 2)
    if dwFrameLen + 8 > dwLeft + s.dwWritepos then
      some (0, if s.bFull then s.closeSock else s)
    else s.framePayloadSplit dwFrameLen

def getCmdDataLength (s : RecvSock) : Option (DWORD × RecvSock) :=
  if s.bEmpty then some (0, s)
  else
    let s := { s with sum := 0 }
    if s.dwWritepos > s.dwReadpos then s.cmdLengthContiguous
    else if s.dwBufsize - s.dwReadpos < 6 then s.cmdLengthHeaderSplit
    else s.cmdLengthPayloadSplit

/-- `Read` returns its result, the bytes it stores from `_buf` on, and the new state. -/
def read (s : RecvSock) (dwNum : DWORD) : Option (DWORD × List Byte × RecvSock) :=
  if dwNum ≤ 0 then some (0, [], s)
  else if s.bEmpty then some (0, [], s)
  else
    let s := { s with bFull := false }
    if s.dwReadpos < s.dwWritepos then do
      let bytes ← s.memcpy s.dwReadpos.toNat dwNum.toNat
      let dwReadpos := s.dwReadpos + dwNum
      some (dwNum, bytes, { s with dwReadpos, bEmpty := dwReadpos == s.dwWritepos })
    else
      let leftcount := s.dwBufsize - s.dwReadpos
      if leftcount > dwNum then do
        let bytes ← s.memcpy s.dwReadpos.toNat dwNum.toNat
        let dwReadpos := s.dwReadpos + dwNum
        some (dwNum, bytes, { s with dwReadpos, bEmpty := dwReadpos == s.dwWritepos })
      else do
        let right ← s.memcpy s.dwReadpos.toNat leftcount.toNat
        let dwReadpos := dwNum - leftcount
        let left ← s.memcpy 0 dwReadpos.toNat
        some (leftcount + dwReadpos, right ++ left,
          { s with dwReadpos, bEmpty := dwReadpos == s.dwWritepos })

def addRef (s : RecvSock) : RecvSock := { s with nRef := s.nRef + 1 }

/-- DecRef and the bare `InterlockedDecrement(&nRef)`. -/
def decRef (s : RecvSock) : RecvSock := { s with nRef := s.nRef - 1 }

/-- `push_front` under the critical section; the result says that the list was empty. -/
def checkSend (s : RecvSock) (data : BufferObjPtr) : Bool × RecvSock :=
  (s.lstSend.isEmpty, { s with lstSend := data :: s.lstSend })

/-- `pop_back`, then the new back of the list; `none` when an empty list is popped. -/
def getNextData (s : RecvSock) : Option (Option BufferObjPtr × RecvSock) :=
  if s.lstSend.isEmpty then none
  else
    let s := { s with lstSend := s.lstSend.dropLast }
    some (s.lstSend.getLast?, s)

/-- AcceptEx stores the first bytes of the connection at `buf[0]`. Its address block lies in the
last 64 bytes of the ring, which hold nothing received yet. -/
def kernelAccept (s : RecvSock) (bytes : List Byte) : RecvSock :=
  { s with buf := Circular.writeAt s.buf (List.range' 0 bytes.length) bytes }

/-- WSARecv fills `wsabuf[0]` before `wsabuf[1]`. -/
def kernelRecv (s : RecvSock) (bytes : List Byte) : RecvSock :=
  { s with buf := Circular.writeAt s.buf (s.wsabuf.1.cells ++ s.wsabuf.2.cells) bytes }

/-- A successful AcceptEx completion up to the delivery loop. -/
def acceptFill (s : RecvSock) (bytes : List Byte) : RecvSock :=
  (s.kernelAccept bytes).initWRpos (BitVec.ofNat 32 bytes.length)

/-- Client_PostRecv, the transfer, and the completion up to the delivery loop. -/
def receive (s : RecvSock) (bytes : List Byte) : RecvSock :=
  (s.initWSABUFS.kernelRecv bytes).initWRpos (BitVec.ofNat 32 bytes.length)

/-- The space that InitWSABUFS offers to the next receive. -/
def offered (s : RecvSock) : ℕ :=
  s.initWSABUFS.dwRightsize.toNat + s.initWSABUFS.dwLeftsize.toNat

end RecvSock

end CustomersCard
