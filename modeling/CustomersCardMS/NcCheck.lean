import CustomersCardMS.BufferObj
import CustomersCardMS.TextSearch

namespace CustomersCard

/-- "\r\n\r\n", "\r\n" and "Content-Length: ". -/
def headerEnd : List Byte := [0x0d, 0x0a, 0x0d, 0x0a]

def crlf : List Byte := [0x0d, 0x0a]

def contentLength : List Byte :=
  [0x43, 0x6f, 0x6e, 0x74, 0x65, 0x6e, 0x74, 0x2d, 0x4c, 0x65, 0x6e, 0x67, 0x74, 0x68, 0x3a, 0x20]

def isNul (b : Byte) : Bool := b == 0

def toLower (b : Byte) : Byte := if 0x41 ≤ b ∧ b ≤ 0x5a then b + 0x20 else b

def sameLetter (a b : Byte) : Bool := toLower a == toLower b

/-- The result is the offset of the first occurrence, or NULL at the end of the string; `none` where
neither comes before the end of `text`. -/
def strstr (text pat : List Byte) : Option (Option ℕ) :=
  TextSearch.scan (fun a b => a == b) isNul pat text

def strStrI (text pat : List Byte) : Option (Option ℕ) := TextSearch.scan sameLetter isNul pat text

def isDigit (b : Byte) : Bool := 0x30 ≤ b && b ≤ 0x39

def isSpace (b : Byte) : Bool := b == 0x20 || (0x09 ≤ b && b ≤ 0x0d)

/-- `_tstoi` on an array: `none` where no byte of it ends the number. -/
def atoiDigits (n : ℕ) : List Byte → Option ℕ
  | [] => none
  | b :: bs => if isDigit b then atoiDigits (10*n+(b.toNat-0x30)) bs else some n

def atoi : List Byte → Option ℤ
  | [] => none
  | b :: bs =>
    if isSpace b then atoi bs
    else if b = 0x2d then (atoiDigits 0 bs).map fun n => -(n : ℤ)
    else if b = 0x2b then (atoiDigits 0 bs).map fun n => (n : ℤ)
    else (atoiDigits 0 (b :: bs)).map fun n => (n : ℤ)

/-- `TCHAR Length[8]` -/
def LENGTH_SIZE : ℕ := 8

/-- `memcpy_s(Length, sizeof(Length), src, count)` on zeros. A negative count is a huge one, and
`none` is the invalid parameter handler. -/
def memcpyLength (src : List Byte) (count : ℤ) : Option (List Byte) :=
  if 0 ≤ count ∧ count ≤ LENGTH_SIZE then
    some (src.take count.toNat ++ List.replicate (LENGTH_SIZE-count.toNat) 0)
  else none

inductive NcFault
  -- A search or `_tstoi` runs off the array that it reads.
  | overrun
  | invalidParameter
  deriving DecidableEq

inductive NcDecision
  | wait
  | complete (headerLen : ℕ)
  | close
  deriving DecidableEq

namespace BufferObj

/-- `data[off..]` to the end of the block. It goes on behind `data[datalen]`, as the object does. -/
def dataBlock (b : BufferObj) (off : ℕ) : List Byte :=
  (List.range' off (b.dataRoom-off)).map b.data

/-- The end of CheckNCData: `Length`, and the comparison with what was received. -/
def compareLength (b : BufferObj) (headerLen : ℕ) (pLength : List Byte) (nLengthLen : ℤ) :
    Except NcFault NcDecision :=
  match memcpyLength pLength nLengthLen with
  | none => .error .invalidParameter
  | some length =>
    match atoi length with
    | none => .error .overrun
    | some len =>
      -- The source computes with int, and a length below zero is allowed.
      if headerLen + len > b.dwRecvedCount.toInt then .ok .wait
      else if headerLen + len = b.dwRecvedCount.toInt then .ok (.complete headerLen)
      else .ok .close

/-- What CheckNCData decides. Each search goes on from where the last one found something. -/
def ncDecision (b : BufferObj) : Except NcFault NcDecision :=
  match strstr (b.dataBlock 0) headerEnd with
  | none => .error .overrun
  | some none => .ok .wait
  | some (some pHeader) =>
    match strStrI (b.dataBlock 0) contentLength with
    | none => .error .overrun
    | some none => .ok .wait
    | some (some pContentLength) =>
      match strstr (b.dataBlock pContentLength) crlf with
      | none => .error .overrun
      | some none => .ok .wait
      | some (some n) =>
        b.compareLength (pHeader+4) (b.dataBlock (pContentLength+16)) (n-16)

/-- CMCloseSocket takes what it is passed for a KEY_VALUE, whose `sock` lies where a BUFFER_OBJ has
the InternalHigh of its OVERLAPPED. -/
def cmCloseSocket (b : BufferObj) : BufferObj × Option SOCKET :=
  if b.ol.internalHigh ≠ INVALID_SOCKET then
    ({ b with ol := { b.ol with internalHigh := INVALID_SOCKET } }, some b.ol.internalHigh)
  else (b, none)

/-- The result of CheckNCData, the object it leaves, and the handle that it closes. -/
def checkNCData (b : BufferObj) : Except NcFault (ℕ × BufferObj × Option SOCKET) :=
  match b.ncDecision with
  | .error f => .error f
  | .ok .wait => .ok (0, b, none)
  | .ok (.complete headerLen) => .ok (headerLen, b, none)
  | .ok .close => .ok (0, b.cmCloseSocket)

end BufferObj

end CustomersCard
