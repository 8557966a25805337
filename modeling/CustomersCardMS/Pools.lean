import CustomersCardMS.BufferObj
import CustomersCardMS.Interleaving
import CustomersCardMS.OwnerTable

/-! The four pools of objects, and the heap behind them. A pool hands out the object that came back
last, and asks the heap only when it is empty. -/
namespace CustomersCard

/-- The address of a block of the heap or of a `std::list`. -/
abbrev Addr := ℕ

inductive Kind
  | rsock
  | robj
  | bsock
  | bobj
  deriving DecidableEq

def RSOCK_SIZE_MAX : ℕ := 500
def ROBJ_SIZE_MAX : ℕ := 500
def BSOCK_SIZE_MAX : ℕ := 500
def BOBJ_SIZE_MAX : ℕ := 500

def Kind.sizeMax : Kind → ℕ
  | .rsock => RSOCK_SIZE_MAX
  | .robj => ROBJ_SIZE_MAX
  | .bsock => BSOCK_SIZE_MAX
  | .bobj => BOBJ_SIZE_MAX

/-- sizeof(RECV_OBJ) and sizeof(_buffer_scok) -/
def RECV_OBJ_SIZE : DWORD := 56
def BUFER_SOCK_SIZE : DWORD := 24

inductive PoolFault
  -- allocRSock writes `lstSend` before it looks at what HeapAlloc returned.
  | nullPointer
  -- `new std::list<BUFFER_OBJ*>` throws, and the critical section is never left.
  | badAlloc
  deriving DecidableEq

inductive PoolEvent
  | block (ch : OwnerTable.Change Addr)
  | list (ch : OwnerTable.Change Addr)
  deriving DecidableEq

/-- What HeapAlloc and `new` return. -/
structure HeapChoice where
  block : Option Addr
  list : Option Addr

structure Pools where
  -- v_RSock, v_RObj, v_BSock and v_BObj, each from its back.
  pool : Kind → List Addr
  -- What each block of the heap was allocated for, and its size in bytes.
  heap : Addr → Option (Kind × ℕ)
  -- The pointer in each RECV_SOCK, and the block that each list was made for.
  lstSend : Addr → Option Addr
  lists : Addr → Option Addr

namespace Pools

section Access

variable (m : Pools)

def setPool (k : Kind) (v : List Addr) : Pools := { m with pool := Function.update m.pool k v }

def heapAlloc (k : Kind) (p : Addr) (dwSize : DWORD) : Pools :=
  { m with heap := OwnerTable.apply (k, dwSize.toNat) m.heap (.take p) }

def heapFree (k : Kind) (p : Addr) : Pools :=
  { m with heap := OwnerTable.apply (k, 0) m.heap (.drop p) }

def newList (p l : Addr) : Pools :=
  { m with
    lstSend := Function.update m.lstSend p (some l)
    lists := OwnerTable.apply p m.lists (.take l) }

def deleteList (p l : Addr) : Pools := { m with lists := OwnerTable.apply p m.lists (.drop l) }

/-- The critical section of an allocator whose HeapAlloc may return NULL. -/
def alloc (k : Kind) (dwSize : DWORD) (ch : HeapChoice) : Pools × Option Addr × List PoolEvent :=
  match m.pool k with
  | [] =>
    match ch.block with
    | none => (m, none, [])
    | some p => (m.heapAlloc k p dwSize, some p, [.block (.take p)])
  | p :: v => (m.setPool k v, some p, [])

def allocRObj (ch : HeapChoice) : Pools × Option Addr × List PoolEvent :=
  m.alloc .robj RECV_OBJ_SIZE ch

def allocBSock (ch : HeapChoice) : Pools × Option Addr × List PoolEvent :=
  m.alloc .bsock BUFER_SOCK_SIZE ch

def allocBObj (dwSize : DWORD) (ch : HeapChoice) : Pools × Option Addr × List PoolEvent :=
  m.alloc .bobj dwSize ch

def allocRSock (dwSize : DWORD) (ch : HeapChoice) :
    Except PoolFault (Pools × Option Addr × List PoolEvent) :=
  match m.pool .rsock with
  | [] =>
    match ch.block with
    | none => .error .nullPointer
    | some pRSock =>
      match ch.list with
      | none => .error .badAlloc
      | some l =>
        .ok ((m.heapAlloc .rsock pRSock dwSize).newList pRSock l, some pRSock,
          [.block (.take pRSock), .list (.take l)])
  | pRSock :: v => .ok (m.setPool .rsock v, some pRSock, [])

def free (k : Kind) (p : Addr) : Pools × List PoolEvent :=
  if (m.pool k).length < k.sizeMax then (m.setPool k (p :: m.pool k), [])
  else (m.heapFree k p, [.block (.drop p)])

def freeRObj (pRObj : Addr) : Pools × List PoolEvent := m.free .robj pRObj

def freeBSock (pBSock : Addr) : Pools × List PoolEvent := m.free .bsock pBSock

def freeBObj (pBObj : Addr) : Pools × List PoolEvent := m.free .bobj pBObj

/-- `Clear` deletes the list unless the pointer is NULL. -/
def freeRSock (pRSock : Addr) : Pools × List PoolEvent :=
  if (m.pool .rsock).length < RSOCK_SIZE_MAX then
    (m.setPool .rsock (pRSock :: m.pool .rsock), [])
  else
    match m.lstSend pRSock with
    | none => (m.heapFree .rsock pRSock, [.block (.drop pRSock)])
    | some l =>
      ((m.deleteList pRSock l).heapFree .rsock pRSock, [.list (.drop l), .block (.drop pRSock)])

def allocate (k : Kind) (dwSize : DWORD) (ch : HeapChoice) :
    Except PoolFault (Pools × Option Addr × List PoolEvent) :=
  match k with
  | .rsock => m.allocRSock dwSize ch
  | .robj => .ok (m.allocRObj ch)
  | .bsock => .ok (m.allocBSock ch)
  | .bobj => .ok (m.allocBObj dwSize ch)

def release (k : Kind) (p : Addr) : Pools × List PoolEvent :=
  match k with
  | .rsock => m.freeRSock p
  | .robj => m.freeRObj p
  | .bsock => m.freeBSock p
  | .bobj => m.freeBObj p

end Access

/-- After InitMemory. -/
def initMemory : Pools := ⟨fun _ => [], fun _ => none, fun _ => none, fun _ => none⟩

end Pools

/-- The pools, and the fields of the objects that Init writes a size to. -/
structure Memory where
  pools : Pools
  rsock : Addr → RecvSock
  bobj : Addr → BufferObj

inductive PoolTask
  -- A thread that calls an allocator.
  | caller
  -- An allocator behind its critical section.
  | init (k : Kind) (p : Addr) (dwSize : DWORD)
  -- Whoever has the object.
  | user (k : Kind) (p : Addr)
  deriving DecidableEq

structure PoolChoice where
  kind : Kind
  dwSize : DWORD
  heap : HeapChoice
  release : Bool
  -- What the user writes to the object.
  rsock : RecvSock
  bobj : BufferObj

namespace Memory
open Interleaving

abbrev Outcome := Except PoolFault (Memory × List PoolTask × List PoolEvent)

section Access

variable (m : Memory)

/-- HEAP_ZERO_MEMORY -/
def zero (k : Kind) (p : Addr) : Memory :=
  match k with
  | .rsock => { m with rsock := Function.update m.rsock p RecvSock.zeroed }
  | .bobj => { m with bobj := Function.update m.bobj p BufferObj.zeroed }
  | _ => m

/-- Init; the other two kinds record no size. -/
def init (k : Kind) (p : Addr) (dwSize : DWORD) : Memory :=
  match k with
  | .rsock =>
    { m with rsock := Function.update m.rsock p ((m.rsock p).init (dwSize - RECV_SOCK_SIZE)) }
  | .bobj =>
    { m with bobj := Function.update m.bobj p ((m.bobj p).init (dwSize - BUFFER_OBJ_SIZE)) }
  | _ => m

/-- Users write everything but the size. -/
def write (k : Kind) (p : Addr) (ch : PoolChoice) : Memory :=
  match k with
  | .rsock =>
    { m with
      rsock := Function.update m.rsock p { ch.rsock with dwBufsize := (m.rsock p).dwBufsize } }
  | .bobj =>
    { m with bobj := Function.update m.bobj p { ch.bobj with datalen := (m.bobj p).datalen } }
  | _ => m

end Access

def step (m : Memory) : PoolTask → PoolChoice → Outcome
  | .caller, ch =>
    match m.pools.allocate ch.kind ch.dwSize ch.heap with
    | .error f => .error f
    | .ok (pools, none, evs) => .ok ({ m with pools }, [.caller], evs)
    | .ok (pools, some p, evs) =>
      let m := if m.pools.pool ch.kind = [] then m.zero ch.kind p else m
      .ok ({ m with pools }, [.caller, .init ch.kind p ch.dwSize], evs)
  | .init k p dwSize, _ => .ok (m.init k p dwSize, [.user k p], [])
  | .user k p, ch =>
    if ch.release then
      let r := m.pools.release k p
      .ok ({ m with pools := r.1 }, [], r.2)
    else .ok (m.write k p ch, [.user k p], [])

/-- The size of an object without its data. -/
def headerSize : Kind → DWORD
  | .rsock => RECV_SOCK_SIZE
  | .bobj => BUFFER_OBJ_SIZE
  | _ => 0

/-- Heap allocations succeed, with blocks that are not in use, and no size is smaller than the
header. -/
def machine : Machine Memory PoolTask PoolChoice PoolEvent PoolFault where
  step := step
  allowed m ch := (∃ p ∈ ch.heap.block, m.pools.heap p = none) ∧
    (∃ l ∈ ch.heap.list, m.pools.lists l = none) ∧ headerSize ch.kind ≤ ch.dwSize

def start (rsock : Addr → RecvSock) (bobj : Addr → BufferObj) : Conf Memory PoolTask :=
  ⟨⟨Pools.initMemory, rsock, bobj⟩, [.caller]⟩

end Memory

end CustomersCard
