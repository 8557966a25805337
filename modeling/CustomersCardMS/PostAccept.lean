import CustomersCardMS.PendingMap
import CustomersCardMS.PoolSafety

namespace CustomersCard
open Interleaving

structure Acceptor where
  pools : Pools
  listener : Listener
  g_dwPagesize : DWORD

/-- What HeapAlloc, `new`, socket(), GetRand and AcceptEx return. -/
structure PostChoice where
  obj : HeapChoice
  sock : HeapChoice
  socket : SOCKET
  rand : ℕ
  pending : Bool

/-- An object that an allocator handed out, or that was given back. -/
abbrev Handover := OwnerTable.Change (Kind × Addr)

abbrev PostOutcome := Except PoolFault (Acceptor × Bool × List Handover)

namespace Server

def objKind : Server → Kind
  | .client => .robj
  | .nc => .bobj

def sockKind : Server → Kind
  | .client => .rsock
  | .nc => .bsock

end Server

namespace Acceptor

section Access

variable (a : Acceptor)

def allocObj (k : Kind) (dwSize : DWORD) (ch : HeapChoice) :
    Except PoolFault (Acceptor × Option ObjPtr) :=
  match a.pools.allocate k dwSize ch with
  | .error f => .error f
  | .ok (pools, none, _) => .ok ({ a with pools }, none)
  | .ok (pools, some pObj, _) =>
    .ok ({ a with pools, listener := a.listener.allocObj pObj }, some pObj)

/-- The memory of a block that is new is zero. -/
def zeroed (k : Kind) (pSock : SockPtr) : Listener :=
  if a.pools.pool k = [] then a.listener.setSock pSock ⟨0, 0⟩ else a.listener

def allocSock (k : Kind) (dwSize : DWORD) (ch : HeapChoice) :
    Except PoolFault (Acceptor × Option SockPtr) :=
  match a.pools.allocate k dwSize ch with
  | .error f => .error f
  | .ok (pools, none, _) => .ok ({ a with pools }, none)
  | .ok (pools, some pSock, _) =>
    -- `lstSend->clear()`
    if k = .rsock ∧ pools.lstSend pSock = none then .error .nullPointer
    else .ok ({ a with pools, listener := (a.zeroed k pSock).allocSock pSock }, some pSock)

def freeObj (k : Kind) (pObj : ObjPtr) : Acceptor :=
  { a with pools := (a.pools.release k pObj).1, listener := a.listener.freeObj pObj }

def freeSock (k : Kind) (pSock : SockPtr) : Acceptor :=
  { a with pools := (a.pools.release k pSock).1, listener := a.listener.freeSock pSock }

def setListener (listener : Listener) : Acceptor := { a with listener }

end Access

/-- The two servers differ in the kinds and sizes of their objects and in their handlers. -/
def postAcceptEx (server : Server) (kObj kSock : Kind) (dwObj dwSock : DWORD) (a : Acceptor)
    (ch : PostChoice) : PostOutcome :=
  match a.allocObj kObj dwObj ch.obj with
  | .error f => .error f
  | .ok (a, none) => .ok (a, false, [])
  | .ok (a, some pObj) =>
    match a.allocSock kSock dwSock ch.sock with
    | .error f => .error f
    | .ok (a, none) =>
      .ok (a.freeObj kObj pObj, false, [.take (kObj, pObj), .drop (kObj, pObj)])
    | .ok (a, some pSock) =>
      let taken : List Handover := [.take (kObj, pObj), .take (kSock, pSock)]
      let given : List Handover := [.drop (kObj, pObj), .drop (kSock, pSock)]
      if ch.socket = INVALID_SOCKET then
        .ok ((a.freeObj kObj pObj).freeSock kSock pSock, false, taken ++ given)
      else
        let l := (a.listener.openSocket pSock ch.socket).announce server pObj pSock ch.rand
        if ch.pending then .ok (a.setListener l, true, taken)
        else
          let a := a.setListener ((l.deleteFromPendingMap pSock).cmCloseSocket pSock)
          .ok ((a.freeObj kObj pObj).freeSock kSock pSock, false, taken ++ given)

def clientPostAcceptEx (a : Acceptor) (ch : PostChoice) : PostOutcome :=
  postAcceptEx .client .robj .rsock RECV_OBJ_SIZE (a.g_dwPagesize * 8) a ch

def ncPostAcceptEx (a : Acceptor) (ch : PostChoice) : PostOutcome :=
  postAcceptEx .nc .bobj .bsock a.g_dwPagesize BUFER_SOCK_SIZE a ch

/-- fpAcceptex -/
def post (a : Acceptor) (server : Server) (ch : PostChoice) : PostOutcome :=
  match server with
  | .client => a.clientPostAcceptEx ch
  | .nc => a.ncPostAcceptEx ch

/-- Nothing is left of a call but the memory that the pools have got. -/
structure Undone (a a' : Acceptor) (moved : List Handover) : Prop where
  pendingMap : a'.listener.acceptPendingMap = a.listener.acceptPendingMap
  opened : a'.listener.opened.Sublist a.listener.opened
  objs : a'.listener.objs = a.listener.objs
  socks : a'.listener.socks = a.listener.socks
  once : ∀ r, moved.count (.drop r) = moved.count (.take r) ∧ moved.count (.take r) ≤ 1

end Acceptor

namespace Pools

section Next

variable {m : Pools} {k : Kind} {p : Addr} {ch : HeapChoice} {dwSize : DWORD}

/-- There is a RECV_SOCK with a list, in the pool or to be made. -/
def sockReady (m : Pools) (ch : HeapChoice) : Bool :=
  match m.pool .rsock with
  | [] => ch.block.isSome && ch.list.isSome
  | p :: _ => (m.lstSend p).isSome

theorem alloc_none (h : m.next k ch = none) : m.alloc k dwSize ch = (m, none, []) := by
  unfold next at h
  unfold alloc
  cases hpool : m.pool k with
  | nil =>
    rw [hpool] at h
    dsimp only at h
    rw [h]
  | cons q v =>
    rw [hpool] at h
    contradiction

theorem allocate_none (hk : k ≠ .rsock) (h : m.next k ch = none) :
    m.allocate k dwSize ch = .ok (m, none, []) := by
  cases k with
  | rsock => contradiction
  | robj | bsock | bobj => exact congrArg Except.ok (alloc_none h)

/-- The other pools stay as they are, and so do the lists unless it is a RECV_SOCK that is new. -/
theorem Takes.others {m' : Pools} {es : List PoolEvent} {k' : Kind}
    (h : Takes m ch p k dwSize m' es) (hk : k' ≠ k) : m'.pool k' = m.pool k' := by
  cases h with
  | reuse v => exact Function.update_of_ne hk ..
  | fresh | freshSock => rfl

theorem Takes.lstSend {m' : Pools} {es : List PoolEvent} (h : Takes m ch p k dwSize m' es)
    (hk : k ≠ .rsock) : m'.lstSend = m.lstSend := by
  cases h with
  | reuse v | fresh => rfl
  | freshSock => contradiction

/-- allocRSock either faults or hands out a RECV_SOCK with a list. -/
theorem sockReady_next (h : m.sockReady ch = true) : ∃ p, m.next .rsock ch = some p ∧
    (m.pool .rsock = [] → ch.list.isSome = true) := by
  unfold sockReady at h
  unfold next
  cases hpool : m.pool .rsock with
  | nil =>
    rw [hpool] at h
    obtain ⟨hblock, hlist⟩ := (Bool.and_eq_true _ _).mp h
    obtain ⟨p, hp⟩ := Option.isSome_iff_exists.mp hblock
    exact ⟨p, hp, fun _ => hlist⟩
  | cons p v => exact ⟨p, rfl, nofun⟩

theorem sockReady_list {m' : Pools} {es : List PoolEvent} (h : m.sockReady ch = true)
    (htakes : Takes m ch p .rsock dwSize m' es) : m'.lstSend p ≠ none := by
  intro hnull
  unfold sockReady at h
  cases htakes with
  | reuse v hpool =>
    change m.lstSend p = none at hnull
    rw [hpool] at h
    dsimp only at h
    rw [hnull] at h
    contradiction
  | fresh => contradiction
  | freshSock l =>
    change Function.update m.lstSend p (some l) p = none at hnull
    rw [Function.update_self] at hnull
    contradiction

theorem allocRSock_unready (dwSize : DWORD) (h : m.sockReady ch = false) :
    (∃ f, m.allocRSock dwSize ch = .error f) ∨
      ∃ p m' es, m.allocRSock dwSize ch = .ok (m', some p, es) ∧ m'.lstSend p = none := by
  unfold sockReady at h
  unfold allocRSock
  cases hpool : m.pool .rsock with
  | nil =>
    rw [hpool] at h
    dsimp only at h
    left
    cases hblock : ch.block with
    | none => exact ⟨_, rfl⟩
    | some p =>
      rw [hblock, Option.isSome_some, Bool.true_and] at h
      rw [Option.isSome_eq_false_iff, Option.isNone_iff_eq_none] at h
      rw [h]
      exact ⟨_, rfl⟩
  | cons p v =>
    rw [hpool] at h
    dsimp only at h
    rw [Option.isSome_eq_false_iff, Option.isNone_iff_eq_none] at h
    exact Or.inr ⟨p, _, _, rfl, h⟩

variable {evs : List PoolEvent} {ts : List PoolTask}

theorem Sound.pooled_known (h : Sound evs m ts) (hp : p ∈ m.pool k) :
    ∃ n, m.heap p = some (k, n) := by
  apply (h.owned.known k p).mp
  exact List.mem_append_left _ (mem_pooled.mpr hp)

/-- What is handed out is not in use. -/
theorem Sound.next_unused (h : Sound evs m ts) (hfresh : m.Fresh ch)
    (hnext : m.next k ch = some p) : ∀ t ∈ ts, ∀ o ∈ t.objs, o.2 ≠ p := by
  intro t ht o ho heq
  have hmem : o ∈ ts.flatMap PoolTask.objs := List.mem_flatMap_of_mem ht ho
  unfold next at hnext
  cases hpool : m.pool k with
  | nil =>
    rw [hpool] at hnext
    obtain ⟨n, hn⟩ := (h.owned.known o.1 o.2).mp (List.mem_append_right _ hmem)
    rw [heq, hfresh.block p hnext] at hn
    contradiction
  | cons q v =>
    rw [hpool] at hnext
    cases hnext
    have hpooled : (k, p) ∈ m.pooled := by
      rw [mem_pooled, hpool]
      exact List.mem_cons_self
    have hdistinct := h.owned.distinct
    rw [List.map_append, List.nodup_append] at hdistinct
    have hleft : p ∈ m.pooled.map Prod.snd := List.mem_map.mpr ⟨_, hpooled, rfl⟩
    have hright : p ∈ (ts.flatMap PoolTask.objs).map Prod.snd := List.mem_map.mpr ⟨o, hmem, heq⟩
    exact hdistinct.2.2 p hleft p hright rfl

/-- Every RECV_SOCK in the pool has its list. -/
theorem Sound.sockReady_iff (h : Sound evs m ts) : m.sockReady ch = true ↔
    (m.pool .rsock = [] → ch.block.isSome = true ∧ ch.list.isSome = true) := by
  unfold sockReady
  cases hpool : m.pool .rsock with
  | nil =>
    dsimp only
    rw [Bool.and_eq_true]
    constructor
    · intro hboth _
      exact hboth
    · intro hboth
      exact hboth rfl
  | cons p v =>
    have hmem : p ∈ m.pool .rsock := by
      rw [hpool]
      exact List.mem_cons_self
    obtain ⟨n, hn⟩ := h.pooled_known hmem
    obtain ⟨l, hlst, _⟩ := h.ofBlock p n hn
    dsimp only
    rw [hlst]
    constructor
    · intro _ hnil
      contradiction
    · intro _
      rfl

end Next

end Pools

namespace Acceptor

section Call

variable {a a' : Acceptor} {server : Server} {ch : PostChoice} {k : Kind} {dwSize : DWORD}
  {c : HeapChoice} {p : Addr}

/-- Everything that allocRObj and allocBObj can do. -/
inductive ObjAnswer (a : Acceptor) (k : Kind) (c : HeapChoice) :
    Except PoolFault (Acceptor × Option ObjPtr) → Prop
  | none : a.pools.next k c = none → ObjAnswer a k c (.ok (a, none))
  | some {dwSize : DWORD} (p : Addr) (pools : Pools) (es : List PoolEvent) :
      a.pools.next k c = some p → Pools.Takes a.pools c p k dwSize pools es →
      ObjAnswer a k c (.ok ({ a with pools, listener := a.listener.allocObj p }, some p))

/-- Everything that allocRSock and allocBSock can do. -/
inductive SockAnswer (a : Acceptor) (k : Kind) (c : HeapChoice) :
    Except PoolFault (Acceptor × Option SockPtr) → Prop
  | fault (f : PoolFault) : k = .rsock → a.pools.sockReady c = false → SockAnswer a k c (.error f)
  | none : k ≠ .rsock → a.pools.next k c = none → SockAnswer a k c (.ok (a, none))
  | some {dwSize : DWORD} (p : Addr) (pools : Pools) (es : List PoolEvent) :
      (k = .rsock → a.pools.sockReady c = true) → a.pools.next k c = some p →
      Pools.Takes a.pools c p k dwSize pools es →
      SockAnswer a k c (.ok ({ a with pools, listener := (a.zeroed k p).allocSock p }, some p))

theorem allocObj_answer (dwSize : DWORD) (hk : k ≠ .rsock) :
    ObjAnswer a k c (a.allocObj k dwSize c) := by
  unfold allocObj
  cases hnext : a.pools.next k c with
  | none =>
    rw [Pools.allocate_none hk hnext]
    exact ObjAnswer.none hnext
  | some p =>
    obtain ⟨pools, es, heq, htakes⟩ := Pools.allocate_takes dwSize hnext fun h => absurd h hk
    rw [heq]
    exact ObjAnswer.some p pools es hnext htakes

theorem allocSock_answer (dwSize : DWORD) : SockAnswer a k c (a.allocSock k dwSize c) := by
  unfold allocSock
  by_cases hk : k = .rsock
  · rw [hk]
    have hsock : a.pools.allocate .rsock dwSize c = a.pools.allocRSock dwSize c := rfl
    rw [hsock]
    cases hready : a.pools.sockReady c with
    | true =>
      obtain ⟨p, hnext, hlist⟩ := Pools.sockReady_next hready
      obtain ⟨pools, es, heq, htakes⟩ := Pools.allocRSock_takes dwSize hnext hlist
      rw [heq]
      dsimp only
      rw [if_neg fun h => Pools.sockReady_list hready htakes h.2]
      exact SockAnswer.some p pools es (fun _ => hready) hnext htakes
    | false =>
      rcases Pools.allocRSock_unready dwSize hready with
        ⟨f, heq⟩ | ⟨p, pools, es, heq, hlst⟩
      · rw [heq]
        exact SockAnswer.fault f rfl hready
      · rw [heq]
        dsimp only
        rw [if_pos ⟨rfl, hlst⟩]
        exact SockAnswer.fault .nullPointer rfl hready
  · cases hnext : a.pools.next k c with
    | none =>
      rw [Pools.allocate_none hk hnext]
      exact SockAnswer.none hk hnext
    | some p =>
      obtain ⟨pools, es, heq, htakes⟩ := Pools.allocate_takes dwSize hnext fun h => absurd h hk
      rw [heq]
      dsimp only
      rw [if_neg fun h => hk h.1]
      exact SockAnswer.some p pools es (fun h => absurd h hk) hnext htakes

/-- What the call gets, as the listener sees it. -/
def answers (a : Acceptor) (server : Server) (ch : PostChoice) : AcceptChoice where
  server := server
  pObj := a.pools.next server.objKind ch.obj
  pSock := a.pools.next server.sockKind ch.sock
  socket := ch.socket
  rand := ch.rand
  pending := ch.pending
  release := false

/-- No step of the call fails. -/
def succeeds (a : Acceptor) (server : Server) (ch : PostChoice) : Bool :=
  Listener.AcceptChoice.inserts (a.answers server ch) && ch.pending

/-- The call returns, and if one of its steps fails it returns false and leaves nothing behind. -/
def AtomicOnFailure (a : Acceptor) (server : Server) (ch : PostChoice) (r : PostOutcome) : Prop :=
  ∃ a' posted moved, r = .ok (a', posted, moved) ∧ posted = a.succeeds server ch ∧
    (a.succeeds server ch = false → Undone a a' moved)

/-- The listener, with the memory of the new blocks. -/
def prepared (a : Acceptor) (server : Server) (ch : PostChoice) : Listener :=
  match a.pools.next server.objKind ch.obj, a.pools.next server.sockKind ch.sock with
  | some _, some p => a.zeroed server.sockKind p
  | _, _ => a.listener

/-- The client's call needs a RECV_SOCK once it has a RECV_OBJ. -/
def Ready (a : Acceptor) (server : Server) (ch : PostChoice) : Prop :=
  server = .client → (a.pools.next .robj ch.obj).isSome = true → a.pools.sockReady ch.sock = true

/-- Each object that is taken is given back once. -/
def Balanced (moved : List Handover) : Prop :=
  ∀ r, moved.count (.drop r) = moved.count (.take r) ∧ moved.count (.take r) ≤ 1

/-- The call faults, or it is a call on the listener with what the pools hand out. -/
inductive Refines (a : Acceptor) (server : Server) (ch : PostChoice) : PostOutcome → Prop
  | fault (f : PoolFault) : ¬a.Ready server ch → Refines a server ch (.error f)
  | call {a' : Acceptor} {posted : Bool} {moved : List Handover} (new : List ListenTask)
      (es : List ListenEvent) : a.Ready server ch →
      (a.prepared server ch).postAcceptEx (a.answers server ch) = .ok (a'.listener, new, es) →
      (.returns posted ∈ es ∧ .returns (!posted) ∉ es) → (posted = false → Balanced moved) →
      Refines a server ch (.ok (a', posted, moved))

theorem objKind_ne (server : Server) : server.objKind ≠ .rsock := by
  cases server <;> decide

theorem sockKind_ne (server : Server) : server.sockKind ≠ server.objKind := by
  cases server <;> decide

theorem taken_balanced {k' : Kind} (hne : k' ≠ k) (p p' : Addr) :
    Balanced [.take (k, p), .take (k', p'), .drop (k, p), .drop (k', p')] := by
  intro r
  have hdistinct : (k, p) ≠ (k', p') := fun heq => hne (Prod.mk.inj heq).1.symm
  simp only [List.count_cons, List.count_nil, beq_iff_eq, OwnerTable.Change.take.injEq,
    OwnerTable.Change.drop.injEq, reduceCtorEq, if_false]
  by_cases hr : (k, p) = r
  · rw [← hr]
    simp [hdistinct.symm]
  · by_cases hr' : (k', p') = r
    · simp [hr, hr']
    · simp [hr, hr']

theorem one_balanced (r : Kind × Addr) : Balanced [.take r, .drop r] := by
  intro q
  rcases eq_or_ne r q with rfl | hne
  · simp
  · simp [hne]

theorem next_congr {m m' : Pools} (h : m'.pool k = m.pool k) : m'.next k c = m.next k c := by
  unfold Pools.next
  rw [h]

theorem sockReady_congr {m m' : Pools} (h : m'.pool .rsock = m.pool .rsock)
    (hlst : m'.lstSend = m.lstSend) : m'.sockReady c = m.sockReady c := by
  unfold Pools.sockReady
  rw [h, hlst]

theorem allocObj_zeroed {pools : Pools} {pObj : ObjPtr} (h : pools.pool k = a.pools.pool k) :
    zeroed { a with pools, listener := a.listener.allocObj pObj } k p =
      (a.zeroed k p).allocObj pObj := by
  unfold zeroed
  rw [h]
  split
  · rfl
  · rfl

theorem ready_iff {server : Server} (h : a.pools.next server.objKind ch.obj = some p) :
    a.Ready server ch ↔ (server.sockKind = .rsock → a.pools.sockReady ch.sock = true) := by
  cases server with
  | client =>
    have hobj : (a.pools.next .robj ch.obj).isSome = true := Option.isSome_iff_exists.mpr ⟨p, h⟩
    constructor
    · intro hready _
      exact hready rfl hobj
    · intro hready _ _
      exact hready rfl
  | nc =>
    constructor
    · intro _ hk
      contradiction
    · intro _ hserver
      contradiction

theorem postAcceptEx_refines (server : Server) (dwObj dwSock : DWORD) :
    Refines a server ch
      (postAcceptEx server server.objKind server.sockKind dwObj dwSock a ch) := by
  unfold postAcceptEx
  have hobj := allocObj_answer (a := a) (c := ch.obj) dwObj (objKind_ne server)
  generalize a.allocObj server.objKind dwObj ch.obj = robj at hobj
  cases hobj with
  | none hnext =>
    apply Refines.call [.acceptex] [.returns false]
    · intro hserver hsome
      rw [hserver] at hnext
      change a.pools.next .robj ch.obj = none at hnext
      rw [hnext] at hsome
      contradiction
    · unfold Listener.postAcceptEx answers prepared
      rw [hnext]
    · decide
    · intro _ r
      exact ⟨rfl, Nat.zero_le _⟩
  | some pObj pools es hnext htakes =>
    have hlst := htakes.lstSend (objKind_ne server)
    dsimp only
    have hsock := allocSock_answer (k := server.sockKind) (c := ch.sock)
      (a := { a with pools, listener := a.listener.allocObj pObj }) dwSock
    have hpool := htakes.others (sockKind_ne server)
    generalize allocSock { a with pools, listener := a.listener.allocObj pObj } server.sockKind
      dwSock ch.sock = rsock at hsock
    cases hsock with
    -- allocRSock writes to NULL.
    | fault f hk hready =>
      rw [sockReady_congr (hk ▸ hpool) hlst] at hready
      apply Refines.fault
      rw [ready_iff hnext]
      intro h
      rw [h hk] at hready
      contradiction
    | none hk hnone =>
      rw [next_congr hpool] at hnone
      apply Refines.call [.acceptex] [.freeObj pObj, .returns false]
      · rw [ready_iff hnext]
        intro h
        contradiction
      · unfold Listener.postAcceptEx answers prepared
        rw [hnext, hnone]
        cases server with
        | client => contradiction
        | nc => rfl
      · exact ⟨by simp, by simp⟩
      · intro _
        exact one_balanced (server.objKind, pObj)
    | some pSock pools' es' hready hsome htakes' =>
      rw [next_congr hpool] at hsome
      have hcall : a.Ready server ch := by
        rw [ready_iff hnext]
        intro hk
        rw [← sockReady_congr (hk ▸ hpool) hlst]
        exact hready hk
      rw [allocObj_zeroed hpool]
      dsimp only
      split
      -- socket() fails: both objects go back.
      · case isTrue hinvalid =>
        apply Refines.call [.acceptex]
          [.freeObj pObj, .freeSock pSock, .returns false] hcall
        · unfold Listener.postAcceptEx answers prepared
          rw [hnext, hsome]
          exact if_pos hinvalid
        · exact ⟨by simp, by simp⟩
        · intro _
          exact taken_balanced (sockKind_ne server) pObj pSock
      · case isFalse hvalid =>
        split
        · case isTrue hpending =>
          apply Refines.call [.acceptex, .accept pObj] [.returns true] hcall
          · unfold Listener.postAcceptEx answers prepared
            rw [hnext, hsome]
            dsimp only
            rw [if_neg hvalid, if_pos hpending]
            rfl
          · exact ⟨by simp, by simp⟩
          · intro h
            contradiction
        -- AcceptEx fails: the entry, the handle and both objects go.
        · case isFalse hpending =>
          apply Refines.call [.acceptex]
            [.closesocket ch.socket, .freeObj pObj, .freeSock pSock, .returns false] hcall
          · unfold Listener.postAcceptEx answers prepared
            rw [hnext, hsome]
            dsimp only
            rw [if_neg hvalid, if_neg hpending]
            rfl
          · exact ⟨by simp, by simp⟩
          · intro _
            exact taken_balanced (sockKind_ne server) pObj pSock

theorem post_refines : Refines a server ch (a.post server ch) := by
  cases server with
  | client => exact postAcceptEx_refines .client RECV_OBJ_SIZE (a.g_dwPagesize * 8)
  | nc => exact postAcceptEx_refines .nc a.g_dwPagesize BUFER_SOCK_SIZE

theorem zeroed_left : Listener.Left a.listener (a.zeroed k p) ∧
    (a.zeroed k p).acceptPendingMap = a.listener.acceptPendingMap := by
  unfold zeroed
  split
  · exact ⟨⟨List.Sublist.refl _, rfl, rfl⟩, rfl⟩
  · exact ⟨⟨List.Sublist.refl _, rfl, rfl⟩, rfl⟩

theorem prepared_left : Listener.Left a.listener (a.prepared server ch) ∧
    (a.prepared server ch).acceptPendingMap = a.listener.acceptPendingMap := by
  unfold prepared
  split
  · exact zeroed_left
  · exact ⟨⟨List.Sublist.refl _, rfl, rfl⟩, rfl⟩

/-- AcceptEx is called, and it fails at once. -/
def refused (a : Acceptor) (server : Server) (ch : PostChoice) : Bool :=
  Listener.AcceptChoice.inserts (a.answers server ch) && !ch.pending

/-- How the failed call ends, but for the map. -/
theorem Undone.of_left {moved : List Handover}
    (h : Listener.Left (a.prepared server ch) a'.listener) (hmoved : Balanced moved)
    (hmap : a'.listener.acceptPendingMap = a.listener.acceptPendingMap) : Undone a a' moved := by
  have hprepared : Listener.Left a.listener (a.prepared server ch) := prepared_left.1
  constructor
  · exact hmap
  · exact h.opened.trans hprepared.opened
  · exact h.objs.trans hprepared.objs
  · exact h.socks.trans hprepared.socks
  · exact hmoved

theorem call_atomic_iff {posted : Bool} {moved : List Handover} {new : List ListenTask}
    {es : List ListenEvent}
    (h : (a.prepared server ch).postAcceptEx (a.answers server ch) = .ok (a'.listener, new, es))
    (hreturns : .returns posted ∈ es ∧ .returns (!posted) ∉ es)
    (hmoved : posted = false → Balanced moved) :
    AtomicOnFailure a server ch (.ok (a', posted, moved)) ↔
      (a.refused server ch = true → a.listener.acceptPendingMap ch.rand = none) := by
  have hprepared : (a.prepared server ch).acceptPendingMap = a.listener.acceptPendingMap :=
    prepared_left.2
  have hfailed (hfalse : .returns false ∈ es) : posted = false := by
    cases posted with
    | false => rfl
    | true => exact absurd hfalse hreturns.2
  unfold AtomicOnFailure succeeds refused
  cases Listener.postAcceptEx_calls h with
  | fails _ hinserts _ hmap hleft hfalse =>
    rw [hinserts]
    constructor
    · intro _ hrefused
      contradiction
    · intro _
      refine ⟨a', posted, moved, rfl, hfailed hfalse, ?_⟩
      intro _
      exact Undone.of_left hleft (hmoved (hfailed hfalse)) (hmap.trans hprepared)
  | undone _ hinserts hpending _ hmap hleft hfalse =>
    rw [hinserts, show ch.pending = false from hpending]
    have herased : a'.listener.acceptPendingMap =
        Function.update a.listener.acceptPendingMap ch.rand none := by
      rw [← hprepared]
      exact hmap
    constructor
    · rintro ⟨_, _, _, heq, _, hundone⟩ _
      cases heq
      rw [← (hundone rfl).pendingMap, herased]
      exact Function.update_self ..
    · intro hnone
      refine ⟨a', posted, moved, rfl, hfailed hfalse, ?_⟩
      intro _
      apply Undone.of_left hleft (hmoved (hfailed hfalse))
      rw [herased, ← hnone rfl]
      exact Function.update_eq_self ..
  | posted pObj pSock hinserts hpending =>
    rw [hinserts, show ch.pending = true from hpending]
    constructor
    · intro _ hrefused
      contradiction
    · intro _
      refine ⟨a', posted, moved, rfl, ?_, ?_⟩
      · cases posted with
        | true => rfl
        | false => exact absurd (List.mem_singleton_self _) hreturns.2
      · intro hfalse
        contradiction

end Call

/-- A call that fails is undone unless allocRSock has no memory for the RECV_SOCK, which it writes
to, or AcceptEx fails under a key that another socket has in the map, whose entry is erased. -/
theorem post_accept_atomic_iff (a : Acceptor) (server : Server) (ch : PostChoice) :
    AtomicOnFailure a server ch (a.post server ch) ↔ a.Ready server ch ∧
      (a.refused server ch = true → a.listener.acceptPendingMap ch.rand = none) := by
  have hrefines : Refines a server ch (a.post server ch) := post_refines
  cases hpost : a.post server ch with
  | error f =>
    rw [hpost] at hrefines
    cases hrefines with
    | fault f hready =>
      constructor
      · rintro ⟨_, _, _, heq, _⟩
        contradiction
      · intro h
        exact absurd h.1 hready
  | ok r =>
    rw [hpost] at hrefines
    cases hrefines with
    | call new es hready hcall hreturns hmoved =>
      rw [call_atomic_iff hcall hreturns hmoved]
      constructor
      · intro h
        exact ⟨hready, h⟩
      · intro h
        exact h.2

section Sound

variable {evs : List PoolEvent} {ts : List PoolTask} {a a' : Acceptor} {server : Server}
  {ch : PostChoice} {posted : Bool} {moved : List Handover}

/-- The heap does not hand out one block twice. -/
structure FreshHeap (m : Pools) (ch : PostChoice) : Prop where
  obj : m.Fresh ch.obj
  sock : m.Fresh ch.sock
  apart : ∀ p ∈ ch.sock.block, ch.obj.block ≠ some p

theorem FreshHeap.after {m m' : Pools} {k : Kind} {dwSize : DWORD} {p : Addr} {es : List PoolEvent}
    (h : FreshHeap m ch) (hk : k ≠ .rsock) (htakes : Pools.Takes m ch.obj p k dwSize m' es) :
    m'.Fresh ch.sock := by
  cases htakes with
  | reuse v => exact ⟨h.sock.block, h.sock.list⟩
  | fresh _ hp =>
    refine ⟨?_, h.sock.list⟩
    intro q hq
    have hne : q ≠ p := by
      rintro rfl
      exact h.apart q hq hp
    exact (Function.update_of_ne hne ..).trans (h.sock.block q hq)
  | freshSock => contradiction

/-- Who has an object after the call: the AcceptEx that is outstanding, or nobody. -/
def users (posted : Bool) (kObj kSock : Kind) (pObj : ObjPtr) (pSock : SockPtr) : List PoolTask :=
  if posted then [.user kSock pSock, .user kObj pObj] else []

theorem postAcceptEx_sound (dwObj dwSock : DWORD) (h : Pools.Sound evs a.pools ts)
    (hheap : FreshHeap a.pools ch)
    (hpost : postAcceptEx server server.objKind server.sockKind dwObj dwSock a ch =
      .ok (a', posted, moved)) :
    ∃ es pObj pSock, Pools.Sound (evs ++ es) a'.pools
      (users posted server.objKind server.sockKind pObj pSock ++ ts) := by
  unfold postAcceptEx at hpost
  have hobj := allocObj_answer (a := a) (c := ch.obj) dwObj (objKind_ne server)
  generalize a.allocObj server.objKind dwObj ch.obj = robj at hobj hpost
  cases hobj with
  | none hnext =>
    cases hpost
    refine ⟨[], 0, 0, ?_⟩
    rw [List.append_nil]
    exact h
  | some pObj pools es hnext htakes =>
    have hone := h.takes (t := .user server.objKind pObj) rfl hheap.obj htakes
    have hfresh := hheap.after (objKind_ne server) htakes
    dsimp only at hpost
    have hsock := allocSock_answer (k := server.sockKind) (c := ch.sock)
      (a := { a with pools, listener := a.listener.allocObj pObj }) dwSock
    generalize allocSock { a with pools, listener := a.listener.allocObj pObj } server.sockKind
      dwSock ch.sock = rsock at hsock hpost
    cases hsock with
    | fault f hk hready => cases hpost
    | none hk hnone =>
      cases hpost
      have hback := hone.gives rfl (Pools.release_gives (p := pObj))
      rw [List.append_assoc] at hback
      exact ⟨_, pObj, 0, hback⟩
    | some pSock pools' es' hready hsome htakes' =>
      have htwo := hone.takes (t := .user server.sockKind pSock) rfl hfresh htakes'
      have hback := ((htwo.perm (List.Perm.swap _ _ _)).gives rfl
        (Pools.release_gives (p := pObj))).gives rfl (Pools.release_gives (p := pSock))
      rw [List.append_assoc] at htwo
      simp only [List.append_assoc] at hback
      dsimp only at hpost
      split at hpost
      · cases hpost
        exact ⟨_, pObj, pSock, hback⟩
      · split at hpost
        · cases hpost
          exact ⟨_, pObj, pSock, htwo⟩
        · cases hpost
          exact ⟨_, pObj, pSock, hback⟩

/-- A call uses the pools as they should be used, and one that returns false leaves no object of its
own in use. -/
theorem post_sound (h : Pools.Sound evs a.pools ts) (hheap : FreshHeap a.pools ch)
    (hpost : a.post server ch = .ok (a', posted, moved)) :
    ∃ es pObj pSock, Pools.Sound (evs ++ es) a'.pools
      (users posted server.objKind server.sockKind pObj pSock ++ ts) := by
  cases server with
  | client => exact postAcceptEx_sound RECV_OBJ_SIZE (a.g_dwPagesize * 8) h hheap hpost
  | nc => exact postAcceptEx_sound a.g_dwPagesize BUFER_SOCK_SIZE h hheap hpost

end Sound

/-- The listener's assumption about the pools is what they guarantee: nothing that is in use is
handed out. -/
theorem answers_allowed {evs : List PoolEvent} {ts : List PoolTask} {a : Acceptor}
    {server : Server} {ch : PostChoice} (h : Pools.Sound evs a.pools ts)
    (hobjs : ∀ p ∈ a.listener.objs, ∃ t ∈ ts, ∃ k, (k, p) ∈ t.objs)
    (hsocks : ∀ p ∈ a.listener.socks, ∃ t ∈ ts, ∃ k, (k, p) ∈ t.objs)
    (hheap : FreshHeap a.pools ch) (hopened : ch.socket ∉ a.listener.opened) :
    Listener.machine.allowed a.listener (a.answers server ch) := by
  refine ⟨?_, ?_, hopened⟩
  · intro p hnext hmem
    obtain ⟨t, ht, k, ho⟩ := hobjs p hmem
    exact h.next_unused hheap.obj hnext t ht (k, p) ho rfl
  · intro p hnext hmem
    obtain ⟨t, ht, k, ho⟩ := hsocks p hmem
    exact h.next_unused hheap.sock hnext t ht (k, p) ho rfl

/-- Over pools that were used as they should be, the client's call needs memory only when v_RSock is
empty. -/
theorem ready_client_iff {evs : List PoolEvent} {ts : List PoolTask} {a : Acceptor}
    {ch : PostChoice} (h : Pools.Sound evs a.pools ts) :
    a.Ready .client ch ↔ ((a.pools.next .robj ch.obj).isSome = true → a.pools.pool .rsock = [] →
      ch.sock.block.isSome = true ∧ ch.sock.list.isSome = true) := by
  unfold Ready
  rw [h.sockReady_iff]
  constructor
  · intro hready
    exact hready rfl
  · intro hready _
    exact hready

/-- The client's server when it starts, and a BUFFER_OBJ server with one socket in its map. -/
def starting : Acceptor := ⟨Pools.initMemory, Listener.blank.shared, 4096⟩

def accepting : Acceptor :=
  starting.setListener
    { starting.listener with acceptPendingMap := Function.update (fun _ => none) 5 (some 7) }

/-- The pools get `obj` and `sock` from the heap, GetRand is 5 and AcceptEx fails. -/
def refusedPost (obj sock : Option Addr) : PostChoice := ⟨⟨obj, none⟩, ⟨sock, none⟩, 4, 5, false⟩

/-- HeapAlloc fails in allocRSock, and AcceptEx fails for a socket with the key of another one. -/
theorem failed_post_not_undone :
    ¬AtomicOnFailure starting .client (refusedPost (some 1) none)
      (starting.post .client (refusedPost (some 1) none)) ∧
    ¬AtomicOnFailure accepting .nc (refusedPost (some 1) (some 2))
      (accepting.post .nc (refusedPost (some 1) (some 2))) := by
  constructor
  · rintro ⟨_, _, _, heq, _⟩
    contradiction
  · rintro ⟨a', posted, moved, heq, _, hundone⟩
    cases heq
    have hsame := congrFun (hundone rfl).pendingMap 5
    contradiction

end Acceptor

end CustomersCard
