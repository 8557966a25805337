import CustomersCardMS.Listener

namespace CustomersCard
open Interleaving

namespace ListenTask

def objs : ListenTask → List ObjPtr
  | .accept pObj | .obj pObj => [pObj]
  | _ => []

/-- The socket object of an AcceptEx that is outstanding. -/
def accepting (l : Listener) : ListenTask → List SockPtr
  | .accept pObj => (l.obj pObj).pRelateSock.toList
  | _ => []

def socks (l : Listener) : ListenTask → List SockPtr
  | .accept pObj => (l.obj pObj).pRelateSock.toList
  | .sock pSock => [pSock]
  | _ => []

end ListenTask

namespace Listener

/-- The call gets as far as InsertIntoPendingMap. -/
def AcceptChoice.inserts (ch : AcceptChoice) : Bool :=
  ch.pObj.isSome && ch.pSock.isSome && ch.socket != INVALID_SOCKET

/-- What a step leaves of the objects that are in use. -/
structure Leaves (l l' : Listener) : Prop where
  relate : ∀ pObj ∈ l.objs, (l'.obj pObj).pRelateSock = (l.obj pObj).pRelateSock
  nKey : ∀ pSock ∈ l.socks, l'.nKey pSock = l.nKey pSock

/-- Everything that a call of PostAcceptEx can do. -/
inductive Posts (l : Listener) (ch : AcceptChoice) : Listener → List ListenTask → Prop
  | fails (l' : Listener) : AcceptChoice.inserts ch = false → Leaves l l' →
      l'.acceptPendingMap = l.acceptPendingMap → l'.objs = l.objs → l'.socks = l.socks →
      Posts l ch l' [.acceptex]
  | undone (l' : Listener) : AcceptChoice.inserts ch = true → Leaves l l' →
      l'.acceptPendingMap = Function.update l.acceptPendingMap ch.rand none →
      l'.objs = l.objs → l'.socks = l.socks → Posts l ch l' [.acceptex]
  | posted (l' : Listener) (pObj : ObjPtr) (pSock : SockPtr) : AcceptChoice.inserts ch = true →
      pObj ∉ l.objs → pSock ∉ l.socks → Leaves l l' →
      l'.acceptPendingMap = Function.update l.acceptPendingMap ch.rand (some pSock) →
      l'.objs = pObj :: l.objs → l'.socks = pSock :: l.socks →
      (l'.obj pObj).pRelateSock = some pSock → l'.nKey pSock = ch.rand →
      Posts l ch l' [.acceptex, .accept pObj]

/-- A step that leaves alone what the pools did not hand out. -/
structure Spares (ch : AcceptChoice) (l l' : Listener) : Prop where
  obj : ∀ p, ch.pObj ≠ some p → l'.obj p = l.obj p
  nKey : ∀ p, ch.pSock ≠ some p → l'.nKey p = l.nKey p

/-- What is in use after a call that returns false. -/
structure Left (l l' : Listener) : Prop where
  opened : l'.opened.Sublist l.opened
  objs : l'.objs = l.objs
  socks : l'.socks = l.socks

/-- Everything that a call can do, whatever it gets from the pools. -/
inductive Calls (l : Listener) (ch : AcceptChoice) :
    Listener → List ListenTask → List ListenEvent → Prop
  | fails (l' : Listener) (es : List ListenEvent) : AcceptChoice.inserts ch = false →
      Spares ch l l' → l'.acceptPendingMap = l.acceptPendingMap → Left l l' →
      .returns false ∈ es → Calls l ch l' [.acceptex] es
  | undone (l' : Listener) (es : List ListenEvent) : AcceptChoice.inserts ch = true →
      ch.pending = false → Spares ch l l' →
      l'.acceptPendingMap = Function.update l.acceptPendingMap ch.rand none → Left l l' →
      .returns false ∈ es → Calls l ch l' [.acceptex] es
  | posted (l' : Listener) (pObj : ObjPtr) (pSock : SockPtr) : AcceptChoice.inserts ch = true →
      ch.pending = true → ch.pObj = some pObj → ch.pSock = some pSock → Spares ch l l' →
      l'.acceptPendingMap = Function.update l.acceptPendingMap ch.rand (some pSock) →
      l'.objs = pObj :: l.objs → l'.socks = pSock :: l.socks →
      (l'.obj pObj).pRelateSock = some pSock → l'.nKey pSock = ch.rand →
      Calls l ch l' [.acceptex, .accept pObj] [.returns true]

section Ops

variable {l l' l₂ : Listener} {pObj : ObjPtr} {pSock : SockPtr}

@[simp] theorem setSock_nKey (s : KeyValue) : (l.setSock pSock s).nKey pSock = s.nKey := by
  simp [nKey, setSock]

theorem cmCloseSocket_eq (l : Listener) (pSock : SockPtr) : l.cmCloseSocket pSock = l ∨
    l.cmCloseSocket pSock = (l.closesocket (l.sockObj pSock).sock).setSock pSock
      { l.sockObj pSock with sock := INVALID_SOCKET } := by
  unfold cmCloseSocket
  split
  · exact Or.inr rfl
  · exact Or.inl rfl

/-- The rest of the listener is as it was, apart from one object and one socket object. -/
structure Apart (pObj : ObjPtr) (pSock : SockPtr) (l l' : Listener) : Prop where
  obj : ∀ p ≠ pObj, l'.obj p = l.obj p
  nKey : ∀ p ≠ pSock, l'.nKey p = l.nKey p

theorem Apart.trans (h : Apart pObj pSock l l') (h' : Apart pObj pSock l' l₂) :
    Apart pObj pSock l l₂ := by
  constructor
  · intro p hp
    rw [h'.obj p hp, h.obj p hp]
  · intro p hp
    rw [h'.nKey p hp, h.nKey p hp]

theorem Apart.spares {ch : AcceptChoice} (h : Apart pObj pSock l l') (ho : ch.pObj = some pObj)
    (hs : ch.pSock = some pSock) : Spares ch l l' := by
  constructor
  · intro p hp
    apply h.obj p
    rintro rfl
    exact hp ho
  · intro p hp
    apply h.nKey p
    rintro rfl
    exact hp hs

theorem setSock_apart (pObj : ObjPtr) (s : KeyValue) : Apart pObj pSock l (l.setSock pSock s) := by
  constructor
  · intro p _
    rfl
  · intro p hp
    simp [Listener.nKey, setSock, Function.update_of_ne hp]

theorem setObj_apart (pSock : SockPtr) (o : RecvObj) : Apart pObj pSock l (l.setObj pObj o) := by
  constructor
  · intro p hp
    simp [setObj, Function.update_of_ne hp]
  · intro p _
    rfl

theorem cmCloseSocket_apart (pObj : ObjPtr) (pSock : SockPtr) :
    Apart pObj pSock l (l.cmCloseSocket pSock) := by
  rcases cmCloseSocket_eq l pSock with heq | heq
  · rw [heq]
    exact ⟨fun _ _ => rfl, fun _ _ => rfl⟩
  · rw [heq]
    exact ⟨fun _ _ => rfl, (setSock_apart pObj _).nKey⟩

theorem cmCloseSocket_keeps (l : Listener) (pSock : SockPtr) :
    (l.cmCloseSocket pSock).objs = l.objs ∧ (l.cmCloseSocket pSock).socks = l.socks ∧
      (l.cmCloseSocket pSock).obj = l.obj ∧
      (l.cmCloseSocket pSock).acceptPendingMap = l.acceptPendingMap := by
  rcases cmCloseSocket_eq l pSock with heq | heq
  · rw [heq]
    exact ⟨rfl, rfl, rfl, rfl⟩
  · rw [heq]
    exact ⟨rfl, rfl, rfl, rfl⟩

theorem cmCloseSocket_nKey (p : SockPtr) : (l.cmCloseSocket pSock).nKey p = l.nKey p := by
  rcases eq_or_ne p pSock with rfl | hne
  · rcases cmCloseSocket_eq l p with heq | heq
    · rw [heq]
    · rw [heq, setSock_nKey]
      rfl
  · exact (cmCloseSocket_apart 0 pSock).nKey p hne

theorem allocSock_apart : Apart pObj pSock l (l.allocSock pSock) := by
  apply (setSock_apart pObj { l.sockObj pSock with nKey := 0 }).trans
  constructor
  · exact (cmCloseSocket_apart pObj pSock).obj
  · exact (cmCloseSocket_apart pObj pSock).nKey

theorem allocSock_keeps (l : Listener) (pSock : SockPtr) : (l.allocSock pSock).objs = l.objs ∧
    (l.allocSock pSock).socks = pSock :: l.socks ∧
      (l.allocSock pSock).acceptPendingMap = l.acceptPendingMap := by
  obtain ⟨hobjs, _, _, hmap⟩ := cmCloseSocket_keeps
    (l.setSock pSock { l.sockObj pSock with nKey := 0 }) pSock
  exact ⟨hobjs, rfl, hmap⟩

theorem announce_map (server : Server) (rand : ℕ) :
    (l.announce server pObj pSock rand).acceptPendingMap =
      Function.update l.acceptPendingMap rand (some pSock) := by
  simp only [announce, insertIntoPendingMap, setSock_nKey]
  rfl

theorem announce_nKey (server : Server) (rand : ℕ) :
    (l.announce server pObj pSock rand).nKey pSock = rand :=
  setSock_nKey _

theorem announce_relate (server : Server) (rand : ℕ) :
    ((l.announce server pObj pSock rand).obj pObj).pRelateSock = some pSock := by
  simp [announce, insertIntoPendingMap, setSock, setObj, RecvObj.setIoRequestFunction]

theorem announce_apart (server : Server) (rand : ℕ) :
    Apart pObj pSock l (l.announce server pObj pSock rand) := by
  apply (setObj_apart pSock _).trans
  apply (setSock_apart pObj _).trans
  exact ⟨fun _ _ => rfl, fun _ _ => rfl⟩

/-- What PostAcceptEx does when AcceptEx fails at once. -/
theorem undo_apart : Apart pObj pSock l
    ((((l.deleteFromPendingMap pSock).cmCloseSocket pSock).freeObj pObj).freeSock pSock) := by
  have hclosed := cmCloseSocket_apart (l := l.deleteFromPendingMap pSock) pObj pSock
  exact ⟨hclosed.obj, hclosed.nKey⟩

theorem cmCloseSocket_opened (l : Listener) (pSock : SockPtr) :
    (l.cmCloseSocket pSock).opened.Sublist l.opened := by
  rcases cmCloseSocket_eq l pSock with heq | heq
  · rw [heq]
  · rw [heq]
    exact List.erase_sublist

/-- What is in use when AcceptEx is called, and when it has failed at once. -/
theorem announced_keeps (l : Listener) (server : Server) (pObj : ObjPtr) (pSock : SockPtr)
    (sock : SOCKET) (rand : ℕ) :
    ((l.openSocket pSock sock).announce server pObj pSock rand).objs = l.objs ∧
      ((l.openSocket pSock sock).announce server pObj pSock rand).socks = l.socks ∧
      ((l.openSocket pSock sock).announce server pObj pSock rand).acceptPendingMap =
        Function.update l.acceptPendingMap rand (some pSock) :=
  ⟨rfl, rfl, announce_map server rand⟩

theorem undo_keeps (l : Listener) (pObj : ObjPtr) (pSock : SockPtr) :
    ((((l.deleteFromPendingMap pSock).cmCloseSocket pSock).freeObj pObj).freeSock pSock).objs =
      l.objs.erase pObj ∧
    ((((l.deleteFromPendingMap pSock).cmCloseSocket pSock).freeObj pObj).freeSock pSock).socks =
      l.socks.erase pSock ∧
    ((((l.deleteFromPendingMap pSock).cmCloseSocket pSock).freeObj pObj).freeSock
      pSock).acceptPendingMap = Function.update l.acceptPendingMap (l.nKey pSock) none := by
  obtain ⟨hobjs, hsocks, _, hmap⟩ := cmCloseSocket_keeps (l.deleteFromPendingMap pSock) pSock
  refine ⟨?_, ?_, hmap⟩
  · exact congrArg (List.erase · pObj) hobjs
  · exact congrArg (List.erase · pSock) hsocks

/-- CMCloseSocket closes the handle that socket() has just opened. -/
theorem undo_opened (server : Server) {sock : SOCKET} (rand : ℕ) (hvalid : sock ≠ INVALID_SOCKET) :
    ((((l.openSocket pSock sock).announce server pObj pSock rand).deleteFromPendingMap
      pSock).cmCloseSocket pSock).opened = l.opened := by
  have hsock : ((((l.openSocket pSock sock).announce server pObj pSock rand).deleteFromPendingMap
      pSock).sockObj pSock).sock = sock := by
    simp [deleteFromPendingMap, announce, insertIntoPendingMap, setSock, setObj, openSocket]
  unfold cmCloseSocket
  rw [hsock, if_pos hvalid]
  exact List.erase_cons_head ..

end Ops

section Step

variable {l l' : Listener} {t : ListenTask} {ch : AcceptChoice} {rest new ts us : List ListenTask}
  {es : List ListenEvent} {pObj : ObjPtr}

theorem postAcceptEx_calls (h : l.postAcceptEx ch = .ok (l', new, es)) : Calls l ch l' new es := by
  unfold postAcceptEx at h
  cases hobj : ch.pObj with
  | none =>
    rw [hobj] at h
    cases h
    apply Calls.fails
    · simp [AcceptChoice.inserts, hobj]
    · exact ⟨fun _ _ => rfl, fun _ _ => rfl⟩
    · rfl
    · exact ⟨List.Sublist.refl _, rfl, rfl⟩
    · exact List.mem_singleton_self _
  | some pObj =>
    rw [hobj] at h
    dsimp only at h
    cases hsock : ch.pSock with
    | none =>
      rw [hsock] at h
      cases hserver : ch.server with
      | client =>
        rw [hserver] at h
        contradiction
      | nc =>
        rw [hserver] at h
        cases h
        apply Calls.fails
        · simp [AcceptChoice.inserts, hsock]
        · constructor
          · intro p hp
            have hne : p ≠ pObj := by
              rintro rfl
              exact hp hobj
            simp [freeObj, allocObj, setObj, Function.update_of_ne hne]
          · exact fun _ _ => rfl
        · rfl
        · exact ⟨List.Sublist.refl _, List.erase_cons_head .., rfl⟩
        · simp
    | some pSock =>
      rw [hsock] at h
      dsimp only at h
      have hready : Apart pObj pSock l ((l.allocObj pObj).allocSock pSock) := by
        refine Apart.trans (?_ : Apart pObj pSock l (l.allocObj pObj)) ?_
        · exact ⟨(setObj_apart pSock _).obj, fun _ _ => rfl⟩
        · exact allocSock_apart
      obtain ⟨hobjs, hsocks, hmap⟩ := allocSock_keeps (l.allocObj pObj) pSock
      have hopened : ((l.allocObj pObj).allocSock pSock).opened.Sublist l.opened :=
        cmCloseSocket_opened _ pSock
      split at h
      · case isTrue hinvalid =>
        cases h
        apply Calls.fails
        · simp [AcceptChoice.inserts, hinvalid]
        · exact Apart.spares ⟨hready.obj, hready.nKey⟩ hobj hsock
        · exact hmap
        · constructor
          · exact hopened
          · change List.erase _ pObj = l.objs
            rw [hobjs]
            exact List.erase_cons_head ..
          · change List.erase ((l.allocObj pObj).allocSock pSock).socks pSock = l.socks
            rw [hsocks]
            exact List.erase_cons_head ..
        · simp
      · case isFalse hvalid =>
        have hinserts : AcceptChoice.inserts ch = true := by
          simp [AcceptChoice.inserts, hobj, hsock, hvalid]
        have hopen : Apart pObj pSock l
            (((l.allocObj pObj).allocSock pSock).openSocket pSock ch.socket) := by
          apply hready.trans
          exact ⟨fun _ _ => rfl, (setSock_apart pObj _).nKey⟩
        have hannounced := hopen.trans (announce_apart ch.server ch.rand)
        obtain ⟨hannouncedObjs, hannouncedSocks, hannouncedMap⟩ := announced_keeps
          ((l.allocObj pObj).allocSock pSock) ch.server pObj pSock ch.socket ch.rand
        split at h
        · case isTrue hpending =>
          cases h
          -- AcceptEx is pending: the entry of the key is that of the socket.
          apply Calls.posted _ pObj pSock hinserts hpending hobj hsock
          · exact hannounced.spares hobj hsock
          · rw [hannouncedMap, hmap]
            rfl
          · exact hannouncedObjs.trans hobjs
          · exact hannouncedSocks.trans hsocks
          · exact announce_relate _ _
          · exact announce_nKey _ _
        · case isFalse hpending =>
          cases h
          obtain ⟨hundoneObjs, hundoneSocks, hundoneMap⟩ := undo_keeps
            ((((l.allocObj pObj).allocSock pSock).openSocket pSock ch.socket).announce ch.server
              pObj pSock ch.rand) pObj pSock
          -- AcceptEx failed: the entry is deleted again, and with it what the key led to before.
          apply Calls.undone _ _ hinserts (Bool.eq_false_iff.mpr hpending)
          · exact (hannounced.trans undo_apart).spares hobj hsock
          · rw [hundoneMap, hannouncedMap, announce_nKey, Function.update_idem, hmap]
            rfl
          · constructor
            · change (cmCloseSocket _ pSock).opened.Sublist _
              rw [undo_opened _ _ hvalid]
              exact hopened
            · rw [hundoneObjs, hannouncedObjs, hobjs]
              exact List.erase_cons_head ..
            · rw [hundoneSocks, hannouncedSocks, hsocks]
              exact List.erase_cons_head ..
          · simp

/-- What the pools hand out is not in use. -/
theorem Spares.leaves (h : Spares ch l l') (hfresh : machine.allowed l ch) : Leaves l l' := by
  constructor
  · intro p hp
    rw [h.obj p]
    intro hobj
    exact hfresh.1 p hobj hp
  · intro p hp
    apply h.nKey p
    intro hsock
    exact hfresh.2.1 p hsock hp

theorem postAcceptEx_posts (hfresh : machine.allowed l ch)
    (h : l.postAcceptEx ch = .ok (l', new, es)) : Posts l ch l' new := by
  cases postAcceptEx_calls h with
  | fails _ hinserts hspares hmap hleft _ =>
    exact Posts.fails _ hinserts (hspares.leaves hfresh) hmap hleft.objs hleft.socks
  | undone _ hinserts _ hspares hmap hleft _ =>
    exact Posts.undone _ hinserts (hspares.leaves hfresh) hmap hleft.objs hleft.socks
  | posted pObj pSock hinserts _ hobj hsock hspares hmap hobjs hsocks hrelate hkey =>
    exact Posts.posted _ pObj pSock hinserts (hfresh.1 pObj hobj) (hfresh.2.1 pSock hsock)
      (hspares.leaves hfresh) hmap hobjs hsocks hrelate hkey

/-- The objects in use are those of the tasks, and the map leads from the key of a socket to
the socket, for the sockets in an AcceptEx and no others. -/
structure Tracked (l : Listener) (ts : List ListenTask) : Prop where
  objs : (ts.flatMap ListenTask.objs).Perm l.objs
  distinctObjs : l.objs.Nodup
  socks : (ts.flatMap (ListenTask.socks l)).Perm l.socks
  distinctSocks : l.socks.Nodup
  stored : ∀ pSock ∈ ts.flatMap (ListenTask.accepting l),
    l.acceptPendingMap (l.nKey pSock) = some pSock
  only : ∀ k pSock, l.acceptPendingMap k = some pSock →
    pSock ∈ ts.flatMap (ListenTask.accepting l) ∧ l.nKey pSock = k

theorem Tracked.perm (h : Tracked l ts) (hp : ts.Perm us) : Tracked l us := by
  have hmem {α : Type} (f : ListenTask → List α) (a : α) : a ∈ ts.flatMap f ↔ a ∈ us.flatMap f :=
    (hp.flatMap_right f).mem_iff
  constructor
  · exact (hp.flatMap_right _).symm.trans h.objs
  · exact h.distinctObjs
  · exact (hp.flatMap_right _).symm.trans h.socks
  · exact h.distinctSocks
  · intro pSock hs
    exact h.stored pSock ((hmem _ _).mpr hs)
  · intro k pSock hk
    obtain ⟨hs, hkey⟩ := h.only k pSock hk
    exact ⟨(hmem _ _).mp hs, hkey⟩

theorem accepting_sub_socks (t : ListenTask) (pSock : SockPtr) (h : pSock ∈ t.accepting l) :
    pSock ∈ t.socks l := by
  cases t with
  | accept pObj => exact h
  | acceptex | obj _ | sock _ => contradiction

theorem Tracked.pending_mem (h : Tracked l ts) {pSock : SockPtr}
    (hs : pSock ∈ ts.flatMap (ListenTask.accepting l)) : pSock ∈ l.socks := by
  obtain ⟨t, ht, hmem⟩ := List.mem_flatMap.mp hs
  apply h.socks.mem_iff.mp
  exact List.mem_flatMap.mpr ⟨t, ht, accepting_sub_socks t pSock hmem⟩

/-- The other tasks see the objects that they know. -/
theorem Leaves.tasks (hl : Leaves l l') (h : ∀ pObj ∈ ts.flatMap ListenTask.objs, pObj ∈ l.objs) :
    ts.flatMap (ListenTask.accepting l') = ts.flatMap (ListenTask.accepting l) ∧
      ts.flatMap (ListenTask.socks l') = ts.flatMap (ListenTask.socks l) := by
  have hone : ∀ t ∈ ts, t.accepting l' = t.accepting l ∧ t.socks l' = t.socks l := by
    intro t ht
    cases t with
    | accept pObj =>
      have hmem : pObj ∈ ts.flatMap ListenTask.objs :=
        List.mem_flatMap.mpr ⟨_, ht, List.mem_singleton_self _⟩
      have hrelate := hl.relate pObj (h pObj hmem)
      simp only [ListenTask.accepting, ListenTask.socks, hrelate, and_self]
    | acceptex | obj _ | sock _ => exact ⟨rfl, rfl⟩
  constructor
  · exact List.flatMap_congr fun t ht => (hone t ht).1
  · exact List.flatMap_congr fun t ht => (hone t ht).2

/-- What the map is for: its values are the sockets in an AcceptEx, each under one key. -/
structure MapExact (l : Listener) (ts : List ListenTask) : Prop where
  values : ∀ pSock, (∃ k, l.acceptPendingMap k = some pSock) ↔
    pSock ∈ ts.flatMap (ListenTask.accepting l)
  keys : ∀ k k' pSock, l.acceptPendingMap k = some pSock → l.acceptPendingMap k' = some pSock →
    k = k'
  once : (ts.flatMap (ListenTask.accepting l)).Nodup

theorem accepting_sublist (ts : List ListenTask) :
    (ts.flatMap (ListenTask.accepting l)).Sublist (ts.flatMap (ListenTask.socks l)) := by
  induction ts with
  | nil => exact List.Sublist.refl _
  | cons t ts ih =>
    rw [List.flatMap_cons, List.flatMap_cons]
    apply List.Sublist.append _ ih
    cases t with
    | accept pObj => exact List.Sublist.refl _
    | acceptex | obj _ | sock _ => exact List.nil_sublist _

theorem Tracked.exact (h : Tracked l ts) : MapExact l ts := by
  constructor
  · intro pSock
    constructor
    · rintro ⟨k, hk⟩
      exact (h.only k pSock hk).1
    · intro hs
      exact ⟨_, h.stored pSock hs⟩
  · intro k k' pSock hk hk'
    rw [← (h.only k pSock hk).2, ← (h.only k' pSock hk').2]
  · exact (h.socks.nodup_iff.mpr h.distinctSocks).sublist (accepting_sublist ts)

/-- A step that keeps the map, and the sockets that wait in it. -/
theorem Tracked.keep (h : Tracked l (t :: rest)) (hl : Leaves l l')
    (hmap : l'.acceptPendingMap = l.acceptPendingMap)
    (hobjs : (new.flatMap ListenTask.objs ++ rest.flatMap ListenTask.objs).Perm l'.objs)
    (hdistinct : l'.objs.Nodup)
    (hsocks :
      (new.flatMap (ListenTask.socks l') ++ rest.flatMap (ListenTask.socks l)).Perm l'.socks)
    (hdistinct' : l'.socks.Nodup)
    (hacc : new.flatMap (ListenTask.accepting l') = t.accepting l) : Tracked l' (new ++ rest) := by
  have hrest : ∀ pObj ∈ rest.flatMap ListenTask.objs, pObj ∈ l.objs := by
    intro pObj hp
    apply h.objs.mem_iff.mp
    rw [List.flatMap_cons]
    exact List.mem_append_right _ hp
  obtain ⟨haccepting, hrestSocks⟩ := hl.tasks hrest
  have hpending : (new ++ rest).flatMap (ListenTask.accepting l') =
      (t :: rest).flatMap (ListenTask.accepting l) := by
    rw [List.flatMap_append, List.flatMap_cons, haccepting, hacc]
  constructor
  · rw [List.flatMap_append]
    exact hobjs
  · exact hdistinct
  · rw [List.flatMap_append, hrestSocks]
    exact hsocks
  · exact hdistinct'
  · intro pSock hs
    rw [hpending] at hs
    rw [hmap, hl.nKey pSock (h.pending_mem hs)]
    exact h.stored pSock hs
  · intro k pSock hk
    rw [hmap] at hk
    obtain ⟨hs, hkey⟩ := h.only k pSock hk
    rw [hpending, hl.nKey pSock (h.pending_mem hs)]
    exact ⟨hs, hkey⟩

/-- PostAcceptEx and the key that it draws leave every other entry. -/
def drawsFresh : Monitor Unit Listener ListenTask AcceptChoice where
  next _ _ _ _ := ()
  permits _ l t ch :=
    match t with
    | .acceptex => !AcceptChoice.inserts ch || (l.acceptPendingMap ch.rand).isNone
    | _ => true

theorem Tracked.failed (h : Tracked l (.acceptex :: rest)) (hl : Leaves l l')
    (hmap : l'.acceptPendingMap = l.acceptPendingMap) (hobjs : l'.objs = l.objs)
    (hsocks : l'.socks = l.socks) : Tracked l' ([.acceptex] ++ rest) := by
  apply h.keep hl hmap
  · rw [hobjs]
    exact h.objs
  · rw [hobjs]
    exact h.distinctObjs
  · rw [hsocks]
    exact h.socks
  · rw [hsocks]
    exact h.distinctSocks
  · rfl

theorem Tracked.posted (h : Tracked l (.acceptex :: rest)) {pObj : ObjPtr} {pSock : SockPtr}
    {rand : ℕ} (ho : pObj ∉ l.objs) (hs : pSock ∉ l.socks) (hl : Leaves l l')
    (hfree : l.acceptPendingMap rand = none)
    (hmap : l'.acceptPendingMap = Function.update l.acceptPendingMap rand (some pSock))
    (hobjs : l'.objs = pObj :: l.objs) (hsocks : l'.socks = pSock :: l.socks)
    (hrelate : (l'.obj pObj).pRelateSock = some pSock) (hkey : l'.nKey pSock = rand) :
    Tracked l' ([.acceptex, .accept pObj] ++ rest) := by
  have hmem : ∀ p ∈ rest.flatMap ListenTask.objs, p ∈ l.objs := fun p hp => h.objs.mem_iff.mp hp
  obtain ⟨haccepting, hrestSocks⟩ := hl.tasks hmem
  have hpending : ([ListenTask.acceptex, .accept pObj] ++ rest).flatMap (ListenTask.accepting l') =
      pSock :: rest.flatMap (ListenTask.accepting l) := by
    change (l'.obj pObj).pRelateSock.toList ++ rest.flatMap _ = _
    rw [hrelate, haccepting]
    rfl
  constructor
  · rw [hobjs]
    exact h.objs.cons pObj
  · rw [hobjs]
    exact List.nodup_cons.mpr ⟨ho, h.distinctObjs⟩
  · rw [hsocks]
    change ((l'.obj pObj).pRelateSock.toList ++ rest.flatMap _).Perm _
    rw [hrelate, hrestSocks]
    exact h.socks.cons pSock
  · rw [hsocks]
    exact List.nodup_cons.mpr ⟨hs, h.distinctSocks⟩
  · intro p hp
    rw [hpending] at hp
    rw [hmap]
    rcases List.mem_cons.mp hp with rfl | hp
    · rw [hkey, Function.update_self]
    · have hstored := h.stored p hp
      rw [hl.nKey p (h.pending_mem hp)]
      rw [Function.update_of_ne _]
      · exact hstored
      · intro heq
        rw [heq, hfree] at hstored
        contradiction
  · intro k p hk
    rw [hmap] at hk
    rw [hpending]
    rcases eq_or_ne k rand with rfl | hne
    · rw [Function.update_self, Option.some.injEq] at hk
      rw [← hk]
      exact ⟨List.mem_cons_self, hkey⟩
    · rw [Function.update_of_ne hne] at hk
      obtain ⟨hp, hpkey⟩ := h.only k p hk
      rw [hl.nKey p (h.pending_mem hp)]
      exact ⟨List.mem_cons_of_mem _ hp, hpkey⟩

/-- A key that another socket has costs that socket its entry. -/
theorem Tracked.dropped (h : Tracked l (.acceptex :: rest)) {rand : ℕ} {pSock : SockPtr}
    {v : Option SockPtr} (hl : Leaves l l') (hkey : l.acceptPendingMap rand = some pSock)
    (hmap : l'.acceptPendingMap = Function.update l.acceptPendingMap rand v) (hv : v ≠ some pSock) :
    ¬MapExact l' ((.acceptex :: new) ++ rest) := by
  intro hexact
  obtain ⟨hs, hnkey⟩ := h.only _ _ hkey
  have hmem : ∀ p ∈ rest.flatMap ListenTask.objs, p ∈ l.objs := fun p hp => h.objs.mem_iff.mp hp
  obtain ⟨haccepting, _⟩ := hl.tasks hmem
  have hmem : pSock ∈ ((ListenTask.acceptex :: new) ++ rest).flatMap (ListenTask.accepting l') := by
    rw [List.flatMap_append, haccepting]
    exact List.mem_append_right _ hs
  obtain ⟨k, hk⟩ := (hexact.values pSock).mpr hmem
  rw [hmap] at hk
  rcases eq_or_ne k rand with rfl | hne
  · rw [Function.update_self] at hk
    exact hv hk
  · rw [Function.update_of_ne hne] at hk
    exact hne ((h.only k pSock hk).2.symm.trans hnkey)

theorem Tracked.completed (h : Tracked l (.accept pObj :: rest)) {pSock : SockPtr}
    (hrelate : (l.obj pObj).pRelateSock = some pSock) :
    Tracked (l.deleteFromPendingMap pSock) ([.obj pObj, .sock pSock] ++ rest) := by
  have hacc : (ListenTask.accept pObj).accepting l = [pSock] := by
    change (l.obj pObj).pRelateSock.toList = [pSock]
    rw [hrelate]
    rfl
  have hsocks := h.socks
  have hstored := h.stored
  have honly := h.only
  rw [List.flatMap_cons, hacc] at hstored honly
  have hown : (ListenTask.accept pObj).socks l = [pSock] := hacc
  rw [List.flatMap_cons, hown] at hsocks
  have hnotMem : pSock ∉ rest.flatMap (ListenTask.accepting l) := by
    intro hmem
    have hnodup := hsocks.nodup_iff.mpr h.distinctSocks
    have hsub := (accepting_sublist rest).subset hmem
    exact (List.nodup_cons.mp hnodup).1 hsub
  constructor
  · exact h.objs
  · exact h.distinctObjs
  · exact hsocks
  · exact h.distinctSocks
  · intro p hp
    have hentry := hstored p (List.mem_append_right _ hp)
    change Function.update l.acceptPendingMap (l.nKey pSock) none (l.nKey p) = some p
    rw [Function.update_of_ne _]
    · exact hentry
    · intro heq
      have hself := hstored pSock (List.mem_append_left _ (List.mem_singleton_self _))
      rw [heq, hself, Option.some.injEq] at hentry
      rw [← hentry] at hp
      exact hnotMem hp
  · intro k p hk
    change Function.update l.acceptPendingMap (l.nKey pSock) none k = some p at hk
    rcases eq_or_ne k (l.nKey pSock) with rfl | hne
    · rw [Function.update_self] at hk
      contradiction
    · rw [Function.update_of_ne hne] at hk
      obtain ⟨hp, hkey⟩ := honly k p hk
      refine ⟨?_, hkey⟩
      rcases List.mem_append.mp hp with hp | hp
      · rw [List.mem_singleton.mp hp] at hkey
        exact absurd hkey.symm hne
      · exact hp

/-- Giving an object back, or keeping it. -/
theorem Tracked.releaseObj (h : Tracked l (.obj pObj :: rest)) :
    Tracked (l.freeObj pObj) ([] ++ rest) := by
  have hperm : (pObj :: rest.flatMap ListenTask.objs).Perm l.objs := h.objs
  apply h.keep
  · exact ⟨fun _ _ => rfl, fun _ _ => rfl⟩
  · rfl
  · have herase := hperm.erase pObj
    rw [List.erase_cons_head] at herase
    exact herase
  · exact h.distinctObjs.erase pObj
  · exact h.socks
  · exact h.distinctSocks
  · rfl

theorem Tracked.releaseSock {pSock : SockPtr} (h : Tracked l (.sock pSock :: rest)) :
    Tracked ((l.cmCloseSocket pSock).freeSock pSock) ([] ++ rest) := by
  obtain ⟨hobjs, hsocks, hobj, hmap⟩ := cmCloseSocket_keeps l pSock
  have hperm : (pSock :: rest.flatMap (ListenTask.socks l)).Perm l.socks := h.socks
  apply h.keep
  · constructor
    · intro p _
      exact congrArg (fun f => (f p).pRelateSock) hobj
    · intro p _
      exact cmCloseSocket_nKey p
  · exact hmap
  · exact h.objs.trans (List.Perm.of_eq hobjs.symm)
  · change (l.cmCloseSocket pSock).objs.Nodup
    rw [hobjs]
    exact h.distinctObjs
  · have herase := hperm.erase pSock
    rw [List.erase_cons_head, ← hsocks] at herase
    exact herase
  · change ((l.cmCloseSocket pSock).socks.erase pSock).Nodup
    rw [hsocks]
    exact h.distinctSocks.erase pSock
  · rfl

/-- A step keeps the map exact if and only if the key that it draws is no key of a socket
that waits. -/
theorem Tracked.step_iff (h : Tracked l (t :: rest)) (hfresh : machine.allowed l ch)
    (hok : l.step t ch = .ok (l', new, es)) :
    (drawsFresh.permits () l t ch = true → Tracked l' (new ++ rest)) ∧
      (drawsFresh.permits () l t ch = false → ¬MapExact l' (new ++ rest)) := by
  cases t with
  | acceptex =>
    have hposts := postAcceptEx_posts hfresh hok
    dsimp only [drawsFresh]
    cases hposts with
    | fails hinserts hl hmap hobjs hsocks =>
      rw [hinserts]
      exact ⟨fun _ => h.failed hl hmap hobjs hsocks, fun hpermits => absurd hpermits (by simp)⟩
    | undone hinserts hl hmap hobjs hsocks =>
      rw [hinserts]
      cases hkey : l.acceptPendingMap ch.rand with
      | none =>
        refine ⟨fun _ => h.failed hl ?_ hobjs hsocks, fun hpermits => absurd hpermits (by simp)⟩
        rw [hmap, ← hkey, Function.update_eq_self]
      | some pSock =>
        refine ⟨fun hpermits => absurd hpermits (by simp), fun _ => ?_⟩
        exact h.dropped hl hkey hmap (by simp)
    | posted pObj pSock hinserts ho hs hl hmap hobjs hsocks hrelate hnkey =>
      rw [hinserts]
      cases hkey : l.acceptPendingMap ch.rand with
      | none =>
        exact ⟨fun _ => h.posted ho hs hl hkey hmap hobjs hsocks hrelate hnkey,
          fun hpermits => absurd hpermits (by simp)⟩
      | some p =>
        refine ⟨fun hpermits => absurd hpermits (by simp), fun _ => ?_⟩
        apply h.dropped hl hkey hmap
        intro heq
        rw [Option.some.inj heq] at hs
        exact hs (h.pending_mem (h.only _ _ hkey).1)
  | accept pObj =>
    dsimp only [step, acceptCompletion] at hok
    cases hrelate : (l.obj pObj).pRelateSock with
    | none =>
      rw [hrelate] at hok
      contradiction
    | some pSock =>
      rw [hrelate] at hok
      cases hok
      exact ⟨fun _ => h.completed hrelate, fun hpermits => absurd hpermits (by simp [drawsFresh])⟩
  | obj pObj =>
    refine ⟨fun _ => ?_, fun hpermits => absurd hpermits (by simp [drawsFresh])⟩
    dsimp only [step] at hok
    split at hok
    · cases hok
      exact h.releaseObj
    · cases hok
      exact h
  | sock pSock =>
    refine ⟨fun _ => ?_, fun hpermits => absurd hpermits (by simp [drawsFresh])⟩
    dsimp only [step] at hok
    split at hok
    · cases hok
      exact h.releaseSock
    · cases hok
      exact h

end Step

/-- The map of a listener stays exact along a run exactly as long as GetRand gives every socket
a key that no waiting socket has. -/
theorem pending_map_exact_iff (obj : ObjPtr → RecvObj) (sockObj : SockPtr → KeyValue)
    (conf : Conf (Listener × Unit) ListenTask) (evs : List ListenEvent)
    (h : Run (machine.watched drawsFresh) ((listening obj sockObj).watch ()) evs conf) :
    MapExact conf.shared.1 conf.tasks ∧ ∀ t rest ch l' new es, conf.tasks.Perm (t :: rest) →
      machine.allowed conf.shared.1 ch → machine.step conf.shared.1 t ch = .ok (l', new, es) →
        (drawsFresh.permits () conf.shared.1 t ch = true ↔ MapExact l' (new ++ rest)) := by
  have hinv : Tracked conf.shared.1 conf.tasks := by
    apply h.invariant (fun _ conf => Tracked conf.shared.1 conf.tasks)
    · refine ⟨List.Perm.refl _, List.nodup_nil, List.Perm.refl _, List.nodup_nil, ?_, ?_⟩
      · intro pSock hs
        contradiction
      · intro k pSock hk
        contradiction
    · intro evs conf es conf' hinv hstep
      cases hstep with
      | turn hp hfresh hok =>
        obtain ⟨hpermits, hstep, _⟩ := watched_step hok
        exact ((hinv.perm hp).step_iff hfresh hstep).1 hpermits
  refine ⟨hinv.exact, ?_⟩
  intro t rest ch l' new es hp hfresh hok
  obtain ⟨hkeeps, hbreaks⟩ := (hinv.perm hp).step_iff hfresh hok
  constructor
  · intro hpermits
    exact (hkeeps hpermits).exact
  · intro hexact
    cases hpermits : drawsFresh.permits () conf.shared.1 t ch with
    | false => exact absurd hexact (hbreaks hpermits)
    | true => rfl

/-- Every call of a PostAcceptEx works: it gets the objects `p` and the key `rand`. -/
def posts (p : ℕ) (rand : ℕ) : AcceptChoice :=
  ⟨.nc, some p, some p, BitVec.ofNat 64 (4*p+4), rand, true, false⟩

def blank : Conf Listener ListenTask :=
  listening (fun _ => ⟨Overlapped.zero, none, none, none⟩) (fun _ => ⟨0, INVALID_SOCKET⟩)

theorem two_accepts_exact : ∃ evs conf,
    Run (machine.watched drawsFresh) (blank.watch ()) evs conf ∧
      MapExact conf.shared.1 conf.tasks ∧ conf.tasks = [.acceptex, .accept 1, .accept 0] := by
  have hplay : (play (machine.watched drawsFresh) (blank.watch ())
      [(0, posts 0 5), (0, posts 1 6)]).map (fun r => r.2.tasks) =
        some [.acceptex, .accept 1, .accept 0] := by decide +kernel
  obtain ⟨evs, conf, hrun, htasks⟩ := play_reaches hplay
  exact ⟨evs, conf, hrun, (pending_map_exact_iff _ _ conf evs hrun).1, htasks⟩

/-- Two sockets with one key: the first has no entry although its AcceptEx is outstanding. -/
theorem pending_map_loses_entry : ∃ evs conf, Run machine blank evs conf ∧
    conf.tasks = [.acceptex, .accept 1, .accept 0] ∧ ¬MapExact conf.shared conf.tasks := by
  have hplay : (play machine blank [(0, posts 0 5), (0, posts 1 5)]).map
      (fun r => (r.2.tasks, r.2.tasks.flatMap (ListenTask.accepting r.2.shared),
        r.2.shared.acceptPendingMap)) = some ([.acceptex, .accept 1, .accept 0], [1, 0],
          Function.update (Function.update (fun _ => none) 5 (some 0)) 5 (some 1)) := rfl
  obtain ⟨evs, conf, hrun, hres⟩ := play_reaches hplay
  rw [Prod.mk.injEq, Prod.mk.injEq] at hres
  rcases hres with ⟨htasks, hwaiting, hmap⟩
  dsimp only at htasks hwaiting hmap
  refine ⟨evs, conf, hrun, htasks, ?_⟩
  intro hexact
  obtain ⟨k, hk⟩ := (hexact.values 0).mpr (by rw [hwaiting]; decide)
  rw [hmap, Function.update_idem] at hk
  rcases eq_or_ne k 5 with rfl | hne
  · rw [Function.update_self] at hk
    contradiction
  · rw [Function.update_of_ne hne] at hk
    contradiction

end Listener

end CustomersCard
