import CustomersCardMS.AcceptLoop
import CustomersCardMS.ListenHandles

namespace CustomersCard
open Interleaving

namespace PendingTable

variable {m : PendingTable} {k j : ℤ}

theorem find_filter : List.lookup j (m.filter (·.1 != k)) = if j = k then none else m.find j := by
  induction m with
  | nil => simp [find]
  | cons e m ih =>
    rcases e with ⟨i, p⟩
    simp only [find, List.lookup_cons] at ih ⊢
    by_cases hi : i = k
    · subst hi
      rw [List.filter_cons_of_neg (by simp), ih]
      split
      · rfl
      · case isFalse hj => rw [beq_false_of_ne hj]
    · rw [List.filter_cons_of_pos (by simpa using hi), List.lookup_cons, ih]
      by_cases hj : j = i
      · subst hj
        simp only [beq_self_eq_true, hi, ↓reduceIte]
      · rw [beq_false_of_ne hj]

theorem find_store (v : Option SockPtr) :
    (m.store k v).find j = if j = k then v else m.find j := by
  unfold store
  cases v with
  | none => exact find_filter
  | some p =>
    change List.lookup j ((k, p) :: m.filter (·.1 != k)) = _
    rw [List.lookup_cons, find_filter]
    by_cases hj : j = k
    · subst hj
      simp only [beq_self_eq_true, ↓reduceIte]
    · rw [if_neg hj, if_neg hj, beq_false_of_ne hj]

/-- A key has one node. -/
theorem keys_store (v : Option SockPtr) (h : (m.map Prod.fst).Nodup) :
    ((m.store k v).map Prod.fst).Nodup := by
  have hrest : ((m.filter (·.1 != k)).map Prod.fst).Nodup := h.sublist (List.filter_sublist.map _)
  cases v with
  | none => exact hrest
  | some p =>
    apply List.nodup_cons.mpr
    refine ⟨?_, hrest⟩
    intro hmem
    obtain ⟨e, he, hk⟩ := List.mem_map.mp hmem
    have hne := (List.mem_filter.mp he).2
    rw [hk] at hne
    simp at hne

theorem find_getElem {i : ℕ} {p : SockPtr} (h : m[i]? = some (k, p)) : (m.find k).isSome := by
  unfold find
  rw [List.lookup_isSome_iff]
  exact ⟨(k, p), List.mem_of_getElem? h, beq_self_eq_true k⟩

end PendingTable

namespace LoopTask

/-- The tasks of main, and those that read `i`. -/
def main : LoopTask → Bool
  | .accept .. | .obj _ | .sock _ => false
  | _ => true

def sweeping : LoopTask → Bool
  | .age _ | .close _ | .shut .. | .clear _ | .advance _ => true
  | _ => false

def objs : LoopTask → List ObjPtr
  | .accept _ pObj | .obj pObj => [pObj]
  | _ => []

def socks (l : Listener) : LoopTask → List SockPtr
  | .accept _ pObj => (l.obj pObj).pRelateSock.toList
  | .sock pSock => [pSock]
  | _ => []

/-- The handle that is closed, but not cleared. -/
def shutting (s : AcceptLoop) : LoopTask → List SOCKET
  | .clear _ => s.second.toList.map s.listener.sock
  | _ => []

/-- What the sweep has found out about the handle of its node. -/
def Aims (s : AcceptLoop) : LoopTask → Prop
  | .close _ => ∀ pSock ∈ s.second, s.listener.sock pSock ≠ INVALID_SOCKET
  | .shut _ h => h ≠ INVALID_SOCKET ∧ ∀ pSock ∈ s.second, s.listener.sock pSock = h
  | .clear _ => ∀ pSock ∈ s.second, s.listener.sock pSock ≠ INVALID_SOCKET
  | _ => True

end LoopTask

namespace AcceptLoop

/-- The node on which the iterator stands is gone. -/
def Dangling (s : AcceptLoop) : Prop := s.i.isSome ∧ s.second = none

/-- The worker threads take the AcceptEx of the node on which the iterator stands. -/
def disturbs (s : AcceptLoop) : LoopTask → Bool
  | .accept nIndex pObj =>
    s.i.isSome && decide (s.i = (s.listener.obj pObj).pRelateSock.map
      fun pSock => (nIndex, s.listener.nKey pSock))
  | _ => false

/-- allocRSock writes to what HeapAlloc has returned. -/
def outOfMemory (s : AcceptLoop) (t : LoopTask) (ch : LoopChoice) : Prop :=
  ∃ nIndex i, (t = .boot nIndex i ∨ t = .post nIndex i) ∧ s.fpAcceptex nIndex = .client ∧
    ch.accept.pSock = none

structure Accounted (s : AcceptLoop) (ts : List LoopTask) : Prop where
  sole : ts.countP LoopTask.main ≤ 1
  sweeps : ∀ t ∈ ts, t.main = true → t.sweeping = s.i.isSome
  -- What is in use is that of an AcceptEx or of a connection.
  objs : (ts.flatMap LoopTask.objs).Perm s.listener.objs
  distinctObjs : s.listener.objs.Nodup
  socks : (ts.flatMap (LoopTask.socks s.listener)).Perm s.listener.socks
  distinctSocks : s.listener.socks.Nodup
  related : ∀ nIndex pObj, .accept nIndex pObj ∈ ts → (s.listener.obj pObj).pRelateSock ≠ none
  -- A node is that of an AcceptEx of its listener.
  entry : ∀ nIndex k pSock, (s.acceptPendingMap nIndex).find k = some pSock →
    s.listener.nKey pSock = k ∧
      ∃ pObj, .accept nIndex pObj ∈ ts ∧ (s.listener.obj pObj).pRelateSock = some pSock
  -- Each open handle is in one socket object.
  handles : (s.listener.held s.listener.socks).Perm
    (s.listener.opened ++ ts.flatMap (LoopTask.shutting s))
  distinctHandles : (s.listener.held s.listener.socks).Nodup
  nonzero : 0 ∉ s.listener.held s.listener.socks
  blank : ∀ pSock ∉ s.listener.socks,
    s.listener.sock pSock = 0 ∨ s.listener.sock pSock = INVALID_SOCKET
  aims : ∀ t ∈ ts, t.Aims s
  keys : ∀ nIndex, ((s.acceptPendingMap nIndex).map Prod.fst).Nodup

section Turns

variable {s s' : AcceptLoop} {t u : LoopTask} {ts us rest new : List LoopTask} {ch : LoopChoice}
  {es : List ListenEvent} {pObj : ObjPtr} {pSock : SockPtr} {nIndex : ℕ} {k : ℤ}

theorem idle_passive (h : t.sweeping = false) : t.shutting s = [] ∧ t.Aims s := by
  cases t with
  | age _ | close _ | shut _ _ | clear _ | advance _ => contradiction
  | _ => exact ⟨rfl, trivial⟩

theorem worker_passive (h : t.main = false) : t.shutting s = [] ∧ t.Aims s := by
  apply idle_passive
  cases t with
  | accept _ _ | obj _ | sock _ => rfl
  | _ => contradiction

theorem main_owns (h : t.main = true) : t.objs = [] ∧ t.socks s.listener = [] := by
  cases t with
  | accept _ _ | obj _ | sock _ => contradiction
  | _ => exact ⟨rfl, rfl⟩

theorem accepting_sub (h : pSock ∈ (s.listener.obj pObj).pRelateSock)
    (ht : .accept nIndex pObj ∈ ts) : pSock ∈ ts.flatMap (LoopTask.socks s.listener) := by
  apply List.mem_flatMap.mpr
  refine ⟨_, ht, ?_⟩
  change pSock ∈ (s.listener.obj pObj).pRelateSock.toList
  exact Option.mem_toList.mpr h

theorem Accounted.perm (h : Accounted s ts) (hp : ts.Perm us) : Accounted s us where
  sole := (hp.countP_eq _).symm.trans_le h.sole
  sweeps u hu := h.sweeps u (hp.mem_iff.mpr hu)
  objs := (hp.flatMap_right _).symm.trans h.objs
  distinctObjs := h.distinctObjs
  socks := (hp.flatMap_right _).symm.trans h.socks
  distinctSocks := h.distinctSocks
  related nIndex pObj hu := h.related nIndex pObj (hp.mem_iff.mpr hu)
  entry := by
    intro nIndex k pSock hk
    obtain ⟨hkey, pObj, hmem, hrelate⟩ := h.entry nIndex k pSock hk
    exact ⟨hkey, pObj, hp.mem_iff.mp hmem, hrelate⟩
  handles := h.handles.trans ((hp.flatMap_right _).append_left _)
  distinctHandles := h.distinctHandles
  nonzero := h.nonzero
  blank := h.blank
  aims u hu := h.aims u (hp.mem_iff.mpr hu)
  keys := h.keys

theorem second_eq (h : s.second = some pSock) :
    ∃ nIndex k, s.i = some (nIndex, k) ∧ (s.acceptPendingMap nIndex).find k = some pSock := by
  unfold second at h
  rcases Option.bind_eq_some_iff.mp h with ⟨⟨nIndex, k⟩, hi, hk⟩
  exact ⟨nIndex, k, hi, hk⟩

theorem Accounted.second_accepting (h : Accounted s ts) (hs : s.second = some pSock) :
    ∃ nIndex pObj, s.i = some (nIndex, s.listener.nKey pSock) ∧ .accept nIndex pObj ∈ ts ∧
      (s.listener.obj pObj).pRelateSock = some pSock := by
  obtain ⟨nIndex, k, hi, hk⟩ := second_eq hs
  obtain ⟨hkey, pObj, hmem, hrelate⟩ := h.entry nIndex k pSock hk
  rw [hkey]
  exact ⟨nIndex, pObj, hi, hmem, hrelate⟩

theorem Accounted.accepting_mem (h : Accounted s ts) (ht : .accept nIndex pObj ∈ ts)
    (hrelate : (s.listener.obj pObj).pRelateSock = some pSock) : pSock ∈ s.listener.socks :=
  h.socks.mem_iff.mp (accepting_sub hrelate ht)

theorem Accounted.second_mem (h : Accounted s ts) (hs : s.second = some pSock) :
    pSock ∈ s.listener.socks := by
  obtain ⟨_, _, _, hmem, hrelate⟩ := h.second_accepting hs
  exact h.accepting_mem hmem hrelate

/-- While main takes a turn, the others are worker threads. -/
theorem Accounted.workers (h : Accounted s (t :: rest)) (ht : t.main = true) (hu : u ∈ rest) :
    u.main = false := by
  have hsole := h.sole
  rw [List.countP_cons_of_pos ht] at hsole
  have hnone : rest.countP LoopTask.main = 0 := by omega
  exact Bool.eq_false_iff.mpr (List.countP_eq_zero.mp hnone u hu)

theorem Accounted.unshut (h : Accounted s (t :: rest)) (ht : t.main = true) :
    rest.flatMap (LoopTask.shutting s') = [] := by
  rw [List.flatMap_eq_nil_iff]
  intro u hu
  exact (worker_passive (h.workers ht hu)).1

/-- The handle of the node is open, unless it has been closed a moment ago. -/
theorem Accounted.opened_eq (h : Accounted s (t :: rest)) (ht : t.main = true) :
    (s.listener.held s.listener.socks).Perm (s.listener.opened ++ t.shutting s) := by
  have hhandles := h.handles
  rw [List.flatMap_cons, h.unshut ht, List.append_nil] at hhandles
  exact hhandles

/-- What a turn of main other than PostAcceptEx leaves alone. -/
structure Untouched (s s' : AcceptLoop) : Prop where
  objs : s'.listener.objs = s.listener.objs
  socks : s'.listener.socks = s.listener.socks
  obj : s'.listener.obj = s.listener.obj
  nKey : ∀ pSock, s'.listener.nKey pSock = s.listener.nKey pSock
  others : ∀ pSock ∉ s.listener.socks, s'.listener.sock pSock = s.listener.sock pSock
  acceptPendingMap : s'.acceptPendingMap = s.acceptPendingMap

/-- A turn of main, with what it has to show of the task that continues it. -/
theorem Accounted.mains (h : Accounted s (t :: rest)) (ht : t.main = true) (hl : Untouched s s')
    (hu : u.main = true) (hsweep : u.sweeping = s'.i.isSome) (haims : u.Aims s')
    (hheld : (s'.listener.held s.listener.socks).Perm (s'.listener.opened ++ u.shutting s'))
    (hsub : (s'.listener.held s.listener.socks).Subperm (s.listener.held s.listener.socks)) :
    Accounted s' ([u] ++ rest) := by
  have hsole : rest.countP LoopTask.main = 0 := by
    apply List.countP_eq_zero.mpr
    intro v hv
    rw [h.workers ht hv]
    exact Bool.false_ne_true
  have hobjs := h.objs
  have hsocks := h.socks
  rw [List.flatMap_cons, (main_owns (s := s) ht).1] at hobjs
  rw [List.flatMap_cons, (main_owns ht).2] at hsocks
  constructor
  · rw [List.singleton_append, List.countP_cons_of_pos hu, hsole]
  · intro v hv hmain
    rcases List.mem_cons.mp hv with rfl | hv
    · exact hsweep
    · rw [h.workers ht hv] at hmain
      contradiction
  · rw [List.singleton_append, List.flatMap_cons, (main_owns (s := s) hu).1, hl.objs]
    exact hobjs
  · rw [hl.objs]
    exact h.distinctObjs
  · rw [List.singleton_append, List.flatMap_cons, (main_owns hu).2, hl.socks]
    have hsame : LoopTask.socks s'.listener = LoopTask.socks s.listener := by
      funext v
      cases v <;> simp only [LoopTask.socks, hl.obj]
    rw [hsame]
    exact hsocks
  · rw [hl.socks]
    exact h.distinctSocks
  · intro nIndex pObj hmem
    rw [hl.obj]
    apply h.related nIndex pObj
    rcases List.mem_cons.mp hmem with rfl | hmem
    · contradiction
    · exact List.mem_cons_of_mem _ hmem
  · intro nIndex k pSock hk
    rw [hl.acceptPendingMap] at hk
    obtain ⟨hkey, pObj, hmem, hrelate⟩ := h.entry nIndex k pSock hk
    rw [hl.nKey, hl.obj]
    refine ⟨hkey, pObj, ?_, hrelate⟩
    rcases List.mem_cons.mp hmem with rfl | hmem
    · contradiction
    · exact List.mem_cons_of_mem _ hmem
  · rw [hl.socks, List.singleton_append, List.flatMap_cons, h.unshut ht, List.append_nil]
    exact hheld
  · rw [hl.socks]
    obtain ⟨_, hperm, hsublist⟩ := hsub
    exact hperm.nodup_iff.mp (h.distinctHandles.sublist hsublist)
  · rw [hl.socks]
    intro hmem
    exact h.nonzero (hsub.subset hmem)
  · intro pSock hp
    rw [hl.socks] at hp
    rw [hl.others pSock hp]
    exact h.blank pSock hp
  · intro v hv
    rcases List.mem_cons.mp hv with rfl | hv
    · exact haims
    · exact (worker_passive (h.workers ht hv)).2
  · rw [hl.acceptPendingMap]
    exact h.keys

/-- The iterator moves, and nothing else changes. -/
theorem Accounted.moves (h : Accounted s (t :: rest)) (ht : t.main = true) {i : Option (ℕ × ℤ)}
    (hshut : t.shutting s = []) (hu : u.main = true) (hunshut : u.shutting { s with i } = [])
    (hsweep : u.sweeping = i.isSome) (haims : u.Aims { s with i }) :
    Accounted { s with i } ([u] ++ rest) := by
  have hl : Untouched s { s with i } := ⟨rfl, rfl, rfl, fun _ => rfl, fun _ _ => rfl, rfl⟩
  apply h.mains ht hl hu hsweep haims
  · have hheld := h.opened_eq ht
    rw [hshut] at hheld
    rw [hunshut]
    exact hheld
  · exact List.Subperm.refl _

theorem Accounted.exits (h : Accounted s (t :: rest)) (ht : t.main = true)
    (hshut : t.shutting s = []) : Accounted { s with exited := true } ([] ++ rest) := by
  have hobjs := h.objs
  have hsocks := h.socks
  have hsole := h.sole
  rw [List.flatMap_cons, (main_owns (s := s) ht).1] at hobjs
  rw [List.flatMap_cons, (main_owns ht).2] at hsocks
  rw [List.countP_cons_of_pos ht] at hsole
  refine ⟨(Nat.le_succ _).trans hsole, ?_, hobjs, h.distinctObjs, hsocks, h.distinctSocks, ?_, ?_,
    ?_, h.distinctHandles, h.nonzero, h.blank, ?_, h.keys⟩
  · intro v hv hmain
    rw [h.workers ht hv] at hmain
    contradiction
  · intro nIndex pObj hmem
    exact h.related nIndex pObj (List.mem_cons_of_mem _ hmem)
  · intro nIndex k pSock hk
    obtain ⟨hkey, pObj, hmem, hrelate⟩ := h.entry nIndex k pSock hk
    refine ⟨hkey, pObj, ?_, hrelate⟩
    rcases List.mem_cons.mp hmem with rfl | hmem
    · contradiction
    · exact hmem
  · have hheld := h.opened_eq ht
    rw [hshut] at hheld
    rw [List.nil_append, h.unshut ht]
    exact hheld
  · intro v hv
    exact (worker_passive (h.workers ht hv)).2

/-- closesocket of the sweep. -/
theorem Accounted.shuts {sock : SOCKET} (h : Accounted s (.shut nIndex sock :: rest))
    (hs : s.second = some pSock) :
    Accounted (s.setListener (s.listener.closesocket sock)) ([.clear nIndex] ++ rest) := by
  have hopened := h.opened_eq rfl
  obtain ⟨hvalid, haims⟩ := h.aims _ List.mem_cons_self
  have hsock : s.listener.sock pSock = sock := haims pSock hs
  rw [← hsock] at hvalid ⊢
  have hmem : s.listener.sock pSock ∈ s.listener.opened := by
    have happend := hopened.mem_iff.mp (Listener.mem_held.mpr ⟨hvalid, pSock, h.second_mem hs, rfl⟩)
    exact (List.mem_append.mp happend).resolve_right List.not_mem_nil
  have hl : Untouched s (s.setListener (s.listener.closesocket (s.listener.sock pSock))) :=
    ⟨rfl, rfl, rfl, fun _ => rfl, fun _ _ => rfl, rfl⟩
  have hsweep : (LoopTask.clear nIndex).sweeping = s.i.isSome :=
    h.sweeps (.shut nIndex sock) List.mem_cons_self rfl
  apply h.mains rfl hl rfl hsweep
  · intro p hp
    have heq : p = pSock := Option.some.inj (hp.symm.trans hs)
    rw [heq]
    exact hvalid
  · have hshut : LoopTask.shutting (s.setListener (s.listener.closesocket (s.listener.sock pSock)))
        (.clear nIndex) = [s.listener.sock pSock] := by
      change s.second.toList.map s.listener.sock = _
      rw [hs]
      rfl
    rw [hshut]
    apply hopened.trans
    change (s.listener.opened ++ []).Perm (s.listener.opened.erase _ ++ [_])
    rw [List.append_nil]
    exact (List.perm_cons_erase hmem).trans (List.perm_append_singleton _ _).symm
  · exact List.Subperm.refl _

/-- `sock = INVALID_SOCKET` of the sweep. -/
theorem Accounted.clears (h : Accounted s (.clear nIndex :: rest)) (hs : s.second = some pSock) :
    Accounted (s.setListener (s.listener.setSock pSock
      { s.listener.sockObj pSock with sock := INVALID_SOCKET })) ([.advance nIndex] ++ rest) := by
  have hopened := h.opened_eq rfl
  have hshut : LoopTask.shutting s (.clear nIndex) = [s.listener.sock pSock] := by
    change s.second.toList.map s.listener.sock = _
    rw [hs]
    rfl
  have hvalid : s.listener.sock pSock ≠ INVALID_SOCKET := h.aims _ List.mem_cons_self pSock hs
  have hcleared : (s.listener.held s.listener.socks).Perm (s.listener.sock pSock ::
      (s.listener.setSock pSock { s.listener.sockObj pSock with sock := INVALID_SOCKET }).held
        s.listener.socks) :=
    Listener.held_cleared h.distinctSocks (h.second_mem hs) hvalid (Listener.setSock_sock _)
      fun q hq => Listener.setSock_others _ hq
  have hl : Untouched s (s.setListener (s.listener.setSock pSock
      { s.listener.sockObj pSock with sock := INVALID_SOCKET })) := by
    refine ⟨rfl, rfl, rfl, ?_, ?_, rfl⟩
    · intro p
      rcases eq_or_ne p pSock with rfl | hp
      · rw [setListener, Listener.setSock_nKey]
        rfl
      · exact (Listener.setSock_apart 0 _).nKey p hp
    · intro p hp
      apply Listener.setSock_others
      rintro rfl
      exact hp (h.second_mem hs)
  have hsweep : (LoopTask.advance nIndex).sweeping = s.i.isSome :=
    h.sweeps (.clear nIndex) List.mem_cons_self rfl
  apply h.mains rfl hl rfl hsweep trivial
  · rw [hshut] at hopened
    apply List.Perm.cons_inv (a := s.listener.sock pSock)
    apply hcleared.symm.trans
    apply hopened.trans
    change (s.listener.opened ++ [_]).Perm (_ :: (s.listener.opened ++ []))
    rw [List.append_nil]
    exact List.perm_append_singleton _ _
  · exact (List.sublist_cons_self _ _).subperm.trans hcleared.symm.subperm

/-- The socket object of a connection is not that of the node. -/
theorem Accounted.apart {p : SockPtr} (h : Accounted s (.sock pSock :: rest))
    (hs : s.second = some p) : p ≠ pSock := by
  rintro rfl
  obtain ⟨nIndex, pObj, _, hmem, hrelate⟩ := h.second_accepting hs
  have hnodup : (p :: rest.flatMap (LoopTask.socks s.listener)).Nodup :=
    h.socks.nodup_iff.mpr h.distinctSocks
  apply (List.nodup_cons.mp hnodup).1
  apply accepting_sub hrelate
  exact (List.mem_cons.mp hmem).resolve_left (by simp)

theorem Accounted.sock_mem (h : Accounted s (.sock pSock :: rest)) :
    pSock ∈ s.listener.socks :=
  h.socks.mem_iff.mp List.mem_cons_self

/-- A connection gives its object back. -/
theorem Accounted.freesObj (h : Accounted s (.obj pObj :: rest)) :
    Accounted (s.setListener (s.listener.freeObj pObj)) ([] ++ rest) := by
  have hmem (u : LoopTask) (hu : u ∈ [] ++ rest) : u ∈ .obj pObj :: rest :=
    List.mem_cons_of_mem _ hu
  have hperm : (pObj :: rest.flatMap LoopTask.objs).Perm s.listener.objs := h.objs
  refine ⟨h.sole, fun u hu => h.sweeps u (hmem u hu), ?_, h.distinctObjs.erase pObj, h.socks,
    h.distinctSocks, fun n p hu => h.related n p (hmem _ hu), ?_, h.handles, h.distinctHandles,
    h.nonzero, h.blank, fun u hu => h.aims u (hmem u hu), h.keys⟩
  · have herase := hperm.erase pObj
    rw [List.erase_cons_head] at herase
    exact herase
  · intro n k p hk
    obtain ⟨hkey, q, hq, hrelate⟩ := h.entry n k p hk
    exact ⟨hkey, q, (List.mem_cons.mp hq).resolve_left (by simp), hrelate⟩

/-- A connection closes its handle. -/
theorem Accounted.closes (h : Accounted s (.sock pSock :: rest)) :
    Accounted (s.setListener (s.listener.cmCloseSocket pSock)) (.sock pSock :: rest) := by
  obtain ⟨hobjs, hsocks, hobj, _⟩ := Listener.cmCloseSocket_keeps s.listener pSock
  have hothers (p : SockPtr) (hp : p ≠ pSock) :
      (s.listener.cmCloseSocket pSock).sock p = s.listener.sock p :=
    Listener.cmCloseSocket_others hp
  -- The node that the iterator stands on is that of an accept, whose socket is another one.
  have hnode (p : SockPtr) (hp : s.second = some p) :
      (s.listener.cmCloseSocket pSock).sock p = s.listener.sock p := hothers p (h.apart hp)
  have hshut : LoopTask.shutting (s.setListener (s.listener.cmCloseSocket pSock)) =
      LoopTask.shutting s := by
    funext u
    cases u with
    | clear _ =>
      change s.second.toList.map (s.listener.cmCloseSocket pSock).sock =
        s.second.toList.map s.listener.sock
      apply List.map_congr_left
      intro p hp
      exact hnode p (Option.mem_toList.mp hp)
    | _ => rfl
  have haims (u : LoopTask) (hu : u.Aims s) :
      u.Aims (s.setListener (s.listener.cmCloseSocket pSock)) := by
    cases u with
    | close _ | clear _ =>
      intro p hp
      change (s.listener.cmCloseSocket pSock).sock p ≠ _
      rw [hnode p hp]
      exact hu p hp
    | shut _ sock =>
      refine ⟨hu.1, ?_⟩
      intro p hp
      exact (hnode p hp).trans (hu.2 p hp)
    | _ => trivial
  -- What the sweep is about to store over is another handle as well.
  have hnotShut : s.listener.sock pSock ∉
      (LoopTask.sock pSock :: rest).flatMap (LoopTask.shutting s) := by
    intro hmem
    obtain ⟨u, hu, hsock⟩ := List.mem_flatMap.mp hmem
    cases u with
    | clear n =>
      obtain ⟨p, hp, heq⟩ := List.mem_map.mp hsock
      have hsecond : s.second = some p := Option.mem_toList.mp hp
      have hvalid : s.listener.sock p ≠ INVALID_SOCKET := h.aims _ hu p hsecond
      have hsame := Listener.held_inj h.distinctHandles (h.second_mem hsecond) h.sock_mem hvalid
        heq.symm
      exact h.apart hsecond hsame.symm
    | _ => contradiction
  have hsub := Listener.held_subperm (l := s.listener) h.distinctSocks h.sock_mem
  constructor
  · exact h.sole
  · exact h.sweeps
  · exact h.objs.trans (List.Perm.of_eq hobjs.symm)
  · change (s.listener.cmCloseSocket pSock).objs.Nodup
    rw [hobjs]
    exact h.distinctObjs
  · have hsame : LoopTask.socks (s.listener.cmCloseSocket pSock) = LoopTask.socks s.listener := by
      funext u
      cases u <;> simp only [LoopTask.socks, hobj]
    change (_ : List SockPtr).Perm (s.listener.cmCloseSocket pSock).socks
    rw [hsocks]
    change (List.flatMap (LoopTask.socks (s.listener.cmCloseSocket pSock)) _).Perm _
    rw [hsame]
    exact h.socks
  · change (s.listener.cmCloseSocket pSock).socks.Nodup
    rw [hsocks]
    exact h.distinctSocks
  · intro n p hu
    change ((s.listener.cmCloseSocket pSock).obj p).pRelateSock ≠ none
    rw [hobj]
    exact h.related n p hu
  · intro n k p hk
    change (s.listener.cmCloseSocket pSock).nKey p = k ∧
      ∃ q, _ ∧ ((s.listener.cmCloseSocket pSock).obj q).pRelateSock = some p
    rw [Listener.cmCloseSocket_nKey, hobj]
    exact h.entry n k p hk
  · change ((s.listener.cmCloseSocket pSock).held (s.listener.cmCloseSocket pSock).socks).Perm _
    rw [hsocks, hshut]
    exact Listener.held_closed h.distinctSocks h.sock_mem h.handles hnotShut
  · change ((s.listener.cmCloseSocket pSock).held (s.listener.cmCloseSocket pSock).socks).Nodup
    rw [hsocks]
    obtain ⟨_, hperm, hsublist⟩ := hsub
    exact hperm.nodup_iff.mp (h.distinctHandles.sublist hsublist)
  · change 0 ∉ (s.listener.cmCloseSocket pSock).held (s.listener.cmCloseSocket pSock).socks
    rw [hsocks]
    intro hmem
    exact h.nonzero (hsub.subset hmem)
  · intro p hp
    change p ∉ (s.listener.cmCloseSocket pSock).socks at hp
    rw [hsocks] at hp
    have hne : p ≠ pSock := by
      rintro rfl
      exact hp h.sock_mem
    change (s.listener.cmCloseSocket pSock).sock p = 0 ∨ _
    rw [setListener, hothers p hne]
    exact h.blank p hp
  · intro u hu
    exact haims u (h.aims u hu)
  · exact h.keys

/-- A connection gives back a socket object that holds no handle. -/
theorem Accounted.freesSock (h : Accounted s (.sock pSock :: rest))
    (hinvalid : s.listener.sock pSock = INVALID_SOCKET) :
    Accounted (s.setListener (s.listener.freeSock pSock)) ([] ++ rest) := by
  have hmem (u : LoopTask) (hu : u ∈ [] ++ rest) : u ∈ .sock pSock :: rest :=
    List.mem_cons_of_mem _ hu
  have hperm : (pSock :: rest.flatMap (LoopTask.socks s.listener)).Perm s.listener.socks := h.socks
  have hfreed : (s.listener.held (s.listener.socks.erase pSock)).Perm
      (s.listener.held s.listener.socks) := Listener.held_freed hinvalid
  refine ⟨h.sole, fun u hu => h.sweeps u (hmem u hu), h.objs, h.distinctObjs, ?_,
    h.distinctSocks.erase pSock, fun n p hu => h.related n p (hmem _ hu), ?_,
    hfreed.trans h.handles, hfreed.nodup_iff.mpr h.distinctHandles,
    fun hzero => h.nonzero (hfreed.subset hzero), ?_, fun u hu => h.aims u (hmem u hu), h.keys⟩
  · have herase := hperm.erase pSock
    rw [List.erase_cons_head] at herase
    exact herase
  · intro n k p hk
    obtain ⟨hkey, q, hq, hrelate⟩ := h.entry n k p hk
    exact ⟨hkey, q, (List.mem_cons.mp hq).resolve_left (by simp), hrelate⟩
  · intro p hp
    rcases eq_or_ne p pSock with rfl | hne
    · exact Or.inr hinvalid
    · apply h.blank p
      intro hin
      exact hp ((List.mem_erase_of_ne hne).mpr hin)

theorem putLSock_find (l : Listener) (n : ℕ) (j : ℤ) :
    ((s.putLSock nIndex k l).acceptPendingMap n).find j =
      if n = nIndex ∧ j = k then l.acceptPendingMap k else (s.acceptPendingMap n).find j := by
  change (Function.update s.acceptPendingMap nIndex _ n).find j = _
  rcases eq_or_ne n nIndex with rfl | hn
  · rw [Function.update_self, PendingTable.find_store]
    simp
  · rw [Function.update_of_ne hn, if_neg (by simp [hn])]

theorem putLSock_keys (l : Listener)
    (h : ∀ n, ((s.acceptPendingMap n).map Prod.fst).Nodup) (n : ℕ) :
    (((s.putLSock nIndex k l).acceptPendingMap n).map Prod.fst).Nodup := by
  change ((Function.update s.acceptPendingMap nIndex _ n).map Prod.fst).Nodup
  rcases eq_or_ne n nIndex with rfl | hn
  · rw [Function.update_self]
    exact PendingTable.keys_store _ (h n)
  · rw [Function.update_of_ne hn]
    exact h n

/-- What DeleteFromPendingMap leaves, seen from the iterator. -/
theorem erased_second {l : Listener} (hl : l.acceptPendingMap k = none) :
    (s.putLSock nIndex k l).second = if s.i = some (nIndex, k) then none else s.second := by
  unfold second
  change s.i.bind (fun r => ((s.putLSock nIndex k l).acceptPendingMap r.1).find r.2) = _
  cases hi : s.i with
  | none => rfl
  | some r =>
    rcases r with ⟨n, j⟩
    rw [Option.bind_some, Option.bind_some, putLSock_find, hl]
    simp only [Option.some.injEq, Prod.mk.injEq]

/-- The completion of an AcceptEx whose node the iterator does not stand on. -/
theorem Accounted.completes {l : Listener} (h : Accounted s (.accept nIndex pObj :: rest))
    (hrelate : (s.listener.obj pObj).pRelateSock = some pSock)
    (hl : l = (s.lsock nIndex).deleteFromPendingMap pSock)
    (hi : s.i ≠ some (nIndex, s.listener.nKey pSock)) :
    Accounted (s.putLSock nIndex (s.listener.nKey pSock) l) ([.obj pObj, .sock pSock] ++ rest) := by
  have hnone : l.acceptPendingMap (s.listener.nKey pSock) = none := by
    rw [hl]
    exact Function.update_self _ _ _
  -- The iterator stands on another node, which stays.
  have hsecond : (s.putLSock nIndex (s.listener.nKey pSock) l).second = s.second := by
    rw [erased_second hnone, if_neg hi]
  have hfind (n : ℕ) (j : ℤ) (p : SockPtr) (hp : ((s.putLSock nIndex (s.listener.nKey pSock)
      l).acceptPendingMap n).find j = some p) : ¬(n = nIndex ∧ j = s.listener.nKey pSock) ∧
        (s.acceptPendingMap n).find j = some p := by
    rw [putLSock_find] at hp
    split at hp
    · rw [hnone] at hp
      contradiction
    · case isFalse hne => exact ⟨hne, hp⟩
  have hmem (u : LoopTask) (hmain : u.main = true)
      (hu : u ∈ [.obj pObj, .sock pSock] ++ rest) : u ∈ rest := by
    rcases List.mem_append.mp hu with hu | hu
    · rcases List.mem_pair.mp hu with rfl | rfl <;> contradiction
    · exact hu
  have hshut : LoopTask.shutting (s.putLSock nIndex (s.listener.nKey pSock) l) =
      LoopTask.shutting s := by
    funext u
    cases u with
    | clear _ =>
      change (s.putLSock nIndex (s.listener.nKey pSock) l).second.toList.map l.sock = _
      rw [hsecond, hl]
      rfl
    | _ => rfl
  have hsocks : (LoopTask.accept nIndex pObj).socks s.listener = [pSock] := by
    change (s.listener.obj pObj).pRelateSock.toList = _
    rw [hrelate]
    rfl
  have hperm := h.socks
  rw [List.flatMap_cons, hsocks] at hperm
  subst hl
  refine ⟨h.sole, ?_, h.objs, h.distinctObjs, hperm, h.distinctSocks, ?_, ?_, ?_,
    h.distinctHandles, h.nonzero, h.blank, ?_, putLSock_keys _ h.keys⟩
  · intro u hu hmain
    exact h.sweeps u (List.mem_cons_of_mem _ (hmem u hmain hu)) hmain
  · intro n p hu
    apply h.related n p
    exact List.mem_cons_of_mem _ ((List.mem_append.mp hu).resolve_left (by simp))
  · intro n j p hp
    obtain ⟨hne, hp⟩ := hfind n j p hp
    obtain ⟨hkey, q, hq, hrelated⟩ := h.entry n j p hp
    refine ⟨hkey, q, ?_, hrelated⟩
    rcases List.mem_cons.mp hq with heq | hq
    · rw [LoopTask.accept.injEq] at heq
      rcases heq with ⟨rfl, rfl⟩
      have hsame := hrelated.symm.trans hrelate
      rw [Option.some.inj hsame] at hkey
      exact absurd ⟨rfl, hkey.symm⟩ hne
    · exact List.mem_append_right _ hq
  · rw [hshut]
    exact h.handles
  · intro u hu
    rcases List.mem_append.mp hu with hu | hu
    · rcases List.mem_pair.mp hu with rfl | rfl <;> trivial
    · have haims := h.aims u (List.mem_cons_of_mem _ hu)
      cases u with
      | close _ | clear _ =>
        intro p hp
        rw [hsecond] at hp
        exact haims p hp
      | shut _ _ =>
        refine ⟨haims.1, ?_⟩
        intro p hp
        rw [hsecond] at hp
        exact haims.2 p hp
      | _ => trivial

/-- The tasks see the objects that they know. -/
theorem Accounted.known {l : Listener} (h : Accounted s (t :: rest)) (ht : t.main = true)
    (hleaves : Listener.Leaves s.listener l) :
    (∀ u ∈ rest, u.socks l = u.socks s.listener) ∧
      (rest.flatMap LoopTask.objs).Perm s.listener.objs ∧
      (rest.flatMap (LoopTask.socks s.listener)).Perm s.listener.socks := by
  have hobjs := h.objs
  have hsocks := h.socks
  rw [List.flatMap_cons, (main_owns (s := s) ht).1] at hobjs
  rw [List.flatMap_cons, (main_owns ht).2] at hsocks
  refine ⟨?_, hobjs, hsocks⟩
  intro u hu
  cases u with
  | accept n p =>
    have hmem : p ∈ s.listener.objs :=
      hobjs.mem_iff.mp (List.mem_flatMap.mpr ⟨_, hu, List.mem_singleton_self _⟩)
    simp only [LoopTask.socks, hleaves.relate p hmem]
  | _ => rfl

/-- The accepts that were outstanding before main took a turn still are. -/
theorem Accounted.entries {l : Listener} (h : Accounted s (t :: rest)) (ht : t.main = true)
    (hleaves : Listener.Leaves s.listener l) {n : ℕ} {j : ℤ} {p : SockPtr}
    (hp : (s.acceptPendingMap n).find j = some p) :
    l.nKey p = j ∧ ∃ q, .accept n q ∈ rest ∧ (l.obj q).pRelateSock = some p := by
  obtain ⟨hkey, q, hq, hrelate⟩ := h.entry n j p hp
  have hobj : q ∈ s.listener.objs :=
    h.objs.mem_iff.mp (List.mem_flatMap.mpr ⟨_, hq, List.mem_singleton_self _⟩)
  refine ⟨(hleaves.nKey p (h.accepting_mem hq hrelate)).trans hkey, q, ?_,
    (hleaves.relate q hobj).trans hrelate⟩
  rcases List.mem_cons.mp hq with heq | hq
  · rw [← heq] at ht
    contradiction
  · exact hq

theorem Accounted.relates {l : Listener} (h : Accounted s (t :: rest))
    (hleaves : Listener.Leaves s.listener l) {n : ℕ} {q : ObjPtr} (hq : .accept n q ∈ rest) :
    (l.obj q).pRelateSock ≠ none := by
  have hmem : LoopTask.accept n q ∈ t :: rest := List.mem_cons_of_mem _ hq
  have hobj : q ∈ s.listener.objs :=
    h.objs.mem_iff.mp (List.mem_flatMap.mpr ⟨_, hmem, List.mem_singleton_self _⟩)
  rw [hleaves.relate q hobj]
  exact h.related n q hmem

/-- Between two sweeps nobody has an eye on a node. -/
theorem Accounted.idle (h : Accounted s (t :: rest)) (ht : t.main = true)
    (hidle : t.sweeping = false) : s.i = none ∧
      (s.listener.held s.listener.socks).Perm s.listener.opened := by
  have hsweep := h.sweeps t List.mem_cons_self ht
  rw [hidle] at hsweep
  have hopened := h.opened_eq ht
  rw [(idle_passive hidle).1, List.append_nil] at hopened
  exact ⟨Option.isSome_eq_false_iff.mp hsweep.symm |> Option.isNone_iff_eq_none.mp, hopened⟩

/-- A call of PostAcceptEx that fails. -/
theorem Accounted.refused {l : Listener} (h : Accounted s (t :: rest)) (ht : t.main = true)
    (hidle : t.sweeping = false) (hu : u.main = true) (husweep : u.sweeping = false)
    (hleaves : Listener.Leaves s.listener l) (hleft : l.opened = s.listener.opened)
    (hobjs : l.objs = s.listener.objs) (hsocks : l.socks = s.listener.socks)
    (hsock : ∀ p ∈ s.listener.socks, l.sock p = s.listener.sock p)
    (hblank : ∀ p ∉ s.listener.socks, l.sock p = 0 ∨ l.sock p = INVALID_SOCKET)
    (hmap : ∀ p, l.acceptPendingMap k = some p → (s.acceptPendingMap nIndex).find k = some p) :
    Accounted (s.putLSock nIndex k l) ([u] ++ rest) := by
  obtain ⟨hrest, hrestObjs, hrestSocks⟩ := h.known ht hleaves
  obtain ⟨hi, hopened⟩ := h.idle ht hidle
  have hheld : l.held s.listener.socks = s.listener.held s.listener.socks :=
    Listener.held_congr hsock
  constructor
  · have hsole := h.sole
    rw [List.countP_cons_of_pos ht] at hsole
    rw [List.singleton_append, List.countP_cons_of_pos hu]
    exact hsole
  · intro v hv hmain
    rcases List.mem_cons.mp hv with rfl | hv
    · rw [husweep]
      exact (congrArg Option.isSome hi).symm
    · rw [h.workers ht hv] at hmain
      contradiction
  · rw [List.singleton_append, List.flatMap_cons, (main_owns (s := s) hu).1]
    exact hrestObjs.trans (List.Perm.of_eq hobjs.symm)
  · change l.objs.Nodup
    rw [hobjs]
    exact h.distinctObjs
  · rw [List.singleton_append, List.flatMap_cons, (main_owns hu).2]
    change (rest.flatMap (LoopTask.socks l)).Perm l.socks
    rw [List.flatMap_congr hrest, hsocks]
    exact hrestSocks
  · change l.socks.Nodup
    rw [hsocks]
    exact h.distinctSocks
  · intro n q hq
    rcases List.mem_cons.mp hq with rfl | hq
    · contradiction
    · exact h.relates hleaves hq
  · intro n j p hp
    have hfound : (s.acceptPendingMap n).find j = some p := by
      rw [putLSock_find] at hp
      split at hp
      · case isTrue heq =>
        rw [heq.1, heq.2]
        exact hmap p hp
      · exact hp
    obtain ⟨hkey, q, hq, hrelate⟩ := h.entries ht hleaves hfound
    exact ⟨hkey, q, List.mem_cons_of_mem _ hq, hrelate⟩
  · rw [List.singleton_append, List.flatMap_cons, (idle_passive husweep).1, h.unshut ht]
    change (l.held l.socks).Perm (l.opened ++ _)
    rw [hsocks, hheld, hleft]
    exact hopened.trans (List.Perm.of_eq (List.append_nil _).symm)
  · change (l.held l.socks).Nodup
    rw [hsocks, hheld]
    exact h.distinctHandles
  · change 0 ∉ l.held l.socks
    rw [hsocks, hheld]
    exact h.nonzero
  · change ∀ p ∉ l.socks, _
    rw [hsocks]
    exact hblank
  · intro v hv
    rcases List.mem_cons.mp hv with rfl | hv
    · exact (idle_passive husweep).2
    · exact (worker_passive (h.workers ht hv)).2
  · exact putLSock_keys l h.keys

/-- A call of PostAcceptEx that leaves an AcceptEx outstanding. -/
theorem Accounted.accepts {l : Listener} (h : Accounted s (t :: rest)) (ht : t.main = true)
    (hidle : t.sweeping = false) (hu : u.main = true) (husweep : u.sweeping = false)
    (hleaves : Listener.Leaves s.listener l) (hobj : pObj ∉ s.listener.objs)
    (hsock : pSock ∉ s.listener.socks) (hobjs : l.objs = pObj :: s.listener.objs)
    (hsocks : l.socks = pSock :: s.listener.socks)
    (hrelate : (l.obj pObj).pRelateSock = some pSock) (hkey : l.nKey pSock = k)
    (hopens : l.opened = l.sock pSock :: s.listener.opened)
    (hfresh : l.sock pSock ∉ s.listener.opened) (hvalid : l.sock pSock ≠ INVALID_SOCKET)
    (hnonzero : l.sock pSock ≠ 0) (hothers : ∀ p ≠ pSock, l.sock p = s.listener.sock p)
    (hmap : l.acceptPendingMap k = some pSock) :
    Accounted (s.putLSock nIndex k l) ([u, .accept nIndex pObj] ++ rest) := by
  obtain ⟨hrest, hrestObjs, hrestSocks⟩ := h.known ht hleaves
  obtain ⟨hi, hopened⟩ := h.idle ht hidle
  have hheld : l.held l.socks = l.sock pSock :: s.listener.held s.listener.socks := by
    rw [hsocks, Listener.held_valid hvalid, Listener.held_congr]
    intro p hp
    apply hothers p
    rintro rfl
    exact hsock hp
  constructor
  · have hsole := h.sole
    rw [List.countP_cons_of_pos ht] at hsole
    change List.countP _ (u :: .accept nIndex pObj :: rest) ≤ 1
    rw [List.countP_cons_of_pos hu, List.countP_cons_of_neg (by simp [LoopTask.main])]
    exact hsole
  · intro v hv hmain
    rcases List.mem_cons.mp hv with rfl | hv
    · rw [husweep]
      exact (congrArg Option.isSome hi).symm
    · rcases List.mem_cons.mp hv with rfl | hv
      · contradiction
      · rw [h.workers ht hv] at hmain
        contradiction
  · change (u.objs ++ (pObj :: rest.flatMap LoopTask.objs)).Perm l.objs
    rw [(main_owns (s := s) hu).1, hobjs]
    exact hrestObjs.cons pObj
  · change l.objs.Nodup
    rw [hobjs]
    exact List.nodup_cons.mpr ⟨hobj, h.distinctObjs⟩
  · change (u.socks l ++ ((l.obj pObj).pRelateSock.toList ++ rest.flatMap (LoopTask.socks l))).Perm
      l.socks
    rw [List.flatMap_congr hrest, hrelate, hsocks]
    have hnone : u.socks l = [] := (main_owns (s := s.setListener l) hu).2
    rw [hnone]
    exact hrestSocks.cons pSock
  · change l.socks.Nodup
    rw [hsocks]
    exact List.nodup_cons.mpr ⟨hsock, h.distinctSocks⟩
  · intro n q hq
    rcases List.mem_cons.mp hq with rfl | hq
    · contradiction
    · rcases List.mem_cons.mp hq with heq | hq
      · rw [LoopTask.accept.injEq] at heq
        change (l.obj q).pRelateSock ≠ none
        rw [heq.2, hrelate]
        simp
      · exact h.relates hleaves hq
  · intro n j p hp
    rw [putLSock_find] at hp
    split at hp
    · case isTrue heq =>
      rw [hmap] at hp
      rw [← Option.some.inj hp, heq.1, heq.2]
      exact ⟨hkey, pObj, List.mem_cons_of_mem _ List.mem_cons_self, hrelate⟩
    · obtain ⟨hkey, q, hq, hrelate⟩ := h.entries ht hleaves hp
      exact ⟨hkey, q, List.mem_cons_of_mem _ (List.mem_cons_of_mem _ hq), hrelate⟩
  · change (l.held l.socks).Perm (l.opened ++ (u.shutting _ ++ ([] ++ rest.flatMap _)))
    rw [hheld, hopens, (idle_passive husweep).1, h.unshut ht]
    change List.Perm _ (_ :: (s.listener.opened ++ []))
    rw [List.append_nil]
    exact hopened.cons _
  · change (l.held l.socks).Nodup
    rw [hheld]
    apply List.nodup_cons.mpr
    refine ⟨?_, h.distinctHandles⟩
    intro hmem
    exact hfresh (hopened.subset hmem)
  · change 0 ∉ l.held l.socks
    rw [hheld]
    intro hmem
    rcases List.mem_cons.mp hmem with heq | hmem
    · exact hnonzero heq.symm
    · exact h.nonzero hmem
  · change ∀ p ∉ l.socks, l.sock p = 0 ∨ l.sock p = INVALID_SOCKET
    rw [hsocks]
    intro p hp
    rw [List.mem_cons, not_or] at hp
    rw [hothers p hp.1]
    exact h.blank p hp.2
  · intro v hv
    rcases List.mem_cons.mp hv with rfl | hv
    · exact (idle_passive husweep).2
    · rcases List.mem_cons.mp hv with rfl | hv
      · trivial
      · exact (worker_passive (h.workers ht hv)).2
  · exact putLSock_keys l h.keys

/-- The memory of a socket object that the pool hands out holds no handle. -/
theorem Accounted.unopened (h : Accounted s (t :: rest)) (ht : t.main = true)
    (hidle : t.sweeping = false) {p : SockPtr} (hp : p ∉ s.listener.socks) :
    s.listener.sock p ∉ s.listener.opened := by
  obtain ⟨_, hopened⟩ := h.idle ht hidle
  intro hmem
  have hheld := hopened.symm.subset hmem
  rcases h.blank p hp with heq | heq
  · rw [heq] at hheld
    exact h.nonzero hheld
  · exact (Listener.mem_held.mp hheld).1 heq

theorem Accounted.posts {ch : AcceptChoice} (h : Accounted s (t :: rest)) (ht : t.main = true)
    (hidle : t.sweeping = false) (hu : u.main = true) (husweep : u.sweeping = false)
    (hfresh : Listener.machine.allowed s.listener ch) (hnonzero : ch.socket ≠ 0)
    (hok : s.post nIndex [u] ch = .ok (s', new, es)) : Accounted s' (new ++ rest) := by
  unfold post call at hok
  split at hok
  · contradiction
  · case h_2 l newTasks evs hpost =>
    have hnotUsed : ∀ p, ch.pSock = some p → p ∉ s.listener.socks := fun p hp => hfresh.2.1 p hp
    -- What the pool hands out has no open handle, and so Init closes nobody's.
    have hopens : Listener.Opens { ch with server := s.fpAcceptex nIndex } (s.lsock nIndex) l := by
      apply Listener.postAcceptEx_opens _ hpost
      intro p hp
      exact h.unopened ht hidle (hnotUsed p hp)
    have hleaves (hspares : Listener.Spares { ch with server := s.fpAcceptex nIndex }
        (s.lsock nIndex) l) : Listener.Leaves s.listener l := by
      have hkept := hspares.leaves hfresh
      exact ⟨hkept.relate, hkept.nKey⟩
    have hothers (p : SockPtr) (hp : p ∈ s.listener.socks) : l.sock p = s.listener.sock p := by
      apply hopens.others p
      intro heq
      exact hnotUsed p heq hp
    have hblank (hfailed : (Listener.AcceptChoice.inserts ch && ch.pending) = false) (p : SockPtr)
        (hp : p ∉ s.listener.socks) : l.sock p = 0 ∨ l.sock p = INVALID_SOCKET := by
      by_cases hsock : ch.pSock = some p
      · rcases (hopens.failed hfailed).2 p hsock with heq | heq
        · exact Or.inr heq
        · rw [heq]
          exact h.blank p hp
      · rw [hopens.others p hsock]
        exact h.blank p hp
    cases hok
    cases Listener.postAcceptEx_calls hpost with
    | fails _ hinserts hspares hmap hleft =>
      have hfailed : (Listener.AcceptChoice.inserts ch && ch.pending) = false := by
        rw [Bool.and_eq_false_iff]
        exact Or.inl hinserts
      apply h.refused ht hidle hu husweep (hleaves hspares) (hopens.failed hfailed).1
        hleft.objs hleft.socks hothers (hblank hfailed)
      intro p hp
      rw [hmap] at hp
      exact hp
    -- The entry is gone again, and with it one that the key had before.
    | undone _ hinserts hpending hspares hmap hleft =>
      have hfailed : (Listener.AcceptChoice.inserts ch && ch.pending) = false := by
        rw [Bool.and_eq_false_iff]
        exact Or.inr hpending
      apply h.refused ht hidle hu husweep (hleaves hspares) (hopens.failed hfailed).1
        hleft.objs hleft.socks hothers (hblank hfailed)
      intro p hp
      rw [hmap, Function.update_self] at hp
      contradiction
    | posted pObj pSock hinserts hpending hobj hsock hspares hmap hobjs hsocks hrelate hkey =>
      have hposted : (Listener.AcceptChoice.inserts ch && ch.pending) = true := by
        rw [Bool.and_eq_true]
        exact ⟨hinserts, hpending⟩
      obtain ⟨hopened, hsocket⟩ := hopens.posted hposted
      have heq : l.sock pSock = ch.socket := hsocket pSock hsock
      have hvalid : ch.socket ≠ INVALID_SOCKET := by
        simp only [Listener.AcceptChoice.inserts, Bool.and_eq_true, bne_iff_ne] at hinserts
        exact hinserts.2
      apply h.accepts ht hidle hu husweep (hleaves hspares) (hfresh.1 pObj hobj)
        (hnotUsed pSock hsock) hobjs hsocks hrelate hkey
      · rw [heq]
        exact hopened
      · rw [heq]
        exact hfresh.2.2
      · rw [heq]
        exact hvalid
      · rw [heq]
        exact hnonzero
      · intro p hp
        apply hopens.others p
        intro hchosen
        exact hp (Option.some.inj (hchosen.symm.trans hsock))
      · rw [hmap]
        exact Function.update_self _ _ _

end Turns

end AcceptLoop

end CustomersCard
