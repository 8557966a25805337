import CustomersCardMS.PendingMap

namespace CustomersCard
open Interleaving

namespace Listener

section Handles

variable {l l' : Listener} {ch : AcceptChoice} {pObj : ObjPtr} {pSock : SockPtr}

def sock (l : Listener) (pSock : SockPtr) : SOCKET := (l.sockObj pSock).sock

/-- What a call of PostAcceptEx does to the handles, when the memory of its socket object holds
none. -/
structure Opens (ch : AcceptChoice) (l l' : Listener) : Prop where
  others : ∀ p, ch.pSock ≠ some p → l'.sock p = l.sock p
  posted : (AcceptChoice.inserts ch && ch.pending) = true → l'.opened = ch.socket :: l.opened ∧
    ∀ p, ch.pSock = some p → l'.sock p = ch.socket
  failed : (AcceptChoice.inserts ch && ch.pending) = false → l'.opened = l.opened ∧
    ∀ p, ch.pSock = some p → l'.sock p = INVALID_SOCKET ∨ l'.sock p = l.sock p

theorem setSock_sock (s : KeyValue) : (l.setSock pSock s).sock pSock = s.sock := by
  simp [sock, setSock]

theorem setSock_others (s : KeyValue) {p : SockPtr} (hp : p ≠ pSock) :
    (l.setSock pSock s).sock p = l.sock p := by
  simp [sock, setSock, Function.update_of_ne hp]

theorem cmCloseSocket_sock (l : Listener) (pSock : SockPtr) :
    (l.cmCloseSocket pSock).sock pSock = INVALID_SOCKET := by
  unfold cmCloseSocket
  split
  · exact setSock_sock _
  · case isFalse hvalid => exact not_not.mp hvalid

theorem cmCloseSocket_others {p : SockPtr} (hp : p ≠ pSock) :
    (l.cmCloseSocket pSock).sock p = l.sock p := by
  unfold cmCloseSocket
  split
  · exact setSock_others _ hp
  · rfl

theorem cmCloseSocket_invalid (h : l.sock pSock = INVALID_SOCKET) : l.cmCloseSocket pSock = l :=
  if_neg (not_not.mpr h)

theorem cmCloseSocket_erase (h : l.sock pSock ≠ INVALID_SOCKET) :
    (l.cmCloseSocket pSock).opened = l.opened.erase (l.sock pSock) :=
  congrArg Listener.opened (if_pos h)

/-- To close what is not open does nothing. -/
theorem cmCloseSocket_unopened (h : l.sock pSock ∉ l.opened) :
    (l.cmCloseSocket pSock).opened = l.opened := by
  by_cases hvalid : l.sock pSock = INVALID_SOCKET
  · rw [cmCloseSocket_invalid hvalid]
  · rw [cmCloseSocket_erase hvalid, List.erase_of_not_mem h]

theorem allocSock_sock (l : Listener) (pSock : SockPtr) :
    (l.allocSock pSock).sock pSock = INVALID_SOCKET :=
  cmCloseSocket_sock _ _

theorem allocSock_others {p : SockPtr} (hp : p ≠ pSock) :
    (l.allocSock pSock).sock p = l.sock p := by
  change ((l.setSock pSock _).cmCloseSocket pSock).sock p = _
  rw [cmCloseSocket_others hp, setSock_others _ hp]

theorem allocSock_opened (h : l.sock pSock ∉ l.opened) :
    (l.allocSock pSock).opened = l.opened := by
  apply cmCloseSocket_unopened
  rw [setSock_sock]
  exact h

theorem announce_sock (server : Server) (rand : ℕ) (p : SockPtr) :
    (l.announce server pObj pSock rand).sock p = l.sock p := by
  rcases eq_or_ne p pSock with rfl | hp
  · simp [announce, insertIntoPendingMap, sock, setSock, setObj]
  · change (Listener.setSock _ pSock _).sock p = _
    rw [setSock_others _ hp]
    rfl

theorem postAcceptEx_opens {new : List ListenTask} {es : List ListenEvent}
    (hblank : ∀ p, ch.pSock = some p → l.sock p ∉ l.opened)
    (h : l.postAcceptEx ch = .ok (l', new, es)) : Opens ch l l' := by
  have hunchanged (hinserts : (AcceptChoice.inserts ch && ch.pending) = false)
      (hopened : l'.opened = l.opened) (hsock : l'.sock = l.sock) : Opens ch l l' := by
    constructor
    · intro p _
      rw [hsock]
    · intro hposted
      rw [hinserts] at hposted
      contradiction
    · intro _
      refine ⟨hopened, ?_⟩
      intro p _
      rw [hsock]
      exact Or.inr rfl
  unfold postAcceptEx at h
  cases hobj : ch.pObj with
  | none =>
    rw [hobj] at h
    cases h
    exact hunchanged (by simp [AcceptChoice.inserts, hobj]) rfl rfl
  | some pObj =>
    rw [hobj] at h
    dsimp only at h
    cases hsock : ch.pSock with
    | none =>
      rw [hsock] at h
      dsimp only at h
      split at h
      · contradiction
      · cases h
        exact hunchanged (by simp [AcceptChoice.inserts, hsock]) rfl rfl
    | some pSock =>
      rw [hsock] at h
      dsimp only at h
      have hopened : ((l.allocObj pObj).allocSock pSock).opened = l.opened :=
        allocSock_opened (hblank pSock hsock)
      have hothers (p : SockPtr) (hp : some pSock ≠ some p) :
          ((l.allocObj pObj).allocSock pSock).sock p = l.sock p := by
        apply allocSock_others
        rintro rfl
        exact hp rfl
      split at h
      · case isTrue hinvalid =>
        cases h
        constructor
        · intro p hp
          rw [hsock] at hp
          exact hothers p hp
        · intro hposted
          simp [AcceptChoice.inserts, hinvalid] at hposted
        · intro _
          refine ⟨hopened, ?_⟩
          intro p hp
          rw [hsock, Option.some.injEq] at hp
          subst hp
          exact Or.inl (allocSock_sock _ _)
      · case isFalse hvalid =>
        have hopenedOthers (p : SockPtr) (hp : some pSock ≠ some p) :
            ((((l.allocObj pObj).allocSock pSock).openSocket pSock ch.socket).announce ch.server
              pObj pSock ch.rand).sock p = l.sock p := by
          rw [announce_sock]
          refine Eq.trans (setSock_others _ ?_) (hothers p hp)
          rintro rfl
          exact hp rfl
        split at h
        -- AcceptEx is outstanding, and its socket object has the new handle.
        · case isTrue hpending =>
          cases h
          constructor
          · intro p hp
            rw [hsock] at hp
            exact hopenedOthers p hp
          · intro _
            refine ⟨congrArg (List.cons ch.socket) hopened, ?_⟩
            intro p hp
            rw [hsock, Option.some.injEq] at hp
            subst hp
            rw [announce_sock]
            exact setSock_sock _
          · intro hfailed
            simp [AcceptChoice.inserts, hobj, hsock, hvalid, hpending] at hfailed
        -- The handle was open for the length of the call only.
        · case isFalse hpending =>
          cases h
          constructor
          · intro p hp
            rw [hsock] at hp
            refine Eq.trans (cmCloseSocket_others ?_) (hopenedOthers p hp)
            rintro rfl
            exact hp rfl
          · intro hposted
            simp [hpending] at hposted
          · intro _
            refine ⟨(undo_opened _ _ hvalid).trans hopened, ?_⟩
            intro p hp
            rw [hsock, Option.some.injEq] at hp
            subst hp
            exact Or.inl (cmCloseSocket_sock _ _)

end Handles

/-- The handles in socket objects. -/
def held (l : Listener) (socks : List SockPtr) : List SOCKET :=
  (socks.map l.sock).filter (· != INVALID_SOCKET)

section Held

variable {l l' : Listener} {ps qs : List SockPtr} {p q : SockPtr}

theorem held_invalid (h : l.sock p = INVALID_SOCKET) : l.held (p :: ps) = l.held ps := by
  simp [held, h]

theorem held_valid (h : l.sock p ≠ INVALID_SOCKET) :
    l.held (p :: ps) = l.sock p :: l.held ps := by
  simp [held, h]

theorem mem_held {sock : SOCKET} :
    sock ∈ l.held ps ↔ sock ≠ INVALID_SOCKET ∧ ∃ p ∈ ps, l.sock p = sock := by
  simp [held, and_comm]

theorem held_perm (h : ps.Perm qs) : (l.held ps).Perm (l.held qs) := (h.map _).filter _

theorem held_congr (h : ∀ p ∈ ps, l'.sock p = l.sock p) : l'.held ps = l.held ps := by
  unfold held
  rw [List.map_congr_left h]

theorem held_erase (hp : p ∈ ps) (hvalid : l.sock p ≠ INVALID_SOCKET) :
    (l.held ps).Perm (l.sock p :: l.held (ps.erase p)) := by
  rw [← held_valid hvalid]
  exact held_perm (List.perm_cons_erase hp)

/-- To free a socket object that holds no handle. -/
theorem held_freed (h : l.sock p = INVALID_SOCKET) : (l.held (ps.erase p)).Perm (l.held ps) := by
  by_cases hp : p ∈ ps
  · rw [← held_invalid h]
    exact held_perm (List.perm_cons_erase hp).symm
  · rw [List.erase_of_not_mem hp]

theorem held_inj (hnodup : (l.held ps).Nodup) (hp : p ∈ ps) (hq : q ∈ ps)
    (hvalid : l.sock p ≠ INVALID_SOCKET) (heq : l.sock q = l.sock p) : q = p := by
  by_contra hne
  have hcons := (held_erase hp hvalid).nodup_iff.mp hnodup
  apply (List.nodup_cons.mp hcons).1
  exact mem_held.mpr ⟨hvalid, q, (List.mem_erase_of_ne hne).mpr hq, heq⟩

/-- A handle leaves its socket object. -/
theorem held_cleared (hnodup : ps.Nodup) (hp : p ∈ ps) (hvalid : l.sock p ≠ INVALID_SOCKET)
    (hsock : l'.sock p = INVALID_SOCKET) (hothers : ∀ q ≠ p, l'.sock q = l.sock q) :
    (l.held ps).Perm (l.sock p :: l'.held ps) := by
  apply (held_erase hp hvalid).trans
  apply List.Perm.cons
  apply List.Perm.trans _ (held_freed hsock)
  rw [held_congr]
  intro q hq
  symm
  apply hothers q
  rintro rfl
  exact hnodup.not_mem_erase hq

theorem held_subperm (hnodup : ps.Nodup) (hp : p ∈ ps) :
    ((l.cmCloseSocket p).held ps).Subperm (l.held ps) := by
  by_cases hvalid : l.sock p = INVALID_SOCKET
  · rw [cmCloseSocket_invalid hvalid]
  · have hcleared := held_cleared hnodup hp hvalid (cmCloseSocket_sock l p)
      fun q hq => cmCloseSocket_others hq
    exact (List.sublist_cons_self _ _).subperm.trans hcleared.symm.subperm

theorem held_closed {shut : List SOCKET} (hnodup : ps.Nodup) (hp : p ∈ ps)
    (hheld : (l.held ps).Perm (l.opened ++ shut)) (hshut : l.sock p ∉ shut) :
    ((l.cmCloseSocket p).held ps).Perm ((l.cmCloseSocket p).opened ++ shut) := by
  have hothers (q : SockPtr) (hq : q ≠ p) : (l.cmCloseSocket p).sock q = l.sock q :=
    cmCloseSocket_others hq
  by_cases hvalid : l.sock p = INVALID_SOCKET
  · rw [cmCloseSocket_invalid hvalid]
    exact hheld
  · have hcleared := held_cleared hnodup hp hvalid (cmCloseSocket_sock l p) hothers
    have hmem : l.sock p ∈ l.opened ++ shut := by
      apply hheld.mem_iff.mp
      exact mem_held.mpr ⟨hvalid, p, hp, rfl⟩
    have hopened : l.sock p ∈ l.opened := (List.mem_append.mp hmem).resolve_right hshut
    rw [cmCloseSocket_erase hvalid]
    apply List.Perm.cons_inv (a := l.sock p)
    exact (hcleared.symm.trans hheld).trans ((List.perm_cons_erase hopened).append_right shut)

end Held

end Listener

end CustomersCard
