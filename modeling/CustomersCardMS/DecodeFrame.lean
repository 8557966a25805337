import CustomersCardMS.RecvSock

namespace CustomersCard

/-- The result of a computation that may leave its buffers, when there is one. -/
def Returns {α : Type} (Q : α → Prop) (o : Option α) : Prop := ∀ a, o = some a → Q a

namespace Returns

variable {α β : Type} {Q : α → Prop}

theorem none : Returns Q Option.none := by
  intro a h
  contradiction

theorem some {a : α} (h : Q a) : Returns Q (Option.some a) := by
  intro b hb
  rw [Option.some.injEq] at hb
  rwa [← hb]

theorem bind {P : β → Prop} {o : Option β} {f : β → Option α} (ho : Returns P o)
    (hf : ∀ b, P b → Returns Q (f b)) : Returns Q (o >>= f) := by
  cases o with
  | none => exact none
  | some b => exact hf b (ho b rfl)

/-- Nothing is asked of a value that is only looked at. -/
theorem look {o : Option β} {f : β → Option α} (hf : ∀ b, Returns Q (f b)) :
    Returns Q (o >>= f) := bind (fun _ _ => trivial) (fun b (_ : True) => hf b)

theorem ite {c : Prop} [Decidable c] {x y : Option α} (hx : Returns Q x) (hy : Returns Q y) :
    Returns Q (if c then x else y) := by
  split
  · exact hx
  · exact hy

end Returns

namespace RecvSock

structure SameLink (s t : RecvSock) : Prop where
  nRef : t.nRef = s.nRef
  lstSend : t.lstSend = s.lstSend
  sock : t.sock = s.sock

theorem SameLink.rfl {s : RecvSock} : SameLink s s := ⟨Eq.refl _, Eq.refl _, Eq.refl _⟩

theorem SameLink.trans {s t u : RecvSock} (h : SameLink s t) (h' : SameLink t u) : SameLink s u :=
  ⟨h'.nRef.trans h.nRef, h'.lstSend.trans h.lstSend, h'.sock.trans h.sock⟩

/-- The decoder gives the handle up only when it returns 0. -/
structure DecodeKeeps (s : RecvSock) (res : DWORD × RecvSock) : Prop where
  nRef : res.2.nRef = s.nRef
  lstSend : res.2.lstSend = s.lstSend
  sock : res.2.sock = s.sock ∨ res.1 = 0 ∧ res.2.sock = INVALID_SOCKET

namespace DecodeKeeps

variable {s t : RecvSock}

theorem wait (h : SameLink s t) (len : DWORD) : Returns (DecodeKeeps s) (some (len, t)) :=
  Returns.some ⟨h.nRef, h.lstSend, Or.inl h.sock⟩

theorem close (h : SameLink s t) : Returns (DecodeKeeps s) (some (0, t.closeSock)) :=
  Returns.some ⟨h.nRef, h.lstSend, Or.inr ⟨Eq.refl _, Eq.refl _⟩⟩

/-- What follows the length check of a frame that may cross the end of the ring. -/
theorem length {c : Prop} [Decidable c] {x : Option (DWORD × RecvSock)} (h : SameLink s t)
    (hx : Returns (DecodeKeeps s) x) :
    Returns (DecodeKeeps s) (if c then some (0, if t.bFull then t.closeSock else t) else x) := by
  apply Returns.ite _ hx
  cases t.bFull with
  | true => exact close h
  | false => exact wait h 0

end DecodeKeeps

variable (s : RecvSock)

theorem csum_keeps (addr : ℕ) (count : DWORD) : Returns (SameLink s) (s.csum addr count) := by
  apply Returns.look
  intro sum
  exact Returns.some ⟨rfl, rfl, rfl⟩

theorem csumSplit_keeps (dwFrameLen : DWORD) : Returns (SameLink s) (s.csumSplit dwFrameLen) := by
  apply Returns.ite _ (csum_keeps s _ _)
  refine Returns.bind (csum_keeps s _ _) ?_
  intro t ht u hu
  exact ht.trans (csum_keeps t _ _ u hu)

/-- The comparison of checksum and terminator, after the checksum `o` of the payload. -/
theorem verify_keeps {o : Option RecvSock} (ho : Returns (SameLink s) o) (nSum : Byte)
    (tail : RecvSock → Option Byte) (len : DWORD) {next : RecvSock → RecvSock}
    (hnext : ∀ t, SameLink t (next t)) :
    Returns (DecodeKeeps s) (do
      let t ← o
      if nSum ≠ t.sum then some (0, t.closeSock)
      else
        let tail ← tail t
        if 0x0d ≠ tail then some (0, t.closeSock)
        else some (len, next t)) := by
  refine Returns.bind ho ?_
  intro t ht
  apply Returns.ite (DecodeKeeps.close ht)
  apply Returns.look
  intro _
  exact Returns.ite (DecodeKeeps.close ht) (DecodeKeeps.wait (ht.trans (hnext t)) len)

theorem skipHeader_keeps : SameLink s s.skipHeader := ⟨rfl, rfl, rfl⟩

theorem cmdLengthContiguous_keeps :
    Returns (DecodeKeeps s) s.cmdLengthContiguous := by
  apply Returns.ite (DecodeKeeps.wait SameLink.rfl 0)
  apply Returns.look
  intro m₀
  apply Returns.look
  intro m₁
  apply Returns.ite (DecodeKeeps.close SameLink.rfl)
  apply Returns.look
  intro dwFrameLen
  apply Returns.ite (DecodeKeeps.wait SameLink.rfl 0)
  apply Returns.look
  intro nSum
  apply verify_keeps s (csum_keeps s _ _) nSum
  intro t
  exact ⟨rfl, rfl, rfl⟩

theorem cmdLengthHeaderSplit_keeps : Returns (DecodeKeeps s) s.cmdLengthHeaderSplit := by
  apply Returns.look
  intro subchar
  apply Returns.ite (DecodeKeeps.close SameLink.rfl)
  apply DecodeKeeps.length SameLink.rfl
  apply Returns.look
  intro nSum
  exact verify_keeps s (csum_keeps s _ _) nSum _ _ skipHeader_keeps

theorem cmdLengthPayloadSplit_keeps : Returns (DecodeKeeps s) s.cmdLengthPayloadSplit := by
  apply Returns.look
  intro m₀
  apply Returns.look
  intro m₁
  apply Returns.ite (DecodeKeeps.close SameLink.rfl)
  apply Returns.look
  intro dwFrameLen
  apply DecodeKeeps.length SameLink.rfl
  apply Returns.look
  intro nSum
  exact verify_keeps s (csumSplit_keeps s _) nSum _ _ skipHeader_keeps

/-- The decoder leaves the reference count and the queue of sends alone. -/
theorem getCmdDataLength_keeps : Returns (DecodeKeeps s) s.getCmdDataLength := by
  have hzero : ∀ res, DecodeKeeps { s with sum := 0 } res → DecodeKeeps s res := by
    intro res h
    exact ⟨h.nRef, h.lstSend, h.sock⟩
  apply Returns.ite (DecodeKeeps.wait SameLink.rfl 0)
  apply Returns.ite
  · intro res hres
    exact hzero res (cmdLengthContiguous_keeps _ res hres)
  apply Returns.ite
  · intro res hres
    exact hzero res (cmdLengthHeaderSplit_keeps _ res hres)
  · intro res hres
    exact hzero res (cmdLengthPayloadSplit_keeps _ res hres)

theorem read_keeps (dwNum : DWORD) :
    Returns (fun res : DWORD × List Byte × RecvSock => SameLink s res.2.2) (s.read dwNum) := by
  refine Returns.ite (Returns.some ⟨rfl, rfl, rfl⟩) ?_
  refine Returns.ite (Returns.some ⟨rfl, rfl, rfl⟩) ?_
  apply Returns.ite
  · apply Returns.look
    intro bytes
    exact Returns.some ⟨rfl, rfl, rfl⟩
  apply Returns.ite
  · apply Returns.look
    intro bytes
    exact Returns.some ⟨rfl, rfl, rfl⟩
  · apply Returns.look
    intro right
    apply Returns.look
    intro left
    exact Returns.some ⟨rfl, rfl, rfl⟩

theorem initWRpos_keeps (dwTranstion : DWORD) : SameLink s (s.initWRpos dwTranstion) := by
  unfold initWRpos
  split
  · exact SameLink.rfl
  split
  · exact SameLink.rfl
  · exact ⟨rfl, rfl, rfl⟩

theorem initWSABUFS_keeps : SameLink s s.initWSABUFS := by
  have hsize : SameLink s s.initRLsize := by
    unfold initRLsize
    split
    · exact ⟨rfl, rfl, rfl⟩
    split
    · exact ⟨rfl, rfl, rfl⟩
    · exact ⟨rfl, rfl, rfl⟩
  exact ⟨hsize.nRef, hsize.lstSend, hsize.sock⟩

end RecvSock

end CustomersCard
