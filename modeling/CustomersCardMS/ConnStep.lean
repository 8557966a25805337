import CustomersCardMS.ClientConn
import CustomersCardMS.DecodeFrame

namespace CustomersCard
namespace BufferObj

/-- CLient_PostSend or Nc_PostSend has set the WSABUF to what is left to send. -/
def Posted (b : BufferObj) : Prop :=
  b.wsaBuf = ⟨some b.dwSendedCount.toNat, b.dwRecvedCount - b.dwSendedCount⟩

theorem length_command (b : BufferObj) : b.command.length = b.dwRecvedCount.toNat := by
  unfold command
  rw [List.length_map, List.length_range']

theorem length_unsent (b : BufferObj) :
    b.unsent.length = b.dwRecvedCount.toNat - b.dwSendedCount.toNat := by
  unfold unsent
  rw [List.length_drop, length_command]

theorem Posted.offered {b : BufferObj} (h : b.Posted) (hle : b.dwSendedCount ≤ b.dwRecvedCount) :
    b.offered = b.unsent := by
  have hlen : (b.dwRecvedCount - b.dwSendedCount).toNat =
      b.dwRecvedCount.toNat - b.dwSendedCount.toNat := BitVec.toNat_sub_of_le hle
  unfold BufferObj.offered
  rw [h]
  calc (List.range' b.dwSendedCount.toNat (b.dwRecvedCount - b.dwSendedCount).toNat).map b.data
      = ((List.range' 0 b.dwRecvedCount.toNat).drop b.dwSendedCount.toNat).map b.data := by
        rw [hlen, List.drop_range', Nat.zero_add, Nat.mul_one]
    _ = b.unsent := List.map_drop

/-- A send that transfers no more than what is left moves the offset by as much. -/
theorem advance_toNat (b : BufferObj) (bytes : List Byte) (h : bytes <+: b.unsent) :
    (b.advance (BitVec.ofNat 32 bytes.length)).dwSendedCount.toNat =
      b.dwSendedCount.toNat+bytes.length := by
  have hle := h.length_le
  have hlt := b.dwRecvedCount.isLt
  have hcount := b.dwSendedCount.isLt
  rw [length_unsent] at hle
  change (b.dwSendedCount + BitVec.ofNat 32 bytes.length).toNat = _
  rw [BitVec.toNat_add, BitVec.toNat_ofNat, Nat.mod_eq_of_lt (a := bytes.length) (by omega),
    Nat.mod_eq_of_lt (by omega)]

theorem advance_le (b : BufferObj) (bytes : List Byte) (h : bytes <+: b.unsent)
    (hle : b.dwSendedCount ≤ b.dwRecvedCount) :
    (b.advance (BitVec.ofNat 32 bytes.length)).dwSendedCount ≤ b.dwRecvedCount := by
  have hlen := h.length_le
  rw [length_unsent] at hlen
  rw [BitVec.le_def] at hle ⊢
  rw [advance_toNat b bytes h]
  omega

theorem advance_unsent (b : BufferObj) {bytes : List Byte} (h : bytes <+: b.unsent) :
    bytes ++ (b.advance (BitVec.ofNat 32 bytes.length)).unsent = b.unsent := by
  have hcount := b.advance_toNat bytes h
  obtain ⟨tail, htail⟩ := h
  have hunsent : (b.advance (BitVec.ofNat 32 bytes.length)).unsent =
      b.unsent.drop bytes.length := by
    change b.command.drop (b.advance _).dwSendedCount.toNat = _
    rw [hcount, ← List.drop_drop]
    rfl
  rw [hunsent, ← htail, List.drop_left]

theorem advance_lt (b : BufferObj) (n : ℕ) (hn : b.unsent.take n ≠ []) :
    (b.advance (BitVec.ofNat 32 (b.unsent.take n).length)).dwSendedCount < b.dwRecvedCount ↔
      b.unsent.drop n ≠ [] := by
  rw [BitVec.lt_def, b.advance_toNat _ (List.take_prefix _ _)]
  have hne : b.unsent ≠ [] := fun hnil => hn (by rw [hnil, List.take_nil])
  have hlen := b.length_unsent
  have hpos := List.length_pos_iff.mpr hne
  rw [List.length_take, ne_eq, List.drop_eq_nil_iff]
  omega

end BufferObj

namespace Task

/-- The references to the RECV_SOCK that the task carries. Those of queued BUFFER_OBJs are counted
with lstSend. -/
def refs : Task → ℕ
  | .accept | .createPort _ | .acceptClose | .acceptFreeRObj | .acceptFreeRSock => 1
  | .loop _ | .addRef _ _ | .acceptFreeBObj _ | .postZeroRecv | .zeroRecv | .postRecv | .recv => 1
  | .postCmd _ _ | .acceptDecRef _ | .recvFreeBObj _ | .recvDecRef => 2
  | .cmd _ | .command _ | .release _ | .freeSent _ _ | .nextDecRef _ => 1
  | _ => 0

/-- A handler that has seen nRef reach zero and has not freed the RECV_SOCK yet. -/
def last : Task → ℕ
  | .earlyClose | .earlyFreeRSock | .releaseClose _ | .releaseFreeRSock _ => 1
  | _ => 0

/-- The receive chain, from AcceptEx to the release of the RECV_OBJ. -/
def chain : Task → ℕ
  | .accept | .createPort _ | .acceptClose | .acceptFreeRObj => 1
  | .loop _ | .addRef _ _ | .postCmd _ _ | .acceptDecRef _ | .acceptFreeBObj _ => 1
  | .recvFreeBObj _ | .recvDecRef | .earlyClose | .earlyFreeRSock => 1
  | .postZeroRecv | .zeroRecv | .postRecv | .recv => 1
  | .release .robj | .releaseClose .robj | .releaseFreeRSock .robj | .releaseTail .robj => 1
  | _ => 0

/-- The part of the chain in which it is alone with the connection. -/
def accepting : Task → ℕ
  | .accept | .createPort _ | .acceptClose | .acceptFreeRObj | .acceptFreeRSock => 1
  | _ => 0

/-- The BUFFER_OBJs the task owns. -/
def held : Task → List BufferObjPtr
  | .addRef _ b | .postCmd _ b | .acceptDecRef b | .acceptFreeBObj b | .recvFreeBObj b => [b]
  | .cmd b | .command b | .freeSent b _ => [b]
  | .release (.bobj b) | .releaseClose (.bobj b) => [b]
  | .releaseFreeRSock (.bobj b) | .releaseTail (.bobj b) => [b]
  | _ => []

/-- The queued BUFFER_OBJ whose first send the task has still to start. -/
def waiting : Task → List BufferObjPtr
  | .startSend b | .freeSent _ (some b) | .nextDecRef b | .nextSend b => [b]
  | _ => []

/-- The queued BUFFER_OBJ whose send was started and which the task has still to dequeue. -/
def active : Task → List BufferObjPtr
  | .send b | .repostSend b | .getNextData b => [b]
  | _ => []

/-- A send that has not been given up. -/
def sending : Task → List BufferObjPtr
  | .send b | .repostSend b => [b]
  | _ => []

/-- GetCmdDataLength and CMCloseSocket. -/
def closing : Task → Prop
  | .loop _ | .acceptClose | .earlyClose | .releaseClose _ => True
  | _ => False

def uses (t : Task) : List BufferObjPtr := t.held ++ (t.waiting ++ t.active)

/-- The object of an outstanding operation holds the handlers of that very operation, and that of a
send the WSABUF of the send. -/
def handled (c : ClientConn) : Task → Prop
  | .accept => c.robj.fpFailed = some .clientAcceptCompletionFailed ∧
      c.robj.fpSuccess = some .clientAcceptCompletionSuccess
  | .zeroRecv => c.robj.fpFailed = some .clientZeroRecvCompletionFailed ∧
      c.robj.fpSuccess = some .clientZeroRecvCompletionSuccess
  | .recv => c.robj.fpFailed = some .clientRecvCompletionFailed ∧
      c.robj.fpSuccess = some .clientRecvCompletionSuccess
  | .cmd b => (c.bobj b).fpFailed = some .clientCmdCompletionFailed ∧
      (c.bobj b).fpSuccess = some .clientCmdCompletionSuccess
  | .startSend b | .repostSend b =>
      (c.bobj b).fpFailed = some .clientSendCompletionFailed ∧
        (c.bobj b).fpSuccess = some .clientSendCompletionSuccess
  | .send b =>
      ((c.bobj b).fpFailed = some .clientSendCompletionFailed ∧
        (c.bobj b).fpSuccess = some .clientSendCompletionSuccess) ∧ (c.bobj b).Posted
  | _ => True

theorem handled_congr {c c' : ClientConn} {t : Task} (hr : t.chain ≠ 0 → c'.robj = c.robj)
    (hb : ∀ b ∈ t.uses, c'.bobj b = c.bobj b) (h : t.handled c) : t.handled c' := by
  cases t with
  | accept | zeroRecv | recv =>
    simp only [handled] at h ⊢
    rwa [hr (by decide)]
  | cmd b | startSend b | send b | repostSend b =>
    simp only [handled] at h ⊢
    rwa [hb b (List.mem_singleton_self b)]
  | _ => trivial

end Task

namespace ClientConn

/-- The steps that move nothing between the parties. -/
inductive Passes : Task → Task → Prop
  | accepted (n : DWORD) : Passes .accept (.createPort n)
  | refused : Passes .accept .acceptClose
  | associated (n : DWORD) : Passes (.createPort n) (.loop .accept)
  | unassociated (n : DWORD) : Passes (.createPort n) .acceptClose
  | closed : Passes .acceptClose .acceptFreeRObj
  | drained (o : Origin) : Passes (.loop o) .postZeroRecv
  | unqueuedAccept (b : BufferObjPtr) : Passes (.postCmd .accept b) (.acceptDecRef b)
  | unqueuedRecv (b : BufferObjPtr) : Passes (.postCmd .recv b) (.recvFreeBObj b)
  | earlyClosed : Passes .earlyClose .earlyFreeRSock
  | zeroPosted : Passes .postZeroRecv .zeroRecv
  | zeroRefused : Passes .postZeroRecv (.release .robj)
  | readable : Passes .zeroRecv .postRecv
  | zeroFailed : Passes .zeroRecv (.release .robj)
  | recvPosted : Passes .postRecv .recv
  | recvRefused : Passes .postRecv (.release .robj)
  | received : Passes .recv (.loop .recv)
  | recvFailed : Passes .recv (.release .robj)
  | releaseClosed (k : Tail) : Passes (.releaseClose k) (.releaseFreeRSock k)
  | cmdRuns (b : BufferObjPtr) : Passes (.cmd b) (.command b)
  | cmdFailed (b : BufferObjPtr) : Passes (.cmd b) (.release (.bobj b))
  | kept (b : BufferObjPtr) : Passes (.command b) (.command b)
  | reposted (b : BufferObjPtr) : Passes (.repostSend b) (.send b)
  | repostRefused (b : BufferObjPtr) : Passes (.repostSend b) (.getNextData b)

/-- The count, the list of sends and what is allocated stay as they are. -/
structure SameLedger (c c' : ClientConn) : Prop where
  nRef : c'.rsock.nRef = c.rsock.nRef
  lstSend : c'.rsock.lstSend = c.rsock.lstSend
  rsockLive : c'.rsockLive = c.rsockLive
  robjLive : c'.robjLive = c.robjLive
  objs : c'.objs = c.objs

/-- The handle is closed at most here, and never opened again. -/
inductive Closes (t : Task) (c c' : ClientConn) : List Event → Prop
  | keeps : c'.rsock.sock = c.rsock.sock → Closes t c c' []
  | closes : t.closing → c.rsock.sock ≠ INVALID_SOCKET → c'.rsock.sock = INVALID_SOCKET →
      Closes t c c' [.closesocket c.rsock.sock]

/-- A BUFFER_OBJ keeps what it has to send and how much of it was sent. -/
def SamePayload (b b' : BufferObj) : Prop :=
  b'.command = b.command ∧ b'.dwSendedCount = b.dwSendedCount

/-- The ways to give a BUFFER_OBJ back, with what the handler still has to do. -/
inductive FreesBObj : BufferObjPtr → Task → List Task → Prop
  | accept (b : BufferObjPtr) : FreesBObj b (.acceptFreeBObj b) [.loop .accept]
  | recv (b : BufferObjPtr) : FreesBObj b (.recvFreeBObj b) [.recvDecRef]
  | cmd (b : BufferObjPtr) : FreesBObj b (.releaseTail (.bobj b)) []
  | lastSent (b : BufferObjPtr) : FreesBObj b (.freeSent b none) [.release .nothing]
  | sent (b obj : BufferObjPtr) : FreesBObj b (.freeSent b (some obj)) [.nextDecRef obj]

/-- Everything a step can do. -/
inductive Fires (c : ClientConn) : Task → ClientConn → List Task → List Event → Prop
  | pass {t t' : Task} {c' : ClientConn} {evs : List Event} : Passes t t' → SameLedger c c' →
      Closes t c c' evs → (∀ b, SamePayload (c.bobj b) (c'.bobj b)) → Fires c t c' [t'] evs
  | alloc {c' : ClientConn} (o : Origin) (b : BufferObjPtr) : b ∉ c.objs →
      c'.rsock.nRef = c.rsock.nRef → c'.rsock.lstSend = c.rsock.lstSend →
      c'.rsockLive = c.rsockLive → c'.robjLive = c.robjLive → c'.objs = b :: c.objs →
      c'.rsock.sock = c.rsock.sock → (∀ b' ∈ c.objs, c'.bobj b' = c.bobj b') →
      Fires c (.loop o) c' [.addRef o b] [.allocBObj b]
  | acquire (o : Origin) (b : BufferObjPtr) :
      Fires c (.addRef o b) (c.setRSock c.rsock.addRef) [.postCmd o b] []
  | queue {c' : ClientConn} (o : Origin) (b : BufferObjPtr) : SameLedger c c' →
      c'.rsock.sock = c.rsock.sock → (∀ b', SamePayload (c.bobj b') (c'.bobj b')) →
      Fires c (.postCmd o b) c' [.cmd b, .loop o] [.queued b]
  | acceptDecRef (b : BufferObjPtr) :
      Fires c (.acceptDecRef b) (c.setRSock c.rsock.decRef) [.acceptFreeBObj b] []
  | recvDecRef : c.rsock.nRef - 1 ≠ 0 →
      Fires c .recvDecRef (c.setRSock c.rsock.decRef) [.loop .recv] []
  | recvDecRefZero : c.rsock.nRef - 1 = 0 →
      Fires c .recvDecRef (c.setRSock c.rsock.decRef) [.earlyClose] []
  | release (k : Tail) : c.rsock.nRef - 1 ≠ 0 →
      Fires c (.release k) (c.setRSock c.rsock.decRef) [.releaseTail k] []
  | releaseZero (k : Tail) : c.rsock.nRef - 1 = 0 →
      Fires c (.release k) (c.setRSock c.rsock.decRef) [.releaseClose k] []
  | nextDecRef (b : BufferObjPtr) :
      Fires c (.nextDecRef b) (c.setRSock c.rsock.decRef) [.nextSend b] []
  | freeBObj {t : Task} {new : List Task} (b : BufferObjPtr) : b ∈ c.objs →
      FreesBObj b t new → Fires c t { c with objs := c.objs.erase b } new [.freeBObj b]
  | acceptFreeRSock : Fires c .acceptFreeRSock { c with rsockLive := false } [] [.freeRSock]
  | earlyFreeRSock : Fires c .earlyFreeRSock { c with rsockLive := false } [] [.freeRSock]
  | releaseFreeRSock (k : Tail) :
      Fires c (.releaseFreeRSock k) { c with rsockLive := false } [.releaseTail k] [.freeRSock]
  | acceptFreeRObj :
      Fires c .acceptFreeRObj { c with robjLive := false } [.acceptFreeRSock] [.freeRObj]
  | releaseFreeRObj : Fires c (.releaseTail .robj) { c with robjLive := false } [] [.freeRObj]
  | releaseNothing : Fires c (.releaseTail .nothing) c [] []
  | enqueue {c' : ClientConn} (b : BufferObjPtr) (bytes : List Byte) :
      c'.rsock.nRef = c.rsock.nRef → c'.rsock.lstSend = b :: c.rsock.lstSend →
      c'.rsock.sock = c.rsock.sock → c'.rsockLive = c.rsockLive → c'.robjLive = c.robjLive →
      c'.objs = c.objs →
      (∀ b' ≠ b, c'.bobj b' = c.bobj b') → (c'.bobj b).command = bytes →
      (c'.bobj b).dwSendedCount = 0 →
      Fires c (.command b) c' (if c.rsock.lstSend = [] then [.startSend b] else [])
        [.enqueue b bytes]
  | start {t t' : Task} {c' : ClientConn} (b : BufferObjPtr) : t = .startSend b ∨ t = .nextSend b →
      t' = .send b ∨ t' = .getNextData b → SameLedger c c' → c'.rsock.sock = c.rsock.sock →
      (∀ b', SamePayload (c.bobj b') (c'.bobj b')) → Fires c t c' [t'] [.start b]
  | sent {c' : ClientConn} (b : BufferObjPtr) (bytes : List Byte) : bytes ≠ [] →
      bytes <+: (c.bobj b).offered → SameLedger c c' → c'.rsock.sock = c.rsock.sock →
      (∀ b' ≠ b, c'.bobj b' = c.bobj b') →
      c'.bobj b = (c.bobj b).advance (BitVec.ofNat 32 bytes.length) →
      Fires c (.send b) c'
        (if (c'.bobj b).dwSendedCount < (c'.bobj b).dwRecvedCount then [.repostSend b]
          else [.getNextData b]) [.transmit b bytes]
  | sendFailed (b : BufferObjPtr) (bytes : List Byte) : bytes <+: (c.bobj b).offered →
      Fires c (.send b) c [.getNextData b] [.transmit b bytes]
  | dequeue (b x : BufferObjPtr) (front : List BufferObjPtr) : c.rsock.lstSend = front ++ [x] →
      Fires c (.getNextData b) (c.setRSock { c.rsock with lstSend := front })
        [.freeSent b front.getLast?] [.dequeue x]

theorem SameLedger.rfl {c : ClientConn} : SameLedger c c :=
  ⟨Eq.refl _, Eq.refl _, Eq.refl _, Eq.refl _, Eq.refl _⟩

theorem SamePayload.rfl {b : BufferObj} : SamePayload b b := ⟨Eq.refl _, Eq.refl _⟩

theorem SamePayload.recved {b b' : BufferObj} (h : SamePayload b b') :
    b'.dwRecvedCount = b.dwRecvedCount := by
  apply BitVec.eq_of_toNat_eq
  rw [← b'.length_command, ← b.length_command, h.1]

/-- What a step leaves of the objects of the other tasks, and the handlers it installs. -/
structure Frame (c : ClientConn) (t : Task) (c' : ClientConn) (new : List Task) : Prop where
  robj : t.chain = 0 → c'.robj = c.robj
  bobj : ∀ b ∈ c.objs, b ∉ t.uses → c'.bobj b = c.bobj b
  handled : t.handled c → ∀ t' ∈ new, t'.handled c'
  pRSock : c'.pRSock = c.pRSock
  -- A BUFFER_OBJ belongs to the connection from its allocation on.
  relates : ∀ b ∈ c'.objs, (c'.bobj b).pRelateSock = some c.pRSock ∨
    b ∈ c.objs ∧ (c'.bobj b).pRelateSock = (c.bobj b).pRelateSock

/-- No object is written or allocated. -/
structure Untouched (c c' : ClientConn) : Prop where
  robj : c'.robj = c.robj
  bobj : c'.bobj = c.bobj
  pRSock : c'.pRSock = c.pRSock
  objs : ∀ b ∈ c'.objs, b ∈ c.objs

theorem Untouched.rfl {c : ClientConn} : Untouched c c :=
  ⟨Eq.refl _, Eq.refl _, Eq.refl _, fun _ hb => hb⟩

theorem setRSock_untouched (c : ClientConn) (rsock : RecvSock) : Untouched c (c.setRSock rsock) :=
  ⟨rfl, rfl, rfl, fun _ hb => hb⟩

theorem erase_untouched (c : ClientConn) (b : BufferObjPtr) :
    Untouched c { c with objs := c.objs.erase b } :=
  ⟨rfl, rfl, rfl, fun _ hb => List.mem_of_mem_erase hb⟩

theorem freeRSock_untouched (c : ClientConn) : Untouched c { c with rsockLive := false } :=
  ⟨rfl, rfl, rfl, fun _ hb => hb⟩

theorem freeRObj_untouched (c : ClientConn) : Untouched c { c with robjLive := false } :=
  ⟨rfl, rfl, rfl, fun _ hb => hb⟩

structure Turn (c : ClientConn) (t : Task) (c' : ClientConn) (new : List Task)
    (evs : List Event) : Prop where
  fires : Fires c t c' new evs
  frame : Frame c t c' new

section SetBObj

variable (c : ClientConn) (pBObj : BufferObjPtr) (b : BufferObj)

theorem setBObj_ledger : SameLedger c (c.setBObj pBObj b) := ⟨rfl, rfl, rfl, rfl, rfl⟩

theorem setBObj_bobj : (c.setBObj pBObj b).bobj pBObj = b := Function.update_self _ _ _

theorem setBObj_of_ne {b' : BufferObjPtr} (h : b' ≠ pBObj) :
    (c.setBObj pBObj b).bobj b' = c.bobj b' := Function.update_of_ne h _ _

/-- Whatever of a BUFFER_OBJ is replaced that keeps its payload. -/
theorem setBObj_payload (h : SamePayload (c.bobj pBObj) b) (b' : BufferObjPtr) :
    SamePayload (c.bobj b') ((c.setBObj pBObj b).bobj b') := by
  rcases eq_or_ne b' pBObj with heq | hne
  · rwa [heq, setBObj_bobj]
  · rw [setBObj_of_ne c pBObj b hne]
    exact SamePayload.rfl

end SetBObj

theorem guarded_ok {p : Prop} [Decidable p] {f : Fault} {k : Outcome}
    {r : ClientConn × List Task × List Event} : guarded p f k = .ok r ↔ p ∧ k = .ok r := by
  unfold guarded
  split
  · case isTrue h => exact ⟨fun hk => ⟨h, hk⟩, fun hk => hk.2⟩
  · case isFalse h => simp [h]

theorem ok_inj {c c' : ClientConn} {new new' : List Task} {evs evs' : List Event} :
    (Except.ok (c, new, evs) : Outcome) = .ok (c', new', evs') ↔
      c = c' ∧ new = new' ∧ evs = evs' := by
  rw [Except.ok.injEq, Prod.mk.injEq, Prod.mk.injEq]

section Inversion

variable {c c' : ClientConn} {t : Task} {new : List Task} {evs : List Event} {ch : Choice}

/-- A step that writes no object and leads to no operation. -/
theorem Frame.plain (hu : Untouched c c') (hn : ∀ t' ∈ new, ∀ d, t'.handled d) :
    Frame c t c' new := by
  refine ⟨fun _ => hu.robj, ?_, fun _ t' ht' => hn t' ht' c', hu.pRSock, ?_⟩
  · intro b _ _
    rw [hu.bobj]
  · intro b hb
    rw [hu.bobj]
    exact Or.inr ⟨hu.objs b hb, rfl⟩

theorem Frame.one {t' : Task} (hu : Untouched c c') (hn : ∀ d, t'.handled d) :
    Frame c t c' [t'] := by
  apply Frame.plain hu
  intro u hu
  rw [List.mem_singleton.mp hu]
  exact hn

theorem Frame.done (hu : Untouched c c') : Frame c t c' [] :=
  Frame.plain hu (fun _ ht' => absurd ht' List.not_mem_nil)

/-- A step that writes the BUFFER_OBJ it works on. -/
theorem Frame.setBObj {b : BufferObjPtr} {x : BufferObj} (hb : b ∈ t.uses)
    (hx : x.pRelateSock = (c.bobj b).pRelateSock)
    (hn : t.handled c → ∀ t' ∈ new, t'.handled (c.setBObj b x)) :
    Frame c t (c.setBObj b x) new := by
  refine ⟨fun _ => rfl, ?_, hn, rfl, ?_⟩
  · intro b' _ hb'
    apply setBObj_of_ne
    intro heq
    exact hb' (heq ▸ hb)
  · intro b' hb'
    refine Or.inr ⟨hb', ?_⟩
    rcases eq_or_ne b' b with heq | hne
    · rw [heq, setBObj_bobj, hx]
    · rw [setBObj_of_ne c b x hne]

theorem Frame.setRSock (h : Frame c t c' new) (rsock : RecvSock) :
    Frame c t (c'.setRSock rsock) new where
  robj := h.robj
  bobj := h.bobj
  handled ht t' ht' := Task.handled_congr (fun _ => rfl) (fun _ _ => rfl) (h.handled ht t' ht')
  pRSock := h.pRSock
  relates := h.relates

/-- A step that hands everything on and writes no object. -/
theorem Turn.pass {t' : Task} (ht : Passes t t') (hl : SameLedger c c') (hc : Closes t c c' evs)
    (hu : Untouched c c') (hn : ∀ d, t'.handled d) : Turn c t c' [t'] evs := by
  refine ⟨Fires.pass ht hl hc ?_, Frame.one hu hn⟩
  intro b
  rw [hu.bobj]
  exact SamePayload.rfl

theorem Turn.still {t' : Task} (ht : Passes t t') (hn : ∀ d, t'.handled d) :
    Turn c t c [t'] [] := Turn.pass ht SameLedger.rfl (Closes.keeps rfl) Untouched.rfl hn

theorem Turn.setRSock {t' : Task} {rsock : RecvSock} (ht : Passes t t')
    (hlink : RecvSock.SameLink c.rsock rsock) (hn : ∀ d, t'.handled d) :
    Turn c t (c.setRSock rsock) [t'] [] :=
  Turn.pass ht ⟨hlink.nRef, hlink.lstSend, rfl, rfl, rfl⟩ (Closes.keeps hlink.sock)
    (setRSock_untouched c rsock) hn

/-- A CMCloseSocket of the RECV_SOCK. -/
theorem cmCloseSocket_turn {t' : Task} (ht : Passes t t') (hcl : t.closing)
    (hn : ∀ d, t'.handled d) (h : c.cmCloseSocket [t'] = .ok (c', new, evs)) :
    Turn c t c' new evs := by
  unfold cmCloseSocket at h
  split at h
  · case isTrue hs =>
    rw [ok_inj] at h
    rcases h with ⟨rfl, rfl, rfl⟩
    exact Turn.pass ht ⟨rfl, rfl, rfl, rfl, rfl⟩ (Closes.closes hcl hs rfl)
      (setRSock_untouched c _) hn
  · rw [ok_inj] at h
    rcases h with ⟨rfl, rfl, rfl⟩
    exact Turn.still ht hn

theorem takeCommand_turn {o : Origin} {rsock : RecvSock} {len : DWORD}
    (hkeep : RecvSock.SameLink c.rsock rsock) (hfresh : ch.pBObj ∉ c.objs)
    (h : c.takeCommand o rsock len ch = .ok (c', new, evs)) : Turn c (.loop o) c' new evs := by
  unfold takeCommand at h
  split at h
  · contradiction
  · case h_2 n bytes rsock' hread =>
    split at h
    · contradiction
    · case h_2 b hstore =>
      rw [ok_inj] at h
      rcases h with ⟨rfl, rfl, rfl⟩
      have hlink := hkeep.trans (RecvSock.read_keeps rsock len _ hread)
      have hother (b' : BufferObjPtr) (hb' : b' ∈ c.objs) (x : BufferObj) :
          Function.update c.bobj ch.pBObj x b' = c.bobj b' := by
        apply Function.update_of_ne
        intro heq
        exact hfresh (heq ▸ hb')
      constructor
      · exact Fires.alloc o ch.pBObj hfresh hlink.nRef hlink.lstSend rfl rfl rfl hlink.sock
          (fun b' hb' => hother b' hb' _)
      · refine ⟨fun _ => rfl, fun b' hb' _ => hother b' hb' _, ?_, rfl, ?_⟩
        · intro _ t' ht'
          rw [List.mem_singleton.mp ht']
          trivial
        · intro b' hb'
          rcases List.mem_cons.mp hb' with rfl | hb'
          · left
            change (Function.update c.bobj ch.pBObj _ ch.pBObj).pRelateSock = _
            rw [Function.update_self]
          · right
            refine ⟨hb', ?_⟩
            change (Function.update c.bobj ch.pBObj _ b').pRelateSock = _
            rw [hother b' hb']

theorem loopStep_turn {o : Origin} (hfresh : ch.pBObj ∉ c.objs)
    (h : c.loopStep o ch = .ok (c', new, evs)) : Turn c (.loop o) c' new evs := by
  unfold loopStep at h
  split at h
  · contradiction
  · case h_2 len rsock hlen =>
    have hkeep := RecvSock.getCmdDataLength_keeps c.rsock _ hlen
    split at h
    · rw [ok_inj] at h
      rcases h with ⟨rfl, rfl, rfl⟩
      refine Turn.pass (Passes.drained o) ⟨hkeep.nRef, hkeep.lstSend, rfl, rfl, rfl⟩ ?_
        (setRSock_untouched c _) (fun _ => trivial)
      split
      · case isTrue hs => exact Closes.closes trivial hs.1 hs.2
      · case isFalse hs =>
        apply Closes.keeps
        rcases hkeep.sock with hsock | ⟨_, hsock⟩
        · exact hsock
        · change rsock.sock = _
          rw [hsock]
          by_contra hne
          exact hs ⟨fun heq => hne heq.symm, hsock⟩
    · case isFalse hz =>
      refine takeCommand_turn ⟨hkeep.nRef, hkeep.lstSend, ?_⟩ hfresh h
      rcases hkeep.sock with hsock | ⟨hlen', _⟩
      · exact hsock
      · exact absurd hlen' hz

theorem postCmd_turn {o : Origin} {b : BufferObjPtr}
    (h : c.step (.postCmd o b) ch = .ok (c', new, evs)) : Turn c (.postCmd o b) c' new evs := by
  simp only [step, withBObj, guarded_ok] at h
  rcases h with ⟨_, h⟩
  have hpay := setBObj_payload c b ((c.bobj b).setIoRequestFunction .clientCmdCompletionFailed
    .clientCmdCompletionSuccess) ⟨rfl, rfl⟩
  have huses : b ∈ (Task.postCmd o b).uses := List.mem_append_left _ (List.mem_singleton_self b)
  split at h
  · rw [ok_inj] at h
    rcases h with ⟨rfl, rfl, rfl⟩
    refine ⟨Fires.queue o b (setBObj_ledger c b _) rfl hpay, Frame.setBObj huses rfl ?_⟩
    intro _ t' ht'
    rcases List.mem_pair.mp ht' with rfl | rfl
    · constructor <;> rw [setBObj_bobj] <;> rfl
    · trivial
  · cases o with
    | accept =>
      rw [ok_inj] at h
      rcases h with ⟨rfl, rfl, rfl⟩
      refine ⟨Fires.pass (Passes.unqueuedAccept b) (setBObj_ledger c b _) (Closes.keeps rfl) hpay,
        Frame.setBObj huses rfl ?_⟩
      intro _ t' ht'
      rw [List.mem_singleton.mp ht']
      trivial
    | recv =>
      rw [ok_inj] at h
      rcases h with ⟨rfl, rfl, rfl⟩
      refine ⟨Fires.pass (Passes.unqueuedRecv b) (setBObj_ledger c b _) (Closes.keeps rfl) hpay,
        Frame.setBObj huses rfl ?_⟩
      intro _ t' ht'
      rw [List.mem_singleton.mp ht']
      trivial

/-- A step that switches the handlers of the RECV_OBJ and posts its next operation. -/
theorem postRObj_turn {t' : Task} {rsock : RecvSock} {f : FPFailed} {g : FPSuccess}
    (ht : Passes t t') (hrel : Passes t (.release .robj)) (hc : t.chain = 1)
    (hlink : RecvSock.SameLink c.rsock rsock)
    (hn : t'.handled ((c.setRObjHandlers f g).setRSock rsock)) {p : Prop} [Decidable p] :
    Turn c t ((c.setRObjHandlers f g).setRSock rsock)
      (if p then [t'] else [.release .robj]) [] := by
  have hl : SameLedger c ((c.setRObjHandlers f g).setRSock rsock) :=
    ⟨hlink.nRef, hlink.lstSend, rfl, rfl, rfl⟩
  have hone (u : Task) (hu : u.handled ((c.setRObjHandlers f g).setRSock rsock)) :
      Frame c t ((c.setRObjHandlers f g).setRSock rsock) [u] := by
    refine ⟨fun hz => absurd (hz.symm.trans hc) (by decide), fun _ _ _ => rfl, ?_, rfl,
      fun _ hb => Or.inr ⟨hb, rfl⟩⟩
    intro _ v hv
    rwa [List.mem_singleton.mp hv]
  split
  · exact ⟨Fires.pass ht hl (Closes.keeps hlink.sock) (fun _ => SamePayload.rfl), hone _ hn⟩
  · exact ⟨Fires.pass hrel hl (Closes.keeps hlink.sock) (fun _ => SamePayload.rfl),
      hone _ trivial⟩

/-- The handlers of a BUFFER_OBJ that is being sent. -/
def sendHandlers (b : BufferObj) : Prop :=
  b.fpFailed = some .clientSendCompletionFailed ∧ b.fpSuccess = some .clientSendCompletionSuccess

theorem answer_command (b : BufferObj) (bytes : List Byte) (h : bytes.length ≤ b.datalen.toNat) :
    (b.answer bytes).command = bytes := by
  have hlen : (BitVec.ofNat 32 bytes.length).toNat = bytes.length := by
    rw [BitVec.toNat_ofNat]
    apply Nat.mod_eq_of_lt
    exact lt_of_le_of_lt h b.datalen.isLt
  unfold BufferObj.command
  change (List.range' 0 (BitVec.ofNat 32 bytes.length).toNat).map (Circular.writeAt _ _ _) = _
  rw [hlen]
  exact Circular.map_writeAt _ _ _ List.nodup_range' (by simp)

theorem respond_turn {b : BufferObjPtr} (h : c.respond b ch = .ok (c', new, evs)) :
    Turn c (.command b) c' new evs := by
  simp only [respond, RecvSock.checkSend, ok_inj] at h
  rcases h with ⟨rfl, rfl, rfl⟩
  simp only [List.isEmpty_iff]
  have hself := setBObj_bobj c b ((c.bobj b).answer (ch.bytes.take (c.bobj b).datalen.toNat))
  constructor
  · refine Fires.enqueue b _ rfl rfl rfl rfl rfl rfl ?_ ?_ ?_
    · intro b' hb'
      exact setBObj_of_ne c b _ hb'
    · change ((c.setBObj b _).bobj b).command = _
      rw [hself]
      exact answer_command _ _ (List.length_take_le _ _)
    · change ((c.setBObj b _).bobj b).dwSendedCount = _
      rw [hself]
      rfl
  · apply Frame.setRSock
    refine Frame.setBObj (List.mem_append_left _ (List.mem_singleton_self b)) rfl ?_
    intro _ t' ht'
    split at ht'
    · rw [List.mem_singleton.mp ht']
      change sendHandlers ((c.setBObj b _).bobj b)
      rw [hself]
      exact ⟨rfl, rfl⟩
    · contradiction

theorem postSend_ok {b : BufferObjPtr} {evs' : List Event}
    (h : c.postSend b ch evs' = .ok (c', new, evs)) :
    (∃ t', new = [t'] ∧ (t' = .send b ∨ t' = .getNextData b)) ∧ evs = evs' ∧
      c' = c.setBObj b (c.bobj b).setWsaBuf := by
  simp only [postSend, withRSock, withBObj, guarded_ok, ok_inj] at h
  rcases h with ⟨_, _, rfl, rfl, rfl⟩
  refine ⟨?_, rfl, rfl⟩
  split
  · exact ⟨_, rfl, Or.inl rfl⟩
  · exact ⟨_, rfl, Or.inr rfl⟩

theorem postSend_handled {b : BufferObjPtr} {t' : Task} {x : BufferObj} (hx : sendHandlers x)
    (ht' : t' = .send b ∨ t' = .getNextData b) : t'.handled (c.setBObj b x.setWsaBuf) := by
  rcases ht' with rfl | rfl
  · change sendHandlers ((c.setBObj b _).bobj b) ∧ ((c.setBObj b _).bobj b).Posted
    rw [setBObj_bobj]
    exact ⟨hx, rfl⟩
  · trivial

theorem startSend_turn {b : BufferObjPtr} (h : c.postSend b ch [.start b] = .ok (c', new, evs)) :
    Turn c (.startSend b) c' new evs := by
  rcases postSend_ok h with ⟨⟨t', rfl, ht'⟩, rfl, rfl⟩
  refine ⟨Fires.start b (Or.inl rfl) ht' (setBObj_ledger _ _ _) rfl
    (setBObj_payload c b _ ⟨rfl, rfl⟩), Frame.setBObj ?_ rfl ?_⟩
  · simp [Task.uses, Task.waiting]
  · intro hh u hu
    rw [List.mem_singleton.mp hu]
    exact postSend_handled hh ht'

theorem nextSend_turn {b : BufferObjPtr}
    (h : (c.setBObj b ((c.bobj b).setIoRequestFunction .clientSendCompletionFailed
      .clientSendCompletionSuccess)).postSend b ch [.start b] = .ok (c', new, evs)) :
    Turn c (.nextSend b) c' new evs := by
  rcases postSend_ok h with ⟨⟨t', rfl, ht'⟩, rfl, rfl⟩
  rw [setBObj_bobj]
  have htwice (x y : BufferObj) : (c.setBObj b x).setBObj b y = c.setBObj b y := by
    unfold setBObj
    rw [Function.update_idem]
  rw [htwice]
  refine ⟨Fires.start b (Or.inr rfl) ht' (setBObj_ledger _ _ _) rfl
    (setBObj_payload c b _ ⟨rfl, rfl⟩), Frame.setBObj ?_ rfl ?_⟩
  · simp [Task.uses, Task.waiting]
  · intro _ u hu
    rw [List.mem_singleton.mp hu]
    exact postSend_handled ⟨rfl, rfl⟩ ht'

theorem repostSend_turn {b : BufferObjPtr} (h : c.postSend b ch [] = .ok (c', new, evs)) :
    Turn c (.repostSend b) c' new evs := by
  rcases postSend_ok h with ⟨⟨t', rfl, ht'⟩, rfl, rfl⟩
  have hpay := setBObj_payload c b (c.bobj b).setWsaBuf ⟨rfl, rfl⟩
  constructor
  · rcases ht' with rfl | rfl
    · exact Fires.pass (Passes.reposted b) (setBObj_ledger _ _ _) (Closes.keeps rfl) hpay
    · exact Fires.pass (Passes.repostRefused b) (setBObj_ledger _ _ _) (Closes.keeps rfl) hpay
  · refine Frame.setBObj ?_ rfl ?_
    · simp [Task.uses, Task.active]
    · intro hh u hu
      rw [List.mem_singleton.mp hu]
      exact postSend_handled hh ht'

theorem sendCompletion_turn {b : BufferObjPtr}
    (h : c.sendCompletion b ch = .ok (c', new, evs)) : Turn c (.send b) c' new evs := by
  simp only [sendCompletion, withBObj, dispatchBObj, guarded_ok] at h
  rcases h with ⟨_, _, h⟩
  split at h
  · case isTrue hsent =>
    rw [ok_inj] at h
    rcases h with ⟨rfl, rfl, rfl⟩
    have hself := setBObj_bobj c b ((c.bobj b).advance
      (BitVec.ofNat 32 ((c.bobj b).offered.take ch.count).length))
    constructor
    · have hfires := Fires.sent b _ hsent.2 (List.take_prefix _ _) (setBObj_ledger c b _) rfl
        (fun b' hb' => setBObj_of_ne c b _ hb') hself
      rwa [hself] at hfires
    · refine Frame.setBObj ?_ rfl ?_
      · simp [Task.uses, Task.active]
      · intro hh u hu
        split at hu
        · rw [List.mem_singleton.mp hu]
          change sendHandlers ((c.setBObj b _).bobj b)
          rw [hself]
          exact hh.1
        · rw [List.mem_singleton.mp hu]
          trivial
  · rw [ok_inj] at h
    rcases h with ⟨rfl, rfl, rfl⟩
    exact ⟨Fires.sendFailed b _ (List.take_prefix _ _), Frame.one Untouched.rfl (fun _ => trivial)⟩

theorem getNextData_turn {b : BufferObjPtr} (h : c.step (.getNextData b) ch = .ok (c', new, evs)) :
    Turn c (.getNextData b) c' new evs := by
  simp only [step, withRSock, guarded_ok] at h
  rcases h with ⟨_, h⟩
  split at h
  · contradiction
  · case h_2 obj rsock hnext =>
    rw [ok_inj] at h
    rcases h with ⟨rfl, rfl, rfl⟩
    unfold RecvSock.getNextData at hnext
    split at hnext
    · contradiction
    · case isFalse hne =>
      rw [List.isEmpty_iff] at hne
      rw [Option.some.injEq, Prod.mk.injEq] at hnext
      rcases hnext with ⟨rfl, rfl⟩
      rw [List.getLast?_eq_getLast_of_ne_nil hne]
      exact ⟨Fires.dequeue b _ _ (List.dropLast_append_getLast hne).symm,
        Frame.one (setRSock_untouched c _) (fun _ => trivial)⟩

/-- Every step that does not fault is one of `Fires`, and leaves the objects that it does
not work on. -/
theorem step_turn (hfresh : ch.pBObj ∉ c.objs) (h : c.step t ch = .ok (c', new, evs)) :
    Turn c t c' new evs := by
  cases t with
  -- The receive chain up to its loop.
  | accept =>
    simp only [step, dispatchRObj, withRObj, withRSock, guarded_ok] at h
    rcases h with ⟨_, _, _, h⟩
    split at h
    · rw [ok_inj] at h
      rcases h with ⟨rfl, rfl, rfl⟩
      exact Turn.setRSock (Passes.accepted _) ⟨rfl, rfl, rfl⟩ (fun _ => trivial)
    · rw [ok_inj] at h
      rcases h with ⟨rfl, rfl, rfl⟩
      exact Turn.still Passes.refused (fun _ => trivial)
  | createPort n =>
    simp only [step, withRSock, guarded_ok] at h
    rcases h with ⟨_, h⟩
    split at h
    · rw [ok_inj] at h
      rcases h with ⟨rfl, rfl, rfl⟩
      exact Turn.setRSock (Passes.associated n) (RecvSock.initWRpos_keeps _ n) (fun _ => trivial)
    · rw [ok_inj] at h
      rcases h with ⟨rfl, rfl, rfl⟩
      exact Turn.still (Passes.unassociated n) (fun _ => trivial)
  | acceptClose =>
    simp only [step, withRSock, guarded_ok] at h
    exact cmCloseSocket_turn Passes.closed trivial (fun _ => trivial) h.2
  | acceptFreeRObj =>
    simp only [step, freeRObj, guarded_ok, ok_inj] at h
    rcases h with ⟨_, rfl, rfl, rfl⟩
    exact ⟨Fires.acceptFreeRObj, Frame.one (freeRObj_untouched c) (fun _ => trivial)⟩
  | acceptFreeRSock =>
    simp only [step, freeRSock, guarded_ok, ok_inj] at h
    rcases h with ⟨_, rfl, rfl, rfl⟩
    exact ⟨Fires.acceptFreeRSock, Frame.done (freeRSock_untouched c)⟩
  | loop o =>
    simp only [step, withRSock, guarded_ok] at h
    exact loopStep_turn hfresh h.2
  -- The loop body behind takeCommand.
  | addRef o b =>
    simp only [step, withRSock, guarded_ok, ok_inj] at h
    rcases h with ⟨_, rfl, rfl, rfl⟩
    exact ⟨Fires.acquire o b, Frame.one (setRSock_untouched c _) (fun _ => trivial)⟩
  | postCmd o b => exact postCmd_turn h
  | acceptDecRef b =>
    simp only [step, withRSock, guarded_ok, ok_inj] at h
    rcases h with ⟨_, rfl, rfl, rfl⟩
    exact ⟨Fires.acceptDecRef b, Frame.one (setRSock_untouched c _) (fun _ => trivial)⟩
  | acceptFreeBObj b =>
    simp only [step, freeBObj, guarded_ok, ok_inj] at h
    rcases h with ⟨hb, rfl, rfl, rfl⟩
    exact ⟨Fires.freeBObj b hb (FreesBObj.accept b),
      Frame.one (erase_untouched c b) (fun _ => trivial)⟩
  | recvFreeBObj b =>
    simp only [step, freeBObj, guarded_ok, ok_inj] at h
    rcases h with ⟨hb, rfl, rfl, rfl⟩
    exact ⟨Fires.freeBObj b hb (FreesBObj.recv b),
      Frame.one (erase_untouched c b) (fun _ => trivial)⟩
  | recvDecRef =>
    simp only [step, withRSock, guarded_ok, ok_inj] at h
    rcases h with ⟨_, rfl, rfl, rfl⟩
    split
    · case isTrue hz =>
      exact ⟨Fires.recvDecRefZero hz, Frame.one (setRSock_untouched c _) (fun _ => trivial)⟩
    · case isFalse hz =>
      exact ⟨Fires.recvDecRef hz, Frame.one (setRSock_untouched c _) (fun _ => trivial)⟩
  | earlyClose =>
    simp only [step, withRSock, guarded_ok] at h
    exact cmCloseSocket_turn Passes.earlyClosed trivial (fun _ => trivial) h.2
  | earlyFreeRSock =>
    simp only [step, freeRSock, guarded_ok, ok_inj] at h
    rcases h with ⟨_, rfl, rfl, rfl⟩
    exact ⟨Fires.earlyFreeRSock, Frame.done (freeRSock_untouched c)⟩
  -- The two posts of the RECV_OBJ and their completions.
  | postZeroRecv =>
    simp only [step, withRObj, withRSock, guarded_ok, ok_inj] at h
    rcases h with ⟨_, _, rfl, rfl, rfl⟩
    apply postRObj_turn Passes.zeroPosted Passes.zeroRefused rfl
    · exact ⟨rfl, rfl, rfl⟩
    · exact ⟨rfl, rfl⟩
  | zeroRecv =>
    simp only [step, dispatchRObj, withRObj, guarded_ok, ok_inj] at h
    rcases h with ⟨_, _, rfl, rfl, rfl⟩
    split
    · exact Turn.still Passes.readable (fun _ => trivial)
    · exact Turn.still Passes.zeroFailed (fun _ => trivial)
  | postRecv =>
    simp only [step, withRObj, withRSock, guarded_ok, ok_inj] at h
    rcases h with ⟨_, _, rfl, rfl, rfl⟩
    apply postRObj_turn Passes.recvPosted Passes.recvRefused rfl
    · exact RecvSock.initWSABUFS_keeps c.rsock
    · exact ⟨rfl, rfl⟩
  | recv =>
    simp only [step, dispatchRObj, withRObj, withRSock, guarded_ok] at h
    rcases h with ⟨_, _, _, h⟩
    split at h
    · rw [ok_inj] at h
      rcases h with ⟨rfl, rfl, rfl⟩
      have hlink (n : DWORD) (bytes : List Byte) :=
        RecvSock.initWRpos_keeps (c.rsock.kernelRecv bytes) n
      exact Turn.setRSock Passes.received
        ⟨(hlink _ _).nRef, (hlink _ _).lstSend, (hlink _ _).sock⟩ (fun _ => trivial)
    · rw [ok_inj] at h
      rcases h with ⟨rfl, rfl, rfl⟩
      exact Turn.still Passes.recvFailed (fun _ => trivial)
  -- The end of a chain.
  | release k =>
    simp only [step, withRSock, guarded_ok, ok_inj] at h
    rcases h with ⟨_, rfl, rfl, rfl⟩
    split
    · case isTrue hz =>
      exact ⟨Fires.releaseZero k hz, Frame.one (setRSock_untouched c _) (fun _ => trivial)⟩
    · case isFalse hz =>
      exact ⟨Fires.release k hz, Frame.one (setRSock_untouched c _) (fun _ => trivial)⟩
  | releaseClose k =>
    simp only [step, withRSock, guarded_ok] at h
    exact cmCloseSocket_turn (Passes.releaseClosed k) trivial (fun _ => trivial) h.2
  | releaseFreeRSock k =>
    simp only [step, freeRSock, guarded_ok, ok_inj] at h
    rcases h with ⟨_, rfl, rfl, rfl⟩
    exact ⟨Fires.releaseFreeRSock k, Frame.one (freeRSock_untouched c) (fun _ => trivial)⟩
  | releaseTail k =>
    cases k with
    | robj =>
      simp only [step, freeRObj, guarded_ok, ok_inj] at h
      rcases h with ⟨_, rfl, rfl, rfl⟩
      exact ⟨Fires.releaseFreeRObj, Frame.done (freeRObj_untouched c)⟩
    | bobj b =>
      simp only [step, freeBObj, guarded_ok, ok_inj] at h
      rcases h with ⟨hb, rfl, rfl, rfl⟩
      exact ⟨Fires.freeBObj b hb (FreesBObj.cmd b), Frame.done (erase_untouched c b)⟩
    | nothing =>
      simp only [step, ok_inj] at h
      rcases h with ⟨rfl, rfl, rfl⟩
      exact ⟨Fires.releaseNothing, Frame.done Untouched.rfl⟩
  -- Commands and sends.
  | cmd b =>
    simp only [step, dispatchBObj, withBObj, guarded_ok, ok_inj] at h
    rcases h with ⟨_, _, rfl, rfl, rfl⟩
    split
    · exact Turn.still (Passes.cmdRuns b) (fun _ => trivial)
    · exact Turn.still (Passes.cmdFailed b) (fun _ => trivial)
  | command b =>
    simp only [step, withBObj, guarded_ok] at h
    rcases h with ⟨_, h⟩
    split at h
    · simp only [withRSock, guarded_ok] at h
      exact respond_turn h.2
    · rw [ok_inj] at h
      rcases h with ⟨rfl, rfl, rfl⟩
      exact Turn.still (Passes.kept b) (fun _ => trivial)
  | startSend b => exact startSend_turn h
  | send b => exact sendCompletion_turn h
  | repostSend b => exact repostSend_turn h
  | getNextData b => exact getNextData_turn h
  | freeSent b obj =>
    cases obj with
    | none =>
      simp only [step, freeBObj, guarded_ok, ok_inj] at h
      rcases h with ⟨hb, rfl, rfl, rfl⟩
      exact ⟨Fires.freeBObj b hb (FreesBObj.lastSent b),
        Frame.one (erase_untouched c b) (fun _ => trivial)⟩
    | some obj =>
      simp only [step, freeBObj, guarded_ok, ok_inj] at h
      rcases h with ⟨hb, rfl, rfl, rfl⟩
      exact ⟨Fires.freeBObj b hb (FreesBObj.sent b obj),
        Frame.one (erase_untouched c b) (fun _ => trivial)⟩
  | nextDecRef b =>
    simp only [step, withRSock, guarded_ok, ok_inj] at h
    rcases h with ⟨_, rfl, rfl, rfl⟩
    exact ⟨Fires.nextDecRef b, Frame.one (setRSock_untouched c _) (fun _ => trivial)⟩
  | nextSend b =>
    simp only [step, withBObj, guarded_ok] at h
    exact nextSend_turn h.2

end Inversion

end ClientConn

end CustomersCard
