import CustomersCardMS.CommandOrder
import CustomersCardMS.ConnAlone
import CustomersCardMS.RingLeftovers

namespace CustomersCard
open Interleaving

namespace BufferObj

/-- The bytes behind the command, and the WSABUF of an older send, may be anything. -/
structure Shows (b b' : BufferObj) : Prop where
  fpSuccess : b'.fpSuccess = b.fpSuccess
  fpFailed : b'.fpFailed = b.fpFailed
  pRelateSock : b'.pRelateSock = b.pRelateSock
  recved : b'.dwRecvedCount = b.dwRecvedCount
  sended : b'.dwSendedCount = b.dwSendedCount
  datalen : b'.datalen = b.datalen
  command : b'.command = b.command

namespace Shows

variable {b b' : BufferObj} (h : Shows b b')
include h

theorem unsent : b'.unsent = b.unsent := by
  unfold BufferObj.unsent
  rw [h.command, h.sended]

theorem setIoRequestFunction (f : FPFailed) (g : FPSuccess) :
    Shows (b.setIoRequestFunction f g) (b'.setIoRequestFunction f g) :=
  ⟨rfl, rfl, h.pRelateSock, h.recved, h.sended, h.datalen, h.command⟩

theorem setWsaBuf : Shows b.setWsaBuf b'.setWsaBuf :=
  ⟨h.fpSuccess, h.fpFailed, h.pRelateSock, h.recved, h.sended, h.datalen, h.command⟩

theorem advance (dwTranstion : DWORD) : Shows (b.advance dwTranstion) (b'.advance dwTranstion) :=
  ⟨h.fpSuccess, h.fpFailed, h.pRelateSock, h.recved, congrArg (· + dwTranstion) h.sended,
    h.datalen, h.command⟩

/-- A response is written over whatever was there. -/
theorem answer {bytes : List Byte} (hle : bytes.length ≤ b.datalen.toNat) :
    Shows (b.answer bytes) (b'.answer bytes) := by
  have hle' : bytes.length ≤ b'.datalen.toNat := by rwa [h.datalen]
  refine ⟨rfl, rfl, h.pRelateSock, rfl, rfl, h.datalen, ?_⟩
  rw [ClientConn.answer_command b bytes hle, ClientConn.answer_command b' bytes hle']

end Shows

end BufferObj

/-- The cells of the ring that the task relies on are the same in the other memory. -/
def Task.sees (c : ClientConn) (buf : ℕ → Byte) (wsabuf : Wsabuf × Wsabuf) : Task → Prop
  | .createPort n => c.rsock.SameTo n.toNat buf
  | .loop _ | .addRef _ _ | .postCmd _ _ | .acceptDecRef _ | .acceptFreeBObj _ | .recvFreeBObj _
  | .recvDecRef | .postZeroRecv | .zeroRecv | .postRecv => c.rsock.SameTo c.rsock.writtenTo buf
  | .recv => c.rsock.SameTo c.rsock.writtenTo buf ∧ wsabuf = c.rsock.wsabuf
  | _ => True

namespace ClientConn

/-- The same connection over other memory. -/
def besides (c : ClientConn) (buf : ℕ → Byte) (wsabuf : Wsabuf × Wsabuf)
    (mem : BufferObjPtr → BufferObj) : ClientConn :=
  { c with rsock := c.rsock.onto buf wsabuf, bobj := mem }

def ShowsIn (c : ClientConn) (mem : BufferObjPtr → BufferObj) : Prop :=
  ∀ b ∈ c.objs, (c.bobj b).Shows (mem b)

/-- Both steps fault alike, or go on with the same tasks and the same events. -/
inductive Follows : Outcome → Outcome → Prop
  | error (f : Fault) : Follows (.error f) (.error f)
  | ok {c : ClientConn} {new : List Task} {evs : List Event} (buf : ℕ → Byte)
      (wsabuf : Wsabuf × Wsabuf) {mem : BufferObjPtr → BufferObj} : c.ShowsIn mem →
      (∀ u ∈ new, u.sees c buf wsabuf) →
      Follows (.ok (c, new, evs)) (.ok (c.besides buf wsabuf mem, new, evs))

namespace Follows

variable {p q : Prop} [Decidable p] [Decidable q] {f : Fault} {k k' l l' : Outcome}

theorem guarded (hpq : p ↔ q) (hk : Follows k k') :
    Follows (guarded p f k) (guarded q f k') := by
  unfold ClientConn.guarded
  by_cases hp : p
  · rw [if_pos hp, if_pos (hpq.mp hp)]
    exact hk
  · rw [if_neg hp, if_neg (mt hpq.mpr hp)]
    exact Follows.error f

theorem ite (hk : p → Follows k k') (hl : Follows l l') :
    Follows (if p then k else l) (if p then k' else l') := by
  split
  · case isTrue hp => exact hk hp
  · exact hl

end Follows

section Step

variable {c : ClientConn} {buf : ℕ → Byte} {wsabuf : Wsabuf × Wsabuf}
  {mem : BufferObjPtr → BufferObj} {ch : Choice} {left : BufferObj}

/-- Nothing but the ring matters to the tasks of the receive chain. -/
theorem sees_one {u : Task} (h : u.sees c buf wsabuf) : ∀ v ∈ [u], v.sees c buf wsabuf := by
  intro v hv
  rw [List.mem_singleton.mp hv]
  exact h

theorem sees_nil : ∀ v ∈ ([] : List Task), v.sees c buf wsabuf := nofun

/-- Also where the BUFFER_OBJ has just been allocated. -/
theorem ShowsIn.updated (h : c.ShowsIn mem) {b : BufferObjPtr} {x x' : BufferObj}
    (hx : x.Shows x') : ∀ b' ∈ b :: c.objs,
      (Function.update c.bobj b x b').Shows (Function.update mem b x' b') := by
  intro b' hb'
  by_cases heq : b' = b
  · rw [heq, Function.update_self, Function.update_self]
    exact hx
  · rw [Function.update_of_ne heq, Function.update_of_ne heq]
    exact h b' (List.mem_of_ne_of_mem heq hb')

theorem ShowsIn.update (h : c.ShowsIn mem) {b : BufferObjPtr} {x x' : BufferObj}
    (hx : x.Shows x') : (c.setBObj b x).ShowsIn (Function.update mem b x') :=
  fun b' hb' => h.updated hx b' (List.mem_cons_of_mem b hb')

theorem ShowsIn.erase (h : c.ShowsIn mem) (b : BufferObjPtr) :
    ShowsIn { c with objs := c.objs.erase b } mem :=
  fun b' hb' => h b' (List.mem_of_mem_erase hb')

theorem cmCloseSocket_follows (h : c.ShowsIn mem) {next : List Task}
    (hn : ∀ u ∈ next, ∀ d : ClientConn, u.sees d buf wsabuf) :
    Follows (c.cmCloseSocket next) ((c.besides buf wsabuf mem).cmCloseSocket next) :=
  Follows.ite (fun _ => Follows.ok buf wsabuf h fun u hu => hn u hu _)
    (Follows.ok buf wsabuf h fun u hu => hn u hu _)

theorem freeBObj_follows (h : c.ShowsIn mem) {b : BufferObjPtr} {next : List Task}
    (hn : ∀ u ∈ next, u.sees c buf wsabuf) :
    Follows (c.freeBObj b next) ((c.besides buf wsabuf mem).freeBObj b next) :=
  Follows.guarded Iff.rfl (Follows.ok buf wsabuf (h.erase b) hn)

/-- A command is stored over whatever the BUFFER_OBJ held. -/
theorem storeData_shows (pool pool' : BufferObj) (dwSize len : DWORD) (pRSock : SockPtr)
    {bytes : List Byte} (hlen : bytes.length = len.toNat) :
    ((allocBObj pool dwSize).storeData bytes = none ∧
        (allocBObj pool' dwSize).storeData bytes = none) ∨
      ∃ b b', (allocBObj pool dwSize).storeData bytes = some b ∧
        (allocBObj pool' dwSize).storeData bytes = some b' ∧
        BufferObj.Shows { b with dwRecvedCount := len, pRelateSock := some pRSock }
          { b' with dwRecvedCount := len, pRelateSock := some pRSock } := by
  have hroom : (allocBObj pool' dwSize).dataRoom = (allocBObj pool dwSize).dataRoom := rfl
  unfold BufferObj.storeData
  rw [hroom]
  by_cases hle : bytes.length ≤ (allocBObj pool dwSize).dataRoom
  · rw [if_pos hle, if_pos hle]
    refine Or.inr ⟨_, _, rfl, rfl, rfl, rfl, rfl, rfl, rfl, rfl, ?_⟩
    unfold BufferObj.command
    change (List.range' 0 len.toNat).map (Circular.writeAt _ _ _) =
      (List.range' 0 len.toNat).map (Circular.writeAt _ _ _)
    rw [← hlen, Circular.map_writeAt _ _ _ List.nodup_range' (by simp),
      Circular.map_writeAt _ _ _ List.nodup_range' (by simp)]
  · rw [if_neg hle, if_neg hle]
    exact Or.inl ⟨rfl, rfl⟩

section Loop

variable (hring : c.rsock.RingInv) (h6 : 6 ≤ c.rsock.dwBufsize.toNat)
  (h31 : c.rsock.dwBufsize.toNat < 2^31) (h : c.ShowsIn mem)
  (hsame : c.rsock.SameTo c.rsock.writtenTo buf)
include hring h6 h31 h hsame

theorem loopStep_follows (o : Origin) :
    Follows (c.loopStep o ch) ((c.besides buf wsabuf mem).loopStep o { ch with left }) := by
  have hd := RecvSock.getCmdDataLength_onto hring h31 hsame wsabuf
  have hrsock : (c.besides buf wsabuf mem).rsock = c.rsock.onto buf wsabuf := rfl
  unfold loopStep
  rw [hrsock, hd]
  cases hcase : c.rsock.getCmdDataLength with
  | none => exact Follows.error _
  | some r =>
    obtain ⟨len, rsock⟩ := r
    dsimp only [Option.map_some, RecvSock.decodedOnto]
    by_cases hlen : len = 0
    · rw [hlen] at hcase
      rw [if_pos hlen, if_pos hlen]
      exact Follows.ok buf wsabuf h
        (sees_one (hsame.ring (RecvSock.refused_ring _ hring h6 h31 hcase)))
    · rw [if_neg hlen, if_neg hlen]
      unfold takeCommand
      rw [RecvSock.command_onto hring h6 h31 hcase hlen hsame wsabuf]
      cases hcommand : rsock.read len with
      | none => exact Follows.error _
      | some r =>
        obtain ⟨n, bytes, rsock'⟩ := r
        obtain ⟨hlength, _⟩ := RecvSock.command_taken hring h6 h31 hcase hlen hcommand
        have hsame' := RecvSock.command_same hring h6 h31 hcase hlen hsame hcommand
        dsimp only [Option.map_some, RecvSock.readOnto]
        rcases storeData_shows ch.left left c.g_dwPagesize len c.pRSock hlength with
          ⟨hnone, hnone'⟩ | ⟨b, b', hsome, hsome', hshows⟩
        · dsimp only [besides]
          rw [hnone, hnone']
          exact Follows.error _
        · dsimp only [besides]
          rw [hsome, hsome']
          exact @Follows.ok { (c.setRSock rsock').setBObj ch.pBObj _ with
            objs := ch.pBObj :: c.objs } _ _ buf wsabuf (Function.update mem ch.pBObj _)
            (h.updated hshows) (sees_one hsame')

end Loop

theorem sees_ite {p : Prop} [Decidable p] {u v : Task} (hu : u.sees c buf wsabuf)
    (hv : v.sees c buf wsabuf) : ∀ x ∈ (if p then [u] else [v]), x.sees c buf wsabuf := by
  split
  · exact sees_one hu
  · exact sees_one hv

theorem postSend_follows (h : c.ShowsIn mem) {b : BufferObjPtr} (hb : b ∈ c.objs)
    (evs : List Event) :
    Follows (c.postSend b ch evs) ((c.besides buf wsabuf mem).postSend b { ch with left } evs) :=
  Follows.guarded Iff.rfl <| Follows.guarded Iff.rfl <|
    Follows.ok buf wsabuf (h.update (h b hb).setWsaBuf) (sees_ite trivial trivial)

theorem dispatchBObj_follows (h : c.ShowsIn mem) {b : BufferObjPtr} (hb : b ∈ c.objs)
    {_fpFailed : FPFailed} {_fpSuccess : FPSuccess} {k k' : Outcome} (hk : Follows k k') :
    Follows (c.dispatchBObj b _fpFailed _fpSuccess k)
      ((c.besides buf wsabuf mem).dispatchBObj b _fpFailed _fpSuccess k') := by
  apply Follows.guarded _ hk
  change _ ↔ (mem b).fpFailed = _ ∧ (mem b).fpSuccess = _
  rw [(h b hb).fpFailed, (h b hb).fpSuccess]

/-- Both WSABUFs hold what is left to send. -/
theorem sendCompletion_follows {b : BufferObjPtr} (hready : c.Ready (.send b))
    (hready' : (c.besides buf wsabuf mem).Ready (.send b)) (h : c.ShowsIn mem) :
    Follows (c.sendCompletion b ch)
      ((c.besides buf wsabuf mem).sendCompletion b { ch with left }) := by
  have hb := hready.objs b (List.mem_singleton_self b)
  have hshows := h b hb
  have hoffered : (mem b).offered = (mem b).unsent := hready'.offered
  refine dispatchBObj_follows h hb (Follows.guarded Iff.rfl ?_)
  change Follows _ (if ch.ok ∧ (mem b).offered.take ch.count ≠ [] then _ else _)
  dsimp only [besides]
  rw [hoffered, hready.offered, hshows.unsent]
  refine Follows.ite (fun _ => ?_) (Follows.ok buf wsabuf h (sees_one trivial))
  have hadvance := hshows.advance (BitVec.ofNat 32 ((c.bobj b).unsent.take ch.count).length)
  rw [hadvance.sended, hadvance.recved]
  exact Follows.ok buf wsabuf (h.update hadvance) (sees_ite trivial trivial)

theorem respond_follows (h : c.ShowsIn mem) {b : BufferObjPtr} (hb : b ∈ c.objs) :
    Follows (c.respond b ch) ((c.besides buf wsabuf mem).respond b { ch with left }) := by
  have hshows := h b hb
  unfold respond
  dsimp only [besides]
  rw [hshows.datalen]
  have hle : (ch.bytes.take (c.bobj b).datalen.toNat).length ≤ (c.bobj b).datalen.toNat :=
    List.length_take_le _ _
  refine @Follows.ok ((c.setBObj b _).setRSock (c.rsock.checkSend b).2) _ _ buf wsabuf
    (Function.update mem b _) (h.update (hshows.answer hle)) ?_
  split
  · exact sees_one trivial
  · exact sees_nil

/-- Every step is followed by one over the other memory. -/
theorem step_follows {_Bufsize : DWORD} (h64 : 64 < _Bufsize.toNat) (h31 : _Bufsize.toNat < 2^31)
    {t : Task} {hist : History} (hready : c.Ready t)
    (hready' : (c.besides buf wsabuf mem).Ready t) (hphase : t.phase _Bufsize hist c)
    (h : c.ShowsIn mem) (hsees : t.sees c buf wsabuf) :
    Follows (c.step t ch) ((c.besides buf wsabuf mem).step t { ch with left }) := by
  have hobjs := hready.objs
  cases t with
  -- AcceptEx overwrites the first bytes of both rings, and only those count as written.
  | accept =>
    refine Follows.guarded Iff.rfl (Follows.guarded Iff.rfl (Follows.guarded Iff.rfl ?_))
    refine Follows.ite (fun _ => ?_) (Follows.ok buf wsabuf h (sees_one trivial))
    apply @Follows.ok (c.setRSock (c.rsock.kernelAccept _)) _ _ _ wsabuf mem h
    apply sees_one
    intro i hi
    apply Circular.writeAt_congr
    intro hout
    rw [BitVec.toNat_ofNat] at hi
    have hlow := Nat.lt_of_lt_of_le hi (Nat.mod_le _ _)
    exfalso
    apply hout
    rw [List.take_of_length_le (by simp)]
    refine List.mem_range'_1.mpr ⟨Nat.zero_le i, ?_⟩
    rw [Nat.zero_add]
    exact hlow
  | createPort n =>
    refine Follows.guarded Iff.rfl (Follows.ite (fun _ => ?_)
      (Follows.ok buf wsabuf h (sees_one trivial)))
    change Follows _ (.ok ((c.besides buf wsabuf mem).setRSock
      ((c.rsock.onto buf wsabuf).initWRpos n), _, _))
    rw [RecvSock.initWRpos_onto]
    apply @Follows.ok (c.setRSock (c.rsock.initWRpos n)) _ _ buf wsabuf mem h
    apply sees_one
    obtain ⟨_, hne, hle, rfl, g, sock, hrsock⟩ := hphase
    change c.rsock.SameTo _ buf at hsees
    change (c.rsock.initWRpos _).SameTo _ buf
    rw [BitVec.toNat_ofNat, Nat.mod_eq_of_lt (by omega)] at hsees
    rw [hrsock] at hsees ⊢
    exact RecvSock.accept_same hne (by omega) hsees
  | acceptClose | earlyClose =>
    refine Follows.guarded Iff.rfl (cmCloseSocket_follows h ?_)
    intro u hu d
    rw [List.mem_singleton.mp hu]
    trivial
  | releaseClose k =>
    refine Follows.guarded Iff.rfl (cmCloseSocket_follows h ?_)
    intro u hu d
    rw [List.mem_singleton.mp hu]
    trivial
  | acceptFreeRObj => exact Follows.guarded Iff.rfl (Follows.ok buf wsabuf h (sees_one trivial))
  | acceptFreeRSock | earlyFreeRSock =>
    exact Follows.guarded Iff.rfl (Follows.ok buf wsabuf h sees_nil)
  | releaseFreeRSock k => exact Follows.guarded Iff.rfl (Follows.ok buf wsabuf h (sees_one trivial))
  -- The one task that reads the ring.
  | loop o =>
    have hsize := hphase.size
    exact Follows.guarded Iff.rfl
      (loopStep_follows hphase.ring (by rw [hsize]; omega) (by rw [hsize]; exact h31) h hsees o)
  | addRef o b => exact Follows.guarded Iff.rfl (Follows.ok buf wsabuf h (sees_one hsees))
  | acceptDecRef b => exact Follows.guarded Iff.rfl (Follows.ok buf wsabuf h (sees_one hsees))
  | acceptFreeBObj b | recvFreeBObj b => exact freeBObj_follows h (sees_one hsees)
  | postCmd o b =>
    have hshows := (h b (hobjs b (List.mem_singleton_self b))).setIoRequestFunction
      .clientCmdCompletionFailed .clientCmdCompletionSuccess
    refine Follows.guarded Iff.rfl (Follows.ite (fun _ => ?_) ?_)
    · apply @Follows.ok (c.setBObj b _) _ _ buf wsabuf (Function.update mem b _) (h.update hshows)
      intro u hu
      rcases List.mem_pair.mp hu with rfl | rfl
      · trivial
      · exact hsees
    · cases o with
      | accept | recv =>
        exact @Follows.ok (c.setBObj b _) _ _ buf wsabuf (Function.update mem b _) (h.update hshows)
          (sees_one hsees)
  | recvDecRef =>
    exact Follows.guarded Iff.rfl (Follows.ok buf wsabuf h (sees_ite trivial hsees))
  | postZeroRecv =>
    refine Follows.guarded Iff.rfl (Follows.guarded Iff.rfl ?_)
    exact @Follows.ok ((c.setRObjHandlers _ _).setRSock { c.rsock with wsabuf := _ }) _ _ buf
      (⟨none, 0⟩, ⟨none, 0⟩) mem h (sees_ite hsees trivial)
  | zeroRecv =>
    refine Follows.guarded Iff.rfl (Follows.guarded Iff.rfl ?_)
    exact Follows.ok buf wsabuf h (sees_ite hsees trivial)
  -- InitWSABUFS makes the two WSABUFs alike, whatever they held.
  | postRecv =>
    refine Follows.guarded Iff.rfl (Follows.guarded Iff.rfl ?_)
    have hbufs (f : FPFailed) (g : FPSuccess) :
        ((c.besides buf wsabuf mem).setRObjHandlers f g).setRSock
            (c.rsock.onto buf wsabuf).initWSABUFS =
          ((c.setRObjHandlers f g).setRSock c.rsock.initWSABUFS).besides buf
            c.rsock.initWSABUFS.wsabuf mem := by
      rw [RecvSock.initWSABUFS_onto]
      rfl
    have hsame := hsees.ring (RecvSock.initWSABUFS_same _)
    change Follows _ ((fun d : ClientConn =>
      (.ok (d, if d.posts { ch with left } then [.recv] else [.release .robj], []) : Outcome))
        (((c.besides buf wsabuf mem).setRObjHandlers _ _).setRSock
          (c.rsock.onto buf wsabuf).initWSABUFS))
    rw [hbufs]
    exact @Follows.ok ((c.setRObjHandlers _ _).setRSock c.rsock.initWSABUFS) _ _ buf _ mem h
      (sees_ite ⟨hsame, rfl⟩ trivial)
  -- WSARecv stores the same bytes in the same cells of both rings.
  | recv =>
    obtain ⟨hparsed, harmed⟩ := hphase
    obtain ⟨hsame, rfl⟩ := hsees
    refine Follows.guarded Iff.rfl (Follows.guarded Iff.rfl (Follows.guarded Iff.rfl ?_))
    refine Follows.ite (fun hok => ?_) (Follows.ok buf _ h (sees_one trivial))
    let bytes := ch.bytes.take (c.rsock.wsabuf.1.len.toNat+c.rsock.wsabuf.2.len.toNat)
    have hle : bytes.length ≤ _ := List.length_take_le _ _
    have hoffered := RecvSock.armed_offered harmed
    have hcells := RecvSock.offered_cells c.rsock hparsed.ring
    have hsame' := RecvSock.receive_same hparsed.ring hsame hok.2 (by rw [hoffered]; exact hle)
    unfold RecvSock.receive at hsame'
    rw [← hcells, harmed] at hsame'
    change Follows _ (.ok ((c.besides buf _ mem).setRSock (((c.rsock.kernelRecv bytes).onto
      (Circular.writeAt buf (c.rsock.wsabuf.1.cells ++ c.rsock.wsabuf.2.cells) bytes)
        c.rsock.wsabuf).initWRpos _), _, _))
    rw [RecvSock.initWRpos_onto]
    exact @Follows.ok (c.setRSock _) _ _ _ _ mem h (sees_one hsame')
  | release k => exact Follows.guarded Iff.rfl (Follows.ok buf wsabuf h (sees_ite trivial trivial))
  | releaseTail k =>
    cases k with
    | robj => exact Follows.guarded Iff.rfl (Follows.ok buf wsabuf h sees_nil)
    | bobj b => exact freeBObj_follows h sees_nil
    | nothing => exact Follows.ok buf wsabuf h sees_nil
  | cmd b =>
    have hb := hobjs b (List.mem_singleton_self b)
    refine dispatchBObj_follows h hb (Follows.guarded Iff.rfl ?_)
    exact Follows.ok buf wsabuf h (sees_ite trivial trivial)
  | command b =>
    refine Follows.guarded Iff.rfl (Follows.ite (fun _ => ?_)
      (Follows.ok buf wsabuf h (sees_one trivial)))
    exact Follows.guarded Iff.rfl (respond_follows h (hobjs b (List.mem_singleton_self b)))
  | startSend b | repostSend b => exact postSend_follows h (hobjs b (List.mem_singleton_self b)) _
  | send b => exact sendCompletion_follows hready hready' h
  | getNextData b =>
    refine Follows.guarded Iff.rfl ?_
    have hrsock : (c.besides buf wsabuf mem).rsock = c.rsock.onto buf wsabuf := rfl
    rw [hrsock, RecvSock.getNextData_onto]
    cases c.rsock.getNextData with
    | none => exact Follows.error _
    | some r =>
      exact @Follows.ok (c.setRSock r.2) _ _ buf wsabuf mem h (sees_one trivial)
  | freeSent b obj =>
    cases obj with
    | none | some obj => exact freeBObj_follows h (sees_one trivial)
  | nextDecRef obj => exact Follows.guarded Iff.rfl (Follows.ok buf wsabuf h (sees_one trivial))
  | nextSend obj =>
    have hb := hobjs obj (List.mem_singleton_self obj)
    refine Follows.guarded Iff.rfl ?_
    exact postSend_follows (h.update ((h obj hb).setIoRequestFunction _ _)) hb _

end Step

section Run

variable {_Bufsize : DWORD} {c c' : ClientConn} {t : Task} {ts new rest : List Task}
  {evs : List Event} {ch : Choice} {buf : ℕ → Byte} {wsabuf : Wsabuf × Wsabuf}
  {mem : BufferObjPtr → BufferObj}

theorem sees_off_chain (ht : t.chain = 0) : t.sees c buf wsabuf := by
  cases t with
  | release | releaseClose | releaseFreeRSock | releaseTail => trivial
  | acceptFreeRSock | cmd | command | startSend | send | repostSend | getNextData | freeSent
  | nextDecRef | nextSend => trivial
  | _ => contradiction

theorem sees_kept (hk : RecvSock.Kept c.rsock c'.rsock) (h : t.sees c buf wsabuf) :
    t.sees c' buf wsabuf := by
  obtain ⟨nRef, lstSend, sock, hrsock⟩ := hk
  unfold Task.sees at h ⊢
  rw [hrsock]
  exact h

/-- What matters of the history is what the ring holds, not what became of the commands. -/
theorem Streams.taken {hist : History} (h : Streams _Bufsize hist c ts) :
    Streams _Bufsize ⟨hist.received, hist.taken, hist.taken, false⟩ c ts := by
  refine ⟨h.owned, ⟨List.prefix_rfl, fun _ => rfl, h.ordered.parsed⟩, ?_⟩
  intro t ht
  have hphase := h.phase t ht
  cases t with
  | _ => exact hphase

theorem permits_taken {hist : History} (h : hist.lost = false) :
    inOrder.permits hist c t ch = true := by
  cases t with
  | postCmd o b =>
    change (!hist.lost || !ch.ok) = true
    rw [h]
    rfl
  | _ => rfl

/-- A state of a run, whatever became of the commands. -/
def Streaming (_Bufsize : DWORD) (conf : Conf ClientConn Task) : Prop :=
  ∃ hist, Streams _Bufsize hist conf.shared conf.tasks

theorem Streaming.step {conf conf' : Conf ClientConn Task} (h64 : 64 < _Bufsize.toNat)
    (h31 : _Bufsize.toNat < 2^31) (h : Streaming _Bufsize conf)
    (hstep : Step machine conf evs conf') : Streaming _Bufsize conf' := by
  obtain ⟨hist, hs⟩ := h
  cases hstep with
  | turn hp hfresh hok =>
    exact ⟨_, (hs.taken.perm hp).turn h64 h31 hfresh hok (permits_taken rfl)⟩

theorem start_streams (g_dwPagesize : DWORD) (pRSock : SockPtr) (rsock : RecvSock) (sock : SOCKET)
    (robj : RecvObj) (mem : BufferObjPtr → BufferObj) :
    Streams (g_dwPagesize * 8 - RECV_SOCK_SIZE) History.empty
      (connected g_dwPagesize pRSock rsock sock robj mem) [.accept] := by
  refine ⟨start_owned _ _ _ _ _ _, ?_, ?_⟩
  · exact ⟨List.prefix_rfl, fun _ => rfl, _, Parses.nil []⟩
  · intro t ht
    rw [List.mem_singleton.mp ht]
    exact ⟨rfl, rfl, rsock, sock, rfl⟩

theorem start_streaming (g_dwPagesize : DWORD) (pRSock : SockPtr) (rsock : RecvSock) (sock : SOCKET)
    (robj : RecvObj) (mem : BufferObjPtr → BufferObj) :
    Streaming (g_dwPagesize * 8 - RECV_SOCK_SIZE)
      (start g_dwPagesize pRSock rsock sock robj mem) :=
  ⟨History.empty, start_streams g_dwPagesize pRSock rsock sock robj mem⟩

/-- The same connection over other memory, in step with the first one. -/
structure Beside (_Bufsize : DWORD) (conf conf' : Conf ClientConn Task) : Prop where
  tasks : conf'.tasks = conf.tasks
  streams : Streaming _Bufsize conf
  owned : Owned conf'.shared conf'.tasks
  memory : ∃ buf wsabuf mem, conf'.shared = conf.shared.besides buf wsabuf mem ∧
    conf.shared.ShowsIn mem ∧ ∀ t ∈ conf.tasks, t.sees conf.shared buf wsabuf

/-- An allocation finds in its BUFFER_OBJ what `dirt` says. -/
def machineOver (dirt : ClientConn → BufferObjPtr → BufferObj) :
    Machine ClientConn Task Choice Event Fault where
  step := step
  allowed c ch := ch.pBObj ∉ c.objs ∧ ch.left = dirt c ch.pBObj

theorem Beside.follows {conf conf' : Conf ClientConn Task} (h64 : 64 < _Bufsize.toNat)
    (h31 : _Bufsize.toNat < 2^31) (h : Beside _Bufsize conf conf') (ht : t ∈ conf.tasks)
    (ch : Choice) (left : BufferObj) :
    Follows (conf.shared.step t ch) (conf'.shared.step t { ch with left }) := by
  obtain ⟨hist, hstreams⟩ := h.streams
  obtain ⟨buf, wsabuf, mem, hshared, hshows, hsees⟩ := h.memory
  have hready' := h.owned.ready (by rwa [h.tasks] : t ∈ conf'.tasks)
  rw [hshared] at hready' ⊢
  exact step_follows h64 h31 (hstreams.owned.ready ht) hready' (hstreams.phase t ht) hshows
    (hsees t ht)

theorem Beside.step {conf conf₁ conf' : Conf ClientConn Task} {ns : List (Note × List Event)}
    (h64 : 64 < _Bufsize.toNat) (h31 : _Bufsize.toNat < 2^31)
    (dirt : ClientConn → BufferObjPtr → BufferObj) (h : Beside _Bufsize conf conf')
    (hstep : Step (machine.noting note) conf ns conf₁) :
    ∃ conf₁', Step ((machineOver dirt).noting note) conf' ns conf₁' ∧
      Beside _Bufsize conf₁ conf₁' := by
  have hstreams' := h.streams.step h64 h31 hstep.plain
  cases hstep with
  | @turn c c' t ch tasks new rest ns hp hfresh hnoted =>
    obtain ⟨evs, hstep, rfl⟩ := noted_step hnoted
    have hmem : t ∈ tasks := hp.mem_iff.mpr List.mem_cons_self
    have hfollows := h.follows h64 h31 hmem ch (dirt conf'.shared ch.pBObj)
    obtain ⟨hist, hstreams⟩ := h.streams
    obtain ⟨buf, wsabuf, mem, hshared, hshows, hsees⟩ := h.memory
    change c.step t ch = .ok (c', new, evs) at hstep
    change Follows (c.step t ch) _ at hfollows
    rw [hstep] at hfollows
    have hp' : conf'.tasks.Perm (t :: rest) := by
      rw [h.tasks]
      exact hp
    have hfresh' : ch.pBObj ∉ conf'.shared.objs := by
      rw [hshared]
      exact hfresh
    generalize hout : conf'.shared.step t { ch with left := dirt conf'.shared ch.pBObj } = out
      at hfollows
    cases hfollows with
    | @ok c' new evs buf' wsabuf' mem' hshows' hsees' =>
      have hturn : Step ((machineOver dirt).noting note) ⟨conf'.shared, conf'.tasks⟩
          [(note c t ch, evs)] ⟨c'.besides buf' wsabuf' mem', new ++ rest⟩ := by
        have hnoted := noting_ok (M := machineOver dirt) (f := note) hout
        refine Step.turn hp' ⟨?_, rfl⟩ hnoted
        exact hfresh'
      have hturn' : Turn conf'.shared t (c'.besides buf' wsabuf' mem') new evs := by
        refine step_turn ?_ hout
        exact hfresh'
      have howned' := (h.owned.perm hp').turn hturn'
      refine ⟨_, hturn, rfl, hstreams', howned', buf', wsabuf', mem', rfl, hshows', ?_⟩
      intro u hu
      rcases List.mem_append.mp hu with hu | hu
      · exact hsees' u hu
      · have hrest := hsees u (hp.mem_iff.mpr (List.mem_cons_of_mem t hu))
        by_cases ht : t.chain = 0
        · -- The ring is left alone, on both sides.
          obtain ⟨_, _, _, hkept'⟩ := step_keeps ht hout
          rw [hshared] at hkept'
          have hbuf : buf' = buf := congrArg RecvSock.buf hkept'
          have hwsabuf : wsabuf' = wsabuf := congrArg RecvSock.wsabuf hkept'
          rw [hbuf, hwsabuf]
          exact sees_kept (step_keeps ht hstep) hrest
        · apply sees_off_chain
          have hchain := (hstreams.owned.perm hp).chain
          have hle := le_total_of_mem Task.chain hu
          rw [total_cons] at hchain
          split at hchain
          · omega
          · omega

theorem Beside.start (g_dwPagesize : DWORD) (pRSock : SockPtr) (sock : SOCKET)
    (rsock rsock' : RecvSock) (robj robj' : RecvObj) (mem mem' : BufferObjPtr → BufferObj) :
    Beside (g_dwPagesize * 8 - RECV_SOCK_SIZE) (start g_dwPagesize pRSock rsock sock robj mem)
      (start g_dwPagesize pRSock rsock' sock robj' mem') := by
  refine ⟨rfl, start_streaming _ _ _ _ _ _, start_owned _ _ _ _ _ _, rsock'.buf, rsock'.wsabuf,
    mem', rfl, nofun, ?_⟩
  intro t ht
  rw [List.mem_singleton.mp ht]
  trivial

theorem Beside.run {conf₀ conf conf₀' : Conf ClientConn Task} {ns : List (Note × List Event)}
    (h64 : 64 < _Bufsize.toNat) (h31 : _Bufsize.toNat < 2^31)
    (dirt : ClientConn → BufferObjPtr → BufferObj) (h : Beside _Bufsize conf₀ conf₀')
    (hrun : Run (machine.noting note) conf₀ ns conf) :
    ∃ conf', Run ((machineOver dirt).noting note) conf₀' ns conf' ∧ Beside _Bufsize conf conf' := by
  have hfollows := Run.simulates (f := some) (fun c es c' d hrel hturn => by
    obtain ⟨d', hstep, hrel'⟩ := Beside.step h64 h31 dirt hrel hturn
    rw [List.filterMap_some]
    exact ⟨d', Run.single hstep, hrel'⟩) h hrun
  rwa [List.filterMap_some] at hfollows

theorem Beside.command {conf conf' : Conf ClientConn Task} (h : Beside _Bufsize conf conf')
    {b : BufferObjPtr} (hb : b ∈ conf.shared.objs) :
    (conf'.shared.bobj b).command = (conf.shared.bobj b).command := by
  obtain ⟨_, _, mem, hshared, hshows, _⟩ := h.memory
  rw [hshared]
  exact (hshows b hb).command

end Run

/-- What the pooled objects of a connection hold when it gets them decides nothing. Over any other
memory the same tasks can take the same turns with the same bytes: they show the same events, leave
the same tasks and the same commands, and fault in the same steps. -/
theorem leftovers_hidden (g_dwPagesize : DWORD)
    (h64 : 64 < (g_dwPagesize * 8 - RECV_SOCK_SIZE).toNat)
    (h31 : (g_dwPagesize * 8 - RECV_SOCK_SIZE).toNat < 2^31) (pRSock : SockPtr) (sock : SOCKET)
    (rsock rsock' : RecvSock) (robj robj' : RecvObj) (mem mem' : BufferObjPtr → BufferObj)
    (dirt : ClientConn → BufferObjPtr → BufferObj) (ns : List (Note × List Event))
    (conf : Conf ClientConn Task)
    (h : Run (machine.noting note) (start g_dwPagesize pRSock rsock sock robj mem) ns conf) :
    ∃ conf', Run ((machineOver dirt).noting note)
        (start g_dwPagesize pRSock rsock' sock robj' mem') ns conf' ∧
      conf'.tasks = conf.tasks ∧
      (∀ b ∈ conf.shared.objs, (conf'.shared.bobj b).command = (conf.shared.bobj b).command) ∧
      ∀ t ∈ conf.tasks, ∀ ch left f,
        conf'.shared.step t { ch with left } = .error f ↔ conf.shared.step t ch = .error f := by
  have hstart := Beside.start g_dwPagesize pRSock sock rsock rsock' robj robj' mem mem'
  obtain ⟨conf', hrun, hbeside⟩ := hstart.run h64 h31 dirt h
  refine ⟨conf', hrun, hbeside.tasks, fun b => hbeside.command, ?_⟩
  intro t ht ch left f
  have hfollows := hbeside.follows h64 h31 ht ch left
  generalize conf.shared.step t ch = out at hfollows ⊢
  generalize conf'.shared.step t { ch with left } = out' at hfollows ⊢
  cases hfollows with
  | error => exact Iff.rfl
  | ok => exact ⟨nofun, nofun⟩

/-- Every byte of the pooled objects is the first one of a frame. -/
def stained : RecvSock := { RecvSock.zeroed with buf := fun _ => 0xfb }

def stainedObj : BufferObj := { BufferObj.zeroed with data := fun _ => 0xfb }

theorem first_command_hidden : ∃ ns conf, Run (machine.noting note) sample ns conf ∧
    conf.tasks = [.cmd 0, .loop .accept] ∧
    ∃ conf', Run ((machineOver fun _ _ => stainedObj).noting note)
        (start 4096 1 stained 7 ⟨Overlapped.zero, none, none, none⟩ fun _ => stainedObj) ns conf' ∧
      conf'.tasks = [.cmd 0, .loop .accept] ∧
        (conf'.shared.bobj 0).command = [0x41, 0x41, 0x0d] := by
  have hplay : (play machine sample (firstPost true)).map
      (fun r => (r.2.tasks, r.2.shared.objs, (r.2.shared.bobj 0).command)) =
        some ([.cmd 0, .loop .accept], [0], [0x41, 0x41, 0x0d]) := by
    decide +kernel
  obtain ⟨evs, conf, hplain, hres⟩ := play_reaches hplay
  obtain ⟨ns, hrun, _⟩ := hplain.noted note
  rw [Prod.mk.injEq, Prod.mk.injEq] at hres
  rcases hres with ⟨htasks, hobjs, hcommand⟩
  dsimp only at htasks hobjs hcommand
  obtain ⟨conf', hrun', htasks', hcommands, _⟩ := leftovers_hidden 4096 (by decide) (by decide) 1 7
    RecvSock.zeroed stained _ ⟨Overlapped.zero, none, none, none⟩ _ (fun _ => stainedObj)
    (fun _ _ => stainedObj) ns conf hrun
  refine ⟨ns, conf, hrun, htasks, conf', hrun', htasks'.trans htasks, ?_⟩
  rw [hcommands 0 (by rw [hobjs]; exact List.mem_singleton_self 0), hcommand]

end ClientConn

end CustomersCard
