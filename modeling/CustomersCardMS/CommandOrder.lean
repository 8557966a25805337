import CustomersCardMS.FrameStream
import CustomersCardMS.ReferenceDecoder
import CustomersCardMS.RefcountSafety
import Mathlib.Data.List.Infix

namespace CustomersCard
open Interleaving

/-- The bytes received, the commands taken out of the ring, and those that were queued. -/
structure History where
  received : List Byte
  taken : List (List Byte)
  queued : List (List Byte)
  -- A PostQueuedCompletionStatus has failed.
  lost : Bool

namespace History

def empty : History := ⟨[], [], [], false⟩

def receive (h : History) (bytes : List Byte) : History :=
  { h with received := h.received ++ bytes }

def queue (h : History) (command : List Byte) : History :=
  { h with taken := h.taken ++ [command], queued := h.queued ++ [command] }

def lose (h : History) (command : List Byte) : History :=
  { h with taken := h.taken ++ [command], lost := true }

/-- What is queued was taken first, and nothing else was taken as long as nothing was lost. -/
structure Ordered (h : History) : Prop where
  queued : h.queued <+: h.taken
  all : h.lost = false → h.queued = h.taken
  parsed : ∃ rest, Parses h.received h.taken rest

theorem Ordered.receive {h : History} (ho : Ordered h) (bytes : List Byte) :
    Ordered (h.receive bytes) := by
  obtain ⟨rest, hrest⟩ := ho.parsed
  exact ⟨ho.queued, ho.all, _, hrest.append bytes⟩

/-- A command may be queued as long as none was lost. -/
theorem Ordered.queue {h : History} {rest command : List Byte} (ho : Ordered h)
    (hlost : h.lost = false) (hp : Parses h.received (h.taken ++ [command]) rest) :
    Ordered (h.queue command) := by
  have hall := ho.all hlost
  refine ⟨?_, ?_, rest, hp⟩
  · change h.queued ++ [command] <+: h.taken ++ [command]
    rw [hall]
  · intro _
    change h.queued ++ [command] = h.taken ++ [command]
    rw [hall]

theorem Ordered.lose {h : History} {rest command : List Byte} (ho : Ordered h)
    (hp : Parses h.received (h.taken ++ [command]) rest) : Ordered (h.lose command) := by
  refine ⟨ho.queued.trans (List.prefix_append h.taken [command]), ?_, rest, hp⟩
  intro hlost
  contradiction

end History

namespace ClientConn

/-- Keeps the history of a connection. -/
def observer : Monitor History ClientConn Task Choice where
  next h c t ch :=
    match t with
    | .accept => if ch.ok then h.receive (ch.bytes.take (c.rsock.dwBufsize - 64).toNat) else h
    | .recv =>
      if ch.ok then
        h.receive (ch.bytes.take (c.rsock.wsabuf.1.len.toNat+c.rsock.wsabuf.2.len.toNat))
      else h
    | .postCmd _ b => if ch.ok then h.queue (c.bobj b).command else h.lose (c.bobj b).command
    | _ => h
  permits _ _ _ _ := true

/-- The system is out of completion packets for good once it was: no post succeeds later. -/
def inOrder : Monitor History ClientConn Task Choice where
  next := observer.next
  permits h _ t ch :=
    match t with
    | .postCmd _ _ => !h.lost || !ch.ok
    | _ => true

end ClientConn

namespace RecvSock

/-- The ring holds what is left of the received bytes after `taken`. -/
structure Parsed (_Bufsize : DWORD) (received : List Byte) (taken : List (List Byte))
    (s : RecvSock) : Prop where
  ring : RingInv s
  size : s.dwBufsize = _Bufsize
  parses : Parses received taken s.unread

/-- The tasks outside the receive chain write these fields only. -/
def Kept (s s' : RecvSock) : Prop :=
  ∃ nRef lstSend sock, s' = { s with nRef := nRef, lstSend := lstSend, sock := sock }

section Parsed

variable {_Bufsize : DWORD} {received : List Byte} {taken : List (List Byte)} {s s' : RecvSock}

theorem Parsed.same (h : Parsed _Bufsize received taken s) (hs : SameRing s s') :
    Parsed _Bufsize received taken s' := by
  refine ⟨hs.inv h.ring, hs.size.trans h.size, ?_⟩
  rw [hs.unread]
  exact h.parses

theorem Kept.same (h : Kept s s') : SameRing s s' := by
  obtain ⟨nRef, lstSend, sock, rfl⟩ := h
  exact ⟨rfl, rfl, rfl, rfl, rfl, rfl⟩

theorem Kept.refl (s : RecvSock) : Kept s s := ⟨s.nRef, s.lstSend, s.sock, rfl⟩

/-- The WSABUFs of the receive that is outstanding. -/
theorem Kept.armed (h : Kept s s') (ha : s.initWSABUFS = s) : s'.initWSABUFS = s' := by
  obtain ⟨nRef, lstSend, sock, rfl⟩ := h
  have hcomm : ({ s with nRef := nRef, lstSend := lstSend, sock := sock } : RecvSock).initWSABUFS =
      { s.initWSABUFS with nRef := nRef, lstSend := lstSend, sock := sock } := by
    unfold initWSABUFS initRLsize
    split
    · rfl
    split
    · rfl
    · rfl
  rw [hcomm, ha]

theorem initWSABUFS_idem (s : RecvSock) : s.initWSABUFS.initWSABUFS = s.initWSABUFS := by
  unfold initWSABUFS initRLsize
  split
  · rfl
  split
  · rfl
  · rfl

theorem initWSABUFS_same (s : RecvSock) : SameRing s s.initWSABUFS := by
  unfold initWSABUFS initRLsize
  split
  · exact ⟨rfl, rfl, rfl, rfl, rfl, rfl⟩
  split
  · exact ⟨rfl, rfl, rfl, rfl, rfl, rfl⟩
  · exact ⟨rfl, rfl, rfl, rfl, rfl, rfl⟩

theorem armed_offered (ha : s.initWSABUFS = s) :
    s.offered = s.wsabuf.1.len.toNat+s.wsabuf.2.len.toNat := by
  have hbufs : s.wsabuf = s.initWSABUFS.wsabuf := by rw [ha]
  rw [hbufs]
  rfl

/-- A receive appends to what is left in the ring. -/
theorem Parsed.receive (h : Parsed _Bufsize received taken s) (ha : s.initWSABUFS = s)
    (bytes : List Byte) (hne : bytes ≠ []) (hle : bytes.length ≤ s.offered) :
    Parsed _Bufsize (received ++ bytes) taken
      ((s.kernelRecv bytes).initWRpos (BitVec.ofNat 32 bytes.length)) := by
  obtain ⟨hring, hunread, _⟩ := receive_spec s h.ring bytes hne hle
  obtain ⟨w, hrun, _⟩ := receive_shape s h.ring bytes hne hle
  have hreceive : (s.kernelRecv bytes).initWRpos (BitVec.ofNat 32 bytes.length) =
      s.receive bytes := by
    unfold RecvSock.receive
    rw [ha]
  rw [hreceive]
  refine ⟨hring, ?_, ?_⟩
  · rw [hrun]
    exact h.size
  · rw [hunread]
    exact h.parses.append bytes

end Parsed

end RecvSock

/-- What a task of the receive chain relies on. -/
def Task.phase (_Bufsize : DWORD) (h : History) (c : ClientConn) : Task → Prop
  | .accept => h.received = [] ∧ h.taken = [] ∧ ∃ g : RecvSock, ∃ sock,
      c.rsock = g.connect _Bufsize sock
  | .createPort n => h.taken = [] ∧ h.received ≠ [] ∧ h.received.length+64 ≤ _Bufsize.toNat ∧
      n = BitVec.ofNat 32 h.received.length ∧ ∃ g : RecvSock, ∃ sock,
        c.rsock = (g.connect _Bufsize sock).kernelAccept h.received
  | .loop _ | .acceptDecRef _ | .acceptFreeBObj _ | .recvFreeBObj _ | .recvDecRef
  | .postZeroRecv | .zeroRecv | .postRecv => c.rsock.Parsed _Bufsize h.received h.taken
  | .addRef _ b | .postCmd _ b =>
    c.rsock.Parsed _Bufsize h.received (h.taken ++ [(c.bobj b).command])
  | .recv => c.rsock.Parsed _Bufsize h.received h.taken ∧ c.rsock.initWSABUFS = c.rsock
  | _ => True

namespace ClientConn

section Aside

variable {c c' : ClientConn} {t : Task} {new rest : List Task} {evs : List Event} {ch : Choice}

theorem cmCloseSocket_keeps {next : List Task} (h : c.cmCloseSocket next = .ok (c', new, evs)) :
    RecvSock.Kept c.rsock c'.rsock := by
  unfold cmCloseSocket at h
  split at h
  · rw [ok_inj] at h
    rcases h with ⟨rfl, _⟩
    exact ⟨_, _, _, rfl⟩
  · rw [ok_inj] at h
    rcases h with ⟨rfl, _⟩
    exact RecvSock.Kept.refl _

theorem cmCloseSocket_next {next : List Task} (h : c.cmCloseSocket next = .ok (c', new, evs)) :
    new = next := by
  unfold cmCloseSocket at h
  split at h
  · rw [ok_inj] at h
    exact h.2.1.symm
  · rw [ok_inj] at h
    exact h.2.1.symm

theorem postSend_keeps {b : BufferObjPtr} {evs' : List Event}
    (h : c.postSend b ch evs' = .ok (c', new, evs)) : RecvSock.Kept c.rsock c'.rsock := by
  rcases postSend_ok h with ⟨_, _, rfl⟩
  exact RecvSock.Kept.refl _

/-- The tasks outside the receive chain leave the ring alone. -/
theorem step_keeps (ht : t.chain = 0) (h : c.step t ch = .ok (c', new, evs)) :
    RecvSock.Kept c.rsock c'.rsock := by
  cases t with
  | acceptFreeRSock | releaseFreeRSock k =>
    simp only [step, freeRSock, guarded_ok, ok_inj] at h
    rcases h with ⟨_, rfl, _⟩
    exact RecvSock.Kept.refl _
  | release k =>
    simp only [step, withRSock, guarded_ok, ok_inj] at h
    rcases h with ⟨_, rfl, _⟩
    exact ⟨_, _, _, rfl⟩
  | releaseClose k =>
    simp only [step, withRSock, guarded_ok] at h
    exact cmCloseSocket_keeps h.2
  | releaseTail k =>
    cases k with
    | robj => contradiction
    | bobj b =>
      simp only [step, freeBObj, guarded_ok, ok_inj] at h
      rcases h with ⟨_, rfl, _⟩
      exact RecvSock.Kept.refl _
    | nothing =>
      simp only [step, ok_inj] at h
      rcases h with ⟨rfl, _⟩
      exact RecvSock.Kept.refl _
  | cmd b =>
    simp only [step, dispatchBObj, withBObj, guarded_ok, ok_inj] at h
    rcases h with ⟨_, _, rfl, _⟩
    exact RecvSock.Kept.refl _
  | command b =>
    simp only [step, withBObj, guarded_ok] at h
    rcases h with ⟨_, h⟩
    split at h
    · simp only [withRSock, guarded_ok, respond, RecvSock.checkSend, ok_inj] at h
      rcases h with ⟨_, rfl, _⟩
      exact ⟨_, _, _, rfl⟩
    · rw [ok_inj] at h
      rcases h with ⟨rfl, _⟩
      exact RecvSock.Kept.refl _
  | startSend b | repostSend b => exact postSend_keeps h
  | send b =>
    simp only [step, sendCompletion, dispatchBObj, withBObj, guarded_ok] at h
    rcases h with ⟨_, _, h⟩
    split at h
    · rw [ok_inj] at h
      rcases h with ⟨rfl, _⟩
      exact RecvSock.Kept.refl _
    · rw [ok_inj] at h
      rcases h with ⟨rfl, _⟩
      exact RecvSock.Kept.refl _
  -- It takes from lstSend, which is not part of the ring.
  | getNextData b =>
    simp only [step, withRSock, guarded_ok, RecvSock.getNextData] at h
    rcases h with ⟨_, h⟩
    split at h
    · contradiction
    · case h_2 hnext =>
      split at hnext
      · contradiction
      · rw [Option.some.injEq, Prod.mk.injEq] at hnext
        rw [ok_inj] at h
        rcases hnext with ⟨_, rfl⟩
        rcases h with ⟨rfl, _⟩
        exact ⟨_, _, _, rfl⟩
  | freeSent b obj =>
    cases obj with
    | none | some =>
      simp only [step, freeBObj, guarded_ok, ok_inj] at h
      rcases h with ⟨_, rfl, _⟩
      exact RecvSock.Kept.refl _
  | nextDecRef b =>
    simp only [step, withRSock, guarded_ok, ok_inj] at h
    rcases h with ⟨_, rfl, _⟩
    exact ⟨_, _, _, rfl⟩
  | nextSend b =>
    simp only [step, withBObj, guarded_ok] at h
    have hkept := postSend_keeps h.2
    exact hkept
  | _ => contradiction

end Aside

section Chain

variable {_Bufsize : DWORD} {h : History} {c c' : ClientConn} {t : Task} {new rest : List Task}
  {evs : List Event} {ch : Choice}

/-- What takeCommand stores is the message that Read took. -/
theorem takeCommand_command {o : Origin} {rsock rsock' : RecvSock} {len n : DWORD}
    {bytes : List Byte} (hread : rsock.read len = some (n, bytes, rsock'))
    (hlen : bytes.length = len.toNat) (hstep : c.takeCommand o rsock len ch = .ok (c', new, evs)) :
    new = [.addRef o ch.pBObj] ∧ c'.rsock = rsock' ∧ (c'.bobj ch.pBObj).command = bytes := by
  unfold takeCommand at hstep
  rw [hread] at hstep
  dsimp only at hstep
  split at hstep
  · contradiction
  · case h_2 b hstore =>
    rw [ok_inj] at hstep
    rcases hstep with ⟨rfl, rfl, _⟩
    refine ⟨rfl, rfl, ?_⟩
    change ((Function.update c.bobj ch.pBObj _) ch.pBObj).command = bytes
    rw [Function.update_self]
    unfold BufferObj.storeData at hstore
    split at hstore
    · rw [Option.some.injEq] at hstore
      rw [← hstore]
      unfold BufferObj.command
      change (List.range' 0 len.toNat).map (Circular.writeAt _ _ _) = _
      rw [← hlen]
      exact Circular.map_writeAt _ _ _ List.nodup_range' (by simp)
    · contradiction

/-- The delivery loop takes the next frame out of the ring, or leaves the ring as it is. -/
theorem loop_phase {o : Origin} (h64 : 64 < _Bufsize.toNat) (h31 : _Bufsize.toNat < 2^31)
    (hp : c.rsock.Parsed _Bufsize h.received h.taken)
    (hstep : c.loopStep o ch = .ok (c', new, evs)) : ∀ u ∈ new, u.phase _Bufsize h c' := by
  have hB : 6 ≤ c.rsock.dwBufsize.toNat := by rw [hp.size]; omega
  have hlim : c.rsock.dwBufsize.toNat < 2^31 := by rw [hp.size]; exact h31
  unfold loopStep at hstep
  split at hstep
  · contradiction
  · case h_2 len rsock hd =>
    split at hstep
    · case isTrue hz =>
      rw [hz] at hd
      rw [ok_inj] at hstep
      rcases hstep with ⟨rfl, rfl, _⟩
      intro u hu
      rw [List.mem_singleton.mp hu]
      exact hp.same (RecvSock.refused_ring _ hp.ring hB hlim hd)
    · case isFalse hlen =>
      rcases RecvSock.decode_pos _ hp.ring hB hlim hd hlen with
        ⟨rfl, ⟨r, rfl, htaken, hfit, hchecks, hr, hf⟩ | ⟨_, _, hnone⟩⟩
      -- Read takes payload and tail from the ring, so the parsed part grows by one frame.
      · obtain ⟨r', hread, hring, hunread⟩ := RecvSock.read_frame _ hp.ring.toPosInv r hfit hr hf
        have hbegins := (RecvSock.begins_iff _ hp.ring.toPosInv _).mpr ⟨htaken, hfit, hchecks, rfl⟩
        have hle := RecvSock.unreadCount_le _ hp.ring.toPosInv
        have hnum : (c.rsock.headerLength + 2).toNat = c.rsock.headerLength.toNat+2 := by
          rw [BitVec.toNat_add, show (2 : DWORD).toNat = 2 from rfl, Nat.mod_eq_of_lt (by omega)]
        have hbytes : ((c.rsock.unread.drop 6).take (c.rsock.headerLength.toNat+2)).length =
            (c.rsock.headerLength + 2).toNat := by
          have hcomplete := hbegins.complete
          rw [hnum, List.length_take, List.length_drop]
          omega
        obtain ⟨rfl, hrsock, hcommand⟩ := takeCommand_command hread hbytes hstep
        intro u hu
        rw [List.mem_singleton.mp hu]
        change c'.rsock.Parsed _ _ (h.taken ++ [(c'.bobj ch.pBObj).command])
        rw [hrsock, hcommand]
        refine ⟨hring, hp.size, ?_⟩
        rw [hunread]
        exact hp.parses.snoc hbegins
      -- A length that wrapped is too long for the ring, and Read goes beyond its end.
      · unfold takeCommand at hstep
        rw [hnone] at hstep
        contradiction

theorem decRef_parsed {taken : List (List Byte)} (hp : c.rsock.Parsed _Bufsize h.received taken) :
    c.rsock.decRef.Parsed _Bufsize h.received taken := hp.same ⟨rfl, rfl, rfl, rfl, rfl, rfl⟩

/-- Every turn of the receive chain leaves the next one what it relies on. -/
theorem chain_phase (h64 : 64 < _Bufsize.toNat) (h31 : _Bufsize.toNat < 2^31) (ht : t.chain ≠ 0)
    (hp : t.phase _Bufsize h c) (hstep : c.step t ch = .ok (c', new, evs)) :
    ∀ u ∈ new, u.phase _Bufsize (inOrder.next h c t ch) c' := by
  have hfree (u : Task) (h' : History) (hu : u.phase _Bufsize h' c') :
      ∀ v ∈ [u], v.phase _Bufsize h' c' := by
    intro v hv
    rw [List.mem_singleton.mp hv]
    exact hu
  have hnone (h' : History) : ∀ v ∈ ([] : List Task), v.phase _Bufsize h' c' := by
    intro v hv
    contradiction
  cases t with
  -- What AcceptEx stores is all that has been received.
  | accept =>
    obtain ⟨hrcvd, htaken, g, sock, hrsock⟩ := hp
    simp only [step, dispatchRObj, withRObj, withRSock, guarded_ok] at hstep
    rcases hstep with ⟨_, _, _, hstep⟩
    split at hstep
    · case isTrue hok =>
      rw [ok_inj] at hstep
      rcases hstep with ⟨rfl, rfl, _⟩
      apply hfree
      change Task.phase _ (if ch.ok then h.receive _ else h) _ _
      rw [if_pos hok.1]
      have hroom : (c.rsock.dwBufsize - 64).toNat = _Bufsize.toNat-64 := by
        rw [hrsock]
        change (_Bufsize - 64).toNat = _
        rw [BitVec.toNat_sub_of_le (by rw [BitVec.le_def]; exact Nat.le_of_lt h64)]
        rfl
      have hlen := List.length_take_le (c.rsock.dwBufsize - 64).toNat ch.bytes
      have hnone : (h.receive (ch.bytes.take (c.rsock.dwBufsize - 64).toNat)).received =
          ch.bytes.take (c.rsock.dwBufsize - 64).toNat := by
        change h.received ++ _ = _
        rw [hrcvd, List.nil_append]
      unfold Task.phase
      rw [hnone]
      refine ⟨htaken, hok.2, by omega, rfl, g, sock, ?_⟩
      change c.rsock.kernelAccept _ = _
      rw [hrsock]
    · rw [ok_inj] at hstep
      rcases hstep with ⟨rfl, rfl, _⟩
      exact hfree _ _ trivial
  | createPort n =>
    obtain ⟨htaken, hne, hle, rfl, g, sock, hrsock⟩ := hp
    simp only [step, withRSock, guarded_ok] at hstep
    rcases hstep with ⟨_, hstep⟩
    split at hstep
    · rw [ok_inj] at hstep
      rcases hstep with ⟨rfl, rfl, _⟩
      apply hfree
      obtain ⟨hring, hunread, hsize, _⟩ :=
        RecvSock.acceptFill_spec g (g.connect _Bufsize sock) _Bufsize sock rfl h.received hne
          (by omega)
      change (c.rsock.initWRpos _).Parsed _Bufsize h.received h.taken
      rw [hrsock, htaken]
      refine ⟨hring, hsize, ?_⟩
      change Parses _ _ ((g.connect _Bufsize sock).acceptFill h.received).unread
      rw [hunread]
      exact Parses.nil _
    · rw [ok_inj] at hstep
      rcases hstep with ⟨rfl, rfl, _⟩
      exact hfree _ _ trivial
  | loop o =>
    simp only [step, withRSock, guarded_ok] at hstep
    exact loop_phase h64 h31 hp hstep.2
  | addRef o b =>
    simp only [step, withRSock, guarded_ok, ok_inj] at hstep
    rcases hstep with ⟨_, rfl, rfl, _⟩
    apply hfree
    have hsame : RecvSock.SameRing c.rsock c.rsock.addRef := ⟨rfl, rfl, rfl, rfl, rfl, rfl⟩
    exact RecvSock.Parsed.same hp hsame
  -- The frame enters the history here, as queued or as lost.
  | postCmd o b =>
    simp only [step, withBObj, guarded_ok] at hstep
    rcases hstep with ⟨_, hstep⟩
    split at hstep
    · case isTrue hok =>
      rw [ok_inj] at hstep
      rcases hstep with ⟨rfl, rfl, _⟩
      change ∀ u ∈ _, Task.phase _ (if ch.ok then h.queue _ else h.lose _) _ u
      rw [if_pos hok]
      intro u hu
      rcases List.mem_pair.mp hu with rfl | rfl
      · trivial
      · exact hp
    · case isFalse hok =>
      change ∀ u ∈ _, Task.phase _ (if ch.ok then h.queue _ else h.lose _) _ u
      rw [if_neg hok]
      cases o with
      | accept | recv =>
        rw [ok_inj] at hstep
        rcases hstep with ⟨rfl, rfl, _⟩
        exact hfree _ _ hp
  | acceptDecRef b =>
    simp only [step, withRSock, guarded_ok, ok_inj] at hstep
    rcases hstep with ⟨_, rfl, rfl, _⟩
    exact hfree _ _ (decRef_parsed hp)
  | acceptFreeBObj b | recvFreeBObj b =>
    simp only [step, freeBObj, guarded_ok, ok_inj] at hstep
    rcases hstep with ⟨_, rfl, rfl, _⟩
    exact hfree _ _ hp
  | recvDecRef =>
    simp only [step, withRSock, guarded_ok, ok_inj] at hstep
    rcases hstep with ⟨_, rfl, rfl, _⟩
    split
    · exact hfree _ _ trivial
    · exact hfree _ _ (decRef_parsed hp)
  | postZeroRecv =>
    simp only [step, withRObj, withRSock, guarded_ok, ok_inj] at hstep
    rcases hstep with ⟨_, _, rfl, rfl, _⟩
    split
    · apply hfree
      exact RecvSock.Parsed.same hp ⟨rfl, rfl, rfl, rfl, rfl, rfl⟩
    · exact hfree _ _ trivial
  | zeroRecv =>
    simp only [step, dispatchRObj, withRObj, guarded_ok, ok_inj] at hstep
    rcases hstep with ⟨_, _, rfl, rfl, _⟩
    split
    · exact hfree _ _ hp
    · exact hfree _ _ trivial
  -- InitWSABUFS is what the next transfer is measured against.
  | postRecv =>
    simp only [step, withRObj, withRSock, guarded_ok, ok_inj] at hstep
    rcases hstep with ⟨_, _, rfl, rfl, _⟩
    split
    · apply hfree
      exact ⟨RecvSock.Parsed.same hp (RecvSock.initWSABUFS_same _), RecvSock.initWSABUFS_idem _⟩
    · exact hfree _ _ trivial
  | recv =>
    obtain ⟨hparsed, harmed⟩ := hp
    simp only [step, dispatchRObj, withRObj, withRSock, guarded_ok] at hstep
    rcases hstep with ⟨_, _, _, hstep⟩
    split at hstep
    · case isTrue hok =>
      rw [ok_inj] at hstep
      rcases hstep with ⟨rfl, rfl, _⟩
      apply hfree
      change Task.phase _ (if ch.ok then h.receive _ else h) _ _
      rw [if_pos hok.1]
      apply hparsed.receive harmed _ hok.2
      rw [RecvSock.armed_offered harmed]
      exact List.length_take_le _ _
    · rw [ok_inj] at hstep
      rcases hstep with ⟨rfl, rfl, _⟩
      exact hfree _ _ trivial
  -- The chain is about to end.
  | acceptClose | earlyClose | releaseClose k =>
    simp only [step, withRSock, guarded_ok] at hstep
    rw [cmCloseSocket_next hstep.2]
    exact hfree _ _ trivial
  | acceptFreeRObj =>
    simp only [step, freeRObj, guarded_ok, ok_inj] at hstep
    rcases hstep with ⟨_, _, rfl, _⟩
    exact hfree _ _ trivial
  | earlyFreeRSock =>
    simp only [step, freeRSock, guarded_ok, ok_inj] at hstep
    rcases hstep with ⟨_, _, rfl, _⟩
    exact hnone _
  | releaseFreeRSock k =>
    simp only [step, freeRSock, guarded_ok, ok_inj] at hstep
    rcases hstep with ⟨_, _, rfl, _⟩
    exact hfree _ _ trivial
  | release k =>
    simp only [step, withRSock, guarded_ok, ok_inj] at hstep
    rcases hstep with ⟨_, _, rfl, _⟩
    split
    · exact hfree _ _ trivial
    · exact hfree _ _ trivial
  | releaseTail k =>
    cases k with
    | robj =>
      simp only [step, freeRObj, guarded_ok, ok_inj] at hstep
      rcases hstep with ⟨_, _, rfl, _⟩
      exact hnone _
    | bobj | nothing => contradiction
  | _ => contradiction

end Chain

/-- The history and the receive chain, whichever task is next. -/
structure Streams (_Bufsize : DWORD) (h : History) (c : ClientConn) (ts : List Task) : Prop where
  owned : Owned c ts
  ordered : h.Ordered
  phase : ∀ t ∈ ts, t.phase _Bufsize h c

theorem Streams.perm {_Bufsize : DWORD} {h : History} {c : ClientConn} {ts us : List Task}
    (hs : Streams _Bufsize h c ts) (hp : ts.Perm us) : Streams _Bufsize h c us :=
  ⟨hs.owned.perm hp, hs.ordered, fun t ht => hs.phase t (hp.mem_iff.mpr ht)⟩

section Step

variable {_Bufsize : DWORD} {h : History} {c c' : ClientConn} {t u : Task} {new rest : List Task}
  {evs : List Event} {ch : Choice}

theorem phase_off_chain (hu : u.chain = 0) : u.phase _Bufsize h c := by
  cases u with
  | release | releaseClose | releaseFreeRSock | releaseTail => trivial
  | acceptFreeRSock | cmd | command | startSend | send | repostSend | getNextData | freeSent
  | nextDecRef | nextSend => trivial
  | _ => contradiction

/-- The chain relies on its ring and on the BUFFER_OBJ that it holds. -/
theorem phase_kept (hu : u.accepting = 0) (hk : RecvSock.Kept c.rsock c'.rsock)
    (hb : ∀ b ∈ u.uses, c'.bobj b = c.bobj b) (hp : u.phase _Bufsize h c) :
    u.phase _Bufsize h c' := by
  cases u with
  | accept | createPort n => contradiction
  | addRef o b | postCmd o b =>
    have hsame := RecvSock.Parsed.same hp hk.same
    change c'.rsock.Parsed _ _ (h.taken ++ [(c'.bobj b).command])
    rw [hb b (List.mem_append_left _ (List.mem_singleton_self b))]
    exact hsame
  | recv => exact ⟨hp.1.same hk.same, hk.armed hp.2⟩
  | loop | acceptDecRef | acceptFreeBObj | recvFreeBObj | recvDecRef | postZeroRecv | zeroRecv
  | postRecv => exact RecvSock.Parsed.same hp hk.same
  | _ => trivial

theorem next_off_chain (ht : t.chain = 0) : inOrder.next h c t ch = h := by
  cases t with
  | accept | recv | postCmd => contradiction
  | _ => rfl

theorem ordered_next (ho : h.Ordered) (hp : t.phase _Bufsize h c)
    (hpermits : inOrder.permits h c t ch = true) : (inOrder.next h c t ch).Ordered := by
  cases t with
  | accept | recv =>
    change (if ch.ok then h.receive _ else h).Ordered
    split
    · exact ho.receive _
    · exact ho
  | postCmd o b =>
    change (if ch.ok then h.queue _ else h.lose _).Ordered
    split
    · case isTrue hok =>
      change (!h.lost || !ch.ok) = true at hpermits
      rw [hok, Bool.not_true, Bool.or_false, Bool.not_eq_true'] at hpermits
      exact ho.queue hpermits hp.parses
    · exact ho.lose hp.parses
  | _ => exact ho

/-- A turn that the monitor permits keeps the order. -/
theorem Streams.turn (h64 : 64 < _Bufsize.toNat) (h31 : _Bufsize.toNat < 2^31)
    (hs : Streams _Bufsize h c (t :: rest)) (hfresh : ch.pBObj ∉ c.objs)
    (hstep : c.step t ch = .ok (c', new, evs)) (hpermits : inOrder.permits h c t ch = true) :
    Streams _Bufsize (inOrder.next h c t ch) c' (new ++ rest) := by
  have hturn := step_turn hfresh hstep
  have hphase := hs.phase t List.mem_cons_self
  refine ⟨hs.owned.turn hturn, ordered_next hs.ordered hphase hpermits, ?_⟩
  intro u hu
  by_cases ht : t.chain = 0
  · rcases List.mem_append.mp hu with hu | hu
    · exact phase_off_chain (hturn.fires.off_chain ht u hu)
    · rw [next_off_chain ht]
      apply phase_kept
      · -- The accept is alone with the connection.
        by_contra hacc
        have hone := (hs.owned.alone u (List.mem_cons_of_mem t hu) hacc).1
        rw [List.cons.injEq] at hone
        rw [hone.2] at hu
        contradiction
      · exact step_keeps ht hstep
      · intro b hb
        obtain ⟨hmem, hapart⟩ := hs.owned.apart hu hb
        exact hturn.frame.bobj b hmem hapart
      · exact hs.phase u (List.mem_cons_of_mem t hu)
  · rcases List.mem_append.mp hu with hu | hu
    · exact chain_phase h64 h31 ht hphase hstep u hu
    · have hchain := hs.owned.chain
      have hle := le_total_of_mem Task.chain hu
      rw [total_cons] at hchain
      apply phase_off_chain
      split at hchain <;> omega

theorem Streams.run {conf₀ conf : Conf (ClientConn × History) Task} (h64 : 64 < _Bufsize.toNat)
    (h31 : _Bufsize.toNat < 2^31)
    (h₀ : Streams _Bufsize conf₀.shared.2 conf₀.shared.1 conf₀.tasks)
    (h : Run (machine.watched inOrder) conf₀ evs conf) :
    Streams _Bufsize conf.shared.2 conf.shared.1 conf.tasks := by
  apply h.invariant (fun _ conf => Streams _Bufsize conf.shared.2 conf.shared.1 conf.tasks) h₀
  intro evs conf es conf' hs hstep
  cases hstep with
  | turn hp hfresh hok =>
    obtain ⟨hpermits, hstep, hnext⟩ := watched_step hok
    have hnew := (hs.perm hp).turn h64 h31 hfresh hstep hpermits
    rw [← hnext] at hnew
    exact hnew

end Step

/-- Along every run in which no PostQueuedCompletionStatus succeeds after one has failed, the
commands that were queued are the first frames that the client has sent. -/
theorem commands_in_stream_order (g_dwPagesize : DWORD)
    (h64 : 64 < (g_dwPagesize * 8 - RECV_SOCK_SIZE).toNat)
    (h31 : (g_dwPagesize * 8 - RECV_SOCK_SIZE).toNat < 2^31) (pRSock : SockPtr) (rsock : RecvSock)
    (sock : SOCKET) (robj : RecvObj) (mem : BufferObjPtr → BufferObj) (evs : List Event)
    (conf : Conf (ClientConn × History) Task)
    (h : Run (machine.watched inOrder)
      ((start g_dwPagesize pRSock rsock sock robj mem).watch History.empty) evs conf)
    (sent : List Byte) (hsent : conf.shared.2.received <+: sent) :
    conf.shared.2.queued <+: frames sent := by
  have hstart : Streams (g_dwPagesize * 8 - RECV_SOCK_SIZE) History.empty
      (connected g_dwPagesize pRSock rsock sock robj mem) [.accept] := by
    refine ⟨start_owned _ _ _ _ _ _, ⟨List.prefix_rfl, fun _ => rfl, _, Parses.nil []⟩, ?_⟩
    intro t ht
    rw [List.mem_singleton.mp ht]
    exact ⟨rfl, rfl, rsock, sock, rfl⟩
  have hs := Streams.run h64 h31 hstart h
  obtain ⟨rest, hrest⟩ := hs.ordered.parsed
  have hqueued : conf.shared.2.queued <+: frames conf.shared.2.received :=
    hs.ordered.queued.trans hrest.prefix_frames
  exact hqueued.trans (frames_mono hsent)

/-- Two frames in one completion, and the turns up to the post of the first one. -/
def twoFrames : List Byte :=
  [0xfb, 0xfc, 1, 0, 0, 0, 0x41, 0x41, 0x0d, 0xfb, 0xfc, 1, 0, 0, 0, 0x42, 0x42, 0x0d]

def spare (pBObj : BufferObjPtr) : Choice := { gives [] with pBObj }

def firstPost (ok : Bool) : List (ℕ × Choice) :=
  accepted twoFrames ++ [(0, spare 1), (0, { spare 1 with ok })]

theorem second_post_fails : ∃ evs conf,
    Run (machine.watched inOrder) (sample.watch History.empty) evs conf ∧
      conf.shared.2.queued <+: frames twoFrames ∧ conf.shared.2.queued = [[0x41, 0x41, 0x0d]] ∧
      conf.shared.2.taken = frames twoFrames := by
  have hplay : (play (machine.watched inOrder) (sample.watch History.empty)
      (firstPost true ++ [(1, spare 1), (0, spare 2), (0, { spare 2 with ok := false })])).map
        (fun r => (r.2.shared.2.received, r.2.shared.2.queued, r.2.shared.2.taken)) =
          some (twoFrames, [[0x41, 0x41, 0x0d]], [[0x41, 0x41, 0x0d], [0x42, 0x42, 0x0d]]) := by
    decide +kernel
  obtain ⟨evs, conf, hrun, hres⟩ := play_reaches hplay
  rw [Prod.mk.injEq, Prod.mk.injEq] at hres
  rcases hres with ⟨hreceived, hqueued, htaken⟩
  dsimp only at hreceived hqueued htaken
  refine ⟨evs, conf, hrun, ?_, hqueued, ?_⟩
  · apply commands_in_stream_order 4096 (by decide) (by decide) 1 RecvSock.zeroed 7 _ _ evs conf
      hrun
    rw [hreceived]
  · rw [htaken]
    decide +kernel

/-- The first frame is lost, and the second one is queued. -/
theorem first_post_fails : ∃ evs conf,
    Run (machine.watched observer) (sample.watch History.empty) evs conf ∧
      conf.shared.2.queued = [[0x42, 0x42, 0x0d]] ∧
      ¬ conf.shared.2.queued <+: frames conf.shared.2.received := by
  have hplay : (play (machine.watched observer) (sample.watch History.empty)
      (firstPost false ++
        [(0, spare 1), (0, spare 1), (0, spare 1), (0, spare 2), (0, spare 2)])).map
        (fun r => (r.2.shared.2.received, r.2.shared.2.queued)) =
          some (twoFrames, [[0x42, 0x42, 0x0d]]) := by
    decide +kernel
  obtain ⟨evs, conf, hrun, hres⟩ := play_reaches hplay
  rw [Prod.mk.injEq] at hres
  rcases hres with ⟨hreceived, hqueued⟩
  dsimp only at hreceived hqueued
  refine ⟨evs, conf, hrun, hqueued, ?_⟩
  rw [hreceived, hqueued]
  decide +kernel

end ClientConn

end CustomersCard
