import CustomersCardMS.NcLifetime
import CustomersCardMS.PushRequest

namespace CustomersCard
open Interleaving

/-- A task in which bytes are received. -/
def NcTask.receives : NcTask → Bool
  | .accept | .recv => true
  | _ => false

namespace BufferObj

variable {b : BufferObj}

/-- What lies in the buffer where nothing is received: the leftovers of its last user and the
addresses that AcceptEx stores. -/
def stale (b : BufferObj) (block : List Byte) : List Byte := (b.kernelAccept [] block).dataBlock 0

theorem length_stale (block : List Byte) : (b.stale block).length = b.datalen.toNat+3 :=
  (b.kernelAccept [] block).length_dataBlock

theorem kernelAccept_block {bytes : List Byte} (block : List Byte)
    (h : bytes.length ≤ b.datalen.toNat) :
    (b.kernelAccept bytes block).dataBlock 0 = bytes ++ (b.stale block).drop bytes.length := by
  have hwrite := Circular.map_writeAt_range' (b.kernelAccept [] block).data (k := 0) bytes
    (show 0+bytes.length ≤ b.dataRoom by rw [Nat.zero_add]; exact Nat.le_add_right_of_le h)
  rw [List.take_zero, List.nil_append, Nat.zero_add] at hwrite
  exact hwrite

theorem kernelRecv_block {bytes : List Byte} {k : ℕ} (hbuf : b.wsaBuf.buf = some k)
    (hlen : bytes.length ≤ b.wsaBuf.len.toNat) (h : k+bytes.length ≤ b.datalen.toNat) :
    (b.kernelRecv bytes).dataBlock 0 =
      (b.dataBlock 0).take k ++ bytes ++ (b.dataBlock 0).drop (k+bytes.length) := by
  have hcells : b.wsaBuf.cells.take bytes.length = List.range' k bytes.length := by
    unfold Wsabuf.cells
    rw [hbuf]
    exact List.take_range'_of_length_ge hlen
  have hdata : (b.kernelRecv bytes).data =
      Circular.writeAt b.data (List.range' k bytes.length) bytes := by
    rw [← hcells, ← Circular.writeAt_take]
    rfl
  have hwrite := Circular.map_writeAt_range' b.data bytes
    (show k+bytes.length ≤ b.dataRoom from Nat.le_add_right_of_le h)
  rw [← hdata] at hwrite
  exact hwrite

/-- `u` is what the buffer has received, and the rest is as it was after AcceptEx. -/
structure Holds (stale u : List Byte) (b : BufferObj) : Prop where
  room : u.length ≤ b.datalen.toNat
  size : stale.length = b.datalen.toNat+3
  count : b.dwRecvedCount = BitVec.ofNat 32 u.length
  text : b.dataBlock 0 = u ++ stale.drop u.length

theorem Holds.count_toNat {stale u : List Byte} (h : Holds stale u b) :
    b.dwRecvedCount.toNat = u.length := by
  have hlt := b.datalen.isLt
  have hroom := h.room
  have hsize := h.size
  rw [h.count, BitVec.toNat_ofNat, Nat.mod_eq_of_lt (by omega)]

/-- WSARecv is posted for all the room that is left. -/
theorem Holds.recv_room {stale u bytes : List Byte} (h : Holds stale u b)
    (hbuf : b.wsaBuf = ⟨some b.dwRecvedCount.toNat, b.datalen - b.dwRecvedCount⟩)
    (hfit : u.length+bytes.length ≤ b.datalen.toNat) : bytes.length ≤ b.wsaBuf.len.toNat := by
  have hcount := h.count_toNat
  have hsize := h.size
  rw [hbuf]
  change bytes.length ≤ (b.datalen - b.dwRecvedCount).toNat
  rw [BitVec.toNat_sub_of_le (by rw [BitVec.le_def]; omega)]
  omega

theorem Holds.recv {stale u bytes : List Byte} (h : Holds stale u b)
    (hbuf : b.wsaBuf = ⟨some b.dwRecvedCount.toNat, b.datalen - b.dwRecvedCount⟩)
    (hfit : u.length+bytes.length ≤ b.datalen.toNat) :
    Holds stale (u ++ bytes) ((b.kernelRecv bytes).addReceived (BitVec.ofNat 32 bytes.length)) := by
  have hcount := h.count_toNat
  have hsize := h.size
  refine ⟨?_, hsize, ?_, ?_⟩
  · rw [List.length_append]
    exact hfit
  · change b.dwRecvedCount + BitVec.ofNat 32 bytes.length = _
    rw [h.count, List.length_append, BitVec.ofNat_add]
  · have htext : (b.kernelRecv bytes).dataBlock 0 = (b.dataBlock 0).take u.length ++ bytes ++
        (b.dataBlock 0).drop (u.length+bytes.length) :=
      kernelRecv_block (by rw [hbuf, hcount]) (h.recv_room hbuf hfit) (by omega)
    change (b.kernelRecv bytes).dataBlock 0 = _
    rw [htext, h.text, List.take_left, List.drop_append, List.drop_of_length_le (by omega),
      List.nil_append, List.drop_drop, List.length_append]
    congr 2
    omega

end BufferObj

namespace PushRequest

variable (r : PushRequest)

/-- A way to cut the request into what AcceptEx and each WSARecv bring. -/
structure Cut (datalen : ℕ) (chunks : List (List Byte)) : Prop where
  whole : chunks.flatten = r.bytes
  nonempty : [] ∉ chunks
  first : ∀ x ∈ chunks.head?, x.length ≤ datalen-64

/-- The header has no NUL, and the first "Content-Length: " in it, in any case, stands before the
length of the body; behind each piece that ends in the header lies something harmless. -/
structure Clear (stale : List Byte) (chunks : List (List Byte)) : Prop where
  nul : 0 ∉ r.header
  size : r.bytes.length < 2^31
  value : lengthValue r.lengthText = some (r.body.length : ℤ)
  behind : ∀ done rest, done ++ rest = chunks → done ≠ [] →
    done.flatten.length < r.header.length →
      Harmless done.flatten (stale.drop done.flatten.length)

/-- A header that mentions Content-Length nowhere before its field, on a buffer with zeros as far as
the header goes. -/
theorem clear_zeros {r : PushRequest} {stale : List Byte} {chunks : List (List Byte)}
    (hnul : 0 ∉ r.header) (hsize : r.bytes.length < 2^31)
    (hfirst : TextSearch.find sameLetter contentLength r.header = some r.before.length)
    (hwhole : chunks.flatten = r.bytes)
    (hzeros : ∀ k < r.header.length, stale[k]? = some 0) : r.Clear stale chunks := by
  refine ⟨hnul, hsize, r.lengthValue_first hfirst, ?_⟩
  intro done rest hchunks _ hhead
  have hstart : done.flatten <+: r.bytes := by
    rw [← hwhole, ← hchunks, List.flatten_append]
    exact List.prefix_append _ _
  obtain ⟨hlt, hget⟩ := List.getElem?_eq_some_iff.mp (hzeros _ hhead)
  rw [List.drop_eq_getElem_cons hlt, hget]
  exact harmless_nul (List.prefix_of_prefix_length_le hstart r.header_starts (Nat.le_of_lt hhead))
    hhead hnul

end PushRequest

namespace NcConn

/-- The peer sends the pieces one by one, every request to the kernel succeeds, and AcceptEx
stores `block` behind the data. The state is what is still to come. -/
def delivery (block : List Byte) : Monitor (List (List Byte)) NcConn NcTask NcChoice where
  next rest _ t _ := if t.receives then rest.tail else rest
  permits rest _ t ch :=
    ch.ok && ch.block == block && (!t.receives || rest.head? == some ch.bytes)

/-- What the assembly of a request promises in every state. -/
structure Assembles (r : PushRequest) (conf : Conf (NcConn × List (List Byte)) NcTask) : Prop where
  room : conf.shared.1.bobj.dwRecvedCount.toNat ≤ conf.shared.1.bobj.datalen.toNat
  received :
    (conf.shared.1.bobj.dataBlock 0).take conf.shared.1.bobj.dwRecvedCount.toNat <+: r.bytes
  -- Only Nc_AcceptCompletionSuccess still has to count what was delivered.
  counted : (∀ n, conf.tasks ≠ [.createPort n]) →
    (conf.shared.1.bobj.dataBlock 0).take conf.shared.1.bobj.dwRecvedCount.toNat ++
      conf.shared.2.flatten = r.bytes
  waits : conf.tasks = [.check] → conf.shared.2 ≠ [] →
    conf.shared.1.bobj.checkNCData = .ok (0, conf.shared.1.bobj, none)
  completes : conf.tasks = [.check] → conf.shared.2 = [] →
    conf.shared.1.bobj.checkNCData = .ok (r.header.length, conf.shared.1.bobj, none)

/-- Where the delivery of a request stands. -/
inductive Stage (b₀ : BufferObj) (block : List Byte) (chunks : List (List Byte)) :
    NcConn → List (List Byte) → List NcTask → Prop
  | accepting {c : NcConn} : c.bobj = b₀ → Stage b₀ block chunks c chunks [.accept]
  | accepted {c : NcConn} {x : List Byte} {rest : List (List Byte)} : x :: rest = chunks →
      c.bobj.datalen = b₀.datalen → c.bobj.dwRecvedCount = 0 →
      c.bobj.dataBlock 0 = x ++ (b₀.stale block).drop x.length →
      Stage b₀ block chunks c rest [.createPort (BitVec.ofNat 32 x.length)]
  | going {c : NcConn} {t : NcTask} {done rest : List (List Byte)} : done ++ rest = chunks →
      done ≠ [] → BufferObj.Holds (b₀.stale block) done.flatten c.bobj → t ≠ .accept →
      (∀ n, t ≠ .createPort n) →
      (t = .recv →
        c.bobj.wsaBuf =
          ⟨some c.bobj.dwRecvedCount.toNat, c.bobj.datalen - c.bobj.dwRecvedCount⟩) →
      Stage b₀ block chunks c rest [t]
  | ended {c : NcConn} {done rest : List (List Byte)} : done ++ rest = chunks → done ≠ [] →
      BufferObj.Holds (b₀.stale block) done.flatten c.bobj → Stage b₀ block chunks c rest []

section Step

variable {b₀ : BufferObj} {block : List Byte} {chunks rest : List (List Byte)} {c c' : NcConn}
  {t : NcTask} {ch : NcChoice} {new : List NcTask} {evs : List NcEvent} {r : PushRequest}

theorem permits_received (ht : t.receives = true)
    (h : (delivery block).permits rest c t ch = true) :
    ch.ok = true ∧ ch.block = block ∧ rest = ch.bytes :: rest.tail := by
  change (ch.ok && ch.block == block && (!t.receives || rest.head? == some ch.bytes)) = true at h
  rw [ht, Bool.not_true, Bool.false_or, Bool.and_eq_true, Bool.and_eq_true] at h
  exact ⟨h.1.1, eq_of_beq h.1.2, List.eq_cons_of_mem_head? (eq_of_beq h.2)⟩

theorem permits_ok (h : (delivery block).permits rest c t ch = true) : ch.ok = true := by
  change (ch.ok && ch.block == block && (!t.receives || rest.head? == some ch.bytes)) = true at h
  rw [Bool.and_eq_true, Bool.and_eq_true] at h
  exact h.1.1

theorem accept_take {x : List Byte} (h : x.length ≤ c.bobj.datalen.toNat-64) (hx : x ≠ []) :
    x.take (c.bobj.datalen-64).toNat = x := by
  apply List.take_of_length_le
  have hpos := List.length_pos_of_ne_nil hx
  have hsub : (c.bobj.datalen-64).toNat = c.bobj.datalen.toNat-64 := by
    apply BitVec.toNat_sub_of_le
    rw [BitVec.le_def]
    change 64 ≤ _
    omega
  rw [hsub]
  exact h

theorem Stage.accepts (hcut : r.Cut b₀.datalen.toNat chunks)
    (h : Stage b₀ block chunks c rest [.accept])
    (hcount : b₀.dwRecvedCount = 0) (hpermits : (delivery block).permits rest c .accept ch = true)
    (hstep : c.step .accept ch = .ok (c', new, evs)) :
    Stage b₀ block chunks c' rest.tail new := by
  cases h with
  | going _ _ _ hne => contradiction
  | accepting hb =>
    obtain ⟨hok, hblock, hchunks⟩ := permits_received rfl hpermits
    have hne : ch.bytes ≠ [] := by
      intro hnil
      rw [hnil] at hchunks
      exact hcut.nonempty (hchunks ▸ List.mem_cons_self)
    have hfirst : ch.bytes.length ≤ b₀.datalen.toNat-64 := by
      apply hcut.first
      rw [hchunks]
      rfl
    simp only [step, dispatch, withBObj, withBSock, guarded_ok, ok_inj] at hstep
    rcases hstep with ⟨_, _, _, rfl, rfl, _⟩
    rw [accept_take (hb ▸ hfirst) hne, if_pos ⟨hok, hne⟩]
    apply Stage.accepted hchunks.symm
    · change c.bobj.datalen = b₀.datalen
      rw [hb]
    · change c.bobj.dwRecvedCount = 0
      rw [hb, hcount]
    · rw [hblock]
      change (c.bobj.kernelAccept ch.bytes block).dataBlock 0 = _
      rw [hb]
      apply BufferObj.kernelAccept_block
      omega

theorem Stage.associates (hfit : chunks.flatten.length ≤ b₀.datalen.toNat) {n : DWORD}
    (h : Stage b₀ block chunks c rest [.createPort n])
    (hpermits : (delivery block).permits rest c (.createPort n) ch = true)
    (hstep : c.step (.createPort n) ch = .ok (c', new, evs)) :
    Stage b₀ block chunks c' rest new := by
  cases h with
  | going _ _ _ _ hne => exact absurd rfl (hne n)
  | @accepted x _ hchunks hsize hcount htext =>
    simp only [step, withBObj, withBSock, guarded_ok] at hstep
    rcases hstep with ⟨_, _, hstep⟩
    rw [if_pos (permits_ok hpermits), ok_inj] at hstep
    rcases hstep with ⟨rfl, rfl, _⟩
    have hroom : x.length ≤ c.bobj.datalen.toNat := by
      rw [hsize]
      rw [← hchunks, List.flatten_cons, List.length_append] at hfit
      omega
    have hflat : [x].flatten = x := List.flatten_singleton
    refine Stage.going (show [x] ++ rest = chunks from hchunks) (List.cons_ne_nil _ _)
      ⟨?_, ?_, ?_, ?_⟩ (by simp)
      (by simp) (by simp)
    · rwa [hflat]
    · rw [BufferObj.length_stale, ← hsize]
      rfl
    · change c.bobj.dwRecvedCount + _ = _
      rw [hcount, hflat]
      exact BitVec.zero_add _
    · rw [hflat]
      exact htext

theorem cmCloseSocket_holds {stale u : List Byte} {b : BufferObj} (h : BufferObj.Holds stale u b) :
    BufferObj.Holds stale u b.cmCloseSocket.1 := by
  unfold BufferObj.cmCloseSocket
  split
  · exact ⟨h.room, h.size, h.count, h.text⟩
  · exact h

/-- What a handler posts, or CMCloseSocket, goes on with the same bytes. -/
theorem Stage.goes {done : List (List Byte)} {p : Prop} [Decidable p] {t' u' : NcTask}
    (hchunks : done ++ rest = chunks) (hdone : done ≠ [])
    (hholds : BufferObj.Holds (b₀.stale block) done.flatten c.bobj)
    (ht : t' ≠ .accept ∧ ∀ n, t' ≠ .createPort n) (hu : u' ≠ .accept ∧ ∀ n, u' ≠ .createPort n)
    (hbuf : t' = .recv → c.bobj.wsaBuf =
      ⟨some c.bobj.dwRecvedCount.toNat, c.bobj.datalen - c.bobj.dwRecvedCount⟩)
    (hbuf' : u' ≠ .recv) : Stage b₀ block chunks c rest (if p then [t'] else [u']) := by
  split
  · exact Stage.going hchunks hdone hholds ht.1 ht.2 hbuf
  · exact Stage.going hchunks hdone hholds hu.1 hu.2 fun heq => absurd heq hbuf'

theorem Stage.receives (hcut : r.Cut b₀.datalen.toNat chunks)
    (hfit : chunks.flatten.length ≤ b₀.datalen.toNat) (h : Stage b₀ block chunks c rest [.recv])
    (hpermits : (delivery block).permits rest c .recv ch = true)
    (hstep : c.step .recv ch = .ok (c', new, evs)) : Stage b₀ block chunks c' rest.tail new := by
  cases h with
  | @going _ done _ hchunks hdone hholds _ _ hbuf =>
    obtain ⟨hok, _, hrest⟩ := permits_received rfl hpermits
    rw [hrest] at hchunks
    have hne : ch.bytes ≠ [] := by
      intro hnil
      apply hcut.nonempty
      rw [← hchunks, hnil]
      exact List.mem_append_right done List.mem_cons_self
    have hroom : done.flatten.length+ch.bytes.length ≤ c.bobj.datalen.toNat := by
      have hsize := hholds.size
      rw [BufferObj.length_stale] at hsize
      rw [← hchunks, List.flatten_append, List.flatten_cons, List.length_append,
        List.length_append] at hfit
      omega
    have htake : ch.bytes.take c.bobj.wsaBuf.len.toNat = ch.bytes :=
      List.take_of_length_le (hholds.recv_room (hbuf rfl) hroom)
    simp only [NcConn.step, dispatch, withBObj, withBSock, guarded_ok] at hstep
    rcases hstep with ⟨_, _, _, hstep⟩
    rw [htake, if_pos ⟨hok, hne⟩, ok_inj] at hstep
    rcases hstep with ⟨rfl, rfl, _⟩
    refine Stage.going (List.append_assoc done [ch.bytes] rest.tail ▸ hchunks) (by simp) ?_
      (by simp)
      (by simp) (by simp)
    rw [List.flatten_append, List.flatten_singleton]
    exact hholds.recv (hbuf rfl) hroom

/-- The statements and completions that bring no bytes. -/
theorem Stage.passes (hfit : chunks.flatten.length ≤ b₀.datalen.toNat) (ht : t.receives = false)
    (h : Stage b₀ block chunks c rest [t]) (hpermits : (delivery block).permits rest c t ch = true)
    (hstep : c.step t ch = .ok (c', new, evs)) : Stage b₀ block chunks c' rest new := by
  cases h with
  | accepting => exact Bool.noConfusion ht
  | accepted hchunks hsize hzero htext =>
    exact Stage.associates hfit (Stage.accepted hchunks hsize hzero htext) hpermits hstep
  | @going _ done _ hchunks hdone hholds haccept hcreate hbuf =>
    cases t with
    | accept => exact absurd rfl haccept
    | recv => exact Bool.noConfusion ht
    | createPort n => exact absurd rfl (hcreate n)
    | check =>
      cases check_fires hstep with
      | goes _ hne => exact absurd rfl hne
      | waits => exact Stage.going hchunks hdone hholds (by simp) (by simp) (by simp)
      -- What is received stays, and so does the connection.
      | strays =>
        exact Stage.going hchunks hdone (cmCloseSocket_holds hholds) (by simp) (by simp) (by simp)
      | completes => exact Stage.ended hchunks hdone hholds
    | postZeroRecv =>
      simp only [NcConn.step, withBObj, withBSock, guarded_ok, ok_inj] at hstep
      rcases hstep with ⟨_, _, rfl, rfl, _⟩
      exact Stage.goes hchunks hdone ⟨hholds.room, hholds.size, hholds.count, hholds.text⟩
        (by simp) (by simp) (by simp) (by simp)
    | zeroRecv =>
      simp only [NcConn.step, dispatch, withBObj, withBSock, guarded_ok, ok_inj] at hstep
      rcases hstep with ⟨_, _, _, rfl, rfl, _⟩
      exact Stage.goes hchunks hdone ⟨hholds.room, hholds.size, hholds.count, hholds.text⟩
        (by simp) (by simp) (by simp) (by simp)
    | postRecv =>
      simp only [NcConn.step, withBObj, withBSock, guarded_ok, ok_inj] at hstep
      rcases hstep with ⟨_, _, rfl, rfl, _⟩
      exact Stage.goes hchunks hdone ⟨hholds.room, hholds.size, hholds.count, hholds.text⟩
        (by simp) (by simp) (fun _ => rfl) (by simp)
    -- From here on the objects are only released.
    | close =>
      have hbobj : c'.bobj = c.bobj ∧ new = [.freeBSock] := by
        simp only [NcConn.step, withBSock, guarded_ok, cmCloseSocket] at hstep
        rcases hstep with ⟨_, hstep⟩
        split at hstep
        · rw [ok_inj] at hstep
          rcases hstep with ⟨rfl, rfl, _⟩
          exact ⟨rfl, rfl⟩
        · rw [ok_inj] at hstep
          rcases hstep with ⟨rfl, rfl, _⟩
          exact ⟨rfl, rfl⟩
      rw [hbobj.2]
      rw [← hbobj.1] at hholds
      exact Stage.going hchunks hdone hholds (by simp) (by simp) (by simp)
    | freeBSock =>
      cases step_fires hstep with
      | goes hserves => exact hserves.elim
      | freeBSock => exact Stage.going hchunks hdone hholds (by simp) (by simp) (by simp)
    | freeBObj =>
      cases step_fires hstep with
      | goes hserves => exact hserves.elim
      | freeBObj => exact Stage.ended hchunks hdone hholds

/-- Every step takes the delivery from one stage to the next. -/
theorem Stage.step (hcut : r.Cut b₀.datalen.toNat chunks)
    (hfit : chunks.flatten.length ≤ b₀.datalen.toNat) (hcount : b₀.dwRecvedCount = 0)
    (h : Stage b₀ block chunks c rest [t]) (hpermits : (delivery block).permits rest c t ch = true)
    (hstep : c.step t ch = .ok (c', new, evs)) :
    Stage b₀ block chunks c' ((delivery block).next rest c t ch) new := by
  change Stage b₀ block chunks c' (if t.receives then rest.tail else rest) new
  by_cases ht : t.receives = true
  · rw [if_pos ht]
    cases t with
    | accept => exact h.accepts hcut hcount hpermits hstep
    | recv => exact h.receives hcut hfit hpermits hstep
    | _ => contradiction
  · rw [if_neg ht]
    exact h.passes hfit (Bool.eq_false_iff.mpr ht) hpermits hstep

end Step

section Decision

variable {b₀ : BufferObj} {block : List Byte} {chunks rest : List (List Byte)} {c : NcConn}
  {ts : List NcTask} {r : PushRequest}

theorem checkNCData_wait {b : BufferObj} (h : b.ncDecision = .ok .wait) :
    b.checkNCData = .ok (0, b, none) := by
  unfold BufferObj.checkNCData
  rw [h]

theorem checkNCData_complete {b : BufferObj} {headerLen : ℕ}
    (h : b.ncDecision = .ok (.complete headerLen)) : b.checkNCData = .ok (headerLen, b, none) := by
  unfold BufferObj.checkNCData
  rw [h]

/-- Where CheckNCData closes nothing and returns zero, it waits. -/
theorem wait_of_checkNCData {b : BufferObj} (hvalid : b.ol.internalHigh ≠ INVALID_SOCKET)
    (h : b.checkNCData = .ok (0, b, none)) : b.ncDecision = .ok .wait := by
  unfold BufferObj.checkNCData at h
  split at h
  · cases h
  · case h_2 hd => exact hd
  · case h_3 headerLen hd =>
    rw [Except.ok.injEq, Prod.mk.injEq] at h
    exact absurd h.1 (BufferObj.ncDecision_complete hd)
  · unfold BufferObj.cmCloseSocket at h
    rw [if_pos hvalid, Except.ok.injEq, Prod.mk.injEq, Prod.mk.injEq] at h
    cases h.2.2

theorem complete_of_checkNCData {b : BufferObj} {headerLen : ℕ} (hpos : headerLen ≠ 0)
    (h : b.checkNCData = .ok (headerLen, b, none)) : b.ncDecision = .ok (.complete headerLen) := by
  unfold BufferObj.checkNCData at h
  split at h
  · cases h
  · rw [Except.ok.injEq, Prod.mk.injEq] at h
    exact absurd h.1.symm hpos
  · case h_3 headerLen' hd =>
    rw [Except.ok.injEq, Prod.mk.injEq] at h
    rw [← h.1]
    exact hd
  · rw [Except.ok.injEq, Prod.mk.injEq] at h
    exact absurd h.1.symm hpos

theorem taken {stale u : List Byte} {b : BufferObj} (h : BufferObj.Holds stale u b) :
    (b.dataBlock 0).take b.dwRecvedCount.toNat = u := by
  rw [h.count_toNat, h.text, List.take_left]

theorem taken_zero {b : BufferObj} (h : b.dwRecvedCount = 0) :
    (b.dataBlock 0).take b.dwRecvedCount.toNat = [] := by
  rw [h]
  rfl

/-- Between the handlers the buffer holds what was received, whatever CheckNCData decides. -/
theorem Stage.sound (hcut : r.Cut b₀.datalen.toNat chunks) (hzero : b₀.dwRecvedCount = 0)
    (h : Stage b₀ block chunks c rest ts) :
    c.bobj.dwRecvedCount.toNat ≤ c.bobj.datalen.toNat ∧
      (c.bobj.dataBlock 0).take c.bobj.dwRecvedCount.toNat <+: r.bytes ∧
      ((∀ n, ts ≠ [.createPort n]) →
        (c.bobj.dataBlock 0).take c.bobj.dwRecvedCount.toNat ++ rest.flatten = r.bytes) := by
  have hholds {done : List (List Byte)} (hchunks : done ++ rest = chunks)
      (hb : BufferObj.Holds (b₀.stale block) done.flatten c.bobj) :
      c.bobj.dwRecvedCount.toNat ≤ c.bobj.datalen.toNat ∧
        (c.bobj.dataBlock 0).take c.bobj.dwRecvedCount.toNat ++ rest.flatten = r.bytes := by
    have hcount := hb.count_toNat
    have hroom := hb.room
    have hsize := hb.size
    refine ⟨by omega, ?_⟩
    rw [taken hb, ← List.flatten_append, hchunks]
    exact hcut.whole
  have hzeros (hc : c.bobj.dwRecvedCount = 0) :
      c.bobj.dwRecvedCount.toNat ≤ c.bobj.datalen.toNat ∧
        (c.bobj.dataBlock 0).take c.bobj.dwRecvedCount.toNat <+: r.bytes := by
    refine ⟨hc ▸ Nat.zero_le _, ?_⟩
    rw [taken_zero hc]
    exact List.nil_prefix
  cases h with
  | accepting hb =>
    have hc : c.bobj.dwRecvedCount = 0 := hb ▸ hzero
    refine ⟨(hzeros hc).1, (hzeros hc).2, fun _ => ?_⟩
    rw [taken_zero hc]
    exact hcut.whole
  | accepted _ _ hc => exact ⟨(hzeros hc).1, (hzeros hc).2, fun hne => absurd rfl (hne _)⟩
  | going hchunks _ hb =>
    obtain ⟨hroom, happ⟩ := hholds hchunks hb
    exact ⟨hroom, happ ▸ List.prefix_append _ _, fun _ => happ⟩
  | ended hchunks _ hb =>
    obtain ⟨hroom, happ⟩ := hholds hchunks hb
    exact ⟨hroom, happ ▸ List.prefix_append _ _, fun _ => happ⟩

/-- Every piece that is still to come has bytes. -/
theorem rest_pos (hcut : r.Cut b₀.datalen.toNat chunks) {done : List (List Byte)}
    (hchunks : done ++ rest = chunks) (hrest : rest ≠ []) :
    done.flatten.length < r.bytes.length := by
  cases rest with
  | nil => contradiction
  | cons x xs =>
    have hx : x ≠ [] := by
      rintro rfl
      apply hcut.nonempty
      rw [← hchunks]
      exact List.mem_append_right done List.mem_cons_self
    have hpos := List.length_pos_of_ne_nil hx
    rw [← hcut.whole, ← hchunks, List.flatten_append, List.flatten_cons, List.length_append,
      List.length_append]
    omega

theorem Stage.assembles (hcut : r.Cut b₀.datalen.toNat chunks) (hzero : b₀.dwRecvedCount = 0)
    (hclear : r.Clear (b₀.stale block) chunks) (h : Stage b₀ block chunks c rest ts) :
    Assembles r ⟨(c, rest), ts⟩ := by
  obtain ⟨hroom, hreceived, hcounted⟩ := h.sound hcut hzero
  have hcheck (hts : ts = [.check]) : ∃ done, done ++ rest = chunks ∧ done ≠ [] ∧
      BufferObj.Holds (b₀.stale block) done.flatten c.bobj := by
    cases h with
    | accepting | accepted => cases hts
    | ended => cases hts
    | going hchunks hdone hb => exact ⟨_, hchunks, hdone, hb⟩
  refine ⟨hroom, hreceived, hcounted, ?_, ?_⟩
  · intro hts hrest
    obtain ⟨done, hchunks, hdone, hb⟩ := hcheck hts
    have hlt := rest_pos hcut hchunks hrest
    have hstart : done.flatten <+: r.bytes := by
      rw [← hcut.whole, ← hchunks, List.flatten_append]
      exact List.prefix_append _ _
    have hsize := hclear.size
    apply checkNCData_wait
    apply PushRequest.waits hstart hlt hb.text _ hclear.nul hclear.value
    · intro hhead
      exact hclear.behind done rest hchunks hdone hhead
    · rw [BitVec.toInt_eq_toNat_cond, hb.count_toNat]
      split <;> omega
  · intro hts hrest
    obtain ⟨done, hchunks, _, hb⟩ := hcheck hts
    have hall : done.flatten = r.bytes := by
      rw [← hcut.whole, ← hchunks, show rest = [] from hrest, List.append_nil]
    rw [hall] at hb
    have hsize := hclear.size
    apply checkNCData_complete
    apply (PushRequest.completes_iff hb.text hb.count (by omega)).mpr
    exact ⟨hclear.nul, hclear.size, hclear.value⟩

end Decision

section Delivery

variable {conf₀ : Conf (NcConn × List (List Byte)) NcTask} {block x : List Byte}
  {xs rest : List (List Byte)} {c c' : NcConn} {t : NcTask} {new : List NcTask} {evs : List NcEvent}

/-- A state that some delivery reaches. -/
def Reached (block : List Byte) (conf₀ conf : Conf (NcConn × List (List Byte)) NcTask) : Prop :=
  ∃ evs, Run (machine.watched (delivery block)) conf₀ evs conf

theorem Reached.passes (h : Reached block conf₀ ⟨(c, rest), [t]⟩) (ht : t.receives = false)
    (hstep : c.step t ⟨true, [], block⟩ = .ok (c', new, evs)) :
    Reached block conf₀ ⟨(c', rest), new⟩ := by
  obtain ⟨es, hrun⟩ := h
  have hpermits : (delivery block).permits rest c t ⟨true, [], block⟩ = true := by
    change (true && block == block && (!t.receives || _)) = true
    rw [ht, beq_self_eq_true]
    rfl
  have hnext : (delivery block).next rest c t ⟨true, [], block⟩ = rest := by
    change (if t.receives then rest.tail else rest) = rest
    rw [ht, if_neg Bool.false_ne_true]
  have hturn := hrun.alone trivial (watched_turn hpermits hstep)
  dsimp only at hturn
  rw [hnext] at hturn
  exact ⟨_, hturn⟩

theorem Reached.receives (h : Reached block conf₀ ⟨(c, x :: xs), [t]⟩) (ht : t.receives = true)
    (hstep : c.step t ⟨true, x, block⟩ = .ok (c', new, evs)) :
    Reached block conf₀ ⟨(c', xs), new⟩ := by
  obtain ⟨es, hrun⟩ := h
  have hpermits : (delivery block).permits (x :: xs) c t ⟨true, x, block⟩ = true := by
    change (true && block == block && (!t.receives || some x == some x)) = true
    rw [ht, beq_self_eq_true, beq_self_eq_true]
    rfl
  have hnext : (delivery block).next (x :: xs) c t ⟨true, x, block⟩ = xs := by
    change (if t.receives then xs else x :: xs) = xs
    rw [ht, if_pos rfl]
  have hturn := hrun.alone trivial (watched_turn hpermits hstep)
  dsimp only at hturn
  rw [hnext] at hturn
  exact ⟨_, hturn⟩

/-- A connection on which requests to the kernel can be posted. -/
structure Open (c : NcConn) : Prop where
  bsock : c.bsockLive = true
  bobj : c.bobjLive = true
  valid : c.bsock.sock ≠ INVALID_SOCKET
  transferred : c.bobj.ol.internalHigh ≠ INVALID_SOCKET

theorem transferred_valid {n : ℕ} (h : n < 2^32) : BitVec.ofNat 64 n ≠ INVALID_SOCKET := by
  intro heq
  have htoNat := congrArg BitVec.toNat heq
  rw [BitVec.toNat_ofNat, Nat.mod_eq_of_lt (by omega)] at htoNat
  change n = 2^64-1 at htoNat
  omega

theorem guarded_pos {p : Prop} [Decidable p] {f : NcConnFault} {k : Outcome} (h : p) :
    guarded p f k = k := if_pos h

theorem Open.posts (h : Open c) : c.posts ⟨true, [], block⟩ = true := by
  unfold NcConn.posts
  rw [Bool.true_and, bne_iff_ne]
  exact h.valid

/-- AcceptEx comes back with the first piece. -/
theorem Reached.accept (h : Reached block conf₀ ⟨(c, x :: xs), [.accept]⟩) (ho : Open c)
    (hhandled : c.bobj.fpFailed = some .ncAcceptCompletionFailed ∧
      c.bobj.fpSuccess = some .ncAcceptCompletionSuccess) (hx : x ≠ [])
    (hlen : x.length ≤ c.bobj.datalen.toNat-64) :
    ∃ c', Open c' ∧ Reached block conf₀ ⟨(c', xs), [.check]⟩ := by
  have htake := accept_take hlen hx
  have hlt := c.bobj.datalen.isLt
  let c₁ := c.setBObj (c.bobj.kernelAccept x block)
  have haccept : c.step .accept ⟨true, x, block⟩ =
      .ok (c₁, [.createPort (BitVec.ofNat 32 x.length)], []) := by
    simp only [step, dispatch, withBObj, withBSock, guarded_pos hhandled, guarded_pos ho.bobj,
      guarded_pos ho.bsock, htake]
    rw [if_pos ⟨trivial, hx⟩]
  have hopen : Open c₁ := ⟨ho.bsock, ho.bobj, ho.valid, transferred_valid (by omega)⟩
  let c₂ := c₁.setBObj (c₁.bobj.addReceived (BitVec.ofNat 32 x.length))
  have hcreate : c₁.step (.createPort (BitVec.ofNat 32 x.length)) ⟨true, [], block⟩ =
      .ok (c₂, [.check], []) := by
    simp only [step, withBObj, withBSock, guarded_pos hopen.bobj, guarded_pos hopen.bsock]
    rfl
  exact ⟨c₂, ⟨hopen.bsock, hopen.bobj, hopen.valid, hopen.transferred⟩,
    (h.receives rfl haccept).passes rfl hcreate⟩

/-- CheckNCData waits, and the next piece is received behind what is there. -/
theorem Reached.next (h : Reached block conf₀ ⟨(c, x :: xs), [.check]⟩) (ho : Open c)
    (hwait : c.bobj.ncDecision = .ok .wait) (hx : x ≠ [])
    (hlen : c.bobj.dwRecvedCount.toNat+x.length ≤ c.bobj.datalen.toNat) :
    ∃ c', Open c' ∧ Reached block conf₀ ⟨(c', xs), [.check]⟩ := by
  have hcheck : c.step .check ⟨true, [], block⟩ = .ok (c, [.postZeroRecv], []) := by
    simp only [step, withBObj, guarded_pos ho.bobj, checkNCData_wait hwait]
    rfl
  let c₁ := c.setBObj
    (c.bobj.setIoRequestFunction .ncRecvZeroCompFailed .ncRecvZeroCompSuccess).setZeroWsaBuf
  have hzero : c.step .postZeroRecv ⟨true, [], block⟩ = .ok (c₁, [.zeroRecv], []) := by
    simp only [step, withBObj, withBSock, guarded_pos ho.bobj, guarded_pos ho.bsock, ho.posts]
    rfl
  let c₂ := c₁.setBObj (c₁.bobj.transferred 0)
  have hreadable : c₁.step .zeroRecv ⟨true, [], block⟩ = .ok (c₂, [.postRecv], []) := by
    have hhandled : c₁.bobj.fpFailed = some .ncRecvZeroCompFailed ∧
        c₁.bobj.fpSuccess = some .ncRecvZeroCompSuccess := ⟨rfl, rfl⟩
    have hbobj : c₁.bobjLive = true := ho.bobj
    have hbsock : c₁.bsockLive = true := ho.bsock
    simp only [step, dispatch, withBObj, withBSock, guarded_pos hhandled, guarded_pos hbobj,
      guarded_pos hbsock]
    rfl
  have ho₂ : Open c₂ := ⟨ho.bsock, ho.bobj, ho.valid, transferred_valid (by decide)⟩
  let c₃ := c₂.setBObj
    (c₂.bobj.setIoRequestFunction .ncRecvCompFailed .ncRecvCompSuccess).setRecvWsaBuf
  have hpost : c₂.step .postRecv ⟨true, [], block⟩ = .ok (c₃, [.recv], []) := by
    simp only [step, withBObj, withBSock, guarded_pos ho₂.bobj, guarded_pos ho₂.bsock, ho₂.posts]
    rfl
  let c₄ := c₃.setBObj ((c₃.bobj.kernelRecv x).addReceived (BitVec.ofNat 32 x.length))
  have hrecv : c₃.step .recv ⟨true, x, block⟩ = .ok (c₄, [.check], []) := by
    have hhandled : c₃.bobj.fpFailed = some .ncRecvCompFailed ∧
        c₃.bobj.fpSuccess = some .ncRecvCompSuccess := ⟨rfl, rfl⟩
    have hbobj : c₃.bobjLive = true := ho.bobj
    have hbsock : c₃.bsockLive = true := ho.bsock
    have htake : x.take c₃.bobj.wsaBuf.len.toNat = x := by
      apply List.take_of_length_le
      change x.length ≤ (c.bobj.datalen - c.bobj.dwRecvedCount).toNat
      rw [BitVec.toNat_sub_of_le (by rw [BitVec.le_def]; omega)]
      omega
    simp only [step, dispatch, withBObj, withBSock, guarded_pos hhandled, guarded_pos hbobj,
      guarded_pos hbsock, htake]
    rw [if_pos ⟨trivial, hx⟩]
  have hlt := c.bobj.datalen.isLt
  refine ⟨c₄, ⟨ho.bsock, ho.bobj, ho.valid, transferred_valid (by omega)⟩, ?_⟩
  have hposted := (((h.passes rfl hcheck).passes rfl hzero).passes rfl hreadable).passes rfl hpost
  exact hposted.receives rfl hrecv

end Delivery

section Assembly

variable {g_dwPagesize : DWORD} {pBSock : SockPtr} {bsock : BufferSock} {bobj : BufferObj}
  {block : List Byte} {chunks : List (List Byte)} {r : PushRequest}

theorem Stage.pool {b₀ : BufferObj} {c : NcConn} {rest : List (List Byte)} {ts us : List NcTask}
    {t : NcTask} (h : Stage b₀ block chunks c rest ts) (hp : ts.Perm (t :: us)) :
    ts = [t] ∧ us = [] := by
  have hlen := hp.length_eq
  rw [List.length_cons] at hlen
  cases h with
  | ended =>
    rw [List.length_nil] at hlen
    omega
  | accepting | accepted | going =>
    have hone := List.singleton_perm.mp hp
    rw [List.cons.injEq] at hone
    rw [hone.1, hone.2]
    exact ⟨rfl, rfl⟩

/-- Every delivery goes through the stages. -/
theorem run_stage {b₀ : BufferObj} (hb : (connected g_dwPagesize pBSock bsock bobj).bobj = b₀)
    (hcut : r.Cut b₀.datalen.toNat chunks) (hfit : r.bytes.length ≤ b₀.datalen.toNat)
    {evs : List NcEvent} {conf : Conf (NcConn × List (List Byte)) NcTask}
    (h : Run (machine.watched (delivery block))
      ((start g_dwPagesize pBSock bsock bobj).watch chunks) evs conf) :
    Stage b₀ block chunks conf.shared.1 conf.shared.2 conf.tasks := by
  have hzero : b₀.dwRecvedCount = 0 := by
    rw [← hb]
    rfl
  apply h.invariant (fun _ conf => Stage b₀ block chunks conf.shared.1 conf.shared.2 conf.tasks)
  · exact Stage.accepting hb
  · intro es conf evs conf' hinv hstep
    cases hstep with
    | turn hp _ hok =>
      obtain ⟨hpermits, hs, hnext⟩ := watched_step hok
      obtain ⟨rfl, rfl⟩ := hinv.pool hp
      have hstage := hinv.step hcut (hcut.whole ▸ hfit) hzero hpermits hs
      dsimp only
      rw [List.append_nil, hnext]
      exact hstage

/-- As long as the assembly goes well, every piece is received and looked at. -/
theorem checks_reached {b₀ : BufferObj}
    (hb : (connected g_dwPagesize pBSock bsock bobj).bobj = b₀)
    (hsock : bsock.sock ≠ INVALID_SOCKET) (hcut : r.Cut b₀.datalen.toNat chunks)
    (hfit : r.bytes.length ≤ b₀.datalen.toNat)
    (hall : ∀ evs conf, Run (machine.watched (delivery block))
      ((start g_dwPagesize pBSock bsock bobj).watch chunks) evs conf → Assembles r conf)
    {done rest : List (List Byte)} (hchunks : done ++ rest = chunks) (hdone : done ≠ []) :
    ∃ c, Open c ∧ BufferObj.Holds (b₀.stale block) done.flatten c.bobj ∧
      Reached block ((start g_dwPagesize pBSock bsock bobj).watch chunks)
        ⟨(c, rest), [.check]⟩ := by
  have hlooked {c : NcConn} {done rest : List (List Byte)} (hchunks : done ++ rest = chunks)
      (hreached : Reached block ((start g_dwPagesize pBSock bsock bobj).watch chunks)
        ⟨(c, rest), [.check]⟩) : BufferObj.Holds (b₀.stale block) done.flatten c.bobj := by
    obtain ⟨evs, hrun⟩ := hreached
    cases run_stage hb hcut hfit hrun with
    | going hchunks' _ hholds =>
      rw [← hchunks] at hchunks'
      rwa [List.append_cancel_right hchunks'] at hholds
  have hpiece {done rest : List (List Byte)} {x : List Byte}
      (hchunks : done ++ x :: rest = chunks) :
      x ≠ [] := by
    rintro rfl
    apply hcut.nonempty
    rw [← hchunks]
    exact List.mem_append_right done List.mem_cons_self
  -- The pieces come one by one, and CheckNCData has to wait on all that are not the last.
  induction done using List.reverseRecOn generalizing rest with
  | nil => contradiction
  | append_singleton done x ih =>
    rw [List.append_assoc] at hchunks
    have hx := hpiece hchunks
    by_cases hfirst : done = []
    · rw [hfirst, List.nil_append] at hchunks
      have hstart : Reached block ((start g_dwPagesize pBSock bsock bobj).watch chunks)
          ⟨(connected g_dwPagesize pBSock bsock bobj, x :: rest), [.accept]⟩ := by
        rw [← hchunks]
        exact ⟨[], Run.nil⟩
      have hlen : x.length ≤ (connected g_dwPagesize pBSock bsock bobj).bobj.datalen.toNat-64 := by
        rw [hb]
        apply hcut.first
        rw [← hchunks]
        rfl
      obtain ⟨c, ho, hreached⟩ := hstart.accept
        ⟨rfl, rfl, hsock, transferred_valid (n := 0) (by decide)⟩ ⟨rfl, rfl⟩ hx hlen
      refine ⟨c, ho, hlooked ?_ hreached, hreached⟩
      rw [hfirst]
      exact hchunks
    · obtain ⟨c, ho, hholds, hreached⟩ := ih hchunks hfirst
      obtain ⟨evs, hrun⟩ := hreached
      have hwait := wait_of_checkNCData ho.transferred
        ((hall evs _ hrun).waits rfl (List.cons_ne_nil x rest))
      have hlen : c.bobj.dwRecvedCount.toNat+x.length ≤ c.bobj.datalen.toNat := by
        have hsize := hholds.size
        rw [BufferObj.length_stale] at hsize
        rw [hholds.count_toNat]
        rw [← hcut.whole, ← hchunks, List.flatten_append, List.length_append] at hfit
        change done.flatten.length+(x ++ rest.flatten).length ≤ _ at hfit
        rw [List.length_append] at hfit
        omega
      obtain ⟨c', ho', hreached'⟩ := Reached.next ⟨evs, hrun⟩ ho hwait hx hlen
      refine ⟨c', ho', hlooked ?_ hreached', hreached'⟩
      rw [List.append_assoc]
      exact hchunks

/-- What the delivery of a request that is assembled says about it. -/
theorem clear_of_assembles {b₀ : BufferObj}
    (hb : (connected g_dwPagesize pBSock bsock bobj).bobj = b₀)
    (hsock : bsock.sock ≠ INVALID_SOCKET) (hcut : r.Cut b₀.datalen.toNat chunks)
    (hfit : r.bytes.length ≤ b₀.datalen.toNat)
    (hall : ∀ evs conf, Run (machine.watched (delivery block))
      ((start g_dwPagesize pBSock bsock bobj).watch chunks) evs conf → Assembles r conf) :
    r.Clear (b₀.stale block) chunks := by
  have hpos := r.header_pos
  have hlt := b₀.datalen.isLt
  have hne : chunks ≠ [] := by
    rintro rfl
    have hwhole := congrArg List.length hcut.whole
    rw [r.length_bytes] at hwhole
    change 0 = _ at hwhole
    omega
  -- The check of the whole request, and then those of its parts.
  obtain ⟨hnul, hsize, hvalue⟩ : 0 ∉ r.header ∧ r.bytes.length < 2^31 ∧
      lengthValue r.lengthText = some (r.body.length : ℤ) := by
    obtain ⟨c, _, hholds, evs, hrun⟩ :=
      checks_reached hb hsock hcut hfit hall (List.append_nil chunks) hne
    rw [hcut.whole] at hholds
    apply (PushRequest.completes_iff hholds.text hholds.count (by omega)).mp
    apply complete_of_checkNCData (by omega)
    exact (hall evs _ hrun).completes rfl rfl
  refine ⟨hnul, hsize, hvalue, ?_⟩
  intro done rest hchunks hdone hhead
  obtain ⟨c, ho, hholds, evs, hrun⟩ := checks_reached hb hsock hcut hfit hall hchunks hdone
  have hbytes := r.length_bytes
  have hstart : done.flatten <+: r.bytes := by
    rw [← hcut.whole, ← hchunks, List.flatten_append]
    exact List.prefix_append _ _
  have hrest : rest ≠ [] := by
    rintro rfl
    rw [List.append_nil] at hchunks
    rw [hchunks, hcut.whole] at hhead
    omega
  apply (BufferObj.ncDecision_wait_iff hholds.text _ _).mp
  · exact wait_of_checkNCData ho.transferred ((hall evs _ hrun).waits rfl hrest)
  · intro hz
    have hheader : done.flatten <+: r.header :=
      List.prefix_of_prefix_length_le hstart r.header_starts (Nat.le_of_lt hhead)
    exact hnul (hheader.subset hz)
  · rw [BitVec.toInt_eq_toNat_cond, hholds.count_toNat]
    split <;> omega

theorem assembles_of_clear {b₀ : BufferObj}
    (hb : (connected g_dwPagesize pBSock bsock bobj).bobj = b₀)
    (hcut : r.Cut b₀.datalen.toNat chunks) (hfit : r.bytes.length ≤ b₀.datalen.toNat)
    (hclear : r.Clear (b₀.stale block) chunks) {evs : List NcEvent}
    {conf : Conf (NcConn × List (List Byte)) NcTask}
    (hrun : Run (machine.watched (delivery block))
      ((start g_dwPagesize pBSock bsock bobj).watch chunks) evs conf) : Assembles r conf := by
  apply (run_stage hb hcut hfit hrun).assembles hcut _ hclear
  rw [← hb]
  rfl

/-- A push request is assembled from its pieces if and only if its header has no NUL and announces
the length of the body first, and no piece that ends in the header leaves something harmful
behind it. -/
theorem push_request_assembled_iff (r : PushRequest) (chunks : List (List Byte))
    (block : List Byte) (g_dwPagesize : DWORD) (pBSock : SockPtr) (bsock : BufferSock)
    (bobj : BufferObj) (hsock : bsock.sock ≠ INVALID_SOCKET)
    (hfit : r.bytes.length ≤ (allocBObj bobj g_dwPagesize).datalen.toNat)
    (hcut : r.Cut (allocBObj bobj g_dwPagesize).datalen.toNat chunks) :
    (∀ evs conf, Run (machine.watched (delivery block))
      ((start g_dwPagesize pBSock bsock bobj).watch chunks) evs conf → Assembles r conf) ↔
        r.Clear ((allocBObj bobj g_dwPagesize).stale block) chunks := by
  constructor
  · intro hall
    have hclear := clear_of_assembles
      (rfl : (connected g_dwPagesize pBSock bsock bobj).bobj = _) hsock hcut hfit hall
    exact hclear
  · intro hclear evs conf hrun
    exact assembles_of_clear (rfl : (connected g_dwPagesize pBSock bsock bobj).bobj = _) hcut hfit
      hclear hrun

/-- Where the header ends before the addresses, new memory is zero. -/
theorem stale_zero {b : BufferObj} (hdata : ∀ i, b.data i = 0) {k : ℕ}
    (hk : k < b.datalen.toNat-64) : (b.stale block)[k]? = some 0 := by
  have hcell : (b.kernelAccept [] block).data k = 0 := by
    change Circular.writeAt b.data _ _ k = 0
    rw [Circular.writeAt_of_notMem, hdata]
    rw [List.mem_range'_1]
    omega
  unfold BufferObj.stale BufferObj.dataBlock
  rw [List.getElem?_map, List.getElem?_range' (by
    change k < b.datalen.toNat+3-0
    omega), Option.map_some, Nat.zero_add, Nat.one_mul, hcell]

/-- In a buffer of new memory every request that names Content-Length first in its field is
assembled, however it is cut. -/
theorem new_memory_assembles (hdata : ∀ i, bobj.data i = 0)
    (hfit : r.bytes.length ≤ (allocBObj bobj g_dwPagesize).datalen.toNat)
    (hcut : r.Cut (allocBObj bobj g_dwPagesize).datalen.toNat chunks)
    (hnul : 0 ∉ r.header) (hsize : r.bytes.length < 2^31)
    (hfirst : TextSearch.find sameLetter contentLength r.header = some r.before.length)
    (hheader : r.header.length ≤ (allocBObj bobj g_dwPagesize).datalen.toNat-64)
    {evs : List NcEvent} {conf : Conf (NcConn × List (List Byte)) NcTask}
    (hrun : Run (machine.watched (delivery block))
      ((start g_dwPagesize pBSock bsock bobj).watch chunks) evs conf) : Assembles r conf := by
  apply assembles_of_clear (rfl : (connected g_dwPagesize pBSock bsock bobj).bobj = _) hcut hfit _
    hrun
  apply PushRequest.clear_zeros hnul hsize hfirst hcut.whole
  intro k hk
  exact stale_zero (b := allocBObj bobj g_dwPagesize) hdata (Nat.lt_of_lt_of_le hk hheader)

/-- "P" for a request line, and "ab" for a body. -/
def shortRequest : PushRequest where
  before := [0x50] ++ crlf
  digits := [0x32]
  after := crlf
  body := [0x61, 0x62]
  line := ⟨[0x50], rfl⟩
  numeral := by decide
  nonempty := by decide
  short := by decide
  length := by decide
  blank := by decide
  single := by decide

theorem short_request_assembled : ∃ evs conf, Run (machine.watched (delivery []))
    ((start 4096 1 ⟨0, 7⟩ BufferObj.zeroed).watch
      [shortRequest.bytes.take 20, shortRequest.bytes.drop 20]) evs conf ∧
        conf.shared.1.bobj.checkNCData = .ok (24, conf.shared.1.bobj, none) := by
  have hfit : shortRequest.bytes.length ≤ (allocBObj BufferObj.zeroed 4096).datalen.toNat := by
    decide
  have hcut : shortRequest.Cut (allocBObj BufferObj.zeroed 4096).datalen.toNat
      [shortRequest.bytes.take 20, shortRequest.bytes.drop 20] := by
    refine ⟨by decide, by decide, ?_⟩
    intro x hx
    rw [← Option.some.inj hx]
    decide
  have hsock : (⟨0, 7⟩ : BufferSock).sock ≠ INVALID_SOCKET := by decide
  have hall := (push_request_assembled_iff shortRequest _ [] 4096 1 ⟨0, 7⟩ BufferObj.zeroed hsock
    hfit hcut).mpr (by
      apply PushRequest.clear_zeros (by decide) (by decide) (by decide) hcut.whole
      intro k hk
      exact stale_zero (fun _ => rfl) (Nat.lt_trans hk (by decide)))
  obtain ⟨c, _, _, evs, hrun⟩ := checks_reached
    (rfl : (connected 4096 1 ⟨0, 7⟩ BufferObj.zeroed).bobj = _) hsock hcut hfit hall
    (List.append_nil _) (List.cons_ne_nil _ _)
  exact ⟨evs, _, hrun, (hall evs _ hrun).completes rfl rfl⟩

/-- "X-Content-Length: 3" in a line before "Content-Length: 0". -/
def twoLengths : PushRequest where
  before := [0x50] ++ crlf ++ [0x58, 0x2d] ++ contentLength ++ [0x33] ++ crlf
  digits := [0x30]
  after := crlf
  body := []
  line := by decide
  numeral := by decide
  nonempty := by decide
  short := by decide
  length := by decide
  blank := by decide
  single := by decide

/-- A buffer whose last user left nine digits and a blank line where a number will be cut off. -/
def nineLeft : BufferObj :=
  { BufferObj.zeroed with
    data := fun i => if i < 19 then 0 else (List.replicate 9 0x31 ++ headerEnd).getD (i-19) 0 }

/-- The length of another field is taken for that of the body, and the digits of another request
for more of a number than there is room for. -/
theorem wrong_length_taken :
    (¬∀ evs conf, Run (machine.watched (delivery []))
      ((start 4096 1 ⟨0, 7⟩ BufferObj.zeroed).watch [twoLengths.bytes]) evs conf →
        Assembles twoLengths conf) ∧
    ¬∀ evs conf, Run (machine.watched (delivery []))
      ((start 4096 1 ⟨0, 7⟩ nineLeft).watch
        [shortRequest.bytes.take 19, shortRequest.bytes.drop 19]) evs conf →
          Assembles shortRequest conf := by
  constructor
  · intro hall
    have hcut : twoLengths.Cut (allocBObj BufferObj.zeroed 4096).datalen.toNat
        [twoLengths.bytes] := by
      refine ⟨by decide, by decide, ?_⟩
      intro x hx
      rw [← Option.some.inj hx]
      decide
    have hclear := clear_of_assembles (rfl : (connected 4096 1 ⟨0, 7⟩ BufferObj.zeroed).bobj = _)
      (by decide) hcut (by decide) hall
    have hvalue : lengthValue twoLengths.lengthText = some 3 := by decide
    have hlength := hclear.value
    rw [hvalue] at hlength
    exact absurd hlength (by decide)
  · intro hall
    have hcut : shortRequest.Cut (allocBObj nineLeft 4096).datalen.toNat
        [shortRequest.bytes.take 19, shortRequest.bytes.drop 19] := by
      refine ⟨by decide, by decide, ?_⟩
      intro x hx
      rw [← Option.some.inj hx]
      decide
    have hclear := clear_of_assembles (rfl : (connected 4096 1 ⟨0, 7⟩ nineLeft).bobj = _)
      (by decide) hcut (by decide) hall
    have hharm := hclear.behind [shortRequest.bytes.take 19] [shortRequest.bytes.drop 19] rfl
      (List.cons_ne_nil _ _) (by decide)
    obtain ⟨n, hn, _⟩ := hharm.value 32 (List.replicate 9 0x31) (by decide +kernel)
    contradiction

end Assembly

end NcConn

end CustomersCard
