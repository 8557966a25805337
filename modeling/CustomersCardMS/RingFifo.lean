import CustomersCardMS.RecvSock
import CustomersCardMS.BoundedFifo

namespace CustomersCard
open Circular

namespace RecvSock

/-- Where the unread bytes lie, in ring order. -/
def unreadCells (s : RecvSock) : List ℕ :=
  if s.bEmpty then []
  else if s.dwReadpos < s.dwWritepos then
    List.range' s.dwReadpos.toNat (s.dwWritepos.toNat-s.dwReadpos.toNat)
  else
    List.range' s.dwReadpos.toNat (s.dwBufsize.toNat-s.dwReadpos.toNat) ++
      List.range' 0 s.dwWritepos.toNat

/-- The received bytes that no `Read` has taken yet. -/
def unread (s : RecvSock) : List Byte := s.unreadCells.map s.buf

def unreadCount (s : RecvSock) : ℕ :=
  if s.bEmpty then 0
  else if s.dwReadpos < s.dwWritepos then s.dwWritepos.toNat-s.dwReadpos.toNat
  else s.dwBufsize.toNat-s.dwReadpos.toNat+s.dwWritepos.toNat

/-- The positions of the ring, without the full flag: what `Read` relies on. -/
structure PosInv (s : RecvSock) : Prop where
  read_le : s.dwReadpos.toNat ≤ s.dwBufsize.toNat
  write_le : s.dwWritepos.toNat ≤ s.dwBufsize.toNat
  empty : s.bEmpty = true → s.dwReadpos = s.dwWritepos
  write_pos : s.bEmpty = false → 0 < s.dwWritepos.toNat

/-- The invariant between the operations: the full flag marks exactly the
states in which equal positions stand for a full ring. -/
structure RingInv (s : RecvSock) : Prop extends PosInv s where
  full : s.bFull = true ↔ s.bEmpty = false ∧ s.dwReadpos = s.dwWritepos

theorem unreadCount_follows (s : RecvSock) (h : PosInv s) :
    Follows s.dwBufsize.toNat s.dwReadpos.toNat s.unreadCount s.dwWritepos.toNat := by
  have hr := h.read_le
  unfold unreadCount Follows
  split
  · rename_i he
    rw [h.empty he]
    exact Or.inl (by omega)
  · split
    · rename_i hlt
      rw [BitVec.lt_def] at hlt
      exact Or.inl (by omega)
    · exact Or.inr (by omega)

theorem unreadCount_le (s : RecvSock) (h : PosInv s) : s.unreadCount ≤ s.dwBufsize.toNat := by
  have hr := h.read_le
  have hw := h.write_le
  unfold unreadCount
  split
  · omega
  · split
    · omega
    · rename_i hlt
      rw [BitVec.lt_def] at hlt
      omega

theorem unreadCells_eq_arc (s : RecvSock) (h : PosInv s) :
    s.unreadCells = arc s.dwBufsize.toNat s.dwReadpos.toNat s.unreadCount := by
  have hr := h.read_le
  have hw := h.write_le
  have hn := unreadCount_le s h
  unfold unreadCells
  unfold unreadCount at hn ⊢
  split
  · simp [arc]
  · split
    · rename_i hlt
      rw [BitVec.lt_def] at hlt
      rw [arc_of_le (by omega)]
    · rename_i he hlt
      rw [if_neg he, if_neg hlt] at hn
      rw [arc_of_ge hr (by omega) hn]
      congr 2
      omega

theorem unread_eq_arc (s : RecvSock) (h : PosInv s) :
    s.unread = (arc s.dwBufsize.toNat s.dwReadpos.toNat s.unreadCount).map s.buf := by
  rw [unread, unreadCells_eq_arc s h]

theorem length_unread (s : RecvSock) (h : PosInv s) : s.unread.length = s.unreadCount := by
  rw [unread_eq_arc s h, List.length_map, length_arc]

theorem unreadCount_pos (s : RecvSock) (h : PosInv s) : 0 < s.unreadCount ↔ s.bEmpty = false := by
  have hr := h.read_le
  have hp := h.write_pos
  unfold unreadCount
  cases he : s.bEmpty with
  | true => simp
  | false =>
    have hw := hp he
    simp only [Bool.false_eq_true, ↓reduceIte, iff_true]
    split
    · rename_i hlt
      rw [BitVec.lt_def] at hlt
      omega
    · omega

theorem bEmpty_iff_unread (s : RecvSock) (h : PosInv s) : s.bEmpty = true ↔ s.unread = [] := by
  rw [← List.length_eq_zero_iff, length_unread s h]
  have hp := unreadCount_pos s h
  cases he : s.bEmpty with
  | true => simp [unreadCount, he]
  | false =>
    have hpos := hp.mpr he
    simp only [Bool.false_eq_true, false_iff]
    omega

/-- The two sizes of InitRLsize cut the free space at the end of the ring. -/
theorem initRLsize_sizes (s : RecvSock) (h : RingInv s) :
    s.initRLsize.dwRightsize.toNat =
        min (s.dwBufsize.toNat-s.unreadCount) (s.dwBufsize.toNat-s.dwWritepos.toNat) ∧
      s.initRLsize.dwLeftsize.toNat =
        (s.dwBufsize.toNat-s.unreadCount)-(s.dwBufsize.toNat-s.dwWritepos.toNat) := by
  have hr := h.read_le
  have hw := h.write_le
  have hfull := h.full
  unfold initRLsize unreadCount
  cases hf : s.bFull with
  | true =>
    obtain ⟨he, heq⟩ := hfull.mp hf
    simp [he, heq]
    omega
  | false =>
    cases he : s.bEmpty with
    | true =>
      have heq := h.empty he
      simp only [Bool.false_eq_true, ↓reduceIte, heq, BitVec.le_refl]
      constructor <;> bv_omega
    | false =>
      have hne : s.dwReadpos ≠ s.dwWritepos := by
        intro heq
        simp [hfull.mpr ⟨he, heq⟩] at hf
      have hne' : s.dwReadpos.toNat ≠ s.dwWritepos.toNat := fun hh => hne (BitVec.eq_of_toNat_eq hh)
      simp only [Bool.false_eq_true, ↓reduceIte]
      split <;> split <;> constructor <;> bv_omega

theorem offered_eq (s : RecvSock) (h : RingInv s) :
    s.offered = s.dwBufsize.toNat-s.unreadCount := by
  have hs := initRLsize_sizes s h
  change s.initRLsize.dwRightsize.toNat+s.initRLsize.dwLeftsize.toNat = _
  omega

theorem offered_cells (s : RecvSock) (h : RingInv s) :
    s.initWSABUFS.wsabuf.1.cells ++ s.initWSABUFS.wsabuf.2.cells =
      arc s.dwBufsize.toNat s.dwWritepos.toNat s.offered := by
  have hs := initRLsize_sizes s h
  have hw : s.initRLsize.dwWritepos = s.dwWritepos := by
    unfold initRLsize
    split
    · rfl
    · split <;> rfl
  have hn := offered_eq s h
  rw [arc_eq_split h.write_le (by omega)]
  change List.range' s.initRLsize.dwWritepos.toNat s.initRLsize.dwRightsize.toNat ++
    List.range' 0 s.initRLsize.dwLeftsize.toNat = _
  rw [hs.1, hs.2, hw, hn]

/-- Away from the empty ring the positions determine the number of unread bytes. -/
theorem unreadCount_of_follows (s : RecvSock) (he : s.bEmpty = false) (n : ℕ)
    (hn : 0 < n) (hle : n ≤ s.dwBufsize.toNat)
    (hr : s.dwReadpos.toNat ≤ s.dwBufsize.toNat)
    (hf : Follows s.dwBufsize.toNat s.dwReadpos.toNat n s.dwWritepos.toNat) :
    s.unreadCount = n := by
  unfold Follows at hf
  simp only [unreadCount, he, Bool.false_eq_true, ↓reduceIte]
  split
  · rename_i hlt
    rw [BitVec.lt_def] at hlt
    omega
  · rename_i hlt
    rw [BitVec.lt_def] at hlt
    omega

theorem posInv_toRing (s : RecvSock) (h : PosInv s) (he : s.bEmpty = false)
    (hF : s.bFull = (s.dwWritepos == s.dwReadpos)) : RingInv s := by
  refine ⟨h, ?_⟩
  rw [hF, beq_iff_eq, he]
  exact ⟨fun hh => ⟨rfl, hh.symm⟩, fun hh => hh.2.symm⟩

/-- What every transfer into the ring does: bytes stored from the write position
on, within the free space, are appended to the unread bytes. -/
theorem fill_spec (s t : RecvSock) (h : PosInv s) (bytes : List Byte) (m : ℕ)
    (hpos : 0 < bytes.length) (hm : bytes.length ≤ m)
    (hroom : s.unreadCount+m ≤ s.dwBufsize.toNat)
    (hB : t.dwBufsize = s.dwBufsize) (hR : t.dwReadpos = s.dwReadpos) (he : t.bEmpty = false)
    (hw : 0 < t.dwWritepos.toNat) (hwle : t.dwWritepos.toNat ≤ s.dwBufsize.toNat)
    (hfol : Follows s.dwBufsize.toNat s.dwWritepos.toNat bytes.length t.dwWritepos.toNat)
    (hF : t.bFull = (t.dwWritepos == t.dwReadpos))
    (hbuf : t.buf = writeAt s.buf (arc s.dwBufsize.toNat s.dwWritepos.toNat m) bytes) :
    RingInv t ∧ t.unread = s.unread ++ bytes ∧ t.unreadCount = s.unreadCount+bytes.length ∧
      ∀ i ∈ arc s.dwBufsize.toNat s.dwReadpos.toNat s.unreadCount, t.buf i = s.buf i := by
  have hr := h.read_le
  have hold := unreadCount_follows s h
  have htotal := hold.trans hr (by omega) hw hfol
  have hp : PosInv t := by
    refine ⟨by rw [hR, hB]; exact hr, by rw [hB]; exact hwle, ?_, fun _ => hw⟩
    intro hh
    rw [he] at hh
    contradiction
  have hcount : t.unreadCount = s.unreadCount+bytes.length :=
    unreadCount_of_follows t he _ (by omega) (by rw [hB]; omega) hp.read_le
      (by rw [hB, hR]; exact htotal)
  rw [writeAt_take, take_arc hm] at hbuf
  have hd := arc_disjoint hr hold (n := bytes.length) (by omega)
  have hnew : (arc s.dwBufsize.toNat s.dwWritepos.toNat bytes.length).map t.buf = bytes := by
    rw [hbuf]
    exact map_writeAt _ _ _ (arc_nodup (by omega)) (by simp)
  refine ⟨posInv_toRing t hp he hF, ?_, hcount, ?_⟩
  · rw [unread_eq_arc t hp, unread_eq_arc s h, hcount, hB, hR, arc_append hr hold (by omega),
      List.map_append, hnew, hbuf, map_writeAt_disjoint _ _ _ _ hd]
  · intro i hi
    rw [hbuf]
    exact writeAt_of_notMem _ _ _ _ (hd hi)

theorem initWRpos_readpos (s : RecvSock) (dwTranstion : DWORD) :
    (s.initWRpos dwTranstion).dwReadpos = s.dwReadpos := by
  unfold initWRpos
  split
  · rfl
  split
  · rfl
  · rfl

/-- InitWRpos moves the write position behind the transferred bytes. `dwRightsize`
is what is left up to the end of the ring, or zero at the start of a connection. -/
theorem initWRpos_follows (s : RecvSock) (dwTranstion : DWORD) (hf : s.bFull = false)
    (hT : 0 < dwTranstion.toNat)
    (hr : dwTranstion.toNat ≤ s.dwRightsize.toNat →
      s.dwWritepos.toNat+dwTranstion.toNat ≤ s.dwBufsize.toNat)
    (hl : s.dwRightsize.toNat < dwTranstion.toNat →
      Follows s.dwBufsize.toNat s.dwWritepos.toNat s.dwRightsize.toNat 0 ∧
        dwTranstion.toNat ≤ s.dwBufsize.toNat) :
    ∃ w : DWORD, s.initWRpos dwTranstion =
        { s with dwWritepos := w, bFull := w == s.dwReadpos, bEmpty := false } ∧
      0 < w.toNat ∧ w.toNat ≤ s.dwBufsize.toNat ∧
      Follows s.dwBufsize.toNat s.dwWritepos.toNat dwTranstion.toNat w.toNat := by
  have hpos : ¬ dwTranstion ≤ 0 := by bv_omega
  unfold initWRpos
  rw [if_neg hpos, hf]
  refine ⟨_, rfl, ?_⟩
  unfold Follows at hl ⊢
  split
  · rename_i hgt
    have hl' := hl (BitVec.lt_def.mp hgt)
    have hsub : (dwTranstion - s.dwRightsize).toNat = dwTranstion.toNat-s.dwRightsize.toNat := by
      bv_omega
    have hgt' := BitVec.lt_def.mp hgt
    rw [hsub]
    omega
  · rename_i hgt
    have hr' := hr (by bv_omega)
    have hlt := s.dwBufsize.isLt
    have hadd : (s.dwWritepos + dwTranstion).toNat = s.dwWritepos.toNat+dwTranstion.toNat := by
      rw [BitVec.toNat_add, Nat.mod_eq_of_lt (by omega)]
    rw [hadd]
    omega

theorem initRLsize_eq (s : RecvSock) : s.initRLsize =
    { s with dwRightsize := s.initRLsize.dwRightsize, dwLeftsize := s.initRLsize.dwLeftsize } := by
  unfold initRLsize
  split
  · rfl
  · split <;> rfl

theorem notFull_of_room (s : RecvSock) (h : RingInv s) (hroom : s.unreadCount < s.dwBufsize.toNat) :
    s.bFull = false := by
  by_contra hfull
  obtain ⟨he, heq⟩ := h.full.mp (by simpa using hfull)
  have hw := h.write_le
  simp only [unreadCount, he, heq, Bool.false_eq_true, ↓reduceIte] at hroom
  split at hroom
  · rename_i hlt
    rw [BitVec.lt_def] at hlt
    omega
  · omega

theorem receive_eq (s : RecvSock) (bytes : List Byte) : s.receive bytes = initWRpos
    { s with
      dwRightsize := s.initRLsize.dwRightsize
      dwLeftsize := s.initRLsize.dwLeftsize
      wsabuf := s.initWSABUFS.wsabuf
      buf := writeAt s.buf (s.initWSABUFS.wsabuf.1.cells ++ s.initWSABUFS.wsabuf.2.cells) bytes }
    (BitVec.ofNat 32 bytes.length) := by
  unfold receive initWSABUFS kernelRecv
  rw [initRLsize_eq]

theorem toNat_ofNat_of_le (b : DWORD) (n : ℕ) (h : n ≤ b.toNat) :
    (BitVec.ofNat 32 n).toNat = n := by
  have hlt := b.isLt
  rw [BitVec.toNat_ofNat, Nat.mod_eq_of_lt (by omega)]

theorem receive_shape (s : RecvSock) (h : RingInv s) (bytes : List Byte) (hne : bytes ≠ [])
    (hle : bytes.length ≤ s.offered) :
    ∃ w : DWORD, s.receive bytes = { s with
        dwRightsize := s.initRLsize.dwRightsize
        dwLeftsize := s.initRLsize.dwLeftsize
        wsabuf := s.initWSABUFS.wsabuf
        buf := writeAt s.buf (arc s.dwBufsize.toNat s.dwWritepos.toNat s.offered) bytes
        dwWritepos := w, bFull := w == s.dwReadpos, bEmpty := false } ∧
      0 < w.toNat ∧ w.toNat ≤ s.dwBufsize.toNat ∧
      Follows s.dwBufsize.toNat s.dwWritepos.toNat bytes.length w.toNat := by
  have hs := initRLsize_sizes s h
  have hoff := offered_eq s h
  have hw := h.write_le
  have hpos : 0 < bytes.length := List.length_pos_of_ne_nil hne
  have hlen := toNat_ofNat_of_le s.dwBufsize bytes.length (by omega)
  rw [receive_eq, offered_cells s h]
  obtain ⟨w, hrun, hw0, hwle, hfol⟩ := initWRpos_follows
    { s with
      dwRightsize := s.initRLsize.dwRightsize
      dwLeftsize := s.initRLsize.dwLeftsize
      wsabuf := s.initWSABUFS.wsabuf
      buf := writeAt s.buf (arc s.dwBufsize.toNat s.dwWritepos.toNat s.offered) bytes }
    (BitVec.ofNat 32 bytes.length) (notFull_of_room s h (by omega)) (by omega)
    (by intro hh; dsimp only at hh ⊢; omega)
    (by intro hh; unfold Follows; dsimp only at hh ⊢; omega)
  rw [hlen] at hfol
  exact ⟨w, hrun, hw0, hwle, hfol⟩

/-- A receive appends exactly the transferred bytes and overwrites no unread one. -/
theorem receive_spec (s : RecvSock) (h : RingInv s) (bytes : List Byte) (hne : bytes ≠ [])
    (hle : bytes.length ≤ s.offered) :
    RingInv (s.receive bytes) ∧ (s.receive bytes).unread = s.unread ++ bytes ∧
      (s.receive bytes).unreadCount = s.unreadCount+bytes.length ∧
      ∀ i ∈ arc s.dwBufsize.toNat s.dwReadpos.toNat s.unreadCount,
        (s.receive bytes).buf i = s.buf i := by
  have hoff := offered_eq s h
  have hn := unreadCount_le s h.toPosInv
  obtain ⟨w, hrun, hw0, hwle, hfol⟩ := receive_shape s h bytes hne hle
  rw [hrun]
  exact fill_spec s _ h.toPosInv bytes s.offered (List.length_pos_of_ne_nil hne) hle (by omega)
    rfl rfl rfl hw0 hwle hfol rfl rfl

theorem init_inv (s : RecvSock) (_Bufsize : DWORD) : RingInv (s.init _Bufsize) := by
  refine ⟨⟨by simp [init], by simp [init], fun _ => rfl, ?_⟩, ?_⟩ <;> simp [init]

/-- The first bytes of a connection lie at `buf[0]`; `dwRightsize` is still the zero of Init. -/
theorem acceptFill_spec (g s : RecvSock) (_Bufsize : DWORD) (sock : SOCKET)
    (hs : s = { g.init _Bufsize with sock }) (bytes : List Byte) (hne : bytes ≠ [])
    (hle : bytes.length ≤ _Bufsize.toNat) :
    RingInv (s.acceptFill bytes) ∧ (s.acceptFill bytes).unread = bytes ∧
      (s.acceptFill bytes).dwBufsize = _Bufsize ∧ (s.acceptFill bytes).sock = sock := by
  subst hs
  have hpos : 0 < bytes.length := List.length_pos_of_ne_nil hne
  have hlen := toNat_ofNat_of_le _Bufsize bytes.length hle
  obtain ⟨w, hrun, hw0, hwle, hfol⟩ := initWRpos_follows
    (({ g.init _Bufsize with sock } : RecvSock).kernelAccept bytes)
    (BitVec.ofNat 32 bytes.length) rfl (by omega)
    (by intro hh; simp [init, kernelAccept] at hh; omega)
    (by intro _; simp [init, kernelAccept, Follows]; omega)
  rw [hlen] at hfol
  have hcells : List.range' 0 bytes.length = arc _Bufsize.toNat (0 : DWORD).toNat bytes.length := by
    rw [arc_of_le (by simpa using hle)]
    rfl
  have hinv : PosInv { g.init _Bufsize with sock } :=
    ⟨Nat.zero_le _, Nat.zero_le _, fun _ => rfl, fun hh => by simp [init] at hh⟩
  have hfill : ({ g.init _Bufsize with sock } : RecvSock).acceptFill bytes = _ := hrun
  rw [hfill]
  obtain ⟨ht, hu, _⟩ := fill_spec { g.init _Bufsize with sock }
    { ({ g.init _Bufsize with sock } : RecvSock).kernelAccept bytes with
      dwWritepos := w, bFull := w == 0, bEmpty := false }
    hinv bytes bytes.length hpos le_rfl (by simpa [unreadCount, init] using hle)
    rfl rfl rfl hw0 hwle hfol rfl
    (congrArg (fun ps => writeAt g.buf ps bytes) hcells)
  exact ⟨ht, hu.trans (by simp [unread, unreadCells, init]), rfl, rfl⟩

theorem memcpy_of_le (s : RecvSock) (off n : ℕ) (h : off+n ≤ s.dwBufsize.toNat) :
    s.memcpy off n = some ((List.range' off n).map s.buf) := if_pos h

/-- The state `Read` leaves: its read position, and emptiness where it meets the write position. -/
def afterRead (s : RecvSock) (r : DWORD) : RecvSock :=
  { s with bFull := false, dwReadpos := r, bEmpty := r == s.dwWritepos }

theorem afterRead_spec (s : RecvSock) (h : PosInv s) (r : DWORD) (n : ℕ) (hpos : 0 < n)
    (hle : n ≤ s.unreadCount) (hrle : r.toNat ≤ s.dwBufsize.toNat)
    (hfol : Follows s.dwBufsize.toNat s.dwReadpos.toNat n r.toNat)
    (hcount : (s.afterRead r).unreadCount = s.unreadCount-n) :
    RingInv (s.afterRead r) ∧ (s.afterRead r).unread = s.unread.drop n := by
  have he : s.bEmpty = false := (unreadCount_pos s h).mp (by omega)
  have hp : PosInv (s.afterRead r) :=
    ⟨hrle, h.write_le, by simp [afterRead], fun _ => h.write_pos he⟩
  refine ⟨⟨hp, by simp [afterRead]⟩, ?_⟩
  rw [unread_eq_arc _ hp, unread_eq_arc s h, ← List.map_drop,
    drop_arc h.read_le hfol hle (unreadCount_le s h), hcount]
  rfl

/-- `Read` takes exactly the first unread bytes. It relies on the positions alone
and leaves both flags right, so it may follow a header skip. -/
theorem read_spec (s : RecvSock) (h : PosInv s) (dwNum : DWORD) (hpos : 0 < dwNum.toNat)
    (hle : dwNum.toNat ≤ s.unreadCount) :
    ∃ r : DWORD, s.read dwNum = some (dwNum, s.unread.take dwNum.toNat, s.afterRead r) ∧
      RingInv (s.afterRead r) ∧ (s.afterRead r).unread = s.unread.drop dwNum.toNat := by
  have hr := h.read_le
  have hw := h.write_le
  have hn := unreadCount_le s h
  have he : s.bEmpty = false := (unreadCount_pos s h).mp (by omega)
  have hw0 := h.write_pos he
  have hnz : ¬ dwNum ≤ 0 := by bv_omega
  have htake : s.unread.take dwNum.toNat =
      (arc s.dwBufsize.toNat s.dwReadpos.toNat dwNum.toNat).map s.buf := by
    rw [unread_eq_arc s h, ← List.map_take, take_arc hle]
  rw [htake]
  have hcount : s.unreadCount = if s.dwReadpos < s.dwWritepos then
      s.dwWritepos.toNat-s.dwReadpos.toNat
      else s.dwBufsize.toNat-s.dwReadpos.toNat+s.dwWritepos.toNat := by
    simp [unreadCount, he]
  have hafter (r : DWORD) : (s.afterRead r).unreadCount = if r = s.dwWritepos then 0
      else if r < s.dwWritepos then s.dwWritepos.toNat-r.toNat
      else s.dwBufsize.toNat-r.toNat+s.dwWritepos.toNat := by
    simp only [unreadCount, afterRead, beq_iff_eq]
    rfl
  by_cases hlt : s.dwReadpos < s.dwWritepos
  · rw [if_pos hlt] at hcount
    have hlt' := BitVec.lt_def.mp hlt
    have hadd : (s.dwReadpos + dwNum).toNat = s.dwReadpos.toNat+dwNum.toNat := by bv_omega
    refine ⟨s.dwReadpos + dwNum, ?_, afterRead_spec s h _ dwNum.toNat hpos hle (by omega)
      (Or.inl hadd) ?_⟩
    · simp only [read, hnz, he, hlt, ↓reduceIte, Bool.false_eq_true]
      rw [memcpy_of_le _ _ _ (by dsimp only; omega), arc_of_le (by omega)]
      rfl
    · rw [hafter, hcount]
      split
      · bv_omega
      · split <;> bv_omega
  · rw [if_neg hlt] at hcount
    have hle' : s.dwWritepos.toNat ≤ s.dwReadpos.toNat := by bv_omega
    have hleft : (s.dwBufsize - s.dwReadpos).toNat = s.dwBufsize.toNat-s.dwReadpos.toNat := by
      bv_omega
    by_cases hgt : s.dwBufsize - s.dwReadpos > dwNum
    -- All of it lies before the end of the ring.
    · have hgt' := BitVec.lt_def.mp hgt
      have hlim := s.dwBufsize.isLt
      have hadd : (s.dwReadpos + dwNum).toNat = s.dwReadpos.toNat+dwNum.toNat := by
        rw [BitVec.toNat_add, Nat.mod_eq_of_lt (by omega)]
      refine ⟨s.dwReadpos + dwNum, ?_, afterRead_spec s h _ dwNum.toNat hpos hle (by omega)
        (Or.inl hadd) ?_⟩
      · simp only [read, hnz, he, hlt, hgt, ↓reduceIte, Bool.false_eq_true]
        rw [memcpy_of_le _ _ _ (by dsimp only; omega), arc_of_le (by omega)]
        rfl
      · have hne : s.dwReadpos + dwNum ≠ s.dwWritepos := by
          intro hh
          rw [hh] at hadd
          omega
        have hnlt : ¬ s.dwReadpos + dwNum < s.dwWritepos := by
          rw [BitVec.lt_def]
          omega
        rw [hafter, hcount, if_neg hne, if_neg hnlt]
        omega
    -- It goes on at the start of the ring.
    · have hgt' : (s.dwBufsize - s.dwReadpos).toNat ≤ dwNum.toNat := by bv_omega
      have hsub : (dwNum - (s.dwBufsize - s.dwReadpos)).toNat =
          dwNum.toNat-(s.dwBufsize.toNat-s.dwReadpos.toNat) := by
        bv_omega
      refine ⟨dwNum - (s.dwBufsize - s.dwReadpos), ?_, afterRead_spec s h _ dwNum.toNat hpos hle
        (by omega) (Or.inr (by omega)) ?_⟩
      · simp only [read, hnz, he, hlt, hgt, ↓reduceIte, Bool.false_eq_true]
        rw [memcpy_of_le _ _ _ (by dsimp only; omega), memcpy_of_le _ _ _ (by dsimp only; omega),
          arc_of_ge hr (by omega) (by omega), hleft, hsub]
        simp only [Option.bind_eq_bind, Option.bind_some, afterRead]
        rw [show s.dwBufsize - s.dwReadpos + (dwNum - (s.dwBufsize - s.dwReadpos)) = dwNum by
          bv_omega, List.map_append]
      · rw [hafter, hcount]
        split
        · bv_omega
        · split <;> bv_omega

/-- What the ring promises in every state between two operations. -/
structure FifoView (s : RecvSock) : Prop where
  empty_iff : s.bEmpty = true ↔ s.unread = []
  offered_add : s.offered+s.unread.length = s.dwBufsize.toNat
  receive_appends : ∀ bytes : List Byte, bytes ≠ [] → bytes.length ≤ s.offered →
    (s.receive bytes).unread = s.unread ++ bytes
  receive_keeps : ∀ bytes : List Byte, bytes ≠ [] → bytes.length ≤ s.offered →
    ∀ i ∈ s.unreadCells, (s.receive bytes).buf i = s.buf i
  read_takes : ∀ dwNum : DWORD, 0 < dwNum.toNat → dwNum.toNat ≤ s.unread.length →
    ∃ t, s.read dwNum = some (dwNum, s.unread.take dwNum.toNat, t) ∧
      t.unread = s.unread.drop dwNum.toNat

theorem RingInv.fifoView {s : RecvSock} (h : RingInv s) : FifoView s := by
  have hp := h.toPosInv
  refine ⟨bEmpty_iff_unread s hp, ?_, ?_, ?_, ?_⟩
  · have hn := unreadCount_le s hp
    rw [offered_eq s h, length_unread s hp]
    omega
  · intro bytes hne hle
    exact (receive_spec s h bytes hne hle).2.1
  · intro bytes hne hle i hi
    rw [unreadCells_eq_arc s hp] at hi
    exact (receive_spec s h bytes hne hle).2.2.2 i hi
  · intro dwNum hpos hle
    rw [length_unread s hp] at hle
    obtain ⟨r, hread, _, hdrop⟩ := read_spec s hp dwNum hpos hle
    exact ⟨_, hread, hdrop⟩

/-- One receive within the space offered, or one `Read` of received bytes. -/
inductive RingStep : RecvSock → BoundedFifo.Op Byte → List Byte → RecvSock → Prop
  | receive (s : RecvSock) (bytes : List Byte) : bytes ≠ [] → bytes.length ≤ s.offered →
      RingStep s (.push bytes) [] (s.receive bytes)
  | read {s t : RecvSock} {dwNum n : DWORD} {bytes : List Byte} : 0 < dwNum.toNat →
      dwNum.toNat ≤ s.unread.length → s.read dwNum = some (n, bytes, t) →
      RingStep s (.pop dwNum.toNat) bytes t

inductive RingRun (s : RecvSock) : List (BoundedFifo.Op Byte) → List Byte → RecvSock → Prop
  | nil : RingRun s [] [] s
  | snoc {t u : RecvSock} {ops : List (BoundedFifo.Op Byte)} {op : BoundedFifo.Op Byte}
      {out bytes : List Byte} :
      RingRun s ops out t → RingStep t op bytes u → RingRun s (ops ++ [op]) (out ++ bytes) u

theorem RingStep.simulates {s t : RecvSock} {op : BoundedFifo.Op Byte} {bytes : List Byte}
    (h : RingInv s) (hs : RingStep s op bytes t) :
    RingInv t ∧ t.dwBufsize = s.dwBufsize ∧
      BoundedFifo.Step s.dwBufsize.toNat s.unread op bytes t.unread := by
  have hv := h.fifoView
  cases hs with
  | receive bytes hne hle =>
    obtain ⟨ht, hu, _⟩ := receive_spec s h bytes hne hle
    obtain ⟨w, hrun, _⟩ := receive_shape s h bytes hne hle
    have hadd := hv.offered_add
    refine ⟨ht, by rw [hrun], ?_⟩
    rw [hu]
    exact .push _ _ hne (by omega)
  | read hpos hle hread =>
    obtain ⟨r, hr, ht, hdrop⟩ := read_spec s h.toPosInv _ hpos
      (by rwa [length_unread s h.toPosInv] at hle)
    rw [hread] at hr
    simp only [Option.some.injEq, Prod.mk.injEq] at hr
    obtain ⟨-, rfl, rfl⟩ := hr
    refine ⟨ht, rfl, ?_⟩
    rw [hdrop]
    exact .pop _ _ hpos hle

theorem RingRun.simulates {s t : RecvSock} {ops : List (BoundedFifo.Op Byte)} {out : List Byte}
    (h : RingInv s) (hr : RingRun s ops out t) :
    RingInv t ∧ t.dwBufsize = s.dwBufsize ∧
      BoundedFifo.Run s.dwBufsize.toNat s.unread ops out t.unread := by
  induction hr with
  | nil => exact ⟨h, rfl, .nil _⟩
  | snoc _ hs ih =>
    obtain ⟨hi, hB, hrun⟩ := ih
    obtain ⟨hu, hB', hstep⟩ := hs.simulates hi
    exact ⟨hu, hB'.trans hB, hrun.snoc (hB ▸ hstep)⟩

/-- The receive ring refines a bounded byte FIFO: from Init, through the first
AcceptEx fill and any receives and reads, the unread bytes follow the FIFO and
every state keeps the promises of `FifoView`. -/
theorem recv_ring_refines_fifo (g : RecvSock) (_Bufsize : DWORD) :
    (FifoView (g.init _Bufsize) ∧ (g.init _Bufsize).unread = []) ∧
    ∀ fill : List Byte, fill ≠ [] → fill.length+64 ≤ _Bufsize.toNat →
      ((g.init _Bufsize).acceptFill fill).unread = fill ∧
      ∀ ops out s, RingRun ((g.init _Bufsize).acceptFill fill) ops out s →
        FifoView s ∧ BoundedFifo.Run _Bufsize.toNat fill ops out s.unread ∧
          fill ++ ops.flatMap BoundedFifo.Op.input = out ++ s.unread := by
  refine ⟨⟨(init_inv g _Bufsize).fifoView, rfl⟩, ?_⟩
  intro fill hne hle
  obtain ⟨hinv, hu, hB, _⟩ := acceptFill_spec g (g.init _Bufsize) _Bufsize INVALID_SOCKET rfl fill
    hne (by omega)
  refine ⟨hu, ?_⟩
  intro ops out s hr
  obtain ⟨hs, _, hrun⟩ := hr.simulates hinv
  rw [hu, hB] at hrun
  exact ⟨hs.fifoView, hrun, hrun.conserves⟩

theorem recv_ring_three_bytes : ∃ s,
    RingRun ((zeroed.init 128).acceptFill [1, 2, 3]) [.pop 2] [1, 2] s ∧ FifoView s ∧
      BoundedFifo.Run 128 [1, 2, 3] [.pop 2] [1, 2] s.unread := by
  obtain ⟨s, hs⟩ : ∃ s, ((zeroed.init 128).acceptFill [1, 2, 3]).read 2 = some (2, [1, 2], s) :=
    ⟨_, rfl⟩
  have hrun := RingRun.snoc .nil (RingStep.read (by decide) (by decide) hs)
  have hview := (recv_ring_refines_fifo zeroed 128).2 [1, 2, 3] (by decide) (by decide)
  exact ⟨s, hrun, (hview.2 _ _ _ hrun).1, (hview.2 _ _ _ hrun).2.1⟩

end RecvSock

end CustomersCard
