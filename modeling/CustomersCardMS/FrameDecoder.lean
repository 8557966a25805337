import CustomersCardMS.FrameFormat

namespace CustomersCard
open Circular

namespace RecvSock

/-- The six bytes taken as the header, received or not. -/
def headerBytes (s : RecvSock) : List Byte :=
  (arc s.dwBufsize.toNat s.dwReadpos.toNat 6).map s.buf

def headerLength (s : RecvSock) : DWORD := frameLength s.headerBytes

theorem headerBytes_getD (s : RecvSock) (i : ℕ) (hi : i < 6) :
    s.headerBytes.getD i 0 = s.buf (wrap s.dwBufsize.toNat s.dwReadpos.toNat i) := by
  have hlen : i < s.headerBytes.length := by simpa [headerBytes] using hi
  rw [List.getD_eq_getElem _ _ hlen]
  simp [headerBytes]

theorem unread_getD (s : RecvSock) (h : PosInv s) (i : ℕ) (hi : i < s.unreadCount) :
    s.unread.getD i 0 = s.buf (wrap s.dwBufsize.toNat s.dwReadpos.toNat i) := by
  have hlen : i < s.unread.length := by rw [length_unread s h]; exact hi
  rw [List.getD_eq_getElem _ _ hlen]
  simp only [unread_eq_arc s h, List.getElem_map, getElem_arc]

/-- A header that has arrived is the start of the unread bytes. -/
theorem header_unread (s : RecvSock) (h : PosInv s) (h6 : 6 ≤ s.unreadCount) :
    (frameMagic s.unread ↔ frameMagic s.headerBytes) ∧ frameLength s.unread = s.headerLength := by
  have hget (i : ℕ) (hi : i < 6) : s.unread.getD i 0 = s.headerBytes.getD i 0 := by
    rw [unread_getD s h i (by omega), headerBytes_getD s i hi]
  unfold frameMagic headerLength frameLength
  rw [hget 0 (by omega), hget 1 (by omega), hget 2 (by omega), hget 3 (by omega),
    hget 4 (by omega), hget 5 (by omega)]
  exact ⟨Iff.rfl, rfl⟩

theorem fetch_of_lt (s : RecvSock) (i : ℕ) (h : i < s.dwBufsize.toNat) :
    s.fetch i = some (s.buf i) := if_pos h

theorem fetch_of_ge (s : RecvSock) (i : ℕ) (h : s.dwBufsize.toNat ≤ i) : s.fetch i = none :=
  if_neg (by omega)

theorem fetchINT_of_le (s : RecvSock) (off : ℕ) (h : off+4 ≤ s.dwBufsize.toNat) :
    s.fetchINT off =
      some (leWord (s.buf off) (s.buf (off+1)) (s.buf (off+2)) (s.buf (off+3))) := by
  unfold fetchINT
  rw [fetch_of_lt s _ (by omega), fetch_of_lt s _ (by omega), fetch_of_lt s _ (by omega),
    fetch_of_lt s _ (by omega)]
  rfl

theorem csumFrom_of_le (s : RecvSock) (addr n : ℕ) (acc : Byte)
    (h : addr+n ≤ s.dwBufsize.toNat) :
    s.csumFrom addr n acc = some (((List.range' addr n).map s.buf).foldl (· + ·) acc) := by
  induction n generalizing addr acc with
  | zero => rfl
  | succ n ih =>
    rw [csumFrom, fetch_of_lt s addr (by omega)]
    simp only [Option.bind_eq_bind, Option.bind_some]
    rw [ih (addr+1) _ (by omega), List.range'_succ]
    rfl

theorem csum_of_le (s : RecvSock) (addr : ℕ) (count : DWORD)
    (h : addr+count.toNat ≤ s.dwBufsize.toNat) (hc : count.toNat < 2^31) :
    s.csum addr count = some { s with
      sum := ((List.range' addr count.toNat).map s.buf).foldl (· + ·) s.sum } := by
  have hint : count.toInt.toNat = count.toNat := by
    rw [BitVec.toInt_eq_toNat_cond, if_pos (by omega)]
    exact Int.toNat_natCast _
  unfold csum
  rw [hint, csumFrom_of_le s addr _ _ h]
  rfl

theorem csum_of_neg (s : RecvSock) (addr : ℕ) (count : DWORD) (hc : 2^31 ≤ count.toNat) :
    s.csum addr count = some s := by
  have hlt := count.isLt
  have hint : count.toInt.toNat = 0 := by
    rw [BitVec.toInt_eq_toNat_cond, if_neg (by omega)]
    omega
  unfold csum
  rw [hint]
  rfl

section Header

/-- Where the header is contiguous both paths read its bytes one by one. -/
theorem header_fetch (s : RecvSock) (hR : s.dwReadpos.toNat+6 ≤ s.dwBufsize.toNat) :
    s.fetch s.dwReadpos.toNat = some (s.headerBytes.getD 0 0) ∧
      s.fetch (s.dwReadpos + 1).toNat = some (s.headerBytes.getD 1 0) ∧
      s.fetchINT (s.dwReadpos.toNat + 2) = some s.headerLength := by
  have hlim := s.dwBufsize.isLt
  have h1 : (s.dwReadpos + 1).toNat = s.dwReadpos.toNat+1 := by bv_omega
  rw [h1, fetch_of_lt s _ (by omega), fetch_of_lt s _ (by omega), fetchINT_of_le s _ (by omega)]
  have hget (i : ℕ) (hi : i < 6) : s.headerBytes.getD i 0 = s.buf (s.dwReadpos.toNat+i) := by
    rw [headerBytes_getD s i hi, wrap_of_lt (by omega)]
  unfold headerLength frameLength
  rw [hget 0 (by omega), hget 1 (by omega), hget 2 (by omega), hget 3 (by omega),
    hget 4 (by omega), hget 5 (by omega)]
  exact ⟨rfl, rfl, rfl⟩

theorem subchar_eq (s : RecvSock) (hR : s.dwReadpos.toNat ≤ s.dwBufsize.toNat)
    (hl : s.dwBufsize.toNat-s.dwReadpos.toNat < 6) (hB : 6 ≤ s.dwBufsize.toNat) :
    s.subchar (s.dwBufsize - s.dwReadpos) = some s.headerBytes := by
  have hleft : (s.dwBufsize - s.dwReadpos).toNat = s.dwBufsize.toNat-s.dwReadpos.toNat := by
    bv_omega
  have hrest : (6 - (s.dwBufsize - s.dwReadpos)).toNat =
      6-(s.dwBufsize.toNat-s.dwReadpos.toNat) := by
    bv_omega
  unfold subchar headerBytes
  rw [hleft, hrest, memcpy_of_le _ _ _ (by omega), memcpy_of_le _ _ _ (by omega),
    arc_of_ge hR (by omega) hB, List.map_append]
  rfl

variable (s : RecvSock) (h : PosInv s)
include h

theorem contiguous_eq (hlt : s.dwReadpos.toNat < s.dwWritepos.toNat)
    (hn : s.unreadCount = s.dwWritepos.toNat-s.dwReadpos.toNat) (h6 : 6 ≤ s.unreadCount) :
    s.cmdLengthContiguous = if ¬ frameMagic s.headerBytes then some (0, s.closeSock)
      else if s.unreadCount < (s.headerLength + 8).toNat then some (0, s)
      else s.frameContiguous s.headerLength := by
  have hw := h.write_le
  have hnum : (s.dwWritepos - s.dwReadpos).toNat = s.unreadCount := by bv_omega
  have hlow : ¬ s.dwWritepos - s.dwReadpos < 6 := by
    rw [BitVec.lt_def, hnum]
    exact Nat.not_lt.mpr h6
  obtain ⟨hm0, hm1, hL⟩ := header_fetch s (by omega)
  unfold cmdLengthContiguous frameMagic
  simp only [hlow, ↓reduceIte, hm0, hm1, hL, Option.bind_eq_bind, Option.bind_some,
    gt_iff_lt, BitVec.lt_def, hnum, not_and_or, ne_eq]

theorem headerSplit_eq
    (hn : s.unreadCount = s.dwBufsize.toNat-s.dwReadpos.toNat+s.dwWritepos.toNat)
    (hl : s.dwBufsize.toNat-s.dwReadpos.toNat < 6) (hB : 6 ≤ s.dwBufsize.toNat) :
    s.cmdLengthHeaderSplit = if ¬ frameMagic s.headerBytes then some (0, s.closeSock)
      else if s.unreadCount < (s.headerLength + 8).toNat then
        some (0, if s.bFull then s.closeSock else s)
      else s.frameHeaderSplit s.headerLength := by
  have hr := h.read_le
  have hcount := unreadCount_le s h
  have hnum : (s.dwBufsize - s.dwReadpos + s.dwWritepos).toNat = s.unreadCount := by
    rw [BitVec.toNat_add, BitVec.toNat_sub_of_le (BitVec.le_def.mpr h.read_le), ← hn,
      Nat.mod_eq_of_lt (lt_of_le_of_lt hcount s.dwBufsize.isLt)]
  unfold cmdLengthHeaderSplit frameMagic
  simp only [subchar_eq s hr hl hB, Option.bind_eq_bind, Option.bind_some, gt_iff_lt,
    BitVec.lt_def, hnum, not_and_or, ne_eq]
  rfl

theorem payloadSplit_eq
    (hn : s.unreadCount = s.dwBufsize.toNat-s.dwReadpos.toNat+s.dwWritepos.toNat)
    (hl : 6 ≤ s.dwBufsize.toNat-s.dwReadpos.toNat) :
    s.cmdLengthPayloadSplit = if ¬ frameMagic s.headerBytes then some (0, s.closeSock)
      else if s.unreadCount < (s.headerLength + 8).toNat then
        some (0, if s.bFull then s.closeSock else s)
      else s.framePayloadSplit s.headerLength := by
  have hcount := unreadCount_le s h
  have hnum : (s.dwBufsize - s.dwReadpos + s.dwWritepos).toNat = s.unreadCount := by
    rw [BitVec.toNat_add, BitVec.toNat_sub_of_le (BitVec.le_def.mpr h.read_le), ← hn,
      Nat.mod_eq_of_lt (lt_of_le_of_lt hcount s.dwBufsize.isLt)]
  obtain ⟨hm0, hm1, hL⟩ := header_fetch s (by omega)
  unfold cmdLengthPayloadSplit frameMagic
  simp only [hm0, hm1, hL, Option.bind_eq_bind, Option.bind_some, gt_iff_lt,
    BitVec.lt_def, hnum, not_and_or, ne_eq]

end Header

section Frame

variable (s : RecvSock) (h : PosInv s)
include h

theorem payload_arc (hfit : s.headerLength.toNat+8 ≤ s.unreadCount) (r : ℕ)
    (hf : Follows s.dwBufsize.toNat s.dwReadpos.toNat 6 r) :
    framePayload s.unread = (arc s.dwBufsize.toNat r s.headerLength.toNat).map s.buf := by
  have hcount := unreadCount_le s h
  unfold framePayload
  rw [(header_unread s h (by omega)).2, unread_eq_arc s h, ← List.map_drop,
    drop_arc h.read_le hf (by omega) hcount, ← List.map_take, take_arc (by omega)]

/-- The state of the decoder behind the checksum and behind the header. -/
def checked (s : RecvSock) (r : DWORD) : RecvSock :=
  { s with sum := byteSum (framePayload s.unread), dwReadpos := r }

/-- The verdict on a complete frame. All three paths reach it. -/
def FrameVerdict (s : RecvSock) (res : Option (DWORD × RecvSock)) : Prop :=
  ∃ r : DWORD, r.toNat ≤ s.dwBufsize.toNat ∧
    Follows s.dwBufsize.toNat s.dwReadpos.toNat 6 r.toNat ∧
    res = if frameChecks s.unread then some (s.headerLength + 2, s.checked r)
      else some (0, (s.checked s.dwReadpos).closeSock)

theorem checks_iff (hfit : s.headerLength.toNat+8 ≤ s.unreadCount) :
    frameChecks s.unread ↔
      s.buf (wrap s.dwBufsize.toNat s.dwReadpos.toNat (6+s.headerLength.toNat)) =
          byteSum (framePayload s.unread) ∧
        s.buf (wrap s.dwBufsize.toNat s.dwReadpos.toNat (7+s.headerLength.toNat)) = 0x0d := by
  unfold frameChecks
  rw [(header_unread s h (by omega)).2, unread_getD s h _ (by omega),
    unread_getD s h _ (by omega)]

omit h in
theorem checks_ite {α : Type} (nSum tail σ : Byte) (x y : α) :
    (if nSum ≠ σ then x else if 0x0d ≠ tail then x else y) =
      if nSum = σ ∧ tail = 0x0d then y else x := by
  by_cases h1 : nSum = σ
  · rcases eq_or_ne tail 0x0d with rfl | h2
    · simp [h1]
    · rw [if_neg (not_not.mpr h1), if_pos (Ne.symm h2), if_neg (fun hh => h2 hh.2)]
  · simp [h1]

theorem frameContiguous_verdict (hsum : s.sum = 0) (hB : s.dwBufsize.toNat < 2^31)
    (hlt : s.dwReadpos.toNat < s.dwWritepos.toNat)
    (hn : s.unreadCount = s.dwWritepos.toNat-s.dwReadpos.toNat)
    (hfit : s.headerLength.toNat+8 ≤ s.unreadCount) :
    FrameVerdict s (s.frameContiguous s.headerLength) := by
  have hw := h.write_le
  have hr : (s.dwReadpos + 6).toNat = s.dwReadpos.toNat+6 := by bv_omega
  have hi : (s.dwReadpos + 6 + s.headerLength).toNat =
      s.dwReadpos.toNat+(6+s.headerLength.toNat) := by bv_omega
  have ht : (s.dwReadpos + s.headerLength + 7).toNat =
      s.dwReadpos.toNat+(7+s.headerLength.toNat) := by bv_omega
  have hpay := payload_arc s h hfit (s.dwReadpos.toNat+6) (Or.inl rfl)
  rw [arc_of_le (by omega)] at hpay
  have hcsum : s.csum (s.dwReadpos.toNat+6) s.headerLength = some (s.checked s.dwReadpos) := by
    rw [csum_of_le s _ _ (by omega) (by omega), hsum]
    unfold checked
    rw [hpay]
    rfl
  have htail : (s.checked s.dwReadpos).fetch (s.dwReadpos + s.headerLength + 7).toNat =
      some (s.buf (s.dwReadpos.toNat+(7+s.headerLength.toNat))) := by
    rw [ht]
    exact fetch_of_lt s _ (by omega)
  have hchecks := checks_iff s h hfit
  rw [wrap_of_lt (by omega), wrap_of_lt (by omega)] at hchecks
  refine ⟨s.dwReadpos + 6, by omega, Or.inl hr, ?_⟩
  unfold frameContiguous
  rw [hi, fetch_of_lt s _ (by omega), hcsum]
  simp only [Option.bind_eq_bind, Option.bind_some]
  change (if _ ≠ (s.checked s.dwReadpos).sum then _ else
    Option.bind ((s.checked s.dwReadpos).fetch (s.dwReadpos + s.headerLength + 7).toNat) _) = _
  rw [htail, Option.bind_some, checks_ite]
  simp only [hchecks]
  rfl

theorem frameHeaderSplit_verdict (hsum : s.sum = 0) (hB : s.dwBufsize.toNat < 2^31)
    (hle : s.dwWritepos.toNat ≤ s.dwReadpos.toNat)
    (hn : s.unreadCount = s.dwBufsize.toNat-s.dwReadpos.toNat+s.dwWritepos.toNat)
    (hl : s.dwBufsize.toNat-s.dwReadpos.toNat < 6)
    (hfit : s.headerLength.toNat+8 ≤ s.unreadCount) :
    FrameVerdict s (s.frameHeaderSplit s.headerLength) := by
  have hr := h.read_le
  have hw := h.write_le
  have hr6 : (s.dwReadpos + 6).toNat = s.dwReadpos.toNat+6 := by
    rw [BitVec.toNat_add, show (6 : DWORD).toNat = 6 from rfl, Nat.mod_eq_of_lt (by omega)]
  have hidx : (s.dwReadpos + 6 - s.dwBufsize).toNat = s.dwReadpos.toNat+6-s.dwBufsize.toNat := by
    bv_omega
  have hi : (s.dwReadpos + 6 - s.dwBufsize + s.headerLength).toNat =
      s.dwReadpos.toNat+(6+s.headerLength.toNat)-s.dwBufsize.toNat := by
    rw [BitVec.toNat_add, hidx, Nat.mod_eq_of_lt (by omega)]
    omega
  have ht : (s.dwReadpos + 6 - s.dwBufsize + s.headerLength + 1).toNat =
      s.dwReadpos.toNat+(7+s.headerLength.toNat)-s.dwBufsize.toNat := by
    rw [BitVec.toNat_add, hi, show (1 : DWORD).toNat = 1 from rfl, Nat.mod_eq_of_lt (by omega)]
    omega
  have hfol : Follows s.dwBufsize.toNat s.dwReadpos.toNat 6
      (s.dwReadpos.toNat+6-s.dwBufsize.toNat) := Or.inr (by omega)
  have hpay := payload_arc s h hfit _ hfol
  rw [arc_of_le (by omega)] at hpay
  have hcsum : s.csum (s.dwReadpos + 6 - s.dwBufsize).toNat s.headerLength =
      some (s.checked s.dwReadpos) := by
    rw [hidx, csum_of_le s _ _ (by omega) (by omega), hsum]
    unfold checked
    rw [hpay]
    rfl
  have htail : (s.checked s.dwReadpos).fetch
      (s.dwReadpos + 6 - s.dwBufsize + s.headerLength + 1).toNat =
        some (s.buf (s.dwReadpos.toNat+(7+s.headerLength.toNat)-s.dwBufsize.toNat)) := by
    rw [ht]
    exact fetch_of_lt s _ (by omega)
  have hchecks := checks_iff s h hfit
  rw [wrap_of_ge (by omega), wrap_of_ge (by omega)] at hchecks
  have hskip : (if s.dwReadpos + 6 > s.dwBufsize then s.dwReadpos + 6 - s.dwBufsize
      else s.dwReadpos + 6).toNat = s.dwReadpos.toNat+6-s.dwBufsize.toNat := by
    rw [if_pos (BitVec.lt_def.mpr (by rw [hr6]; omega))]
    exact hidx
  refine ⟨_, by rw [hskip]; omega, by rw [hskip]; exact hfol, ?_⟩
  unfold frameHeaderSplit
  simp only [Option.bind_eq_bind]
  rw [hi, fetch_of_lt s _ (by omega), hcsum]
  simp only [Option.bind_some]
  rw [htail, Option.bind_some, checks_ite]
  simp only [hchecks]
  rfl

omit h in
theorem wrapIndex_toNat (i : DWORD) (j : ℕ) (hi : i.toNat = s.dwReadpos.toNat+j) :
    (s.wrapIndex i).toNat = wrap s.dwBufsize.toNat s.dwReadpos.toNat j := by
  unfold wrapIndex wrap
  rw [← hi]
  by_cases hge : i ≥ s.dwBufsize
  · rw [if_pos hge, if_neg (by bv_omega)]
    bv_omega
  · rw [if_neg hge, if_pos (by bv_omega)]

omit h in
/-- A checksum that crosses the end of the ring is taken in two segments. -/
theorem csumSplit_of_le (hB : s.dwBufsize.toNat < 2^31) (L : DWORD) (hsum : s.sum = 0)
    (hl : 6 ≤ s.dwBufsize.toNat-s.dwReadpos.toNat)
    (hfit : L.toNat+8 ≤ s.dwBufsize.toNat) :
    s.csumSplit L = some { s with
      sum := byteSum ((arc s.dwBufsize.toNat (s.dwReadpos.toNat+6) L.toNat).map s.buf) } := by
  have hlim := s.dwBufsize.isLt
  have hleft : (s.dwBufsize - s.dwReadpos).toNat = s.dwBufsize.toNat-s.dwReadpos.toNat := by
    bv_omega
  have hL6 : (L + 6).toNat = L.toNat+6 := by
    rw [BitVec.toNat_add, show (6 : DWORD).toNat = 6 from rfl, Nat.mod_eq_of_lt (by omega)]
  unfold csumSplit
  by_cases hgt : L + 6 > s.dwBufsize - s.dwReadpos
  · have hgt' := BitVec.lt_def.mp hgt
    rw [hleft, hL6] at hgt'
    have hc1 : (s.dwBufsize - s.dwReadpos - 6).toNat =
        s.dwBufsize.toNat-(s.dwReadpos.toNat+6) := by
      rw [BitVec.toNat_sub_of_le (by rw [BitVec.le_def, hleft]; exact hl), hleft,
        show (6 : DWORD).toNat = 6 from rfl]
      omega
    have hc2 : (L - (s.dwBufsize - s.dwReadpos) + 6).toNat =
        L.toNat-(s.dwBufsize.toNat-(s.dwReadpos.toNat+6)) := by
      rw [BitVec.toNat_add, BitVec.toNat_sub, hleft, show (6 : DWORD).toNat = 6 from rfl]
      omega
    rw [if_pos hgt, csum_of_le s _ _ (by omega) (by omega), Option.bind_eq_bind, Option.bind_some,
      csum_of_le _ _ _ (by dsimp only; omega) (by omega), hc1, hc2, hsum,
      arc_of_ge (by omega) (by omega) (by omega), List.map_append]
    simp only [byteSum, List.foldl_append]
  · have hgt' := mt BitVec.lt_def.mpr hgt
    rw [hleft, hL6] at hgt'
    rw [if_neg hgt, csum_of_le s _ _ (by omega) (by omega), hsum, arc_of_le (by omega)]
    rfl

theorem framePayloadSplit_verdict (hsum : s.sum = 0) (hB : s.dwBufsize.toNat < 2^31)
    (hl : 6 ≤ s.dwBufsize.toNat-s.dwReadpos.toNat)
    (hfit : s.headerLength.toNat+8 ≤ s.unreadCount) :
    FrameVerdict s (s.framePayloadSplit s.headerLength) := by
  have hcount := unreadCount_le s h
  have hr6 : (s.dwReadpos + 6).toNat = s.dwReadpos.toNat+6 := by bv_omega
  have hi := wrapIndex_toNat s (s.dwReadpos + 6 + s.headerLength) (6+s.headerLength.toNat)
    (by bv_omega)
  have ht := wrapIndex_toNat s (s.dwReadpos + s.headerLength + 7) (7+s.headerLength.toNat)
    (by bv_omega)
  have hcsum := csumSplit_of_le s hB s.headerLength hsum hl (by omega)
  rw [← payload_arc s h hfit _ (Or.inl rfl)] at hcsum
  have htail : (s.checked s.dwReadpos).fetch
      (s.wrapIndex (s.dwReadpos + s.headerLength + 7)).toNat =
        some (s.buf (wrap s.dwBufsize.toNat s.dwReadpos.toNat (7+s.headerLength.toNat))) := by
    rw [ht]
    exact fetch_of_lt s _ (wrap_lt h.read_le (by omega))
  have hchecks := checks_iff s h hfit
  have hskip : (if s.dwReadpos + 6 > s.dwBufsize then s.dwReadpos + 6 - s.dwBufsize
      else s.dwReadpos + 6).toNat = s.dwReadpos.toNat+6 := by
    rw [if_neg (fun hg => by have := BitVec.lt_def.mp hg; omega)]
    exact hr6
  refine ⟨_, by rw [hskip]; omega, by rw [hskip]; exact Or.inl rfl, ?_⟩
  unfold framePayloadSplit
  simp only [Option.bind_eq_bind]
  rw [hi, fetch_of_lt s _ (wrap_lt h.read_le (by omega)), hcsum]
  simp only [Option.bind_some]
  change (if _ ≠ (s.checked s.dwReadpos).sum then _ else Option.bind ((s.checked s.dwReadpos).fetch
    (s.wrapIndex (s.dwReadpos + s.headerLength + 7)).toNat) _) = _
  rw [htail, Option.bind_some, checks_ite]
  simp only [hchecks]
  rfl

end Frame

/-- The three ways to address the rest of a frame whose header has been read. -/
def framePath (s : RecvSock) (dwFrameLen : DWORD) : Option (DWORD × RecvSock) :=
  if s.dwWritepos > s.dwReadpos then s.frameContiguous dwFrameLen
  else if s.dwBufsize - s.dwReadpos < 6 then s.frameHeaderSplit dwFrameLen
  else s.framePayloadSplit dwFrameLen

/-- `sum = 0;` -/
def zeroSum (s : RecvSock) : RecvSock := { s with sum := 0 }

theorem RingInv.zeroSum {s : RecvSock} (h : RingInv s) : RingInv s.zeroSum :=
  ⟨⟨h.read_le, h.write_le, h.empty, h.write_pos⟩, h.full⟩

theorem unreadCount_nonempty (s : RecvSock) (he : s.bEmpty = false) :
    s.unreadCount = if s.dwReadpos.toNat < s.dwWritepos.toNat then
      s.dwWritepos.toNat-s.dwReadpos.toNat
      else s.dwBufsize.toNat-s.dwReadpos.toNat+s.dwWritepos.toNat := by
  unfold unreadCount
  simp only [he, Bool.false_eq_true, ↓reduceIte, BitVec.lt_def]

theorem getCmdDataLength_nonempty (s : RecvSock) (he : s.bEmpty = false) :
    s.getCmdDataLength = if s.dwWritepos > s.dwReadpos then s.zeroSum.cmdLengthContiguous
      else if s.dwBufsize - s.dwReadpos < 6 then s.zeroSum.cmdLengthHeaderSplit
      else s.zeroSum.cmdLengthPayloadSplit := by
  unfold getCmdDataLength
  exact if_neg (by simp [he])

theorem notFull_of_lt (s : RecvSock) (h : RingInv s)
    (hlt : s.dwReadpos.toNat < s.dwWritepos.toNat) : s.bFull = false := by
  by_contra hf
  have heq := (h.full.mp (by simpa using hf)).2
  rw [heq] at hlt
  omega

/-- GetCmdDataLength once six bytes are taken as the header: the three paths
agree up to the addressing of the frame's rest. -/
theorem getCmdDataLength_eq (s : RecvSock) (h : RingInv s) (he : s.bEmpty = false)
    (hB : 6 ≤ s.dwBufsize.toNat)
    (hh : s.dwReadpos.toNat < s.dwWritepos.toNat → 6 ≤ s.unreadCount) :
    s.getCmdDataLength = if ¬ frameMagic s.headerBytes then some (0, s.zeroSum.closeSock)
      else if s.unreadCount < (s.headerLength + 8).toNat then
        some (0, if s.bFull then s.zeroSum.closeSock else s.zeroSum)
      else s.zeroSum.framePath s.headerLength := by
  have hz := h.zeroSum.toPosInv
  have hcount : s.zeroSum.unreadCount = _ := unreadCount_nonempty s he
  have hr := h.read_le
  rw [getCmdDataLength_nonempty s he]
  by_cases hlt : s.dwReadpos.toNat < s.dwWritepos.toNat
  · rw [if_pos hlt] at hcount
    have hgt : s.dwWritepos > s.dwReadpos := BitVec.lt_def.mpr hlt
    have hpath : s.zeroSum.framePath s.headerLength = s.zeroSum.frameContiguous s.headerLength :=
      if_pos hgt
    rw [if_pos hgt, contiguous_eq s.zeroSum hz hlt hcount (hh hlt), hpath, notFull_of_lt s h hlt]
    rfl
  · rw [if_neg hlt] at hcount
    have hngt : ¬ s.dwWritepos > s.dwReadpos := fun hg => hlt (BitVec.lt_def.mp hg)
    rw [if_neg hngt]
    by_cases hl : s.dwBufsize - s.dwReadpos < 6
    · have hpath : s.zeroSum.framePath s.headerLength =
          s.zeroSum.frameHeaderSplit s.headerLength := (if_neg hngt).trans (if_pos hl)
      have hl' : s.dwBufsize.toNat-s.dwReadpos.toNat < 6 := by bv_omega
      rw [if_pos hl, headerSplit_eq s.zeroSum hz hcount hl' hB, hpath]
      rfl
    · have hpath : s.zeroSum.framePath s.headerLength =
          s.zeroSum.framePayloadSplit s.headerLength := (if_neg hngt).trans (if_neg hl)
      have hl' : 6 ≤ s.dwBufsize.toNat-s.dwReadpos.toNat := by bv_omega
      rw [if_neg hl, payloadSplit_eq s.zeroSum hz hcount hl', hpath]
      rfl

/-- Fewer than six contiguous bytes are left for the next receive to complete. -/
theorem getCmdDataLength_short (s : RecvSock) (h : RingInv s) (he : s.bEmpty = false)
    (hlt : s.dwReadpos.toNat < s.dwWritepos.toNat) (hn : s.unreadCount < 6) :
    s.getCmdDataLength = some (0, s.zeroSum) := by
  have hcount := unreadCount_nonempty s he
  rw [if_pos hlt] at hcount
  have hw := h.write_le
  have hlow : s.dwWritepos - s.dwReadpos < 6 := by bv_omega
  have hgt : s.dwWritepos > s.dwReadpos := BitVec.lt_def.mpr hlt
  rw [getCmdDataLength_nonempty s he, if_pos hgt]
  exact if_pos hlow

theorem framePath_verdict (s : RecvSock) (h : PosInv s) (he : s.bEmpty = false)
    (hsum : s.sum = 0) (hB : s.dwBufsize.toNat < 2^31)
    (hfit : s.headerLength.toNat+8 ≤ s.unreadCount) :
    FrameVerdict s (s.framePath s.headerLength) := by
  have hcount := unreadCount_nonempty s he
  have hr := h.read_le
  unfold framePath
  by_cases hlt : s.dwReadpos.toNat < s.dwWritepos.toNat
  · rw [if_pos hlt] at hcount
    rw [if_pos (BitVec.lt_def.mpr hlt)]
    exact frameContiguous_verdict s h hsum hB hlt hcount hfit
  · rw [if_neg hlt] at hcount
    rw [if_neg (by rw [gt_iff_lt, BitVec.lt_def]; exact hlt)]
    by_cases hl : s.dwBufsize.toNat-s.dwReadpos.toNat < 6
    · rw [if_pos (by bv_omega)]
      exact frameHeaderSplit_verdict s h hsum hB (by omega) hcount hl hfit
    · rw [if_neg (by bv_omega)]
      exact framePayloadSplit_verdict s h hsum hB (by omega) hfit

/-- Behind the header the unread bytes are the rest of them, also where the
flags have not followed yet. -/
theorem checked_spec (s : RecvSock) (h : PosInv s) (r : DWORD) (hr : r.toNat ≤ s.dwBufsize.toNat)
    (hf : Follows s.dwBufsize.toNat s.dwReadpos.toNat 6 r.toNat) (h6 : 6 < s.unreadCount) :
    PosInv (s.checked r) ∧ (s.checked r).unreadCount = s.unreadCount-6 ∧
      (s.checked r).unread = s.unread.drop 6 := by
  have he : s.bEmpty = false := (unreadCount_pos s h).mp (by omega)
  have hle := unreadCount_le s h
  have hold := unreadCount_follows s h
  rw [show s.unreadCount = 6+(s.unreadCount-6) by omega] at hold
  have hnew := hold.cancel (by omega) h.write_le hf
  have hp : PosInv (s.checked r) := by
    refine ⟨hr, h.write_le, ?_, h.write_pos⟩
    intro hh
    change s.bEmpty = true at hh
    rw [he] at hh
    contradiction
  have hcount : (s.checked r).unreadCount = s.unreadCount-6 :=
    unreadCount_of_follows (s.checked r) he _ (by omega) (by change _ ≤ s.dwBufsize.toNat; omega)
      hr hnew
  refine ⟨hp, hcount, ?_⟩
  rw [unread_eq_arc _ hp, unread_eq_arc s h, ← List.map_drop,
    drop_arc h.read_le hf (by omega) hle, hcount]
  rfl

end RecvSock

end CustomersCard
