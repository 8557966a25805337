import CustomersCardMS.FrameDecoder

namespace CustomersCard
open Circular

namespace RecvSock

/-- The header path: the six header bytes cross the end of the ring. -/
def headerCrosses (s : RecvSock) : Prop :=
  s.dwWritepos.toNat ≤ s.dwReadpos.toNat ∧ s.dwBufsize.toNat-s.dwReadpos.toNat < 6

instance (s : RecvSock) : Decidable s.headerCrosses := inferInstanceAs (Decidable (_ ∧ _))

/-- The decoder takes six bytes as a header and finds the start of a frame. -/
def headerTaken (s : RecvSock) : Prop :=
  s.bEmpty = false ∧ (s.dwReadpos.toNat < s.dwWritepos.toNat → 6 ≤ s.unreadCount) ∧
    frameMagic s.headerBytes

instance (s : RecvSock) : Decidable s.headerTaken := inferInstanceAs (Decidable (_ ∧ _ ∧ _))

/-- `dwFrameLen + 8` wraps to a number of bytes that have been received. -/
def lengthWraps (s : RecvSock) : Prop :=
  s.headerTaken ∧ 2^32 ≤ s.headerLength.toNat+8 ∧ s.headerLength.toNat+8 ≤ 2^32+s.unreadCount

instance (s : RecvSock) : Decidable s.lengthWraps := inferInstanceAs (Decidable (_ ∧ _ ∧ _))

/-- The index of the checksum does not wrap back into the ring. -/
def wrapFault (s : RecvSock) : Prop :=
  s.dwReadpos.toNat+6+s.headerLength.toNat <
    if s.headerCrosses then 2^32+s.dwBufsize.toNat else 2^32

instance (s : RecvSock) : Decidable s.wrapFault := inferInstanceAs (Decidable (_ < _))

/-- What csum adds for a wrapped length: its negative part is empty. -/
def wrapSum (s : RecvSock) : Byte :=
  if s.dwReadpos.toNat < s.dwWritepos.toNat then 0
  else byteSum ((List.range' (s.dwReadpos.toNat+6)
    (s.dwBufsize.toNat-(s.dwReadpos.toNat+6))).map s.buf)

/-- The two bytes before the frame pass for its checksum and terminator. -/
def wrapForged (s : RecvSock) : Prop :=
  ¬ s.headerCrosses ∧ s.headerLength.toNat+8 = 2^32 ∧ 2 ≤ s.dwReadpos.toNat ∧
    s.buf (s.dwReadpos.toNat-2) = s.wrapSum ∧ s.buf (s.dwReadpos.toNat-1) = 0x0d

instance (s : RecvSock) : Decidable s.wrapForged :=
  inferInstanceAs (Decidable (_ ∧ _ ∧ _ ∧ _ ∧ _))

/-- The verdict on a wrapped length. -/
inductive WrapVerdict (s : RecvSock) : Option (DWORD × RecvSock) → Prop
  | fault : s.wrapFault → WrapVerdict s none
  | forged (σ : Byte) : s.wrapForged →
      WrapVerdict s (some (s.headerLength + 2, { s with sum := σ, dwReadpos := s.dwReadpos + 6 }))
  | reject (σ : Byte) : ¬ s.wrapFault → ¬ s.wrapForged →
      WrapVerdict s (some (0, { s with sum := σ, sock := INVALID_SOCKET }))

section Wrap

/-- Every byte of a header with a wrapping length is nonzero. -/
theorem headerBytes_ne_zero (s : RecvSock) (hm : frameMagic s.headerBytes)
    (hL : 2^32 ≤ s.headerLength.toNat+8) (i : ℕ) (hi : i < 6) :
    s.headerBytes.getD i 0 ≠ 0 := by
  obtain ⟨h0, h1⟩ := hm
  unfold headerLength frameLength at hL
  rw [toNat_leWord] at hL
  have h2 := (s.headerBytes.getD 2 0).isLt
  have h3 := (s.headerBytes.getD 3 0).isLt
  have h4 := (s.headerBytes.getD 4 0).isLt
  have h5 := (s.headerBytes.getD 5 0).isLt
  intro hz
  have hz' := congrArg BitVec.toNat hz
  rw [show (0 : Byte).toNat = 0 from rfl] at hz'
  obtain rfl | rfl | hge : i = 0 ∨ i = 1 ∨ 2 ≤ i := by omega
  · rw [h0] at hz
    contradiction
  · rw [h1] at hz
    contradiction
  · obtain rfl | rfl | rfl | rfl : i = 2 ∨ i = 3 ∨ i = 4 ∨ i = 5 := by omega
    all_goals omega

variable (s : RecvSock) (h : PosInv s) (hm : frameMagic s.headerBytes)
  (hL : 2^32 ≤ s.headerLength.toNat+8) (hB : s.dwBufsize.toNat < 2^31)
include h hm hL hB

theorem frameHeaderSplit_wrap (hsum : s.sum = 0) (h6 : 6 ≤ s.dwBufsize.toNat)
    (hc : s.headerCrosses) :
    WrapVerdict s (s.frameHeaderSplit s.headerLength) := by
  have hlt := s.headerLength.isLt
  have hr := h.read_le
  have ⟨hle, hl⟩ := hc
  have hr6 : (s.dwReadpos + 6).toNat = s.dwReadpos.toNat+6 := by
    rw [BitVec.toNat_add, show (6 : DWORD).toNat = 6 from rfl, Nat.mod_eq_of_lt (by omega)]
  have hidx : (s.dwReadpos + 6 - s.dwBufsize).toNat = s.dwReadpos.toNat+6-s.dwBufsize.toNat := by
    bv_omega
  have hcsum : s.csum (s.dwReadpos + 6 - s.dwBufsize).toNat s.headerLength = some s :=
    csum_of_neg s _ _ (by omega)
  have hfault : s.wrapFault ↔
      s.dwReadpos.toNat+6+s.headerLength.toNat < 2^32+s.dwBufsize.toNat := by
    unfold wrapFault
    rw [if_pos hc]
  have hforged : ¬ s.wrapForged := fun hf => hf.1 hc
  unfold frameHeaderSplit
  simp only [Option.bind_eq_bind]
  by_cases hf : s.dwReadpos.toNat+6+s.headerLength.toNat < 2^32+s.dwBufsize.toNat
  · have hi : (s.dwReadpos + 6 - s.dwBufsize + s.headerLength).toNat =
        s.dwReadpos.toNat+6-s.dwBufsize.toNat+s.headerLength.toNat := by
      rw [BitVec.toNat_add, hidx, Nat.mod_eq_of_lt (by omega)]
    rw [hi, fetch_of_ge s _ (by omega)]
    exact .fault (hfault.mpr hf)
  · have hi : (s.dwReadpos + 6 - s.dwBufsize + s.headerLength).toNat =
        s.dwReadpos.toNat+(6+s.headerLength.toNat-2^32)-s.dwBufsize.toNat := by
      rw [BitVec.toNat_add, hidx]
      omega
    -- The checksum is taken from the header itself.
    have hne := headerBytes_ne_zero s hm hL (6+s.headerLength.toNat-2^32) (by omega)
    rw [headerBytes_getD s _ (by omega), wrap_of_ge (by omega)] at hne
    rw [hi, fetch_of_lt s _ (by omega), hcsum]
    simp only [Option.bind_some]
    rw [hsum, if_pos hne]
    exact .reject s.sum (mt hfault.mp hf) hforged

omit h hB in
/-- The six greatest lengths take the checksum from the header itself. -/
theorem wrapped_header (hle : s.dwReadpos.toNat+6 ≤ s.dwBufsize.toNat)
    (h6 : 2^32 ≤ s.headerLength.toNat+6) :
    s.buf (s.dwReadpos.toNat+6+s.headerLength.toNat-2^32) ≠ 0 := by
  have hlt := s.headerLength.isLt
  have hne := headerBytes_ne_zero s hm hL (6+s.headerLength.toNat-2^32) (by omega)
  rw [headerBytes_getD s _ (by omega), wrap_of_lt (by omega)] at hne
  rwa [show s.dwReadpos.toNat+6+s.headerLength.toNat-2^32 =
    s.dwReadpos.toNat+(6+s.headerLength.toNat-2^32) by omega]

omit h hB in
/-- The other two are rejected unless the two bytes before the frame forge them. -/
theorem wrapped_tail (hc : ¬ s.headerCrosses) (hle : s.dwReadpos.toNat+6 ≤ s.dwBufsize.toNat)
    (hf : 2^32 ≤ s.dwReadpos.toNat+6+s.headerLength.toNat)
    (h6 : s.headerLength.toNat+6 < 2^32) :
    WrapVerdict s (if s.buf (s.dwReadpos.toNat+6+s.headerLength.toNat-2^32) = s.wrapSum ∧
        s.buf (s.dwReadpos.toNat+7+s.headerLength.toNat-2^32) = 0x0d then
      some (s.headerLength + 2, { s with sum := s.wrapSum, dwReadpos := s.dwReadpos + 6 })
      else some (0, { s with sum := s.wrapSum, sock := INVALID_SOCKET })) := by
  have hfault : ¬ s.wrapFault := by
    unfold wrapFault
    rw [if_neg hc]
    omega
  have hmagic := hm.1
  rw [headerBytes_getD s 0 (by omega), wrap_of_lt (by omega)] at hmagic
  obtain h7 | h8 : s.headerLength.toNat+7 = 2^32 ∨ s.headerLength.toNat+8 = 2^32 := by omega
  · have hne : s.buf (s.dwReadpos.toNat+7+s.headerLength.toNat-2^32) ≠ 0x0d := by
      rw [show s.dwReadpos.toNat+7+s.headerLength.toNat-2^32 = s.dwReadpos.toNat+0 by omega, hmagic]
      decide
    rw [if_neg (fun hh => hne hh.2)]
    exact .reject _ hfault (fun hw => by have := hw.2.1; omega)
  · rw [show s.dwReadpos.toNat+6+s.headerLength.toNat-2^32 = s.dwReadpos.toNat-2 by omega,
      show s.dwReadpos.toNat+7+s.headerLength.toNat-2^32 = s.dwReadpos.toNat-1 by omega]
    split
    · rename_i hh
      exact .forged _ ⟨hc, h8, by omega, hh⟩
    · rename_i hh
      exact .reject _ hfault (fun hw => hh hw.2.2.2)

theorem frameContiguous_wrap (hsum : s.sum = 0) (hlt : s.dwReadpos.toNat < s.dwWritepos.toNat)
    (h6 : s.dwReadpos.toNat+6 ≤ s.dwWritepos.toNat)
    (hn : s.headerLength.toNat+8+s.dwReadpos.toNat ≤ 2^32+s.dwWritepos.toNat) :
    WrapVerdict s (s.frameContiguous s.headerLength) := by
  have hlim := s.headerLength.isLt
  have hw := h.write_le
  have hc : ¬ s.headerCrosses := fun hc => by have := hc.1; omega
  have hcsum : s.csum (s.dwReadpos.toNat + 6) s.headerLength = some s :=
    csum_of_neg s _ _ (by omega)
  have hr6 : (s.dwReadpos + 6).toNat = s.dwReadpos.toNat+6 := by
    rw [BitVec.toNat_add, show (6 : DWORD).toNat = 6 from rfl, Nat.mod_eq_of_lt (by omega)]
  unfold frameContiguous
  simp only [Option.bind_eq_bind]
  by_cases hf : s.dwReadpos.toNat+6+s.headerLength.toNat < 2^32
  · have hi : (s.dwReadpos + 6 + s.headerLength).toNat =
        s.dwReadpos.toNat+6+s.headerLength.toNat := by
      rw [BitVec.toNat_add, hr6, Nat.mod_eq_of_lt hf]
    rw [hi, fetch_of_ge s _ (by omega)]
    refine .fault ?_
    unfold wrapFault
    rwa [if_neg hc]
  · have hi : (s.dwReadpos + 6 + s.headerLength).toNat =
        s.dwReadpos.toNat+6+s.headerLength.toNat-2^32 := by
      rw [BitVec.toNat_add, hr6]
      omega
    rw [hi, fetch_of_lt s _ (by omega), hcsum]
    simp only [Option.bind_some]
    by_cases h6 : 2^32 ≤ s.headerLength.toNat+6
    · rw [if_pos (by rw [hsum]; exact wrapped_header s hm hL (by omega) h6)]
      exact .reject s.sum (fun hw => hf (by unfold wrapFault at hw; rwa [if_neg hc] at hw))
        (fun hw => by have := hw.2.1; omega)
    · have ht : (s.dwReadpos + s.headerLength + 7).toNat =
          s.dwReadpos.toNat+7+s.headerLength.toNat-2^32 := by
        rw [BitVec.toNat_add, BitVec.toNat_add, show (7 : DWORD).toNat = 7 from rfl]
        omega
      have hzero : s.wrapSum = s.sum := (if_pos hlt).trans hsum.symm
      have htail := wrapped_tail s hm hL hc (by omega) (by omega) (by omega)
      rw [hzero] at htail
      rw [ht, fetch_of_lt s _ (by omega), Option.bind_some, checks_ite]
      exact htail

theorem framePayloadSplit_wrap (hsum : s.sum = 0) (hle : s.dwWritepos.toNat ≤ s.dwReadpos.toNat)
    (hl : s.dwReadpos.toNat+6 ≤ s.dwBufsize.toNat) :
    WrapVerdict s (s.framePayloadSplit s.headerLength) := by
  have hlim := s.headerLength.isLt
  have hc : ¬ s.headerCrosses := fun hc => by have := hc.2; omega
  have hr6 : (s.dwReadpos + 6).toNat = s.dwReadpos.toNat+6 := by
    rw [BitVec.toNat_add, show (6 : DWORD).toNat = 6 from rfl, Nat.mod_eq_of_lt (by omega)]
  have hleft : (s.dwBufsize - s.dwReadpos).toNat = s.dwBufsize.toNat-s.dwReadpos.toNat :=
    BitVec.toNat_sub_of_le (BitVec.le_def.mpr h.read_le)
  have hL6 : (s.headerLength + 6).toNat = (s.headerLength.toNat+6)%2^32 := by
    rw [BitVec.toNat_add]
    rfl
  -- Either the whole count is negative, or only the part behind the end of the ring.
  have hcsum (hf : 2^32 ≤ s.dwReadpos.toNat+6+s.headerLength.toNat) :
      s.csumSplit s.headerLength = some { s with
        sum := if 2^32 ≤ s.headerLength.toNat+6 then 0 else s.wrapSum } := by
    unfold csumSplit
    by_cases hk : 2^32 ≤ s.headerLength.toNat+6
    · rw [if_pos hk, if_neg (by rw [gt_iff_lt, BitVec.lt_def, hL6, hleft]; omega),
        csum_of_neg s _ _ (by omega), ← hsum]
    · have hc1 : (s.dwBufsize - s.dwReadpos - 6).toNat =
          s.dwBufsize.toNat-(s.dwReadpos.toNat+6) := by
        rw [BitVec.toNat_sub_of_le (by rw [BitVec.le_def, hleft]; exact Nat.le_sub_of_add_le' hl),
          hleft, show (6 : DWORD).toNat = 6 from rfl]
        omega
      have hc2 : (s.headerLength - (s.dwBufsize - s.dwReadpos) + 6).toNat =
          s.headerLength.toNat+6-(s.dwBufsize.toNat-s.dwReadpos.toNat) := by
        rw [BitVec.toNat_add, BitVec.toNat_sub, hleft, show (6 : DWORD).toNat = 6 from rfl]
        omega
      rw [if_neg hk, if_pos (by rw [gt_iff_lt, BitVec.lt_def, hL6, hleft]; omega),
        csum_of_le s _ _ (by omega) (by omega), Option.bind_eq_bind, Option.bind_some,
        csum_of_neg _ _ _ (by omega), hsum, hc1, wrapSum, if_neg (by omega)]
      rfl
  unfold framePayloadSplit
  simp only [Option.bind_eq_bind]
  -- The index of the checksum byte lies behind the ring, or it wraps as well.
  by_cases hf : s.dwReadpos.toNat+6+s.headerLength.toNat < 2^32
  · have hi : (s.dwReadpos + 6 + s.headerLength).toNat =
        s.dwReadpos.toNat+6+s.headerLength.toNat := by
      rw [BitVec.toNat_add, hr6, Nat.mod_eq_of_lt hf]
    have hidx : s.dwBufsize.toNat ≤ (s.wrapIndex (s.dwReadpos + 6 + s.headerLength)).toNat := by
      unfold wrapIndex
      rw [if_pos (BitVec.le_def.mpr (by omega)),
        BitVec.toNat_sub_of_le (BitVec.le_def.mpr (by omega))]
      omega
    rw [fetch_of_ge s _ hidx]
    refine .fault ?_
    unfold wrapFault
    rwa [if_neg hc]
  · have hwrap (i : DWORD) (hi : i.toNat < s.dwBufsize.toNat) : s.wrapIndex i = i :=
      if_neg (by rw [ge_iff_le, BitVec.le_def]; omega)
    have hi : (s.dwReadpos + 6 + s.headerLength).toNat =
        s.dwReadpos.toNat+6+s.headerLength.toNat-2^32 := by
      rw [BitVec.toNat_add, hr6]
      omega
    rw [hwrap _ (by omega), hi, fetch_of_lt s _ (by omega), hcsum (by omega)]
    simp only [Option.bind_some]
    by_cases h6 : 2^32 ≤ s.headerLength.toNat+6
    · rw [if_pos h6, if_pos (wrapped_header s hm hL hl h6)]
      exact .reject 0 (fun hw => hf (by unfold wrapFault at hw; rwa [if_neg hc] at hw))
        (fun hw => by have := hw.2.1; omega)
    · have ht : (s.dwReadpos + s.headerLength + 7).toNat =
          s.dwReadpos.toNat+7+s.headerLength.toNat-2^32 := by
        rw [BitVec.toNat_add, BitVec.toNat_add, show (7 : DWORD).toNat = 7 from rfl]
        omega
      have hskip : (if s.dwReadpos + 6 > s.dwBufsize then s.dwReadpos + 6 - s.dwBufsize
          else s.dwReadpos + 6) = s.dwReadpos + 6 :=
        if_neg (by rw [gt_iff_lt, BitVec.lt_def, hr6]; omega)
      have htail := wrapped_tail s hm hL hc hl (by omega) (by omega)
      rw [if_neg h6]
      change WrapVerdict s (if _ ≠ _ then _ else
        Option.bind (s.fetch (s.wrapIndex (s.dwReadpos + s.headerLength + 7)).toNat) _)
      rw [hwrap _ (by omega), ht, fetch_of_lt s _ (by omega), Option.bind_some, checks_ite]
      unfold skipHeader
      dsimp only
      rw [hskip]
      exact htail

end Wrap

/-- The outcomes of GetCmdDataLength and when each of them occurs. -/
inductive Decodes (s : RecvSock) : Option (DWORD × RecvSock) → Prop
  | empty : s.bEmpty = true → Decodes s (some (0, s))
  | short : s.bEmpty = false → s.dwReadpos.toNat < s.dwWritepos.toNat → s.unreadCount < 6 →
      Decodes s (some (0, s.zeroSum))
  | noMagic : s.bEmpty = false → (s.dwReadpos.toNat < s.dwWritepos.toNat → 6 ≤ s.unreadCount) →
      ¬ frameMagic s.headerBytes → Decodes s (some (0, s.zeroSum.closeSock))
  | wait : s.headerTaken → s.unreadCount < (s.headerLength + 8).toNat → s.bFull = false →
      Decodes s (some (0, s.zeroSum))
  | tooLong : s.headerTaken → s.unreadCount < (s.headerLength + 8).toNat → s.bFull = true →
      Decodes s (some (0, s.zeroSum.closeSock))
  | frame (r : DWORD) : s.headerTaken → s.headerLength.toNat+8 ≤ s.unreadCount →
      frameChecks s.unread → r.toNat ≤ s.dwBufsize.toNat →
      Follows s.dwBufsize.toNat s.dwReadpos.toNat 6 r.toNat →
      Decodes s (some (s.headerLength + 2, s.checked r))
  | badFrame : s.headerTaken → s.headerLength.toNat+8 ≤ s.unreadCount → ¬ frameChecks s.unread →
      Decodes s (some (0, (s.checked s.dwReadpos).closeSock))
  | wrapped {res : Option (DWORD × RecvSock)} : s.lengthWraps → WrapVerdict s res → Decodes s res

theorem wrapVerdict_zeroSum (s : RecvSock) (res : Option (DWORD × RecvSock))
    (h : WrapVerdict s.zeroSum res) : WrapVerdict s res := by
  cases h with
  | fault hf => exact .fault hf
  | forged σ hf => exact .forged σ hf
  | reject σ hnf hnw => exact .reject σ hnf hnw

theorem framePath_wrap (s : RecvSock) (h : PosInv s) (he : s.bEmpty = false) (hsum : s.sum = 0)
    (h6 : 6 ≤ s.dwBufsize.toNat) (hB : s.dwBufsize.toNat < 2^31) (hw : s.lengthWraps) :
    WrapVerdict s (s.framePath s.headerLength) := by
  have hcount := unreadCount_nonempty s he
  have hr := h.read_le
  obtain ⟨⟨_, hh, hm⟩, hL, hn⟩ := hw
  unfold framePath
  by_cases hlt : s.dwReadpos.toNat < s.dwWritepos.toNat
  · rw [if_pos hlt] at hcount
    rw [if_pos (BitVec.lt_def.mpr hlt)]
    have hsix := hh hlt
    exact frameContiguous_wrap s h hm hL hB hsum hlt (by omega) (by omega)
  · rw [if_neg (by rw [gt_iff_lt, BitVec.lt_def]; exact hlt)]
    by_cases hl : s.dwBufsize.toNat-s.dwReadpos.toNat < 6
    · rw [if_pos (by bv_omega)]
      exact frameHeaderSplit_wrap s h hm hL hB hsum h6 ⟨by omega, hl⟩
    · rw [if_neg (by bv_omega)]
      exact framePayloadSplit_wrap s h hm hL hB hsum (by omega) (by omega)

/-- GetCmdDataLength in every state of the ring, whatever bytes it holds. -/
theorem decodes (s : RecvSock) (h : RingInv s) (h6 : 6 ≤ s.dwBufsize.toNat)
    (hB : s.dwBufsize.toNat < 2^31) : Decodes s s.getCmdDataLength := by
  rcases he : s.bEmpty with _ | _
  · by_cases hshort : s.dwReadpos.toNat < s.dwWritepos.toNat ∧ s.unreadCount < 6
    · rw [getCmdDataLength_short s h he hshort.1 hshort.2]
      exact .short he hshort.1 hshort.2
    · have hh : s.dwReadpos.toNat < s.dwWritepos.toNat → 6 ≤ s.unreadCount :=
        fun hlt => by by_contra hlow; exact hshort ⟨hlt, by omega⟩
      rw [getCmdDataLength_eq s h he h6 hh]
      by_cases hm : frameMagic s.headerBytes
      · rw [if_neg (not_not.mpr hm)]
        by_cases hn : s.unreadCount < (s.headerLength + 8).toNat
        · rw [if_pos hn]
          rcases hf : s.bFull with _ | _
          · exact .wait ⟨he, hh, hm⟩ hn hf
          · exact .tooLong ⟨he, hh, hm⟩ hn hf
        · rw [if_neg hn]
          have hlim := s.headerLength.isLt
          have hcount := unreadCount_le s h.toPosInv
          have hL8 : (s.headerLength + 8).toNat = (s.headerLength.toNat+8)%2^32 := by
            rw [BitVec.toNat_add]
            rfl
          -- A sum that wraps compares like a short frame.
          by_cases hfit : s.headerLength.toNat+8 < 2^32
          · rw [hL8, Nat.mod_eq_of_lt hfit] at hn
            obtain ⟨r, hr, hfol, hres⟩ := framePath_verdict s.zeroSum h.zeroSum.toPosInv he rfl hB
              (Nat.le_of_not_lt hn)
            change s.zeroSum.framePath s.headerLength = _ at hres
            rw [hres]
            split
            · rename_i hc
              exact .frame r ⟨he, hh, hm⟩ (by omega) hc hr hfol
            · rename_i hc
              exact .badFrame ⟨he, hh, hm⟩ (by omega) hc
          · have hw : s.lengthWraps := ⟨⟨he, hh, hm⟩, by omega, by omega⟩
            exact .wrapped hw (wrapVerdict_zeroSum s _
              (framePath_wrap s.zeroSum h.zeroSum.toPosInv he rfl h6 hB hw))
      · rw [if_pos hm]
        exact .noMagic he hh hm
  · have hres : s.getCmdDataLength = some (0, s) := if_pos he
    rw [hres]
    exact .empty he

end RecvSock

end CustomersCard
