import CustomersCardMS.ReferenceDecoder

namespace CustomersCard
open Circular

namespace RecvSock

/-- The same state over other memory, and with the WSABUFs of another connection. -/
def onto (s : RecvSock) (buf : ℕ → Byte) (wsabuf : Wsabuf × Wsabuf) : RecvSock :=
  { s with buf, wsabuf }

section Fields

variable (s : RecvSock) (buf : ℕ → Byte) (wsabuf : Wsabuf × Wsabuf)

@[simp] theorem onto_dwBufsize : (s.onto buf wsabuf).dwBufsize = s.dwBufsize := rfl

@[simp] theorem onto_dwReadpos : (s.onto buf wsabuf).dwReadpos = s.dwReadpos := rfl

@[simp] theorem onto_dwWritepos : (s.onto buf wsabuf).dwWritepos = s.dwWritepos := rfl

@[simp] theorem onto_flags : (s.onto buf wsabuf).bFull = s.bFull ∧
    (s.onto buf wsabuf).bEmpty = s.bEmpty := ⟨rfl, rfl⟩

@[simp] theorem onto_closeSock :
    (s.onto buf wsabuf).closeSock = s.closeSock.onto buf wsabuf := rfl

end Fields

/-- How far the ring was written: up to the end as soon as the unread bytes have come around it. -/
def writtenTo (s : RecvSock) : ℕ :=
  if s.bEmpty = false ∧ s.dwWritepos ≤ s.dwReadpos then s.dwBufsize.toNat else s.dwWritepos.toNat

theorem writtenTo_of_lt {s : RecvSock} (hlt : s.dwReadpos < s.dwWritepos) :
    s.writtenTo = s.dwWritepos.toNat := if_neg fun h => absurd h.2 (BitVec.not_le.mpr hlt)

theorem writtenTo_of_not_lt {s : RecvSock} (he : s.bEmpty = false)
    (hlt : ¬ s.dwReadpos < s.dwWritepos) : s.writtenTo = s.dwBufsize.toNat :=
  if_pos ⟨he, BitVec.not_lt.mp hlt⟩

def SameTo (n : ℕ) (s : RecvSock) (buf : ℕ → Byte) : Prop := ∀ i < n, buf i = s.buf i

/-- The results of the decoder, moved to the other memory. -/
def decodedOnto (buf : ℕ → Byte) (wsabuf : Wsabuf × Wsabuf) (r : DWORD × RecvSock) :
    DWORD × RecvSock := (r.1, r.2.onto buf wsabuf)

section Cells

variable {s : RecvSock} {buf : ℕ → Byte} {wsabuf : Wsabuf × Wsabuf}

/-- An access to a cell that is the same, or outside the ring. -/
theorem fetch_onto {i : ℕ} (h : i < s.dwBufsize.toNat → buf i = s.buf i) :
    (s.onto buf wsabuf).fetch i = s.fetch i := by
  by_cases hi : i < s.dwBufsize.toNat
  · rw [fetch_of_lt s i hi, ← h hi]
    exact if_pos hi
  · rw [fetch_of_ge s i (Nat.le_of_not_lt hi)]
    exact if_neg hi

theorem fetchINT_onto {off : ℕ} (h : ∀ i < off+4, i < s.dwBufsize.toNat → buf i = s.buf i) :
    (s.onto buf wsabuf).fetchINT off = s.fetchINT off := by
  have hfetch (i : ℕ) (hi : i < off+4) : (s.onto buf wsabuf).fetch i = s.fetch i :=
    fetch_onto (h i hi)
  unfold fetchINT
  rw [hfetch off (by omega), hfetch (off+1) (by omega), hfetch (off+2) (by omega),
    hfetch (off+3) (by omega)]

theorem memcpy_onto {off n : ℕ} (h : off+n ≤ s.dwBufsize.toNat → ∀ i < n,
    buf (off+i) = s.buf (off+i)) : (s.onto buf wsabuf).memcpy off n = s.memcpy off n := by
  unfold memcpy
  change (if off+n ≤ s.dwBufsize.toNat then some ((List.range' off n).map buf) else none) = _
  split
  · case isTrue hle =>
    congr 1
    apply List.map_congr_left
    intro i hi
    obtain ⟨hlow, hhigh⟩ := List.mem_range'_1.mp hi
    have hi' := h hle (i-off) (by omega)
    rwa [show off+(i-off) = i by omega] at hi'
  · rfl

theorem csumFrom_onto {addr n : ℕ} (sum : Byte)
    (h : ∀ i < n, addr+i < s.dwBufsize.toNat → buf (addr+i) = s.buf (addr+i)) :
    (s.onto buf wsabuf).csumFrom addr n sum = s.csumFrom addr n sum := by
  induction n generalizing addr sum with
  | zero => rfl
  | succ n ih =>
    have hhead : (s.onto buf wsabuf).fetch addr = s.fetch addr := fetch_onto (h 0 (Nat.succ_pos n))
    have htail (sum' : Byte) : (s.onto buf wsabuf).csumFrom (addr+1) n sum' =
        s.csumFrom (addr+1) n sum' := by
      apply ih
      intro i hi hin
      rw [Nat.add_assoc, Nat.add_comm 1 i] at hin ⊢
      exact h (i+1) (by omega) hin
    unfold csumFrom
    rw [hhead]
    simp only [htail]

theorem csum_onto (wsabuf : Wsabuf × Wsabuf) (addr : ℕ) (count : DWORD)
    (h : ∀ i < count.toInt.toNat, addr+i < s.dwBufsize.toNat → buf (addr+i) = s.buf (addr+i)) :
    (s.onto buf wsabuf).csum addr count = (s.csum addr count).map (·.onto buf wsabuf) := by
  unfold csum
  rw [show (s.onto buf wsabuf).sum = s.sum from rfl, csumFrom_onto _ h]
  cases s.csumFrom addr count.toInt.toNat s.sum with
  | none => rfl
  | some sum => rfl

/-- What a checksum changes. -/
theorem csum_sum {addr : ℕ} {count : DWORD} {t : RecvSock} (h : s.csum addr count = some t) :
    ∃ σ, t = { s with sum := σ } := by
  unfold csum at h
  cases hsum : s.csumFrom addr count.toInt.toNat s.sum with
  | none =>
    rw [hsum] at h
    contradiction
  | some σ =>
    rw [hsum] at h
    exact ⟨σ, (Option.some.inj h).symm⟩

/-- Checksum and terminator, which all three paths compare in the same way. -/
def verify (nSum : Byte) (j : RecvSock → ℕ) (len : DWORD) (next : RecvSock → RecvSock)
    (t : RecvSock) : Option (DWORD × RecvSock) :=
  if nSum ≠ t.sum then some (0, t.closeSock)
  else (t.fetch (j t)).bind fun tail =>
    if 0x0d ≠ tail then some (0, t.closeSock) else some (len, next t)

theorem verify_onto {nSum σ : Byte} {j : RecvSock → ℕ} {len : DWORD} {next : RecvSock → RecvSock}
    (hj : ∀ σ, j { s with sum := σ } < s.dwBufsize.toNat →
      buf (j { s with sum := σ }) = s.buf (j { s with sum := σ }))
    (honto : ∀ t : RecvSock, j (t.onto buf wsabuf) = j t)
    (hnext : ∀ t : RecvSock, next (t.onto buf wsabuf) = (next t).onto buf wsabuf) :
    verify nSum j len next (({ s with sum := σ } : RecvSock).onto buf wsabuf) =
      (verify nSum j len next { s with sum := σ }).map (decodedOnto buf wsabuf) := by
  have hfetch : (({ s with sum := σ } : RecvSock).onto buf wsabuf).fetch (j { s with sum := σ }) =
      ({ s with sum := σ } : RecvSock).fetch (j { s with sum := σ }) := fetch_onto (hj σ)
  unfold verify
  rw [honto, hfetch, hnext]
  change (if nSum ≠ σ then _ else _) = Option.map _ (if nSum ≠ σ then _ else _)
  split
  · rfl
  · cases ({ s with sum := σ } : RecvSock).fetch (j { s with sum := σ }) with
    | none => rfl
    | some tail =>
      simp only [Option.bind_some]
      split
      · rfl
      · rfl

/-- A frame that is looked at in the same way as over the other memory. -/
theorem frame_onto {o o' : Option RecvSock} {i : ℕ} {j : RecvSock → ℕ} {len : DWORD}
    {next : RecvSock → RecvSock} (hi : i < s.dwBufsize.toNat → buf i = s.buf i)
    (hj : ∀ σ, j { s with sum := σ } < s.dwBufsize.toNat →
      buf (j { s with sum := σ }) = s.buf (j { s with sum := σ }))
    (ho : ∀ t, o = some t → ∃ σ, t = { s with sum := σ }) (ho' : o' = o.map (·.onto buf wsabuf))
    (honto : ∀ t : RecvSock, j (t.onto buf wsabuf) = j t)
    (hnext : ∀ t : RecvSock, next (t.onto buf wsabuf) = (next t).onto buf wsabuf) :
    (((s.onto buf wsabuf).fetch i).bind fun nSum => o'.bind (verify nSum j len next)) =
      ((s.fetch i).bind fun nSum => o.bind (verify nSum j len next)).map
        (decodedOnto buf wsabuf) := by
  rw [fetch_onto hi, ho']
  cases s.fetch i with
  | none => rfl
  | some nSum =>
    cases hcase : o with
    | none => rfl
    | some t =>
      obtain ⟨σ, rfl⟩ := ho t hcase
      exact verify_onto hj honto hnext

end Cells

section Whole

variable {s : RecvSock} {buf : ℕ → Byte} {wsabuf : Wsabuf × Wsabuf}
  (h : SameTo s.dwBufsize.toNat s buf)
include h

theorem frameHeaderSplit_onto (L : DWORD) : (s.onto buf wsabuf).frameHeaderSplit L =
    (s.frameHeaderSplit L).map (decodedOnto buf wsabuf) := by
  have hcsum := csum_onto wsabuf (s.dwReadpos + 6 - s.dwBufsize).toNat L fun i _ hi => h _ hi
  let j : RecvSock → ℕ := fun _ => (s.dwReadpos + 6 - s.dwBufsize + L + 1).toNat
  exact frame_onto (j := j) (h _) (fun _ => h _) (fun _ => csum_sum) hcsum (fun _ => rfl)
    fun _ => rfl

theorem csumSplit_onto (L : DWORD) : (s.onto buf wsabuf).csumSplit L =
    (s.csumSplit L).map (·.onto buf wsabuf) := by
  have hcsum (addr : ℕ) (count : DWORD) := csum_onto wsabuf addr count fun i _ hi => h (addr+i) hi
  unfold csumSplit
  by_cases hgt : L + 6 > s.dwBufsize - s.dwReadpos
  · simp only [onto_dwBufsize, onto_dwReadpos, hgt, ↓reduceIte, hcsum, Option.bind_eq_bind]
    cases hsum : s.csum (s.dwReadpos.toNat + 6) (s.dwBufsize - s.dwReadpos - 6) with
    | none => rfl
    | some t =>
      obtain ⟨σ, rfl⟩ := csum_sum hsum
      exact csum_onto wsabuf 0 (L - (s.dwBufsize - s.dwReadpos) + 6) fun i _ hi => h _ hi
  · simp only [onto_dwBufsize, onto_dwReadpos, hgt, ↓reduceIte, hcsum]

omit h in
theorem csumSplit_sum {L : DWORD} {t : RecvSock} (ht : s.csumSplit L = some t) :
    ∃ σ, t = { s with sum := σ } := by
  unfold csumSplit at ht
  simp only [Option.bind_eq_bind] at ht
  split at ht
  · obtain ⟨u, hu, ht⟩ := Option.bind_eq_some_iff.mp ht
    obtain ⟨σ, rfl⟩ := csum_sum hu
    obtain ⟨σ', rfl⟩ := csum_sum ht
    exact ⟨σ', rfl⟩
  · exact csum_sum ht

theorem framePayloadSplit_onto (L : DWORD) : (s.onto buf wsabuf).framePayloadSplit L =
    (s.framePayloadSplit L).map (decodedOnto buf wsabuf) := by
  let j : RecvSock → ℕ := fun t => (t.wrapIndex (t.dwReadpos + L + 7)).toNat
  exact frame_onto (j := j) (h _) (fun _ => h _) (fun _ => csumSplit_sum) (csumSplit_onto h L)
    (fun _ => rfl) fun _ => rfl

theorem cmdLengthHeaderSplit_onto : (s.onto buf wsabuf).cmdLengthHeaderSplit =
    s.cmdLengthHeaderSplit.map (decodedOnto buf wsabuf) := by
  have hsubchar (dwLeft : DWORD) : (s.onto buf wsabuf).subchar dwLeft = s.subchar dwLeft := by
    have hmemcpy (off n : ℕ) : (s.onto buf wsabuf).memcpy off n = s.memcpy off n :=
      memcpy_onto fun hle i hi => h _ (by omega)
    unfold subchar
    simp only [onto_dwReadpos, hmemcpy]
  unfold cmdLengthHeaderSplit
  simp only [onto_dwBufsize, onto_dwReadpos, onto_dwWritepos, onto_flags, hsubchar,
    frameHeaderSplit_onto h, onto_closeSock, Option.bind_eq_bind]
  cases s.subchar (s.dwBufsize - s.dwReadpos) with
  | none => rfl
  | some subchar =>
    simp only [Option.bind_some]
    split
    · rfl
    · split
      · split
        · rfl
        · rfl
      · rfl

theorem cmdLengthPayloadSplit_onto : (s.onto buf wsabuf).cmdLengthPayloadSplit =
    s.cmdLengthPayloadSplit.map (decodedOnto buf wsabuf) := by
  have hfetch (i : ℕ) : (s.onto buf wsabuf).fetch i = s.fetch i := fetch_onto (h i)
  unfold cmdLengthPayloadSplit
  simp only [onto_dwBufsize, onto_dwReadpos, onto_dwWritepos, onto_flags, hfetch,
    framePayloadSplit_onto h, onto_closeSock, Option.bind_eq_bind]
  cases s.fetch s.dwReadpos.toNat with
  | none => rfl
  | some m₀ =>
    cases s.fetch (s.dwReadpos + 1).toNat with
    | none => rfl
    | some m₁ =>
      simp only [Option.bind_some]
      split
      · rfl
      · rw [fetchINT_onto fun i _ => h i]
        cases s.fetchINT (s.dwReadpos.toNat + 2) with
        | none => rfl
        | some L =>
          simp only [Option.bind_some]
          split
          · split
            · rfl
            · rfl
          · rfl

end Whole

-- Where the unread bytes do not cross the end, only what lies below the write position is read.
section Contiguous

variable {s : RecvSock} {buf : ℕ → Byte} {wsabuf : Wsabuf × Wsabuf}
  (h : SameTo s.dwWritepos.toNat s buf) (hlt : s.dwReadpos < s.dwWritepos)
  (hwrite : s.dwWritepos.toNat ≤ s.dwBufsize.toNat) (h31 : s.dwBufsize.toNat < 2^31)
include h hlt hwrite h31

theorem frameContiguous_onto {L : DWORD} (h6 : 6 ≤ s.dwWritepos - s.dwReadpos)
    (hL : L + 8 ≤ s.dwWritepos - s.dwReadpos) : (s.onto buf wsabuf).frameContiguous L =
      (s.frameContiguous L).map (decodedOnto buf wsabuf) := by
  rw [BitVec.lt_def] at hlt
  rw [BitVec.le_def] at h6 hL
  have hsum : (s.onto buf wsabuf).csum (s.dwReadpos.toNat + 6) L =
      (s.csum (s.dwReadpos.toNat + 6) L).map (·.onto buf wsabuf) := by
    apply csum_onto
    intro i hi _
    have hpos : L.toNat < 2^31 := by
      by_contra hneg
      rw [BitVec.toInt_eq_toNat_cond] at hi
      omega
    rw [BitVec.toInt_eq_toNat_cond] at hi
    apply h
    bv_omega
  let j : RecvSock → ℕ := fun t => (t.dwReadpos + L + 7).toNat
  refine frame_onto (j := j) (fun hi => h _ ?_) (fun _ hj => h _ ?_) (fun _ => csum_sum) hsum
    (fun _ => rfl) fun _ => rfl
  · change (s.dwReadpos + 6 + L).toNat < _ at hi
    change (s.dwReadpos + 6 + L).toNat < _
    bv_omega
  · change (s.dwReadpos + L + 7).toNat < _ at hj
    change (s.dwReadpos + L + 7).toNat < _
    bv_omega

theorem cmdLengthContiguous_onto : (s.onto buf wsabuf).cmdLengthContiguous =
    s.cmdLengthContiguous.map (decodedOnto buf wsabuf) := by
  have hframe (L : DWORD) := @frameContiguous_onto s buf wsabuf h hlt hwrite h31 L
  rw [BitVec.lt_def] at hlt
  unfold cmdLengthContiguous
  by_cases h6 : s.dwWritepos - s.dwReadpos < 6
  · simp only [onto_dwReadpos, onto_dwWritepos, h6, ↓reduceIte]
    rfl
  · have h6' : 6 ≤ s.dwWritepos - s.dwReadpos := BitVec.not_lt.mp h6
    have hheader (i : ℕ) (hi : i < s.dwReadpos.toNat + 6) :
        (s.onto buf wsabuf).fetch i = s.fetch i := by
      apply fetch_onto
      intro _
      apply h
      rw [BitVec.le_def] at h6'
      bv_omega
    have hcheck : (s.onto buf wsabuf).fetchINT (s.dwReadpos.toNat + 2) =
        s.fetchINT (s.dwReadpos.toNat + 2) := by
      apply fetchINT_onto
      intro i hi _
      apply h
      rw [BitVec.le_def] at h6'
      bv_omega
    simp only [onto_dwReadpos, onto_dwWritepos, h6, ↓reduceIte, hcheck,
      hheader s.dwReadpos.toNat (by omega), hheader (s.dwReadpos + 1).toNat (by bv_omega),
      Option.bind_eq_bind]
    cases s.fetch s.dwReadpos.toNat with
    | none => rfl
    | some m₀ =>
      cases s.fetch (s.dwReadpos + 1).toNat with
      | none => rfl
      | some m₁ =>
        simp only [Option.bind_some]
        split
        · rfl
        · cases s.fetchINT (s.dwReadpos.toNat + 2) with
          | none => rfl
          | some L =>
            simp only [Option.bind_some]
            by_cases hL : L + 8 > s.dwWritepos - s.dwReadpos
            · simp only [hL, ↓reduceIte]
              rfl
            · simp only [hL, ↓reduceIte]
              exact hframe L h6' (BitVec.not_lt.mp hL)

end Contiguous

theorem SameTo.mono {s : RecvSock} {buf : ℕ → Byte} {m n : ℕ} (h : SameTo n s buf) (hle : m ≤ n) :
    SameTo m s buf := fun i hi => h i (Nat.lt_of_lt_of_le hi hle)

/-- The decoder looks at no cell that was not written. -/
theorem getCmdDataLength_onto {s : RecvSock} {buf : ℕ → Byte} (hs : RingInv s)
    (h31 : s.dwBufsize.toNat < 2^31) (h : SameTo s.writtenTo s buf) (wsabuf : Wsabuf × Wsabuf) :
    (s.onto buf wsabuf).getCmdDataLength =
      s.getCmdDataLength.map (decodedOnto buf wsabuf) := by
  cases he : s.bEmpty with
  | true =>
    unfold getCmdDataLength
    rw [if_pos he, if_pos (show (s.onto buf wsabuf).bEmpty = true from he)]
    rfl
  | false =>
    rw [getCmdDataLength_nonempty s he, getCmdDataLength_nonempty (s.onto buf wsabuf) he]
    by_cases hlt : s.dwWritepos > s.dwReadpos
    · rw [writtenTo_of_lt hlt] at h
      simp only [onto_dwWritepos, onto_dwReadpos, hlt, ↓reduceIte]
      exact @cmdLengthContiguous_onto s.zeroSum buf wsabuf h hlt hs.write_le h31
    · rw [writtenTo_of_not_lt he hlt] at h
      by_cases hcross : s.dwBufsize - s.dwReadpos < 6
      · simp only [onto_dwWritepos, onto_dwReadpos, onto_dwBufsize, hlt, hcross, ↓reduceIte]
        exact @cmdLengthHeaderSplit_onto s.zeroSum buf wsabuf h
      · simp only [onto_dwWritepos, onto_dwReadpos, onto_dwBufsize, hlt, hcross, ↓reduceIte]
        exact @cmdLengthPayloadSplit_onto s.zeroSum buf wsabuf h

/-- The result of Read over the other memory. -/
def readOnto (buf : ℕ → Byte) (wsabuf : Wsabuf × Wsabuf) (r : DWORD × List Byte × RecvSock) :
    DWORD × List Byte × RecvSock := (r.1, r.2.1, r.2.2.onto buf wsabuf)

theorem read_nonempty (s : RecvSock) {dwNum : DWORD} (hz : ¬ dwNum ≤ 0) (he : s.bEmpty = false) :
    s.read dwNum =
      if s.dwReadpos < s.dwWritepos ∨ s.dwBufsize - s.dwReadpos > dwNum then
        (s.memcpy s.dwReadpos.toNat dwNum.toNat).bind fun bytes =>
          some (dwNum, bytes, s.afterRead (s.dwReadpos + dwNum))
      else
        (s.memcpy s.dwReadpos.toNat (s.dwBufsize - s.dwReadpos).toNat).bind fun right =>
          (s.memcpy 0 (dwNum - (s.dwBufsize - s.dwReadpos)).toNat).bind fun left =>
            some (s.dwBufsize - s.dwReadpos + (dwNum - (s.dwBufsize - s.dwReadpos)), right ++ left,
              s.afterRead (dwNum - (s.dwBufsize - s.dwReadpos))) := by
  unfold read
  rw [if_neg hz, if_neg (show ¬ s.bEmpty = true by simp [he])]
  by_cases hlt : s.dwReadpos < s.dwWritepos
  · simp only [hlt, true_or, ↓reduceIte]
    rfl
  · simp only [hlt, false_or, ↓reduceIte]
    rfl

theorem read_onto {s : RecvSock} {buf : ℕ → Byte} (h : SameTo s.writtenTo s buf) {dwNum : DWORD}
    (hle : s.dwReadpos < s.dwWritepos → s.dwReadpos.toNat+dwNum.toNat ≤ s.dwBufsize.toNat →
      s.dwReadpos.toNat+dwNum.toNat ≤ s.dwWritepos.toNat) (wsabuf : Wsabuf × Wsabuf) :
    (s.onto buf wsabuf).read dwNum = (s.read dwNum).map (readOnto buf wsabuf) := by
  by_cases hz : dwNum ≤ 0
  · unfold read
    rw [if_pos hz, if_pos hz]
    rfl
  cases he : s.bEmpty with
  | true =>
    unfold read
    rw [if_neg hz, if_neg hz, if_pos he, if_pos (show (s.onto buf wsabuf).bEmpty = true from he)]
    rfl
  | false =>
    have hmem (off n : ℕ) (hoff : off+n ≤ s.dwBufsize.toNat → off+n ≤ s.writtenTo) :
        (s.onto buf wsabuf).memcpy off n = s.memcpy off n := by
      apply memcpy_onto
      intro hfit i hi
      apply h
      have hfit' := hoff hfit
      omega
    rw [read_nonempty s hz he, read_nonempty (s.onto buf wsabuf) hz he]
    simp only [onto_dwBufsize, onto_dwReadpos, onto_dwWritepos]
    by_cases hlt : s.dwReadpos < s.dwWritepos
    · rw [writtenTo_of_lt hlt] at hmem
      simp only [hlt, true_or, ↓reduceIte]
      rw [hmem _ _ (hle hlt)]
      cases s.memcpy s.dwReadpos.toNat dwNum.toNat with
      | none => rfl
      | some bytes => rfl
    · rw [writtenTo_of_not_lt he hlt] at hmem
      rw [hmem _ _ id, hmem _ _ id, hmem _ _ id]
      by_cases hgt : s.dwBufsize - s.dwReadpos > dwNum
      · simp only [hgt, or_true, ↓reduceIte]
        cases s.memcpy s.dwReadpos.toNat dwNum.toNat with
        | none => rfl
        | some bytes => rfl
      · simp only [hlt, hgt, or_self, ↓reduceIte]
        cases s.memcpy s.dwReadpos.toNat (s.dwBufsize - s.dwReadpos).toNat with
        | none => rfl
        | some right =>
          cases s.memcpy 0 (dwNum - (s.dwBufsize - s.dwReadpos)).toNat with
          | none => rfl
          | some left => rfl

theorem writtenTo_le_size {s : RecvSock} (h : PosInv s) : s.writtenTo ≤ s.dwBufsize.toNat := by
  unfold writtenTo
  split
  · exact le_rfl
  · exact h.write_le

/-- What takes bytes out of the ring leaves fewer cells to agree on. -/
theorem writtenTo_le {s t : RecvSock} (hs : PosInv s) (ht : PosInv t)
    (hsize : t.dwBufsize = s.dwBufsize) (hwrite : t.dwWritepos = s.dwWritepos)
    (hlt : t.unreadCount < s.unreadCount) : t.writtenTo ≤ s.writtenTo := by
  have he : s.bEmpty = false := (unreadCount_pos s hs).mp (by omega)
  by_cases hpos : s.dwReadpos < s.dwWritepos
  · have hcount := unreadCount_nonempty s he
    rw [BitVec.lt_def] at hpos
    rw [if_pos hpos] at hcount
    rw [writtenTo_of_lt hpos]
    by_cases hpos' : t.dwReadpos < t.dwWritepos
    · rw [writtenTo_of_lt hpos', hwrite]
    · cases he' : t.bEmpty with
      | true =>
        unfold writtenTo
        rw [if_neg (by simp [he']), hwrite]
      | false =>
        have hcount' := unreadCount_nonempty t he'
        rw [BitVec.lt_def] at hpos'
        rw [if_neg hpos', hwrite] at hcount'
        omega
  · rw [writtenTo_of_not_lt he hpos, ← hsize]
    exact writtenTo_le_size ht

theorem SameTo.ring {s t : RecvSock} {buf : ℕ → Byte} (h : SameTo s.writtenTo s buf)
    (hring : SameRing s t) : SameTo t.writtenTo t buf := by
  have hto : t.writtenTo = s.writtenTo := by
    unfold writtenTo
    rw [hring.empty, hring.writepos, hring.readpos, hring.size]
  intro i hi
  rw [hring.buf]
  exact h i (by omega)

section Outcome

variable {s t u : RecvSock} {buf : ℕ → Byte} {len n : DWORD} {bytes : List Byte} (hs : RingInv s)
  (h6 : 6 ≤ s.dwBufsize.toNat) (h31 : s.dwBufsize.toNat < 2^31)
  (hd : s.getCmdDataLength = some (len, t)) (hlen : len ≠ 0)
include hs h6 h31 hd hlen

/-- A command that is read takes its frame out of the ring. -/
theorem command_taken (hread : t.read len = some (n, bytes, u)) :
    bytes.length = len.toNat ∧ RingInv u ∧ u.dwBufsize = s.dwBufsize ∧
      u.dwWritepos = s.dwWritepos ∧ u.buf = s.buf ∧ u.unreadCount+8 ≤ s.unreadCount := by
  have hle := unreadCount_le s hs.toPosInv
  obtain ⟨rfl, ⟨r, rfl, _, hfit, _, hr, hf⟩ | ⟨_, _, hnone⟩⟩ := decode_pos s hs h6 h31 hd hlen
  · have hnum : (s.headerLength + 2).toNat = s.headerLength.toNat+2 := by
      rw [BitVec.toNat_add, show (2 : DWORD).toNat = 2 from rfl, Nat.mod_eq_of_lt (by omega)]
    obtain ⟨r', hread', hring, hunread⟩ := read_frame s hs.toPosInv r hfit hr hf
    rw [hread, Option.some.injEq, Prod.mk.injEq, Prod.mk.injEq] at hread'
    obtain ⟨_, rfl, rfl⟩ := hread'
    have hlength := length_unread s hs.toPosInv
    have hlength' := length_unread _ hring.toPosInv
    rw [hunread, List.length_drop] at hlength'
    refine ⟨?_, hring, rfl, rfl, rfl, by omega⟩
    rw [hnum, List.length_take, List.length_drop]
    omega
  · rw [hread] at hnone
    contradiction

variable (h : SameTo s.writtenTo s buf)
include h

/-- Behind it the written cells are still the same. -/
theorem command_same (hread : t.read len = some (n, bytes, u)) : SameTo u.writtenTo u buf := by
  obtain ⟨_, hring, hsize, hwrite, hbuf, hlt⟩ := command_taken hs h6 h31 hd hlen hread
  have hle := writtenTo_le hs.toPosInv hring.toPosInv hsize hwrite (by omega)
  intro i hi
  rw [hbuf]
  exact h.mono hle i hi

/-- A command that is announced is read, or is not, as over the other memory. -/
theorem command_onto (wsabuf : Wsabuf × Wsabuf) :
    (t.onto buf wsabuf).read len = (t.read len).map (readOnto buf wsabuf) := by
  have hle := unreadCount_le s hs.toPosInv
  obtain ⟨rfl, ⟨r, rfl, _, hfit, _, hr, hf⟩ | ⟨hw, hf, hnone⟩⟩ := decode_pos s hs h6 h31 hd hlen
  · have hnum : (s.headerLength + 2).toNat = s.headerLength.toNat+2 := by
      rw [BitVec.toNat_add, show (2 : DWORD).toNat = 2 from rfl, Nat.mod_eq_of_lt (by omega)]
    obtain ⟨hpos, hcount, _⟩ := checked_spec s hs.toPosInv r hr hf (by omega)
    have hsame : SameTo (s.checked r).writtenTo (s.checked r) buf :=
      h.mono (writtenTo_le hs.toPosInv hpos rfl rfl (by omega))
    have hne : (s.checked r).bEmpty = false := (unreadCount_pos _ hpos).mp (by omega)
    refine read_onto hsame ?_ wsabuf
    intro hlt _
    have hcount' := unreadCount_nonempty _ hne
    rw [BitVec.lt_def] at hlt
    rw [if_pos hlt] at hcount'
    omega
  · -- Over the other memory the length is the same one, and is forged as well.
    have hd' := getCmdDataLength_onto hs h31 h wsabuf
    rw [hd, Option.map_some] at hd'
    change _ = some (s.headerLength + 2, t.onto buf wsabuf) at hd'
    have hs' : RingInv (s.onto buf wsabuf) :=
      ⟨⟨hs.read_le, hs.write_le, hs.empty, hs.write_pos⟩, hs.full⟩
    rw [hnone, Option.map_none]
    obtain ⟨heq, ⟨_, _, _, hfit, _⟩ | ⟨_, _, hnone'⟩⟩ := decode_pos _ hs' h6 h31 hd' hlen
    · have hcount : (s.onto buf wsabuf).unreadCount = s.unreadCount := rfl
      have hforged := hf.2.1
      rw [BitVec.add_left_inj] at heq
      rw [heq] at hforged
      omega
    · exact hnone'

end Outcome

theorem initWRpos_onto (s : RecvSock) (buf : ℕ → Byte) (wsabuf : Wsabuf × Wsabuf)
    (dwTranstion : DWORD) :
    (s.onto buf wsabuf).initWRpos dwTranstion = (s.initWRpos dwTranstion).onto buf wsabuf := by
  unfold initWRpos
  split
  · rfl
  · rw [(onto_flags s buf wsabuf).1]
    split
    · rfl
    · rfl

theorem initWSABUFS_onto (s : RecvSock) (buf : ℕ → Byte) (wsabuf : Wsabuf × Wsabuf) :
    (s.onto buf wsabuf).initWSABUFS = s.initWSABUFS.onto buf s.initWSABUFS.wsabuf := by
  unfold initWSABUFS initRLsize
  simp only [onto_flags, onto_dwReadpos, onto_dwWritepos]
  split
  · rfl
  · split
    · rfl
    · rfl

theorem getNextData_onto (s : RecvSock) (buf : ℕ → Byte) (wsabuf : Wsabuf × Wsabuf) :
    (s.onto buf wsabuf).getNextData =
      s.getNextData.map fun r => (r.1, r.2.onto buf wsabuf) := by
  unfold getNextData
  change (if s.lstSend.isEmpty = true then _ else _) = _
  split
  · rfl
  · rfl

/-- The first bytes of a connection are all that is written. -/
theorem accept_same {g : RecvSock} {_Bufsize : DWORD} {sock : SOCKET} {fill : List Byte}
    {buf : ℕ → Byte} (hne : fill ≠ []) (hle : fill.length ≤ _Bufsize.toNat)
    (h : SameTo fill.length ((g.connect _Bufsize sock).kernelAccept fill) buf) :
    SameTo ((g.connect _Bufsize sock).acceptFill fill).writtenTo
      ((g.connect _Bufsize sock).acceptFill fill) buf := by
  have hlen := toNat_ofNat_of_le _Bufsize fill.length hle
  have hpos := List.length_pos_of_ne_nil hne
  obtain ⟨w, hrun, hw0, _, hfol⟩ := initWRpos_follows
    ((g.connect _Bufsize sock).kernelAccept fill) (BitVec.ofNat 32 fill.length) rfl (by omega)
    (by intro hh; simp [connect, init, kernelAccept] at hh; omega)
    (by intro _; simp [connect, init, kernelAccept, Follows]; omega)
  rw [hlen] at hfol
  have hmark : ((g.connect _Bufsize sock).acceptFill fill).writtenTo = w.toNat := by
    change RecvSock.writtenTo (initWRpos _ _) = _
    rw [hrun]
    exact writtenTo_of_lt (BitVec.lt_def.mpr hw0)
  have hbuf : ((g.connect _Bufsize sock).acceptFill fill).buf =
      ((g.connect _Bufsize sock).kernelAccept fill).buf := by
    change RecvSock.buf (initWRpos _ _) = _
    rw [hrun]
  intro i hi
  rw [hmark] at hi
  rw [hbuf]
  apply h
  rcases hfol with hw | hw
  · simp [connect, init, kernelAccept] at hw
    omega
  · simp [connect, init, kernelAccept] at hw
    omega

/-- A receive writes the same bytes to the same cells. -/
theorem receive_same {s : RecvSock} {buf : ℕ → Byte} (hs : RingInv s)
    (h : SameTo s.writtenTo s buf) {bytes : List Byte} (hne : bytes ≠ [])
    (hle : bytes.length ≤ s.offered) :
    SameTo (s.receive bytes).writtenTo (s.receive bytes)
      (writeAt buf (arc s.dwBufsize.toNat s.dwWritepos.toNat s.offered) bytes) := by
  have hpos := List.length_pos_of_ne_nil hne
  have hoff := offered_eq s hs
  have hwrite := hs.write_le
  have hread := hs.read_le
  obtain ⟨hring, _⟩ := receive_spec s hs bytes hne hle
  have hsize := writtenTo_le_size hring.toPosInv
  obtain ⟨w, hrun, hw0, hwle, hfol⟩ := receive_shape s hs bytes hne hle
  rw [hrun] at hsize ⊢
  intro i hi
  apply writeAt_congr
  intro hout
  rw [take_arc hle] at hout
  apply h
  -- A cell below the new mark is one of the cells just written, or lies below the old mark.
  have hbehind : ¬ (s.dwWritepos.toNat ≤ i ∧ i < s.dwWritepos.toNat+bytes.length ∧
      i < s.dwBufsize.toNat) := by
    rintro ⟨hlow, hhigh, hin⟩
    apply hout
    refine List.mem_map.mpr ⟨i-s.dwWritepos.toNat, List.mem_range.mpr (by omega), ?_⟩
    rw [wrap_of_lt (by omega)]
    omega
  have hstart : ¬ i+s.dwBufsize.toNat < s.dwWritepos.toNat+bytes.length := by
    intro hlow
    apply hout
    refine List.mem_map.mpr ⟨i+s.dwBufsize.toNat-s.dwWritepos.toNat,
      List.mem_range.mpr (by omega), ?_⟩
    rw [wrap_of_ge (by omega)]
    omega
  unfold Follows at hfol
  unfold writtenTo at hi ⊢
  cases he : s.bEmpty with
  | true =>
    have heq := hs.empty he
    simp only [BitVec.le_def, true_and, Bool.true_eq_false, false_and, ↓reduceIte, heq] at hi ⊢
    split at hi
    · omega
    · omega
  | false =>
    have hcount := unreadCount_nonempty s he
    simp only [BitVec.le_def, true_and] at hi ⊢
    split at hcount
    · rw [if_neg (by omega)]
      split at hi
      · omega
      · omega
    · rw [if_pos (by omega)]
      split at hi
      · omega
      · omega

end RecvSock

end CustomersCard
