import CustomersCardMS.BufferObj
import CustomersCardMS.DecodeOutcome

namespace CustomersCard
open Circular

namespace RecvSock

/-- GetCmdDataLength is called in `s`, on a connection whose ring has `_Bufsize` bytes. After a zero
the loop ends, and a closed socket takes no further receive. -/
inductive DecodeCall (_Bufsize : DWORD) : RecvSock → Prop
  | accept (g : RecvSock) (sock : SOCKET) (fill : List Byte) : sock ≠ INVALID_SOCKET →
      fill ≠ [] → fill.length+64 ≤ _Bufsize.toNat →
      DecodeCall _Bufsize ((g.connect _Bufsize sock).acceptFill fill)
  | next {s t u : RecvSock} {len n : DWORD} {bytes : List Byte} : DecodeCall _Bufsize s →
      s.getCmdDataLength = some (len, t) → len ≠ 0 → t.read len = some (n, bytes, u) →
      DecodeCall _Bufsize u
  | recv {s t : RecvSock} (bytes : List Byte) : DecodeCall _Bufsize s →
      s.getCmdDataLength = some (0, t) → t.sock ≠ INVALID_SOCKET → bytes ≠ [] →
      bytes.length ≤ t.offered → DecodeCall _Bufsize (t.receive bytes)

/-- What the loops rely on: the decoder stays inside the ring, and a command it
announces is a complete frame whose message the following `Read` takes. -/
def DecodeSafe (s : RecvSock) : Prop :=
  ∃ len t, s.getCmdDataLength = some (len, t) ∧ (len ≠ 0 →
    BeginsFrame s.unread len.toNat ∧ ∃ u,
      t.read len = some (len, (s.unread.drop 6).take len.toNat, u) ∧
        u.unread = s.unread.drop (len.toNat+6))

/-- The wrapped lengths that are not rejected. -/
def lengthOverflow (s : RecvSock) : Prop := s.lengthWraps ∧ (s.wrapFault ∨ s.wrapForged)

instance (s : RecvSock) : Decidable s.lengthOverflow := inferInstanceAs (Decidable (_ ∧ _))

/-- A frame the decoder reports is complete, and one that is complete and valid is reported. -/
theorem begins_iff (s : RecvSock) (h : PosInv s) (n : ℕ) :
    BeginsFrame s.unread n ↔ s.headerTaken ∧ s.headerLength.toNat+8 ≤ s.unreadCount ∧
      frameChecks s.unread ∧ n = s.headerLength.toNat+2 := by
  have hlen := length_unread s h
  constructor
  · rintro ⟨hc, hm, hL, hk⟩
    have hu := header_unread s h (by omega)
    rw [hu.2] at hL
    exact ⟨⟨(unreadCount_pos s h).mp (by omega), fun _ => by omega, hu.1.mp hm⟩, by omega, hk,
      by omega⟩
  · rintro ⟨⟨_, _, hm⟩, hfit, hk, rfl⟩
    have hu := header_unread s h (by omega)
    exact ⟨by omega, hu.1.mpr hm, by rw [hu.2], hk⟩

/-- Reading a reported frame takes its message and leaves what comes behind it. -/
theorem read_frame (s : RecvSock) (h : PosInv s) (r : DWORD)
    (hfit : s.headerLength.toNat+8 ≤ s.unreadCount) (hr : r.toNat ≤ s.dwBufsize.toNat)
    (hf : Follows s.dwBufsize.toNat s.dwReadpos.toNat 6 r.toNat) :
    ∃ r' : DWORD, (s.checked r).read (s.headerLength + 2) = some (s.headerLength + 2,
        (s.unread.drop 6).take (s.headerLength.toNat+2), (s.checked r).afterRead r') ∧
      RingInv ((s.checked r).afterRead r') ∧
      ((s.checked r).afterRead r').unread = s.unread.drop (s.headerLength.toNat+2+6) := by
  have hle := unreadCount_le s h
  have hlim := s.dwBufsize.isLt
  have hlen : (s.headerLength + 2).toNat = s.headerLength.toNat+2 := by
    rw [BitVec.toNat_add, show (2 : DWORD).toNat = 2 from rfl, Nat.mod_eq_of_lt (by omega)]
  obtain ⟨hp, hcount, hu⟩ := checked_spec s h r hr hf (by omega)
  obtain ⟨r', hread, hinv, hdrop⟩ := read_spec _ hp (s.headerLength + 2) (by omega) (by omega)
  rw [hu, hlen] at hread
  rw [hu, hlen, List.drop_drop, Nat.add_comm 6] at hdrop
  exact ⟨r', hread, hinv, hdrop⟩

theorem memcpy_of_gt (s : RecvSock) (off n : ℕ) (h : s.dwBufsize.toNat < off+n) :
    s.memcpy off n = none := if_neg (by omega)

/-- `Read` does not check its count: one beyond both segments leaves the ring. -/
theorem read_past (s : RecvSock) (he : s.bEmpty = false)
    (hr : s.dwReadpos.toNat ≤ s.dwBufsize.toNat) (dwNum : DWORD)
    (hn : 2*s.dwBufsize.toNat < s.dwReadpos.toNat+dwNum.toNat) : s.read dwNum = none := by
  have hnz : ¬ dwNum ≤ 0 := by bv_omega
  have hleft : (s.dwBufsize - s.dwReadpos).toNat = s.dwBufsize.toNat-s.dwReadpos.toNat :=
    BitVec.toNat_sub_of_le (BitVec.le_def.mpr hr)
  have hsub : (dwNum - (s.dwBufsize - s.dwReadpos)).toNat =
      dwNum.toNat-(s.dwBufsize.toNat-s.dwReadpos.toNat) := by
    rw [BitVec.toNat_sub_of_le (by rw [BitVec.le_def, hleft]; omega), hleft]
  unfold read
  rw [if_neg hnz]
  simp only [he, Bool.false_eq_true, ↓reduceIte]
  split
  · rw [memcpy_of_gt _ _ _ (by dsimp only; omega)]
    rfl
  · rw [if_neg (by rw [gt_iff_lt, BitVec.lt_def, hleft]; omega),
      memcpy_of_le _ _ _ (by dsimp only; omega), memcpy_of_gt _ _ _ (by dsimp only; omega)]
    rfl

/-- A forged length lets `Read` run past the end of the ring. -/
theorem read_forged (s : RecvSock) (h : PosInv s) (hB : s.dwBufsize.toNat < 2^31) (σ : Byte)
    (hw : s.lengthWraps) (hf : s.wrapForged) :
    ({ s with sum := σ, dwReadpos := s.dwReadpos + 6 } : RecvSock).read (s.headerLength + 2) =
      none := by
  obtain ⟨⟨he, hh, _⟩, _⟩ := hw
  obtain ⟨hc, hL, h2, _⟩ := hf
  have hr := h.read_le
  have hwr := h.write_le
  have hcount := unreadCount_nonempty s he
  have hlen : (s.headerLength + 2).toNat = 2^32-6 := by
    rw [BitVec.toNat_add, show (2 : DWORD).toNat = 2 from rfl]
    omega
  have hfit : s.dwReadpos.toNat+6 ≤ s.dwBufsize.toNat := by
    by_cases hlt : s.dwReadpos.toNat < s.dwWritepos.toNat
    · rw [if_pos hlt] at hcount
      have h6 := hh hlt
      omega
    · by_contra hgt
      exact hc ⟨by omega, by omega⟩
  have hr6 : (s.dwReadpos + 6).toNat = s.dwReadpos.toNat+6 := by
    rw [BitVec.toNat_add, show (6 : DWORD).toNat = 6 from rfl, Nat.mod_eq_of_lt (by omega)]
  apply read_past
  · exact he
  · rw [hr6]
    exact hfit
  · dsimp only
    rw [hlen, hr6]
    omega

/-- What a zero leaves, and why. -/
inductive Refuses (s : RecvSock) : RecvSock → Prop
  | empty : s.bEmpty = true → Refuses s s
  | short : s.bEmpty = false → s.dwReadpos.toNat < s.dwWritepos.toNat → s.unreadCount < 6 →
      Refuses s s.zeroSum
  | wait : s.headerTaken → s.unreadCount < (s.headerLength + 8).toNat → s.bFull = false →
      Refuses s s.zeroSum
  | closed (σ : Byte) : Refuses s { s with sum := σ, sock := INVALID_SOCKET }

section Outcome

variable (s : RecvSock) (h : RingInv s) (h6 : 6 ≤ s.dwBufsize.toNat)
  (hB : s.dwBufsize.toNat < 2^31)
include h h6 hB

/-- A command that is announced is longer than nothing. -/
theorem len_ne_zero {t u : RecvSock} (hL : s.headerLength.toNat+8 ≤ s.unreadCount ∨
    s.headerLength.toNat+8 = 2^32) : some (0, t) ≠ some (s.headerLength + 2, u) := by
  have hle := unreadCount_le s h.toPosInv
  intro heq
  rw [Option.some.injEq, Prod.mk.injEq] at heq
  have hlen := congrArg BitVec.toNat heq.1
  rw [BitVec.toNat_add, show (2 : DWORD).toNat = 2 from rfl,
    show (0 : DWORD).toNat = 0 from rfl] at hlen
  omega

/-- The reasons for a zero. -/
theorem refuses {t : RecvSock} (hd : s.getCmdDataLength = some (0, t)) : Refuses s t := by
  have hcases := decodes s h h6 hB
  rw [hd] at hcases
  generalize hres : some ((0 : DWORD), t) = res at hcases
  have hsame {t' : RecvSock} (heq : some ((0 : DWORD), t) = some (0, t')) (hr : Refuses s t') :
      Refuses s t := by
    rw [Option.some.injEq, Prod.mk.injEq] at heq
    rw [heq.2]
    exact hr
  cases hcases with
  | empty he => exact hsame hres (Refuses.empty he)
  | short he hlt hn => exact hsame hres (Refuses.short he hlt hn)
  | wait ht hn hf => exact hsame hres (Refuses.wait ht hn hf)
  | noMagic | tooLong | badFrame => exact hsame hres (Refuses.closed _)
  | frame r _ hfit => exact absurd hres (len_ne_zero s h h6 hB (Or.inl hfit))
  | wrapped _ hv =>
    cases hv with
    | fault => contradiction
    | forged σ hf => exact absurd hres (len_ne_zero s h h6 hB (Or.inr hf.2.1))
    | reject => exact hsame hres (Refuses.closed _)

/-- A zero that leaves the socket open changes nothing but the scratch checksum. -/
theorem decode_zero {t : RecvSock} (hd : s.getCmdDataLength = some (0, t))
    (hsock : t.sock ≠ INVALID_SOCKET) : t = s ∨ t = s.zeroSum := by
  cases refuses s h h6 hB hd with
  | empty => exact Or.inl rfl
  | short | wait => exact Or.inr rfl
  | closed => exact absurd rfl hsock

/-- A command is announced for a complete frame or for a forged length. -/
theorem decode_pos {len : DWORD} {t : RecvSock} (hd : s.getCmdDataLength = some (len, t))
    (hlen : len ≠ 0) : len = s.headerLength + 2 ∧
    ((∃ r : DWORD, t = s.checked r ∧ s.headerTaken ∧ s.headerLength.toNat+8 ≤ s.unreadCount ∧
        frameChecks s.unread ∧ r.toNat ≤ s.dwBufsize.toNat ∧
        Follows s.dwBufsize.toNat s.dwReadpos.toNat 6 r.toNat) ∨
      (s.lengthWraps ∧ s.wrapForged ∧ t.read len = none)) := by
  have hcases := decodes s h h6 hB
  rw [hd] at hcases
  generalize hres : some (len, t) = res at hcases
  cases hcases with
  | empty | short | noMagic | wait | tooLong | badFrame =>
    simp only [Option.some.injEq, Prod.mk.injEq] at hres
    exact absurd hres.1 hlen
  | frame r ht hfit hk hr hf =>
    simp only [Option.some.injEq, Prod.mk.injEq] at hres
    exact ⟨hres.1, Or.inl ⟨r, hres.2, ht, hfit, hk, hr, hf⟩⟩
  | wrapped hw hv =>
    cases hv with
    | fault => contradiction
    | forged σ hf =>
      simp only [Option.some.injEq, Prod.mk.injEq] at hres
      obtain ⟨rfl, rfl⟩ := hres
      exact ⟨rfl, Or.inr ⟨hw, hf, read_forged s h.toPosInv hB σ hw hf⟩⟩
    | reject =>
      simp only [Option.some.injEq, Prod.mk.injEq] at hres
      exact absurd hres.1 hlen

/-- A length that wraps gets its verdict by the wrapped arithmetic alone. -/
theorem decode_wraps (hw : s.lengthWraps) : WrapVerdict s s.getCmdDataLength := by
  have hcases := decodes s h h6 hB
  have hle := unreadCount_le s h.toPosInv
  have hlim := s.headerLength.isLt
  obtain ⟨⟨he, hh, hm⟩, hL, hn⟩ := hw
  have hL8 : (s.headerLength + 8).toNat = s.headerLength.toNat+8-2^32 := by
    rw [BitVec.toNat_add, show (8 : DWORD).toNat = 8 from rfl]
    omega
  generalize s.getCmdDataLength = res at hcases
  cases hcases with
  | empty he' =>
    rw [he] at he'
    contradiction
  | short _ hlt hshort =>
    have hsix := hh hlt
    omega
  | noMagic _ _ hm' => exact absurd hm hm'
  | wait _ hlt | tooLong _ hlt => omega
  | frame _ _ hfit | badFrame _ hfit => omega
  | wrapped _ hv => exact hv

/-- A complete and valid frame is announced, by whichever path it is found. -/
theorem decode_frame (ht : s.headerTaken) (hfit : s.headerLength.toNat+8 ≤ s.unreadCount)
    (hk : frameChecks s.unread) :
    ∃ r : DWORD, s.getCmdDataLength = some (s.headerLength + 2, s.checked r) ∧
      r.toNat ≤ s.dwBufsize.toNat ∧
      Follows s.dwBufsize.toNat s.dwReadpos.toNat 6 r.toNat := by
  have hcases := decodes s h h6 hB
  have hle := unreadCount_le s h.toPosInv
  obtain ⟨he, hh, hm⟩ := ht
  have hL8 : (s.headerLength + 8).toNat = s.headerLength.toNat+8 := by
    rw [BitVec.toNat_add, show (8 : DWORD).toNat = 8 from rfl, Nat.mod_eq_of_lt (by omega)]
  generalize s.getCmdDataLength = res at hcases
  cases hcases with
  | empty he' =>
    rw [he] at he'
    contradiction
  | short _ hlt hshort => omega
  | noMagic _ _ hm' => exact absurd hm hm'
  | wait _ hlt | tooLong _ hlt => omega
  | frame r _ _ _ hr hf => exact ⟨r, rfl, hr, hf⟩
  | badFrame _ _ hk' => exact absurd hk hk'
  | wrapped hw =>
    have hL := hw.2.1
    omega

/-- Decoding and reading an encoded payload gives its message and leaves what follows it. -/
theorem decode_encoded (p v : List Byte) (hu : s.unread = encode p ++ v) :
    ∃ t u, s.getCmdDataLength = some (BitVec.ofNat 32 (p.length+2), t) ∧
      t.read (BitVec.ofNat 32 (p.length+2)) =
        some (BitVec.ofNat 32 (p.length+2), message p, u) ∧
      RingInv u ∧ u.unread = v ∧ u.dwBufsize = s.dwBufsize ∧ u.sock = s.sock ∧
      u.dwWritepos = s.dwWritepos ∧ u.buf = s.buf := by
  have hle := unreadCount_le s h.toPosInv
  have hcount := length_unread s h.toPosInv
  rw [hu, List.length_append, length_encode] at hcount
  have hbegin := encode_begins p v (by omega)
  rw [← hu] at hbegin
  obtain ⟨ht, hfit, hk, hL⟩ := (begins_iff s h.toPosInv _).mp hbegin
  obtain ⟨r, hd, hr, hf⟩ := decode_frame s h h6 hB ht hfit hk
  obtain ⟨r', hread, hinv, hdrop⟩ := read_frame s h.toPosInv r hfit hr hf
  have hlen : s.headerLength + 2 = BitVec.ofNat 32 (p.length+2) := by
    apply BitVec.eq_of_toNat_eq
    rw [BitVec.toNat_add, BitVec.toNat_ofNat, show (2 : DWORD).toNat = 2 from rfl, ← hL]
  rw [hlen] at hd hread
  rw [← hL, hu, encode_message] at hread
  refine ⟨_, _, hd, hread, hinv, ?_, rfl, rfl, rfl, rfl⟩
  rw [hdrop, ← hL, hu, ← length_encode p, List.drop_left]

end Outcome

theorem wrapForged_not_fault (s : RecvSock) (hf : s.wrapForged) : ¬ s.wrapFault := by
  obtain ⟨hc, hL, h2, _⟩ := hf
  unfold wrapFault
  rw [if_neg hc]
  omega

/-- The ring is in order whenever the decoder is called. -/
theorem DecodeCall.inv {_Bufsize : DWORD} (h64 : 64 < _Bufsize.toNat)
    (h31 : _Bufsize.toNat < 2^31) {s : RecvSock} (h : DecodeCall _Bufsize s) :
    RingInv s ∧ s.dwBufsize = _Bufsize := by
  induction h with
  | accept g sock fill _ hne hle =>
    obtain ⟨hinv, _, hB, _⟩ := acceptFill_spec g _ _Bufsize sock rfl fill hne (by omega)
    exact ⟨hinv, hB⟩
  | @next s t u len n bytes _ hd hlen hread ih =>
    obtain ⟨hinv, hB⟩ := ih
    rcases decode_pos s hinv (by rw [hB]; omega) (by rw [hB]; omega) hd hlen with
      ⟨rfl, ⟨r, rfl, _, hfit, _, hr, hf⟩ | ⟨_, _, hnone⟩⟩
    · obtain ⟨r', hread', hinv', _⟩ := read_frame s hinv.toPosInv r hfit hr hf
      rw [hread] at hread'
      simp only [Option.some.injEq, Prod.mk.injEq] at hread'
      obtain ⟨-, -, rfl⟩ := hread'
      exact ⟨hinv', hB⟩
    · rw [hread] at hnone
      contradiction
  | @recv s t bytes _ hd hsock hne hle ih =>
    obtain ⟨hinv, hB⟩ := ih
    have ht : RingInv t ∧ t.dwBufsize = _Bufsize := by
      rcases decode_zero s hinv (by rw [hB]; omega) (by rw [hB]; omega) hd hsock with rfl | rfl
      · exact ⟨hinv, hB⟩
      · exact ⟨hinv.zeroSum, hB⟩
    obtain ⟨w, hrun, _⟩ := receive_shape t ht.1 bytes hne hle
    refine ⟨(receive_spec t ht.1 bytes hne hle).1, ?_⟩
    rw [hrun]
    exact ht.2

/-- The wrapped lengths that get past the checks are exactly what makes the decoder unsafe. -/
theorem decodeSafe_of_inv (s : RecvSock) (h : RingInv s) (h6 : 6 ≤ s.dwBufsize.toNat)
    (hB : s.dwBufsize.toNat < 2^31) : DecodeSafe s ↔ ¬ s.lengthOverflow := by
  have hle := unreadCount_le s h.toPosInv
  constructor
  · rintro ⟨len, t, hd, hsafe⟩ ⟨hw, hbad⟩
    have hv := decode_wraps s h h6 hB hw
    rw [hd] at hv
    generalize hres : some (len, t) = res at hv
    cases hv with
    | fault => contradiction
    | forged σ hf =>
      simp only [Option.some.injEq, Prod.mk.injEq] at hres
      have hL := hf.2.1
      have hlen : len.toNat = 2^32-6 := by
        rw [hres.1, BitVec.toNat_add, show (2 : DWORD).toNat = 2 from rfl]
        omega
      have hframe := (hsafe (by intro hz; rw [hz] at hlen; contradiction)).1.complete
      rw [length_unread s h.toPosInv] at hframe
      omega
    | reject σ hnf hnw =>
      rcases hbad with hf | hf
      · exact hnf hf
      · exact hnw hf
  · intro hno
    rcases hres : s.getCmdDataLength with _ | ⟨len, t⟩
    · have hcases := decodes s h h6 hB
      rw [hres] at hcases
      cases hcases with
      | wrapped hw hv =>
        cases hv with
        | fault hf => exact absurd ⟨hw, Or.inl hf⟩ hno
    · refine ⟨len, t, hres, ?_⟩
      intro hlen
      rcases decode_pos s h h6 hB hres hlen with
        ⟨rfl, ⟨r, rfl, ht, hfit, hk, hr, hf⟩ | ⟨hw, hf, _⟩⟩
      · have hL : (s.headerLength + 2).toNat = s.headerLength.toNat+2 := by
          rw [BitVec.toNat_add, show (2 : DWORD).toNat = 2 from rfl, Nat.mod_eq_of_lt (by omega)]
        obtain ⟨r', hread, _, hdrop⟩ := read_frame s h.toPosInv r hfit hr hf
        rw [hL]
        exact ⟨(begins_iff s h.toPosInv _).mpr ⟨ht, hfit, hk, rfl⟩, _, hread, hdrop⟩
      · exact absurd ⟨hw, Or.inr hf⟩ hno

/-- Decoder safety and soundness on hostile input: whatever a client sends and however
it is cut, the decoder is safe in a state if and only if no wrapped length gets past
its checks there. -/
theorem decoder_safe_iff (_Bufsize : DWORD) (h64 : 64 < _Bufsize.toNat)
    (h31 : _Bufsize.toNat < 2^31) (s : RecvSock) (h : DecodeCall _Bufsize s) :
    DecodeSafe s ↔ ¬ s.lengthOverflow := by
  obtain ⟨hinv, hB⟩ := h.inv h64 h31
  exact decodeSafe_of_inv s hinv (by rw [hB]; omega) (by rw [hB]; exact h31)

/-- An empty frame, then a header whose length wraps: its checksum and terminator are looked up in
front of it, in the message of the frame already taken. -/
def wrappingFill : List Byte :=
  [0xfb, 0xfc, 0, 0, 0, 0, 0, 0x0d, 0xfb, 0xfc, 0xf8, 0xff, 0xff, 0xff]

def wrappingConn : RecvSock := (zeroed.connect 32641 7).acceptFill wrappingFill

theorem wrappingConn_call : DecodeCall 32641 wrappingConn :=
  .accept zeroed 7 wrappingFill (by decide) (by decide) (by decide)

theorem decoder_safe_before_wrap : DecodeSafe wrappingConn :=
  (decoder_safe_iff 32641 (by decide) (by decide) wrappingConn wrappingConn_call).mpr (by decide)

theorem decoder_unsafe_on_wrap : ∃ s t, DecodeCall 32641 s ∧
    s.unread = [0xfb, 0xfc, 0xf8, 0xff, 0xff, 0xff] ∧
    s.getCmdDataLength = some (0xfffffffa, t) ∧ t.read 0xfffffffa = none ∧ ¬ DecodeSafe s := by
  have hfirst : wrappingConn.getCmdDataLength =
      some (2, { wrappingConn with dwReadpos := 6, sum := 0 }) := rfl
  have hcall : DecodeCall 32641 { wrappingConn with dwReadpos := 8, sum := 0 } :=
    .next wrappingConn_call hfirst (by decide) rfl
  have hsecond : ({ wrappingConn with dwReadpos := 8, sum := 0 } : RecvSock).getCmdDataLength =
      some (0xfffffffa, { wrappingConn with dwReadpos := 14, sum := 0 }) := rfl
  refine ⟨_, _, hcall, rfl, hsecond, rfl, ?_⟩
  rintro ⟨len, t, hd, hsafe⟩
  rw [hsecond] at hd
  simp only [Option.some.injEq, Prod.mk.injEq] at hd
  obtain ⟨rfl, -⟩ := hd
  have hcomplete := (hsafe (by decide)).1.complete
  exact absurd hcomplete (by decide)

section Command

/-- The unread bytes begin with a complete, valid frame whose message is longer than `n`. -/
def oversizeFrame (s : RecvSock) (n : ℕ) : Prop := ∃ len, BeginsFrame s.unread len ∧ n < len

/-- What the loops take for granted when they copy a command into `pBObj`. A call that leaves the
ring returns no length, and then nothing is asked for; nor is it by a length that nothing can be
read by. -/
def CommandFits (s : RecvSock) (pBObj : BufferObj) : Prop :=
  ∀ len t, s.getCmdDataLength = some (len, t) → len.toNat ≤ pBObj.datalen.toNat ∧
    ∀ n bytes u, t.read len = some (n, bytes, u) → (pBObj.storeData bytes).isSome

theorem commandFits_of_inv (s : RecvSock) (h : RingInv s) (h6 : 6 ≤ s.dwBufsize.toNat)
    (hB : s.dwBufsize.toNat < 2^31) (pBObj : BufferObj) (hb : pBObj.datalen.toNat < 2^31) :
    CommandFits s pBObj ↔
      ¬ oversizeFrame s pBObj.datalen.toNat ∧ ¬ (s.lengthWraps ∧ s.wrapForged) := by
  have hle := unreadCount_le s h.toPosInv
  have hlim := s.headerLength.isLt
  have hlen : (s.headerLength + 2).toNat = (s.headerLength.toNat+2)%2^32 := by
    rw [BitVec.toNat_add]
    rfl
  constructor
  · intro hfits
    constructor
    · rintro ⟨len, hbegin, hlong⟩
      obtain ⟨ht, hfit, hk, rfl⟩ := (begins_iff s h.toPosInv len).mp hbegin
      obtain ⟨r, hd, _⟩ := decode_frame s h h6 hB ht hfit hk
      have hshort := (hfits _ _ hd).1
      omega
    · rintro ⟨hw, hf⟩
      have hL := hf.2.1
      have hv := decode_wraps s h h6 hB hw
      generalize hres : s.getCmdDataLength = res at hv
      cases hv with
      | fault hfault => exact wrapForged_not_fault s hf hfault
      | forged σ _ =>
        have hshort := (hfits _ _ hres).1
        omega
      | reject _ _ hnf => exact hnf hf
  · rintro ⟨hsmall, hnf⟩ len t hd
    rcases eq_or_ne len 0 with rfl | hne
    · refine ⟨Nat.zero_le _, ?_⟩
      intro n bytes u hread
      have hzero : t.read 0 = some (0, [], t) := rfl
      rw [hread] at hzero
      simp only [Option.some.injEq, Prod.mk.injEq] at hzero
      rw [hzero.2.1]
      rfl
    · rcases decode_pos s h h6 hB hd hne with
        ⟨rfl, ⟨r, rfl, ht, hfit, hk, hr, hf⟩ | ⟨hw, hf, _⟩⟩
      · have hbegin := (begins_iff s h.toPosInv _).mpr ⟨ht, hfit, hk, rfl⟩
        have hshort : s.headerLength.toNat+2 ≤ pBObj.datalen.toNat := by
          by_contra hlong
          exact hsmall ⟨_, hbegin, by omega⟩
        refine ⟨by omega, ?_⟩
        intro n bytes u hread
        obtain ⟨r', hread', _⟩ := read_frame s h.toPosInv r hfit hr hf
        rw [hread] at hread'
        simp only [Option.some.injEq, Prod.mk.injEq] at hread'
        have hstore : bytes.length ≤ pBObj.dataRoom := by
          rw [hread'.2.1, List.length_take]
          unfold BufferObj.dataRoom
          omega
        unfold BufferObj.storeData
        rw [if_pos hstore]
        rfl
      · exact absurd ⟨hw, hf⟩ hnf

/-- A decoded command fits its buffer, in every iteration of the delivery loops, if
and only if the client has not sent a valid frame that is too long for it or forged one. -/
theorem command_fits_iff (pRSock : RecvSock) (pBObj : BufferObj) (g_dwPagesize : DWORD)
    (hlo : 87 ≤ g_dwPagesize.toNat) (hhi : 8*g_dwPagesize.toNat < 2^31) (s : RecvSock)
    (h : DecodeCall (allocRSock pRSock (g_dwPagesize * 8)).dwBufsize s) :
    CommandFits s (allocBObj pBObj g_dwPagesize) ↔
      ¬ oversizeFrame s (allocBObj pBObj g_dwPagesize).datalen.toNat ∧
        ¬ (s.lengthWraps ∧ s.wrapForged) := by
  have hsize : (allocRSock pRSock (g_dwPagesize * 8)).dwBufsize.toNat =
      8*g_dwPagesize.toNat-127 := by
    change (g_dwPagesize * 8 - RECV_SOCK_SIZE).toNat = _
    have hmul : (g_dwPagesize * 8).toNat = 8*g_dwPagesize.toNat := by
      rw [BitVec.toNat_mul, show (8 : DWORD).toNat = 8 from rfl, Nat.mod_eq_of_lt (by omega),
        Nat.mul_comm]
    have hle : RECV_SOCK_SIZE ≤ g_dwPagesize * 8 := by
      rw [BitVec.le_def, hmul, show RECV_SOCK_SIZE.toNat = 127 from rfl]
      omega
    rw [BitVec.toNat_sub_of_le hle, hmul]
    rfl
  have hdata : (allocBObj pBObj g_dwPagesize).datalen.toNat = g_dwPagesize.toNat-87 := by
    change (g_dwPagesize - BUFFER_OBJ_SIZE).toNat = _
    have hle : BUFFER_OBJ_SIZE ≤ g_dwPagesize := by
      rw [BitVec.le_def, show BUFFER_OBJ_SIZE.toNat = 87 from rfl]
      exact hlo
    rw [BitVec.toNat_sub_of_le hle]
    rfl
  obtain ⟨hinv, hB⟩ := h.inv (by omega) (by omega)
  exact commandFits_of_inv s hinv (by rw [hB]; omega) (by rw [hB]; omega) _ (by omega)

/-- A connection on four-kilobyte pages whose first completion carries `fill`. -/
def pagedConn (fill : List Byte) : RecvSock :=
  (zeroed.connect (allocRSock zeroed (4096 * 8)).dwBufsize 7).acceptFill fill

theorem pagedConn_call (fill : List Byte) (hne : fill ≠ []) (hle : fill.length+64 ≤ 32641) :
    DecodeCall (allocRSock zeroed (4096 * 8)).dwBufsize (pagedConn fill) :=
  .accept zeroed 7 fill (by decide) hne hle

/-- A connection whose first completion is one frame. -/
theorem pagedConn_encoded (p : List Byte) (hle : p.length+72 ≤ 32641) :
    DecodeCall (allocRSock zeroed (4096 * 8)).dwBufsize (pagedConn (encode p)) ∧
      RingInv (pagedConn (encode p)) ∧ (pagedConn (encode p)).unread = encode p ∧
      ∃ t u, (pagedConn (encode p)).getCmdDataLength = some (BitVec.ofNat 32 (p.length+2), t) ∧
        t.read (BitVec.ofNat 32 (p.length+2)) =
          some (BitVec.ofNat 32 (p.length+2), message p, u) := by
  have hlen := length_encode p
  have hne : encode p ≠ [] := by
    intro hh
    rw [hh] at hlen
    contradiction
  have hroom : (encode p).length ≤ (allocRSock zeroed (4096 * 8)).dwBufsize.toNat := by
    rw [hlen, show (allocRSock zeroed (4096 * 8)).dwBufsize.toNat = 32641 from rfl]
    omega
  obtain ⟨hinv, hu, hB, _⟩ := acceptFill_spec zeroed _ _ 7 rfl _ hne hroom
  obtain ⟨t, u, hd, hread, _⟩ := decode_encoded _ hinv (by rw [hB]; decide) (by rw [hB]; decide)
    p [] (by rw [hu, List.append_nil])
  exact ⟨pagedConn_call _ hne (by omega), hinv, hu, t, u, hd, hread⟩

/-- A payload as long as the BUFFER_OBJ of a four-kilobyte page holds. -/
theorem longest_command_fits : ∃ s t u,
    DecodeCall (allocRSock zeroed (4096 * 8)).dwBufsize s ∧
    s.getCmdDataLength = some (4009, t) ∧
    t.read 4009 = some (4009, message (List.replicate 4007 0), u) ∧
    CommandFits s (allocBObj .zeroed 4096) := by
  have hp : (List.replicate 4007 (0 : Byte)).length = 4007 := List.length_replicate
  generalize List.replicate 4007 (0 : Byte) = p at hp ⊢
  obtain ⟨hcall, hinv, hu, t, u, hd, hread⟩ := pagedConn_encoded p (by omega)
  have hlength : (frameLength (pagedConn (encode p)).unread).toNat = 4007 := by
    rw [hu, ← List.append_nil (encode p), encode_length, hp]
    rfl
  rw [hp] at hd hread
  refine ⟨_, t, u, hcall, hd, hread, ?_⟩
  apply (command_fits_iff zeroed .zeroed 4096 (by decide) (by decide) _ hcall).mpr
  constructor
  · rintro ⟨len, hbegin, hlong⟩
    have hlen := hbegin.length
    rw [show (allocBObj .zeroed 4096).datalen.toNat = 4009 from rfl] at hlong
    omega
  · rintro ⟨hwraps, _⟩
    have hcount := length_unread _ hinv.toPosInv
    rw [hu, length_encode, hp] at hcount
    rw [(header_unread _ hinv.toPosInv (by omega)).2] at hlength
    have hwrap := hwraps.2.1
    omega

theorem long_command_overflows : ∃ s t bytes u,
    DecodeCall (allocRSock zeroed (4096 * 8)).dwBufsize s ∧
    s.unread = encode (List.replicate 20000 0) ∧ s.getCmdDataLength = some (20002, t) ∧
    t.read 20002 = some (20002, bytes, u) ∧ (allocBObj .zeroed 4096).storeData bytes = none ∧
    ¬ CommandFits s (allocBObj .zeroed 4096) := by
  have hp : (List.replicate 20000 (0 : Byte)).length = 20000 := List.length_replicate
  generalize List.replicate 20000 (0 : Byte) = p at hp ⊢
  obtain ⟨hcall, _, hu, t, u, hd, hread⟩ := pagedConn_encoded p (by omega)
  rw [hp] at hd hread
  have hstore : (allocBObj .zeroed 4096).storeData (message p) = none := by
    apply if_neg
    rw [message, List.length_append, hp, show (allocBObj .zeroed 4096).dataRoom = 4012 from rfl]
    omega
  refine ⟨_, t, _, u, hcall, hu, hd, hread, hstore, ?_⟩
  intro hfits
  have hsome := (hfits _ _ hd).2 _ _ _ hread
  rw [hstore] at hsome
  contradiction

end Command

end RecvSock

end CustomersCard
