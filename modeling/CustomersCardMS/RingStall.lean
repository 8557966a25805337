import CustomersCardMS.ReferenceDecoder

namespace CustomersCard
open Circular

namespace RecvSock

/-- The ring is filled exactly to its end, from `buf[0]` on, with part of a frame that is too long
for it: the positions differ, so bFull is not set. -/
def stalls (s : RecvSock) : Prop :=
  s.dwReadpos = 0 ∧ s.dwWritepos = s.dwBufsize ∧ frameMagic s.headerBytes ∧
    s.dwBufsize.toNat < (s.headerLength + 8).toNat

instance (s : RecvSock) : Decidable s.stalls := inferInstanceAs (Decidable (_ ∧ _ ∧ _ ∧ _))

/-- The loops call GetCmdDataLength on an open socket only. -/
theorem DecodeCall.open {_Bufsize : DWORD} (h64 : 64 < _Bufsize.toNat)
    (h31 : _Bufsize.toNat < 2^31) {s : RecvSock} (h : DecodeCall _Bufsize s) :
    s.sock ≠ INVALID_SOCKET := by
  induction h with
  | accept g sock fill hsock hne hle =>
    have hopen := (acceptFill_spec g _ _Bufsize sock rfl fill hne (by omega)).2.2.2
    intro heq
    exact hsock (hopen.symm.trans heq)
  | next hcall hd hlen hread ih =>
    obtain ⟨hinv, hB⟩ := hcall.inv h64 h31
    rcases decode_pos _ hinv (by rw [hB]; omega) (by rw [hB]; exact h31) hd hlen with
      ⟨rfl, ⟨r, rfl, _, hfit, _, hr, hf⟩ | ⟨_, _, hnone⟩⟩
    · obtain ⟨r', hread', _⟩ := read_frame _ hinv.toPosInv r hfit hr hf
      rw [hread, Option.some.injEq, Prod.mk.injEq, Prod.mk.injEq] at hread'
      rw [hread'.2.2]
      exact ih
    · rw [hread] at hnone
      contradiction
  | recv bytes hcall hd hsock hne hle _ =>
    obtain ⟨hinv, hB⟩ := hcall.inv h64 h31
    have hring := refused_ring _ hinv (by rw [hB]; omega) (by rw [hB]; exact h31) hd
    obtain ⟨w, hrun, _⟩ := receive_shape _ (hring.inv hinv) bytes hne hle
    rw [hrun]
    exact hsock

section Full

variable (s : RecvSock) (h : RingInv s)
include h

theorem offered_pos_iff : 1 ≤ s.offered ↔ s.unreadCount < s.dwBufsize.toNat := by
  have hle := unreadCount_le s h.toPosInv
  rw [offered_eq s h]
  omega

/-- A ring without room has equal positions or ends exactly at `dwBufsize`. -/
theorem full_cases (hpos : 0 < s.dwBufsize.toNat) (hfull : s.unreadCount = s.dwBufsize.toNat) :
    s.bEmpty = false ∧ (s.bFull = true ∨ s.dwReadpos = 0 ∧ s.dwWritepos = s.dwBufsize) := by
  have hnonempty := (unreadCount_pos s h.toPosInv).mp (by omega)
  have hcount := unreadCount_nonempty s hnonempty
  have hr := h.read_le
  have hw := h.write_le
  refine ⟨hnonempty, ?_⟩
  split at hcount
  · right
    constructor
    · apply BitVec.eq_of_toNat_eq
      change s.dwReadpos.toNat = 0
      omega
    · apply BitVec.eq_of_toNat_eq
      omega
  · left
    apply h.full.mpr
    refine ⟨hnonempty, ?_⟩
    apply BitVec.eq_of_toNat_eq
    omega

theorem stalls_full (hpos : 0 < s.dwBufsize.toNat) (hs : s.stalls) :
    s.bEmpty = false ∧ s.bFull = false ∧ s.unreadCount = s.dwBufsize.toNat := by
  obtain ⟨hr, hw, _⟩ := hs
  have hlt : s.dwReadpos.toNat < s.dwWritepos.toNat := by
    rw [hr, hw]
    exact hpos
  have hnonempty : s.bEmpty = false := by
    rcases he : s.bEmpty with _ | _
    · rfl
    · have heq := h.empty he
      rw [heq] at hlt
      omega
  refine ⟨hnonempty, notFull_of_lt s h hlt, ?_⟩
  rw [unreadCount_nonempty s hnonempty, if_pos hlt, hr, hw]
  rfl

end Full

section Call

variable (s : RecvSock) (h : RingInv s) (h6 : 6 ≤ s.dwBufsize.toNat)
  (hB : s.dwBufsize.toNat < 2^31)
include h h6 hB

/-- The rest of a frame that is announced too long is waited for. -/
theorem waits_long (ht : s.headerTaken) (hlong : s.unreadCount < (s.headerLength + 8).toNat)
    (hroom : s.bFull = false) : s.getCmdDataLength = some (0, s.zeroSum) := by
  have hlt := s.headerLength.isLt
  have hcases := decodes s h h6 hB
  have hlen : (s.headerLength + 8).toNat = (s.headerLength.toNat+8)%2^32 := by
    rw [BitVec.toNat_add]
    rfl
  generalize s.getCmdDataLength = res at hcases
  cases hcases with
  | empty he =>
    rw [ht.1] at he
    contradiction
  | short | wait => rfl
  | noMagic _ _ hm => exact absurd ht.2.2 hm
  | tooLong _ _ hfull =>
    rw [hroom] at hfull
    contradiction
  | frame _ _ hfit | badFrame _ hfit => omega
  | wrapped hw =>
    have hwrap := hw.2
    omega

/-- A stalled ring is waited on. -/
theorem stalls_waits (hs : s.stalls) : s.getCmdDataLength = some (0, s.zeroSum) := by
  obtain ⟨hnonempty, hnotFull, hcount⟩ := stalls_full s h (by omega) hs
  obtain ⟨_, _, hmagic, hlong⟩ := hs
  have htaken : s.headerTaken := by
    refine ⟨hnonempty, ?_, hmagic⟩
    intro _
    omega
  exact waits_long s h h6 hB htaken (by omega) hnotFull

/-- A zero with the socket open and no room behind it comes from a stalled ring. -/
theorem stalls_of_waits {t : RecvSock} (hd : s.getCmdDataLength = some (0, t))
    (hsock : t.sock ≠ INVALID_SOCKET) (hfull : s.unreadCount = s.dwBufsize.toNat) : s.stalls := by
  obtain ⟨hnonempty, hpos⟩ := full_cases s h (by omega) hfull
  cases refuses s h h6 hB hd with
  | empty he =>
    rw [hnonempty] at he
    contradiction
  | short _ _ hshort => omega
  -- Full, but not marked as full: only with the whole ring in one piece.
  | wait htaken hmore hnotFull =>
    rw [hnotFull] at hpos
    obtain ⟨hr, hw⟩ := hpos.resolve_left (by decide)
    exact ⟨hr, hw, htaken.2.2, by rw [← hfull]; exact hmore⟩
  | closed => exact absurd rfl hsock

end Call

/-- The header that is next in the ring declares a frame that has no room in it. -/
def cannotFit (s : RecvSock) : Prop :=
  s.headerTaken ∧ s.dwBufsize.toNat < s.headerLength.toNat+8

instance (s : RecvSock) : Decidable s.cannotFit := inferInstanceAs (Decidable (_ ∧ _))

/-- The receive side goes on: where the delivery loop ends, the socket is closed or the next receive
has room. A frame that cannot fit is refused: it always ends the loop, and in a full ring the
connection. -/
structure ReceivesOn (s : RecvSock) : Prop where
  room : ∀ t, s.getCmdDataLength = some (0, t) → t.sock = INVALID_SOCKET ∨ 1 ≤ t.offered
  refused : s.cannotFit → ∃ t, s.getCmdDataLength = some (0, t) ∧
    (s.unreadCount = s.dwBufsize.toNat → t.sock = INVALID_SOCKET)

section Claim

variable {_Bufsize : DWORD} (h64 : 64 < _Bufsize.toNat) (h31 : _Bufsize.toNat < 2^31)
  {s t : RecvSock} (h : DecodeCall _Bufsize s)
include h64 h31 h

/-- A zero closes the socket or leaves room, unless the ring is stalled. -/
theorem zero_room_iff (hd : s.getCmdDataLength = some (0, t)) :
    (t.sock = INVALID_SOCKET ∨ 1 ≤ t.offered) ↔ ¬s.stalls := by
  obtain ⟨hinv, hsize⟩ := h.inv h64 h31
  have hB : 6 ≤ s.dwBufsize.toNat := by rw [hsize]; omega
  have hlim : s.dwBufsize.toNat < 2^31 := by rw [hsize]; exact h31
  have hring := refused_ring s hinv hB hlim hd
  have hcount : t.unreadCount = s.unreadCount := by
    rw [← length_unread t (hring.inv hinv).toPosInv, ← length_unread s hinv.toPosInv, hring.unread]
  -- A zero leaves the ring alone, so there is room unless it was full.
  have hroom : 1 ≤ t.offered ↔ s.unreadCount < s.dwBufsize.toNat := by
    rw [offered_pos_iff t (hring.inv hinv), hcount, hring.size]
  rw [hroom]
  constructor
  · intro hor hs
    have hfull := (stalls_full s hinv (by omega) hs).2.2
    rw [stalls_waits s hinv hB hlim hs, Option.some.injEq, Prod.mk.injEq] at hd
    rcases hor with hclosed | hlt
    · rw [← hd.2] at hclosed
      exact h.open h64 h31 hclosed
    · omega
  · intro hs
    have hle := unreadCount_le s hinv.toPosInv
    by_contra hno
    rw [not_or, not_lt] at hno
    exact hs (stalls_of_waits s hinv hB hlim hd hno.1 (by omega))

/-- A frame that cannot fit ends the loop, unless its length wraps and passes the checks. -/
theorem zero_of_cannotFit (hc : s.cannotFit) (hw : ¬s.lengthOverflow) :
    ∃ t, s.getCmdDataLength = some (0, t) := by
  obtain ⟨hinv, hsize⟩ := h.inv h64 h31
  have hle := unreadCount_le s hinv.toPosInv
  obtain ⟨htaken, hlong⟩ := hc
  have hcases := decodes s hinv (by rw [hsize]; omega) (by rw [hsize]; exact h31)
  generalize s.getCmdDataLength = res at hcases
  cases hcases with
  | empty | short | noMagic | wait | tooLong | badFrame => exact ⟨_, rfl⟩
  | frame _ _ hfit => omega
  | wrapped hwraps hverdict =>
    cases hverdict with
    | fault hf => exact absurd ⟨hwraps, Or.inl hf⟩ hw
    | forged _ hf => exact absurd ⟨hwraps, Or.inr hf⟩ hw
    | reject => exact ⟨_, rfl⟩

/-- A wrapped length that passes the checks is not refused. -/
theorem passes_of_overflow (hw : s.lengthOverflow) : s.cannotFit ∧
    ∀ t, s.getCmdDataLength ≠ some (0, t) := by
  obtain ⟨hinv, hsize⟩ := h.inv h64 h31
  have hlim : s.dwBufsize.toNat < 2^31 := by rw [hsize]; exact h31
  have hcount := unreadCount_le s hinv.toPosInv
  obtain ⟨hwraps, hpass⟩ := hw
  obtain ⟨htaken, hlow, hhigh⟩ := hwraps
  refine ⟨⟨htaken, by omega⟩, ?_⟩
  intro t hd
  have hunsafe : ¬ DecodeSafe s := by
    rw [decodeSafe_of_inv s hinv (by rw [hsize]; omega) hlim]
    exact not_not.mpr ⟨⟨htaken, hlow, hhigh⟩, hpass⟩
  exact hunsafe ⟨0, t, hd, fun hne => absurd rfl hne⟩

end Claim

/-- In every call of GetCmdDataLength the receive side goes on and what cannot fit is refused, if
and only if the ring is not stalled and no wrapped length passes the checks. -/
theorem receive_side_stalls_iff (_Bufsize : DWORD) (h64 : 64 < _Bufsize.toNat)
    (h31 : _Bufsize.toNat < 2^31) (s : RecvSock) (h : DecodeCall _Bufsize s) :
    s.ReceivesOn ↔ ¬s.stalls ∧ ¬s.lengthOverflow := by
  obtain ⟨hinv, hsize⟩ := h.inv h64 h31
  have hB : 6 ≤ s.dwBufsize.toNat := by rw [hsize]; omega
  have hlim : s.dwBufsize.toNat < 2^31 := by rw [hsize]; exact h31
  constructor
  · intro hon
    constructor
    · intro hs
      have hd := stalls_waits s hinv hB hlim hs
      exact (zero_room_iff h64 h31 h hd).mp (hon.room _ hd) hs
    · intro hw
      -- A wrapped length cannot fit, and yet no zero is returned.
      obtain ⟨hc, hnone⟩ := passes_of_overflow h64 h31 h hw
      obtain ⟨t, hd, _⟩ := hon.refused hc
      exact hnone t hd
  · rintro ⟨hs, hw⟩
    have hroom (t : RecvSock) (hd : s.getCmdDataLength = some (0, t)) :
        t.sock = INVALID_SOCKET ∨ 1 ≤ t.offered := (zero_room_iff h64 h31 h hd).mpr hs
    refine ⟨hroom, ?_⟩
    intro hc
    -- A full ring that is left open would be a stalled one.
    obtain ⟨t, hd⟩ := zero_of_cannotFit h64 h31 h hc hw
    refine ⟨t, hd, ?_⟩
    intro hfull
    by_contra hopen
    exact hs (stalls_of_waits s hinv hB hlim hd hopen hfull)

/-- A frame of as many bytes as a ring of 128 has, without its last byte. -/
def almostFull : RecvSock :=
  ((zeroed.connect 128 7).acceptFill
    ([0xfb, 0xfc, 0x78, 0, 0, 0] ++ List.replicate 58 0x41)).zeroSum.receive
      (List.replicate 63 0x41)

theorem almost_full_waits : DecodeCall 128 almostFull ∧ almostFull.unreadCount = 127 ∧
    almostFull.getCmdDataLength = some (0, almostFull.zeroSum) ∧
      almostFull.zeroSum.offered = 1 ∧ almostFull.ReceivesOn := by
  have hfirst : DecodeCall 128 ((zeroed.connect 128 7).acceptFill
      ([0xfb, 0xfc, 0x78, 0, 0, 0] ++ List.replicate 58 0x41)) :=
    .accept zeroed 7 _ (by decide) (by decide) (by decide)
  have hcall : DecodeCall 128 almostFull :=
    .recv _ hfirst rfl (by decide) (by decide) (by decide +kernel)
  refine ⟨hcall, by decide +kernel, rfl, by decide +kernel, ?_⟩
  exact (receive_side_stalls_iff 128 (by decide) (by decide) _ hcall).mpr
    ⟨by decide +kernel, by decide +kernel⟩

/-- A first completion as long as AcceptEx allows, and the bytes that fill the ring up, stall
a ring of any size, if they begin a frame that is too long for it. -/
theorem long_frame_stalls (_Bufsize : DWORD) (h70 : 70 ≤ _Bufsize.toNat)
    (h31 : _Bufsize.toNat < 2^31) (g : RecvSock) (sock : SOCKET) (hsock : sock ≠ INVALID_SOCKET)
    (fill rest : List Byte) (hfill : fill.length+64 = _Bufsize.toNat) (hrest : rest.length = 64)
    (hmagic : frameMagic fill) (hlong : _Bufsize.toNat < (frameLength fill + 8).toNat) :
    ∃ s, DecodeCall _Bufsize s ∧ s.stalls := by
  have hne : fill ≠ [] := List.ne_nil_of_length_pos (by omega)
  have hne' : rest ≠ [] := List.ne_nil_of_length_pos (by omega)
  have hcall : DecodeCall _Bufsize ((g.connect _Bufsize sock).acceptFill fill) :=
    .accept g sock fill hsock hne (by omega)
  obtain ⟨hinv, hunread, hsize, _⟩ :=
    acceptFill_spec g (g.connect _Bufsize sock) _Bufsize sock rfl fill hne (by omega)
  have hread : ((g.connect _Bufsize sock).acceptFill fill).dwReadpos = 0 :=
    initWRpos_readpos _ _
  generalize (g.connect _Bufsize sock).acceptFill fill = s at hcall hinv hunread hsize hread
  have hB : 6 ≤ s.dwBufsize.toNat := by rw [hsize]; omega
  have hlim : s.dwBufsize.toNat < 2^31 := by rw [hsize]; exact h31
  have hcount : s.unreadCount = fill.length := by
    rw [← length_unread s hinv.toPosInv, hunread]
  have hroom : s.unreadCount < s.dwBufsize.toNat := by rw [hcount, hsize]; omega
  have hheader := header_unread s hinv.toPosInv (by omega)
  rw [hunread] at hheader
  -- The first completion is not the whole frame, and the loop ends with the socket open.
  have htaken : s.headerTaken := by
    refine ⟨(unreadCount_pos s hinv.toPosInv).mp (by omega), ?_, hheader.1.mp hmagic⟩
    intro _
    omega
  have hd : s.getCmdDataLength = some (0, s.zeroSum) :=
    waits_long s hinv hB hlim htaken (by rw [← hheader.2]; omega) (notFull_of_room s hinv hroom)
  have hsame : SameRing s s.zeroSum := ⟨rfl, rfl, rfl, rfl, rfl, rfl⟩
  have hinv' := hsame.inv hinv
  have hoffered : rest.length ≤ s.zeroSum.offered := by
    rw [offered_eq _ hinv']
    change rest.length ≤ s.dwBufsize.toNat-s.unreadCount
    rw [hcount, hsize]
    omega
  -- The second one ends where the ring ends.
  obtain ⟨w, hrun, hw, _⟩ := receive_shape s.zeroSum hinv' rest hne' hoffered
  obtain ⟨hinv₂, hunread₂, hcount₂, _⟩ := receive_spec s.zeroSum hinv' rest hne' hoffered
  have hread₂ : (s.zeroSum.receive rest).dwReadpos = 0 := by
    rw [hrun]
    exact hread
  have hsize₂ : (s.zeroSum.receive rest).dwBufsize = s.dwBufsize := by
    rw [hrun]
    rfl
  have hwritten : 0 < (s.zeroSum.receive rest).dwWritepos.toNat := by
    rw [hrun]
    exact hw
  have hcall₂ : DecodeCall _Bufsize (s.zeroSum.receive rest) :=
    DecodeCall.recv rest hcall hd (hcall.open (by omega) h31) hne' hoffered
  have hjoined : s.zeroSum.unread = fill := hunread
  rw [hjoined] at hunread₂
  generalize s.zeroSum.receive rest = s₂ at hinv₂ hunread₂ hcount₂ hread₂ hsize₂ hwritten hcall₂
  have hfull : s₂.unreadCount = s₂.dwBufsize.toNat := by
    rw [hcount₂, hsize₂, hsize, hrest]
    exact (congrArg (fun n => n+64) hcount).trans hfill
  have hheader₂ := header_unread s₂ hinv₂.toPosInv (by rw [hfull, hsize₂]; omega)
  obtain ⟨hm, hL⟩ := header_append fill rest (by omega)
  rw [hunread₂] at hheader₂
  refine ⟨s₂, hcall₂, hread₂, ?_, hheader₂.1.mp (hm.mpr hmagic), ?_⟩
  · rcases (full_cases s₂ hinv₂ (by rw [hsize₂]; omega) hfull).2 with hf | hpos
    · have heq := (hinv₂.full.mp hf).2
      rw [← heq, hread₂] at hwritten
      contradiction
    · exact hpos.2
  · rw [← hheader₂.2, hL, hsize₂, hsize]
    exact hlong

/-- The ring of the server, filled by 32577 and 64 bytes of a frame of 65543, is not refused
and offers nothing. -/
theorem full_ring_waits : ¬∀ s, DecodeCall 32641 s → s.ReceivesOn := by
  intro hall
  have hheader := header_append [0xfb, 0xfc, 0xff, 0xff, 0, 0] (List.replicate 32571 0) (by decide)
  obtain ⟨s, hcall, hs⟩ := long_frame_stalls 32641 (by decide) (by decide) zeroed 7 (by decide)
    ([0xfb, 0xfc, 0xff, 0xff, 0, 0] ++ List.replicate 32571 0) (List.replicate 64 0)
    (by rw [List.length_append, List.length_replicate]; rfl) (by rw [List.length_replicate])
    (hheader.1.mpr (by decide)) (by rw [hheader.2]; decide)
  obtain ⟨hinv, hsize⟩ := hcall.inv (by decide) (by decide)
  have hB : 6 ≤ s.dwBufsize.toNat := by rw [hsize]; decide
  have hlim : s.dwBufsize.toNat < 2^31 := by rw [hsize]; decide
  have hwait := stalls_waits s hinv hB hlim hs
  have hsame : SameRing s s.zeroSum := ⟨rfl, rfl, rfl, rfl, rfl, rfl⟩
  rcases (hall s hcall).room _ hwait with hclosed | hroom
  · exact hcall.open (by decide) (by decide) hclosed
  · rw [offered_pos_iff _ (hsame.inv hinv)] at hroom
    have hfull : s.zeroSum.unreadCount = s.zeroSum.dwBufsize.toNat :=
      (stalls_full s hinv (by omega) hs).2.2
    omega

end RecvSock

end CustomersCard
