import CustomersCardMS.DecoderSafety

namespace CustomersCard
open Circular

/-- The decoder of a linear buffer: the length of the message that it begins with. -/
def referenceDecode (u : List Byte) : Option ℕ :=
  if frameMagic u ∧ frameChecks u then some ((frameLength u).toNat+2) else none

namespace RecvSock

/-- The states between two operations on a ring of `_Bufsize` bytes. -/
inductive Reached (_Bufsize : DWORD) : RecvSock → Prop
  | init (g : RecvSock) (sock : SOCKET) : Reached _Bufsize (g.connect _Bufsize sock)
  | accept (g : RecvSock) (sock : SOCKET) (fill : List Byte) : fill ≠ [] →
      fill.length ≤ _Bufsize.toNat → Reached _Bufsize ((g.connect _Bufsize sock).acceptFill fill)
  | receive {s : RecvSock} (bytes : List Byte) : Reached _Bufsize s → bytes ≠ [] →
      bytes.length ≤ s.offered → Reached _Bufsize (s.receive bytes)
  | read {s t : RecvSock} {dwNum n : DWORD} {bytes : List Byte} : Reached _Bufsize s →
      0 < dwNum.toNat → dwNum.toNat ≤ s.unread.length → s.read dwNum = some (n, bytes, t) →
      Reached _Bufsize t
  | refuse {s t : RecvSock} : Reached _Bufsize s → s.getCmdDataLength = some (0, t) →
      Reached _Bufsize t
  | command {s t u : RecvSock} {len n : DWORD} {bytes : List Byte} : Reached _Bufsize s →
      s.getCmdDataLength = some (len, t) → len ≠ 0 → t.read len = some (n, bytes, u) →
      Reached _Bufsize u

/-- The ring, and what is in it, without the handle and the scratch checksum. -/
structure SameRing (s t : RecvSock) : Prop where
  size : t.dwBufsize = s.dwBufsize
  readpos : t.dwReadpos = s.dwReadpos
  writepos : t.dwWritepos = s.dwWritepos
  full : t.bFull = s.bFull
  empty : t.bEmpty = s.bEmpty
  buf : t.buf = s.buf

theorem SameRing.inv {s t : RecvSock} (h : SameRing s t) (hs : RingInv s) : RingInv t := by
  constructor
  · constructor
    · rw [h.readpos, h.size]
      exact hs.read_le
    · rw [h.writepos, h.size]
      exact hs.write_le
    · rw [h.empty, h.readpos, h.writepos]
      exact hs.empty
    · rw [h.empty, h.writepos]
      exact hs.write_pos
  · rw [h.full, h.empty, h.readpos, h.writepos]
    exact hs.full

theorem SameRing.unread {s t : RecvSock} (h : SameRing s t) : t.unread = s.unread := by
  unfold RecvSock.unread unreadCells
  rw [h.buf, h.empty, h.readpos, h.writepos, h.size]

section Outcome

variable (s : RecvSock) (h : RingInv s) (h6 : 6 ≤ s.dwBufsize.toNat)
  (hB : s.dwBufsize.toNat < 2^31)
include h h6 hB

/-- A zero leaves the ring as it was. -/
theorem refused_ring {t : RecvSock} (hd : s.getCmdDataLength = some (0, t)) : SameRing s t := by
  cases refuses s h h6 hB hd with
  | empty | short | wait | closed => exact ⟨rfl, rfl, rfl, rfl, rfl, rfl⟩

end Outcome

theorem Reached.inv {_Bufsize : DWORD} (h64 : 64 < _Bufsize.toNat) (h31 : _Bufsize.toNat < 2^31)
    {s : RecvSock} (h : Reached _Bufsize s) : RingInv s ∧ s.dwBufsize = _Bufsize := by
  induction h with
  | init g sock =>
    have hsame : SameRing (g.init _Bufsize) (g.connect _Bufsize sock) :=
      ⟨rfl, rfl, rfl, rfl, rfl, rfl⟩
    exact ⟨hsame.inv (init_inv g _Bufsize), rfl⟩
  | accept g sock fill hne hle =>
    obtain ⟨hinv, _, hB, _⟩ := acceptFill_spec g _ _Bufsize sock rfl fill hne hle
    exact ⟨hinv, hB⟩
  | receive bytes _ hne hle ih =>
    obtain ⟨hinv, hB⟩ := ih
    obtain ⟨w, hrun, _⟩ := receive_shape _ hinv bytes hne hle
    refine ⟨(receive_spec _ hinv bytes hne hle).1, ?_⟩
    rw [hrun]
    exact hB
  | read _ hpos hle hread ih =>
    obtain ⟨hinv, hB⟩ := ih
    rw [length_unread _ hinv.toPosInv] at hle
    obtain ⟨r, hread', hinv', _⟩ := read_spec _ hinv.toPosInv _ hpos hle
    rw [hread, Option.some.injEq, Prod.mk.injEq, Prod.mk.injEq] at hread'
    rw [hread'.2.2]
    exact ⟨hinv', hB⟩
  | refuse _ hd ih =>
    obtain ⟨hinv, hB⟩ := ih
    have hsame := refused_ring _ hinv (by rw [hB]; omega) (by rw [hB]; exact h31) hd
    exact ⟨hsame.inv hinv, hsame.size.trans hB⟩
  | command _ hd hlen hread ih =>
    obtain ⟨hinv, hB⟩ := ih
    rcases decode_pos _ hinv (by rw [hB]; omega) (by rw [hB]; exact h31) hd hlen with
      ⟨rfl, ⟨r, rfl, _, hfit, _, hr, hf⟩ | ⟨_, _, hnone⟩⟩
    · obtain ⟨r', hread', hinv', _⟩ := read_frame _ hinv.toPosInv r hfit hr hf
      rw [hread, Option.some.injEq, Prod.mk.injEq, Prod.mk.injEq] at hread'
      rw [hread'.2.2]
      exact ⟨hinv', hB⟩
    · rw [hread] at hnone
      contradiction

/-- The flags say how much is left. -/
structure FlagsRight (s : RecvSock) : Prop where
  empty : s.bEmpty = true ↔ s.unread = []
  full : s.bFull = true → s.unread.length = s.dwBufsize.toNat
  notFull : s.unread.length < s.dwBufsize.toNat → s.bFull = false

theorem RingInv.flagsRight {s : RecvSock} (h : RingInv s) : FlagsRight s := by
  constructor
  · exact bEmpty_iff_unread s h.toPosInv
  · intro hfull
    obtain ⟨he, heq⟩ := h.full.mp hfull
    have hr := h.read_le
    rw [length_unread s h.toPosInv, unreadCount_nonempty s he, heq, if_neg (lt_irrefl _)]
    rw [heq] at hr
    omega
  · intro hlt
    rw [length_unread s h.toPosInv] at hlt
    exact notFull_of_room s h hlt

/-- GetCmdDataLength, and the Read that follows it, as the reference decoder has them. -/
structure Agrees (s : RecvSock) : Prop where
  accepts : ∀ n, referenceDecode s.unread = some n → ∃ len t u,
    s.getCmdDataLength = some (len, t) ∧ len.toNat = n ∧ t.sock = s.sock ∧
      t.read len = some (len, (s.unread.drop 6).take n, u) ∧ u.unread = s.unread.drop (n+6) ∧
      FlagsRight u
  rejects : referenceDecode s.unread = none → ∃ t,
    s.getCmdDataLength = some (0, t) ∧ t.sock = INVALID_SOCKET ∧ t.unread = s.unread ∧ FlagsRight t

/-- The three paths of the decoder agree with the reference decoder on every frame that has
been received completely. -/
theorem decoder_agrees_with_reference (_Bufsize : DWORD) (h64 : 64 < _Bufsize.toNat)
    (h31 : _Bufsize.toNat < 2^31) (s : RecvSock) (h : Reached _Bufsize s) (h6 : 6 ≤ s.unread.length)
    (hfit : (frameLength s.unread).toNat+8 ≤ s.unread.length) : Agrees s := by
  obtain ⟨hinv, hsize⟩ := h.inv h64 h31
  have hB : 6 ≤ s.dwBufsize.toNat := by rw [hsize]; omega
  have hlim : s.dwBufsize.toNat < 2^31 := by rw [hsize]; exact h31
  have hle := unreadCount_le s hinv.toPosInv
  rw [length_unread s hinv.toPosInv] at h6 hfit
  obtain ⟨hmagic, hlength⟩ := header_unread s hinv.toPosInv h6
  rw [hlength] at hfit
  have hlen2 : (s.headerLength + 2).toNat = s.headerLength.toNat+2 := by
    rw [BitVec.toNat_add, show (2 : DWORD).toNat = 2 from rfl, Nat.mod_eq_of_lt (by omega)]
  have hlen8 : (s.headerLength + 8).toNat = s.headerLength.toNat+8 := by
    rw [BitVec.toNat_add, show (8 : DWORD).toNat = 8 from rfl, Nat.mod_eq_of_lt (by omega)]
  constructor
  · intro n hn
    unfold referenceDecode at hn
    split at hn
    · case isTrue hok =>
      rw [hlength, Option.some.injEq] at hn
      have hbegin : BeginsFrame s.unread n := by
        refine ⟨?_, hok.1, ?_, hok.2⟩
        · rw [length_unread s hinv.toPosInv]
          omega
        · rw [hlength]
          exact hn
      obtain ⟨ht, _, hchecks, _⟩ := (begins_iff s hinv.toPosInv n).mp hbegin
      obtain ⟨r, hd, hr, hf⟩ := decode_frame s hinv hB hlim ht hfit hchecks
      obtain ⟨r', hread, hinv', hdrop⟩ := read_frame s hinv.toPosInv r hfit hr hf
      rw [← hn]
      exact ⟨_, _, _, hd, hlen2, rfl, hread, hdrop, hinv'.flagsRight⟩
    · contradiction
  · intro hnone
    have hbad : ¬(frameMagic s.unread ∧ frameChecks s.unread) := by
      intro hok
      unfold referenceDecode at hnone
      rw [if_pos hok] at hnone
      contradiction
    have hclosed (t : RecvSock) (hd : s.getCmdDataLength = some (0, t))
        (ht : t.sock = INVALID_SOCKET) : ∃ t, s.getCmdDataLength = some (0, t) ∧
          t.sock = INVALID_SOCKET ∧ t.unread = s.unread ∧ FlagsRight t := by
      have hsame := refused_ring s hinv hB hlim hd
      exact ⟨t, hd, ht, hsame.unread, (hsame.inv hinv).flagsRight⟩
    have hcases := decodes s hinv hB hlim
    generalize hres : s.getCmdDataLength = res at hcases
    rw [hres] at hclosed
    have hnonempty := (unreadCount_pos s hinv.toPosInv).mp (by omega)
    cases hcases with
    | empty hempty =>
      rw [hnonempty] at hempty
      contradiction
    | short _ _ hshort => omega
    | wait _ hmore _ | tooLong _ hmore _ => omega
    | noMagic | badFrame => exact hclosed _ rfl rfl
    | frame r htaken _ hchecks =>
      exact absurd ⟨hmagic.mpr htaken.2.2, hchecks⟩ hbad
    | wrapped hw =>
      have hwrap := hw.2.1
      omega

/-- A ring of 128 whose first 124 bytes have been taken, so that the header of the next frame
crosses the end. -/
theorem split_header_agrees : ∃ s, Reached 128 s ∧ s.dwReadpos = 124 ∧ s.dwWritepos = 44 ∧
    referenceDecode s.unread = some 42 ∧ Agrees s := by
  have hplay : (((zeroed.connect 128 7).acceptFill (List.replicate 124 0x41)).read 124).map
      (fun r =>
      let t := r.2.2.receive (encode (List.replicate 40 0x42))
      (decide ((encode (List.replicate 40 0x42)).length ≤ r.2.2.offered), t.dwReadpos,
        t.dwWritepos, referenceDecode t.unread, decide (6 ≤ t.unread.length ∧
          (frameLength t.unread).toNat+8 ≤ t.unread.length))) =
      some (true, 124, 44, some 42, true) := by decide +kernel
  obtain ⟨⟨n, bytes, t⟩, hread, hres⟩ := Option.map_eq_some_iff.mp hplay
  simp only [Prod.mk.injEq, decide_eq_true_eq] at hres
  obtain ⟨hroom, hr, hw, hdecode, h6, hfit⟩ := hres
  have hfirst : Reached 128 ((zeroed.connect 128 7).acceptFill (List.replicate 124 0x41)) :=
    Reached.accept zeroed 7 _ (by decide +kernel) (by decide +kernel)
  have hreached := (hfirst.read (by decide) (by decide +kernel) hread).receive
    (encode (List.replicate 40 0x42)) (by decide) hroom
  exact ⟨_, hreached, hr, hw, hdecode,
    decoder_agrees_with_reference 128 (by decide) (by decide) _ hreached h6 hfit⟩

end RecvSock

end CustomersCard
