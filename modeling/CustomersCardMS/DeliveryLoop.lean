import CustomersCardMS.DecoderSafety
import CustomersCardMS.StreamFraming

namespace CustomersCard
open Circular

/-- The command of a queued completion: `data[0..dwRecvedCount)`. -/
def BufferObj.command (b : BufferObj) : List Byte :=
  (List.range' 0 b.dwRecvedCount.toNat).map b.data

namespace RecvSock

/-- The loop body, from Read to the queued completion of `pBObj`. -/
def postCommand (pRSock : SockPtr) (pBObj : BufferObj) (s : RecvSock) (len : DWORD) :
    Option (BufferObj × RecvSock) := do
  let (_, bytes, s) ← s.read len
  let pBObj ← pBObj.storeData bytes
  let pBObj := { pBObj with dwRecvedCount := len, pRelateSock := some pRSock }
  some (pBObj.setIoRequestFunction .clientCmdCompletionFailed .clientCmdCompletionSuccess, s.addRef)

/-- GetCmdDataLength and the loop on its result. The objects that allocBObj takes hold whatever
`pool` says; `fuel` bounds the iterations. -/
def deliver (g_dwPagesize : DWORD) (pool : ℕ → BufferObj) (pRSock : SockPtr) :
    ℕ → RecvSock → Option (List BufferObj × RecvSock)
  | 0, _ => none
  | fuel+1, s => do
    let (len, s) ← s.getCmdDataLength
    if len = 0 then some ([], s)
    else
      let (pBObj, s) ← postCommand pRSock (allocBObj (pool fuel) g_dwPagesize) s len
      let (posted, s) ← deliver g_dwPagesize pool pRSock fuel s
      some (pBObj :: posted, s)

/-- The loop that starts in `s` calls GetCmdDataLength in the state of the index. -/
inductive LoopCall (g_dwPagesize : DWORD) (pool : ℕ → BufferObj) (pRSock : SockPtr) :
    ℕ → RecvSock → RecvSock → Prop
  | first (fuel : ℕ) (s : RecvSock) : LoopCall g_dwPagesize pool pRSock fuel s s
  | next {fuel : ℕ} {s t u v : RecvSock} {len : DWORD} {pBObj : BufferObj} :
      s.getCmdDataLength = some (len, t) → len ≠ 0 →
      postCommand pRSock (allocBObj (pool fuel) g_dwPagesize) t len = some (pBObj, u) →
      LoopCall g_dwPagesize pool pRSock fuel u v →
      LoopCall g_dwPagesize pool pRSock (fuel+1) s v

/-- Fewer than six bytes cross the end of the ring, and the stale bytes behind them make a header
that the decoder does not wait on. -/
def staleHeader (s : RecvSock) : Prop :=
  s.bEmpty = false ∧ s.dwWritepos.toNat ≤ s.dwReadpos.toNat ∧ s.unreadCount < 6 ∧
    (frameMagic s.headerBytes → (s.headerLength + 8).toNat ≤ s.unreadCount)

instance (s : RecvSock) : Decidable s.staleHeader :=
  inferInstanceAs (Decidable (_ ∧ _ ∧ _ ∧ (_ → _)))

/-- A queued completion carries exactly the bytes that were read. -/
theorem postCommand_read (pRSock : SockPtr) (pBObj : BufferObj) (s t : RecvSock) (len n : DWORD)
    (bytes : List Byte) (hread : s.read len = some (n, bytes, t))
    (hlen : len.toNat = bytes.length) (hroom : bytes.length ≤ pBObj.dataRoom) :
    ∃ posted, postCommand pRSock pBObj s len = some (posted, t.addRef) ∧
      posted.command = bytes := by
  have hstore : pBObj.storeData bytes =
      some { pBObj with data := writeAt pBObj.data (List.range' 0 bytes.length) bytes } :=
    if_pos hroom
  unfold postCommand
  simp only [hread, hstore, Option.bind_eq_bind, Option.bind_some]
  refine ⟨_, rfl, ?_⟩
  unfold BufferObj.command
  change (List.range' 0 len.toNat).map (writeAt _ _ _) = _
  rw [hlen]
  exact map_writeAt _ _ _ List.nodup_range' (by simp)

section Incomplete

variable (s : RecvSock) (h : RingInv s) (h6 : 6 ≤ s.dwBufsize.toNat)
  (hB : s.dwBufsize.toNat < 2^31) (p : List Byte) (hu : s.unread <+: encode p)
  (hlt : s.unread.length < p.length+8) (hfit : p.length+8 ≤ s.dwBufsize.toNat)
include h hB hu hlt hfit

omit hlt in
theorem incomplete_header (hsix : 6 ≤ s.unreadCount) :
    frameMagic s.headerBytes ∧ s.headerLength.toNat = p.length := by
  have hcount := length_unread s h.toPosInv
  have hheader := header_unread s h.toPosInv hsix
  obtain ⟨hm, hL⟩ := prefix_header p s.unread hu (by omega)
  refine ⟨hheader.1.mp hm, ?_⟩
  rw [← hheader.2, hL, BitVec.toNat_ofNat, Nat.mod_eq_of_lt (by omega)]

include h6

/-- An incomplete frame is waited on, unless it is taken for a header too early. -/
theorem decode_incomplete :
    (¬ s.staleHeader ∧ ∃ t, s.getCmdDataLength = some (0, t) ∧ (t = s ∨ t = s.zeroSum)) ∨
      (s.staleHeader ∧ (s.getCmdDataLength = none ∨
        ∃ t, s.getCmdDataLength = some (0, t) ∧ t.sock = INVALID_SOCKET)) := by
  have hcases := decodes s h h6 hB
  have hcount := length_unread s h.toPosInv
  have hheader := incomplete_header s h hB p hu hfit
  have hfull : s.bFull = false := notFull_of_room s h (by omega)
  have hsplit (hh : s.dwReadpos.toNat < s.dwWritepos.toNat → 6 ≤ s.unreadCount)
      (hn : s.unreadCount < 6) : s.dwWritepos.toNat ≤ s.dwReadpos.toNat := by
    by_contra hgt
    have hsix := hh (by omega)
    omega
  generalize s.getCmdDataLength = res at hcases
  cases hcases with
  | empty he =>
    left
    refine ⟨?_, s, rfl, Or.inl rfl⟩
    rintro ⟨he', _⟩
    rw [he] at he'
    contradiction
  | short _ hpos _ =>
    left
    refine ⟨?_, _, rfl, Or.inr rfl⟩
    rintro ⟨_, hle, _⟩
    omega
  -- Fewer than six bytes in two pieces: the rest of the six is what the ring held before.
  | noMagic he hh hm =>
    right
    have hn : s.unreadCount < 6 := by
      by_contra hsix
      exact hm (hheader (by omega)).1
    exact ⟨⟨he, hsplit hh hn, hn, fun hm' => absurd hm' hm⟩, Or.inr ⟨_, rfl, rfl⟩⟩
  | wait ht hlong =>
    left
    refine ⟨?_, _, rfl, Or.inr rfl⟩
    rintro ⟨_, _, _, hshort⟩
    have hle := hshort ht.2.2
    omega
  | tooLong _ _ hf =>
    rw [hfull] at hf
    contradiction
  | frame _ _ hcomplete | badFrame _ hcomplete =>
    have hL := (hheader (by omega)).2
    omega
  -- Such a length cannot come from the frame, so the header was taken too early here as well.
  | wrapped hw hv =>
    right
    obtain ⟨⟨he, hh, hm⟩, hL, hle⟩ := hw
    have hlim := s.headerLength.isLt
    have hn : s.unreadCount < 6 := by
      by_contra hsix
      have hL' := (hheader (by omega)).2
      omega
    have hL8 : (s.headerLength + 8).toNat = s.headerLength.toNat+8-2^32 := by
      rw [BitVec.toNat_add, show (8 : DWORD).toNat = 8 from rfl]
      omega
    refine ⟨⟨he, hsplit hh hn, hn, fun _ => by omega⟩, ?_⟩
    cases hv with
    | fault => exact Or.inl rfl
    | forged _ hf =>
      have hnonempty := unreadCount_nonempty s he
      have hpos := hsplit hh hn
      rw [if_neg (by omega)] at hnonempty
      exact absurd ⟨hpos, by omega⟩ hf.1
    | reject => exact Or.inr ⟨_, rfl, rfl⟩

end Incomplete

theorem RingInv.addRef {s : RecvSock} (h : RingInv s) : RingInv s.addRef :=
  ⟨⟨h.read_le, h.write_le, h.empty, h.write_pos⟩, h.full⟩

section Loop

variable (g_dwPagesize : DWORD) (pool : ℕ → BufferObj) (pRSock : SockPtr)

/-- A loop whose first GetCmdDataLength announces nothing makes no second call. -/
theorem loopCall_last {s : RecvSock} (hd : ∀ len t, s.getCmdDataLength = some (len, t) → len = 0)
    {fuel : ℕ} {u : RecvSock} (h : LoopCall g_dwPagesize pool pRSock fuel s u) : u = s := by
  cases h with
  | first => rfl
  | next hget hne => exact absurd (hd _ _ hget) hne

theorem loopCall_step {s t v : RecvSock} {len : DWORD} {pBObj : BufferObj} {fuel : ℕ}
    (hd : s.getCmdDataLength = some (len, t)) (hne : len ≠ 0)
    (hp : postCommand pRSock (allocBObj (pool fuel) g_dwPagesize) t len = some (pBObj, v))
    (u : RecvSock) : LoopCall g_dwPagesize pool pRSock (fuel+1) s u ↔
      u = s ∨ LoopCall g_dwPagesize pool pRSock fuel v u := by
  constructor
  · intro h
    cases h with
    | first => exact Or.inl rfl
    | next hd' _ hp' hu =>
      rw [hd] at hd'
      simp only [Option.some.injEq, Prod.mk.injEq] at hd'
      obtain ⟨rfl, rfl⟩ := hd'
      rw [hp] at hp'
      simp only [Option.some.injEq, Prod.mk.injEq] at hp'
      obtain ⟨-, rfl⟩ := hp'
      exact Or.inr hu
  · rintro (rfl | hu)
    · exact .first _ _
    · exact .next hd hne hp hu

theorem deliver_last {s t : RecvSock} (hd : s.getCmdDataLength = some (0, t)) (fuel : ℕ) :
    deliver g_dwPagesize pool pRSock (fuel+1) s = some ([], t) := by
  rw [deliver, hd]
  rfl

theorem deliver_step {s t v : RecvSock} {len : DWORD} {pBObj : BufferObj} {fuel : ℕ}
    (hd : s.getCmdDataLength = some (len, t)) (hne : len ≠ 0)
    (hp : postCommand pRSock (allocBObj (pool fuel) g_dwPagesize) t len = some (pBObj, v)) :
    deliver g_dwPagesize pool pRSock (fuel+1) s =
      (deliver g_dwPagesize pool pRSock fuel v).map fun r => (pBObj :: r.1, r.2) := by
  rw [deliver, hd]
  simp only [Option.bind_eq_bind, Option.bind_some, hne, ↓reduceIte, hp]
  rcases deliver g_dwPagesize pool pRSock fuel v with _ | ⟨posted, u⟩ <;> rfl

/-- What the loop does with the unread bytes where no call finds a stale header. -/
def Delivered (ps : List (List Byte)) (s : RecvSock)
    (res : Option (List BufferObj × RecvSock)) : Prop :=
  ∃ posted t, res = some (posted, t) ∧ RingInv t ∧ t.dwBufsize = s.dwBufsize ∧ t.sock = s.sock ∧
    t.dwWritepos = s.dwWritepos ∧ t.buf = s.buf ∧
    posted.map BufferObj.command =
      (StreamFraming.arrived encode ps s.unread.length).map message ∧
    (StreamFraming.arrived encode ps s.unread.length).flatMap encode ++ t.unread = s.unread

/-- What it does where one call does: it leaves the ring or closes the socket. -/
def Dropped (res : Option (List BufferObj × RecvSock)) : Prop :=
  res = none ∨ ∃ posted t, res = some (posted, t) ∧ t.sock = INVALID_SOCKET

/-- The two ends of the loop, told apart by the calls it makes. -/
def LoopVerdict (ps : List (List Byte)) (fuel : ℕ) (s : RecvSock) : Prop :=
  ((∀ v, LoopCall g_dwPagesize pool pRSock fuel s v → ¬ v.staleHeader) ∧
      Delivered ps s (deliver g_dwPagesize pool pRSock fuel s)) ∨
    ((∃ v, LoopCall g_dwPagesize pool pRSock fuel s v ∧ v.staleHeader) ∧
      Dropped (deliver g_dwPagesize pool pRSock fuel s))

/-- Where nothing complete has arrived the first call is the last one. -/
theorem verdict_of_last (ps : List (List Byte)) (s : RecvSock) (h : RingInv s)
    (hnone : StreamFraming.arrived encode ps s.unread.length = []) (fuel : ℕ)
    (hlast : (¬ s.staleHeader ∧ ∃ t, s.getCmdDataLength = some (0, t) ∧ (t = s ∨ t = s.zeroSum)) ∨
      (s.staleHeader ∧ (s.getCmdDataLength = none ∨
        ∃ t, s.getCmdDataLength = some (0, t) ∧ t.sock = INVALID_SOCKET))) :
    LoopVerdict g_dwPagesize pool pRSock ps (fuel+1) s := by
  rcases hlast with ⟨hfresh, t, hd, ht⟩ | ⟨hstale, hbad⟩
  · left
    constructor
    · intro v hv
      have hzero : ∀ len u, s.getCmdDataLength = some (len, u) → len = 0 := by
        intro len u hget
        rw [hd] at hget
        simp only [Option.some.injEq, Prod.mk.injEq] at hget
        exact hget.1.symm
      rw [loopCall_last g_dwPagesize pool pRSock hzero hv]
      exact hfresh
    · refine ⟨[], t, deliver_last g_dwPagesize pool pRSock hd fuel, ?_⟩
      rw [hnone]
      rcases ht with rfl | rfl
      · exact ⟨h, rfl, rfl, rfl, rfl, rfl, rfl⟩
      · exact ⟨h.zeroSum, rfl, rfl, rfl, rfl, rfl, rfl⟩
  · right
    refine ⟨⟨s, .first _ _, hstale⟩, ?_⟩
    rcases hbad with hd | ⟨t, hd, hsock⟩
    · left
      rw [deliver, hd]
      rfl
    · exact Or.inr ⟨[], t, deliver_last g_dwPagesize pool pRSock hd fuel, hsock⟩

/-- One iteration of the loop: a complete frame is decoded, read and queued. -/
theorem iterate_frame (p : List Byte) (s : RecvSock) (h : RingInv s)
    (h6 : 6 ≤ s.dwBufsize.toNat) (hB : s.dwBufsize.toNat < 2^31) (rest : List Byte)
    (hsplit : s.unread = encode p ++ rest)
    (hroom : p.length+2 ≤ (g_dwPagesize - BUFFER_OBJ_SIZE).toNat) (pBObj : BufferObj) :
    ∃ len t b v, s.getCmdDataLength = some (len, t) ∧ len ≠ 0 ∧
      postCommand pRSock (allocBObj pBObj g_dwPagesize) t len = some (b, v) ∧
      b.command = message p ∧ RingInv v ∧ v.unread = rest ∧ v.dwBufsize = s.dwBufsize ∧
      v.sock = s.sock ∧ v.dwWritepos = s.dwWritepos ∧ v.buf = s.buf := by
  obtain ⟨t, v, hd, hread, hinv, hun, hB', hsock, hW, hbuf⟩ :=
    decode_encoded s h h6 hB p rest hsplit
  have hcount := length_unread s h.toPosInv
  have hle := unreadCount_le s h.toPosInv
  have hlen : s.unread.length = (encode p).length+rest.length := by
    rw [hsplit, List.length_append]
  rw [length_encode] at hlen
  have hnum : (BitVec.ofNat 32 (p.length+2)).toNat = p.length+2 := by
    rw [BitVec.toNat_ofNat, Nat.mod_eq_of_lt (by omega)]
  have hne : BitVec.ofNat 32 (p.length+2) ≠ 0 := by
    intro hz
    rw [hz, show (0 : DWORD).toNat = 0 from rfl] at hnum
    omega
  have hmsg : (message p).length = p.length+2 := by simp [message]
  obtain ⟨b, hpost, hcmd⟩ := postCommand_read pRSock (allocBObj pBObj g_dwPagesize) t v _ _ _
    hread (by rw [hnum, hmsg]) (by
      rw [hmsg]
      exact Nat.le_add_right_of_le hroom)
  exact ⟨_, t, b, v.addRef, hd, hne, hpost, hcmd, hinv.addRef, hun, hB', hsock, hW, hbuf⟩

/-- A complete frame is taken in one iteration, and the rest of the loop decides. -/
theorem verdict_of_frame (p : List Byte) (ps : List (List Byte)) (s : RecvSock) (h : RingInv s)
    (h6 : 6 ≤ s.dwBufsize.toNat) (hB : s.dwBufsize.toNat < 2^31) (rest : List Byte)
    (hsplit : s.unread = encode p ++ rest)
    (hroom : p.length+2 ≤ (g_dwPagesize - BUFFER_OBJ_SIZE).toNat) (fuel : ℕ)
    (ih : ∀ v, RingInv v → v.dwBufsize = s.dwBufsize → v.unread = rest →
      LoopVerdict g_dwPagesize pool pRSock ps fuel v) :
    LoopVerdict g_dwPagesize pool pRSock (p :: ps) (fuel+1) s := by
  obtain ⟨len, t, b, v, hd, hne, hpost, hcmd, hinv, hun, hB', hsock, hW, hbuf⟩ :=
    iterate_frame g_dwPagesize pRSock p s h h6 hB rest hsplit hroom (pool fuel)
  have hstep := loopCall_step g_dwPagesize pool pRSock hd hne hpost
  have hrun := deliver_step g_dwPagesize pool pRSock hd hne hpost
  have hfresh : ¬ s.staleHeader := by
    rintro ⟨_, _, hshort, _⟩
    rw [← length_unread s h.toPosInv, hsplit, List.length_append, length_encode] at hshort
    omega
  have harr : StreamFraming.arrived encode (p :: ps) s.unread.length =
      p :: StreamFraming.arrived encode ps rest.length := by
    rw [hsplit, List.length_append, StreamFraming.arrived_cons_of_le]
  rcases ih v hinv hB' hun with
    ⟨hall, posted, w, hdel, hw, hwB, hws, hwW, hwbuf, hmap, hrest⟩ | ⟨⟨u, hu, hstale⟩, hbad⟩
  · left
    constructor
    · intro u hu
      rcases (hstep u).mp hu with rfl | hu
      · exact hfresh
      · exact hall u hu
    · rw [hun] at hmap hrest
      refine ⟨b :: posted, w, by rw [hrun, hdel]; rfl, hw, hwB.trans hB', hws.trans hsock,
        hwW.trans hW, hwbuf.trans hbuf, ?_, ?_⟩
      · rw [harr, List.map_cons, List.map_cons, hcmd, hmap]
      · rw [harr, List.flatMap_cons, List.append_assoc, hrest, hsplit]
  · right
    refine ⟨⟨u, (hstep u).mpr (Or.inr hu), hstale⟩, ?_⟩
    rw [hrun]
    rcases hbad with hnone | ⟨posted, w, hdel, hw⟩
    · exact Or.inl (by rw [hnone]; rfl)
    · exact Or.inr ⟨b :: posted, w, by rw [hdel]; rfl, hw⟩

/-- The delivery loop on a cut of the encoded stream: induction over the payloads, a
complete frame per iteration and an incomplete one at the end. -/
theorem deliver_arrived (ps : List (List Byte)) (s : RecvSock) (h : RingInv s)
    (h6 : 6 ≤ s.dwBufsize.toNat) (hB : s.dwBufsize.toNat < 2^31)
    (hps : ∀ p ∈ ps, p.length+8 ≤ s.dwBufsize.toNat ∧
      p.length+2 ≤ (g_dwPagesize - BUFFER_OBJ_SIZE).toNat)
    (hu : s.unread <+: ps.flatMap encode) (fuel : ℕ) (hfuel : s.unread.length < fuel) :
    LoopVerdict g_dwPagesize pool pRSock ps fuel s := by
  induction ps generalizing s fuel with
  | nil =>
    obtain ⟨fuel, rfl⟩ := Nat.exists_eq_succ_of_ne_zero (by omega : fuel ≠ 0)
    have he := (bEmpty_iff_unread s h.toPosInv).mpr (List.prefix_nil.mp hu)
    have hfresh : ¬ s.staleHeader := by
      intro hstale
      have hne := hstale.1
      rw [he] at hne
      contradiction
    exact verdict_of_last g_dwPagesize pool pRSock [] s h rfl fuel
      (Or.inl ⟨hfresh, s, if_pos he, Or.inl rfl⟩)
  | cons p ps ih =>
    obtain ⟨fuel, rfl⟩ := Nat.exists_eq_succ_of_ne_zero (by omega : fuel ≠ 0)
    obtain ⟨hfit, hroom⟩ := hps p List.mem_cons_self
    rcases StreamFraming.prefix_cons encode p ps s.unread hu with
      ⟨rest, hsplit, hrest⟩ | ⟨hpre, hlt⟩
    · apply verdict_of_frame g_dwPagesize pool pRSock p ps s h h6 hB rest hsplit hroom
      intro v hv hvB hvu
      have hlen : s.unread.length = (encode p).length+rest.length := by
        rw [hsplit, List.length_append]
      rw [length_encode] at hlen
      apply ih v hv
      · rw [hvB]
        exact h6
      · rw [hvB]
        exact hB
      · rw [hvB]
        exact fun q hq => hps q (List.mem_cons_of_mem p hq)
      · rw [hvu]
        exact hrest
      · rw [hvu]
        omega
    · have hnone := StreamFraming.arrived_cons_of_lt encode p ps _ hlt
      rw [length_encode] at hlt
      exact verdict_of_last g_dwPagesize pool pRSock _ s h hnone fuel
        (decode_incomplete s h h6 hB p hpre hlt hfit)

/-- A completion that ends with a frame is delivered and leaves nothing unread. -/
theorem deliver_whole (ps : List (List Byte)) (s : RecvSock) (h : RingInv s)
    (h6 : 6 ≤ s.dwBufsize.toNat) (hB : s.dwBufsize.toNat < 2^31)
    (hps : ∀ p ∈ ps, p.length+2 ≤ (g_dwPagesize - BUFFER_OBJ_SIZE).toNat)
    (hu : s.unread = ps.flatMap encode) (fuel : ℕ) (hfuel : ps.length < fuel) :
    ∃ posted t, deliver g_dwPagesize pool pRSock fuel s = some (posted, t) ∧ RingInv t ∧
      t.unread = [] ∧ t.dwBufsize = s.dwBufsize ∧ t.sock = s.sock ∧
      t.dwWritepos = s.dwWritepos ∧ t.buf = s.buf := by
  obtain ⟨fuel, rfl⟩ := Nat.exists_eq_succ_of_ne_zero (by omega : fuel ≠ 0)
  induction ps generalizing s fuel with
  | nil =>
    have he := (bEmpty_iff_unread s h.toPosInv).mpr hu
    exact ⟨[], s, deliver_last g_dwPagesize pool pRSock (if_pos he) fuel, h, hu, rfl, rfl, rfl, rfl⟩
  | cons p ps ih =>
    rw [List.length_cons] at hfuel
    obtain ⟨fuel, rfl⟩ := Nat.exists_eq_succ_of_ne_zero (by omega : fuel ≠ 0)
    obtain ⟨len, t, b, v, hd, hne, hpost, _, hinv, hun, hvB, hsock, hW, hbuf⟩ :=
      iterate_frame g_dwPagesize pRSock p s h h6 hB (ps.flatMap encode) hu
        (hps p List.mem_cons_self) (pool (fuel+1))
    obtain ⟨posted, w, hdel, hw, hwu, hwB, hws, hwW, hwbuf⟩ := ih v hinv (by rw [hvB]; exact h6)
      (by rw [hvB]; exact hB) (fun q hq => hps q (List.mem_cons_of_mem p hq)) hun fuel (by omega)
    refine ⟨b :: posted, w, ?_, hw, hwu, hwB.trans hvB, hws.trans hsock, hwW.trans hW,
      hwbuf.trans hbuf⟩
    rw [deliver_step g_dwPagesize pool pRSock hd hne hpost, hdel]
    rfl

end Loop

end RecvSock

end CustomersCard
