import CustomersCardMS.DeliveryLoop

namespace CustomersCard
open StreamFraming

namespace RecvSock

section Session

variable (_Bufsize g_dwPagesize : DWORD) (pool : ℕ → BufferObj) (pRSock : SockPtr) (sock : SOCKET)
  (ps : List (List Byte))

/-- The loop of one completion. It ends within as many iterations as the ring has bytes. -/
def completionLoop (s : RecvSock) : Option (List BufferObj × RecvSock) :=
  deliver g_dwPagesize pool pRSock (_Bufsize.toNat+1) s

/-- The bytes received and the commands queued before a loop, and the state it starts in. A closed
socket takes no further receive. -/
inductive Arrives : List Byte → List BufferObj → RecvSock → Prop
  | accept (g : RecvSock) (fill : List Byte) : fill ≠ [] → fill.length+64 ≤ _Bufsize.toNat →
      fill <+: ps.flatMap encode → Arrives fill [] ((g.connect _Bufsize sock).acceptFill fill)
  | recv {rcvd : List Byte} {posted more : List BufferObj} {s t : RecvSock} (bytes : List Byte) :
      Arrives rcvd posted s →
      completionLoop _Bufsize g_dwPagesize pool pRSock s = some (more, t) →
      t.sock ≠ INVALID_SOCKET → bytes ≠ [] → bytes.length ≤ t.offered →
      rcvd ++ bytes <+: ps.flatMap encode →
      Arrives (rcvd ++ bytes) (posted ++ more) (t.receive bytes)

/-- The loop queues the messages of exactly the payloads that have arrived by now, and leaves the
socket open. -/
def RoundTrip (rcvd : List Byte) (posted : List BufferObj) (s : RecvSock) : Prop :=
  ∃ more t, completionLoop _Bufsize g_dwPagesize pool pRSock s = some (more, t) ∧ t.sock = sock ∧
    (posted ++ more).map BufferObj.command = (arrived encode ps rcvd.length).map message

/-- What holds before a loop: the payloads queued so far, and what is left in the ring. -/
structure SessionInv (rcvd : List Byte) (posted : List BufferObj) (s : RecvSock)
    (done rest : List (List Byte)) : Prop where
  ring : RingInv s
  size : s.dwBufsize = _Bufsize
  sock : s.sock = sock
  split : ps = done ++ rest
  queued : posted.map BufferObj.command = done.map message
  received : rcvd = done.flatMap encode ++ s.unread
  ahead : s.unread <+: rest.flatMap encode

variable {_Bufsize g_dwPagesize sock ps}

theorem SessionInv.loop {rcvd : List Byte} {posted : List BufferObj} {s : RecvSock}
    {done rest : List (List Byte)} (h64 : 64 < _Bufsize.toNat) (h31 : _Bufsize.toNat < 2^31)
    (hps : ∀ p ∈ ps, p.length+8 ≤ _Bufsize.toNat ∧
      p.length+2 ≤ (g_dwPagesize - BUFFER_OBJ_SIZE).toNat)
    (h : SessionInv _Bufsize sock ps rcvd posted s done rest) :
    LoopVerdict g_dwPagesize pool pRSock rest (_Bufsize.toNat+1) s := by
  have hsize := h.size
  have hle := unreadCount_le s h.ring.toPosInv
  rw [← length_unread s h.ring.toPosInv, hsize] at hle
  apply deliver_arrived
  · exact h.ring
  · rw [hsize]
    omega
  · rw [hsize]
    exact h31
  · intro p hp
    rw [hsize]
    exact hps p (by rw [h.split]; exact List.mem_append_right done hp)
  · exact h.ahead
  · omega

variable {pool pRSock}

/-- A loop that has delivered leaves the invariant for the payloads still to come, and the
next receive appends to what it left. -/
theorem SessionInv.receive {rcvd : List Byte} {posted more : List BufferObj} {s t : RecvSock}
    {done rest : List (List Byte)} {bytes : List Byte}
    (h : SessionInv _Bufsize sock ps rcvd posted s done rest)
    (hd : Delivered rest s (some (more, t))) (hne : bytes ≠ []) (hroom : bytes.length ≤ t.offered)
    (hstream : rcvd ++ bytes <+: ps.flatMap encode) :
    ∃ done' rest', SessionInv _Bufsize sock ps (rcvd ++ bytes) (posted ++ more)
      (t.receive bytes) done' rest' := by
  obtain ⟨more', t', hres, ht, htB, hts, _, _, hmap, hrest⟩ := hd
  simp only [Option.some.injEq, Prod.mk.injEq] at hres
  obtain ⟨rfl, rfl⟩ := hres
  obtain ⟨later, hlater⟩ := arrived_prefix encode rest s.unread.length
  obtain ⟨hring, hun, _⟩ := receive_spec t ht bytes hne hroom
  obtain ⟨w, hrun, _⟩ := receive_shape t ht bytes hne hroom
  have hrcvd : rcvd ++ bytes = (done ++ arrived encode rest s.unread.length).flatMap encode ++
      (t.receive bytes).unread := by
    rw [h.received, List.flatMap_append, hun, List.append_assoc, List.append_assoc,
      ← List.append_assoc _ t.unread, hrest]
  have hsplit : ps = (done ++ arrived encode rest s.unread.length) ++ later := by
    rw [List.append_assoc, hlater]
    exact h.split
  refine ⟨_, later, hring, ?_, ?_, hsplit, ?_, hrcvd, ?_⟩
  · rw [hrun]
    exact htB.trans h.size
  · rw [hrun]
    exact hts.trans h.sock
  · rw [List.map_append, List.map_append, h.queued, hmap]
  · generalize done ++ arrived encode rest s.unread.length = front at hrcvd hsplit
    rw [hrcvd, hsplit, List.flatMap_append, List.prefix_append_right_inj] at hstream
    exact hstream

theorem Arrives.inv {rcvd : List Byte} {posted : List BufferObj} {s : RecvSock}
    (h64 : 64 < _Bufsize.toNat) (h31 : _Bufsize.toNat < 2^31)
    (hps : ∀ p ∈ ps, p.length+8 ≤ _Bufsize.toNat ∧
      p.length+2 ≤ (g_dwPagesize - BUFFER_OBJ_SIZE).toNat)
    (h : Arrives _Bufsize g_dwPagesize pool pRSock sock ps rcvd posted s) :
    ∃ done rest, SessionInv _Bufsize sock ps rcvd posted s done rest := by
  induction h with
  | accept g fill hne hle hpre =>
    obtain ⟨hring, hun, hB, hs⟩ := acceptFill_spec g _ _Bufsize sock rfl fill hne (by omega)
    exact ⟨[], ps, hring, hB, hs, rfl, rfl, hun.symm, by rw [← hun] at hpre; exact hpre⟩
  | @recv rcvd posted more s t bytes _ hloop hopen hne hroom hstream ih =>
    obtain ⟨done, rest, hinv⟩ := ih
    rcases hinv.loop pool pRSock h64 h31 hps with ⟨_, hdel⟩ | ⟨_, hnone | ⟨_, _, hsome, hclosed⟩⟩
    · change Delivered rest s (completionLoop _Bufsize g_dwPagesize pool pRSock s) at hdel
      rw [hloop] at hdel
      exact hinv.receive hdel hne hroom hstream
    · change completionLoop _Bufsize g_dwPagesize pool pRSock s = none at hnone
      rw [hloop] at hnone
      contradiction
    · change completionLoop _Bufsize g_dwPagesize pool pRSock s = _ at hsome
      rw [hloop] at hsome
      simp only [Option.some.injEq, Prod.mk.injEq] at hsome
      rw [hsome.2] at hopen
      exact absurd hclosed hopen

/-- Framing round trip under any fragmentation: whatever the client sends and however it
is cut, each loop queues exactly the messages that have arrived and leaves the socket
open, if and only if no GetCmdDataLength it makes takes stale bytes for a header. -/
theorem framing_round_trip_iff (h64 : 64 < _Bufsize.toNat) (h31 : _Bufsize.toNat < 2^31)
    (hsock : sock ≠ INVALID_SOCKET)
    (hps : ∀ p ∈ ps, p.length+8 ≤ _Bufsize.toNat ∧
      p.length+2 ≤ (g_dwPagesize - BUFFER_OBJ_SIZE).toNat)
    {rcvd : List Byte} {posted : List BufferObj} {s : RecvSock}
    (h : Arrives _Bufsize g_dwPagesize pool pRSock sock ps rcvd posted s) :
    RoundTrip _Bufsize g_dwPagesize pool pRSock sock ps rcvd posted s ↔
      ∀ v, LoopCall g_dwPagesize pool pRSock (_Bufsize.toNat+1) s v → ¬ v.staleHeader := by
  obtain ⟨done, rest, hinv⟩ := h.inv h64 h31 hps
  rcases hinv.loop pool pRSock h64 h31 hps with
    ⟨hfresh, more, t, hdel, _, _, hs, _, _, hmap, _⟩ | ⟨⟨v, hv, hstale⟩, hbad⟩
  · constructor
    · exact fun _ => hfresh
    · intro _
      refine ⟨more, t, hdel, hs.trans hinv.sock, ?_⟩
      rw [hinv.received, List.length_append, hinv.split, arrived_append, List.map_append,
        List.map_append, hinv.queued, hmap]
  · constructor
    · rintro ⟨more, t, hloop, hs, _⟩
      unfold completionLoop at hloop
      rcases hbad with hnone | ⟨more', t', hsome, hclosed⟩
      · rw [hloop] at hnone
        contradiction
      · rw [hloop] at hsome
        simp only [Option.some.injEq, Prod.mk.injEq] at hsome
        rw [← hsome.2, hs] at hclosed
        exact absurd hclosed hsock
    · intro hfresh
      exact absurd hstale (hfresh v hv)

end Session

/-- The condition on the calls of a loop, checked in one call after the other. -/
def loopFresh (g_dwPagesize : DWORD) (pool : ℕ → BufferObj) (pRSock : SockPtr) :
    ℕ → RecvSock → Bool
  | 0, s => !decide s.staleHeader
  | fuel+1, s => !decide s.staleHeader &&
    match s.getCmdDataLength with
    | none => true
    | some (len, t) =>
      if len = 0 then true
      else
        match postCommand pRSock (allocBObj (pool fuel) g_dwPagesize) t len with
        | none => true
        | some (_, u) => loopFresh g_dwPagesize pool pRSock fuel u

theorem fresh_of_loopFresh {g_dwPagesize : DWORD} {pool : ℕ → BufferObj} {pRSock : SockPtr}
    {fuel : ℕ} {s v : RecvSock} (hcall : LoopCall g_dwPagesize pool pRSock fuel s v)
    (h : loopFresh g_dwPagesize pool pRSock fuel s = true) : ¬ v.staleHeader := by
  induction hcall with
  | first fuel s =>
    cases fuel with
    | zero => simpa [loopFresh] using h
    | succ fuel =>
      rw [loopFresh, Bool.and_eq_true] at h
      simpa using h.1
  | next hd hne hpost _ ih =>
    simp only [loopFresh, hd, if_neg hne, hpost, Bool.and_eq_true] at h
    exact ih h.2

/-- Three payloads of forty bytes on a ring of 128: the first completion ends inside the header of
the second frame, and the third frame crosses the end of the ring. -/
def lapStream : List (List Byte) :=
  [List.replicate 40 0x41, List.replicate 40 0x42, List.replicate 40 0x43]

def lapFirst : List Byte := (lapStream.flatMap encode).take 52

def lapSecond : List Byte := (lapStream.flatMap encode).drop 52

def lapConn : RecvSock := (zeroed.connect 128 7).acceptFill lapFirst

theorem lap_round_trips : ∃ posted s,
    Arrives 128 4096 (fun _ => .zeroed) 0 7 lapStream (lapFirst ++ lapSecond) posted s ∧
    posted.map BufferObj.command = [message (List.replicate 40 0x41)] ∧ s.dwWritepos = 16 ∧
    RoundTrip 128 4096 (fun _ => .zeroed) 0 7 lapStream (lapFirst ++ lapSecond) posted s := by
  have hplay : (completionLoop 128 4096 (fun _ => .zeroed) 0 lapConn).map (fun r =>
      (r.1.map BufferObj.command, decide (r.2.sock ≠ INVALID_SOCKET ∧
        lapSecond.length ≤ r.2.offered), (r.2.receive lapSecond).dwWritepos,
        loopFresh 4096 (fun _ => .zeroed) 0 129 (r.2.receive lapSecond))) =
      some ([message (List.replicate 40 0x41)], true, 16, true) := by decide +kernel
  obtain ⟨⟨more, t⟩, hloop, hres⟩ := Option.map_eq_some_iff.mp hplay
  simp only [Prod.mk.injEq, decide_eq_true_eq] at hres
  obtain ⟨hcommand, ⟨hopen, hroom⟩, hwrite, hfresh⟩ := hres
  have hfirst : Arrives 128 4096 (fun _ => .zeroed) 0 7 lapStream lapFirst [] lapConn :=
    .accept zeroed _ (by decide) (by decide) (List.take_prefix _ _)
  have hall : lapFirst ++ lapSecond <+: lapStream.flatMap encode := by
    have happ : lapFirst ++ lapSecond = lapStream.flatMap encode := List.take_append_drop _ _
    exact ⟨[], by rw [List.append_nil, happ]⟩
  have harrives := hfirst.recv lapSecond hloop hopen (by decide) hroom hall
  refine ⟨_, _, harrives, hcommand, hwrite, ?_⟩
  apply (framing_round_trip_iff (by decide) (by decide) (by decide) (by decide) harrives).mpr
  intro v hv
  exact fresh_of_loopFresh hv hfresh

section Stale

/-- A ring with nothing unread, its two positions at `w`. -/
structure IdleAt (s : RecvSock) (w : ℕ) : Prop where
  ring : RingInv s
  size : s.dwBufsize = 32641
  sock : s.sock = 7
  unread : s.unread = []
  write : s.dwWritepos.toNat = w

/-- The next receive starts at `w` and keeps every other byte of earlier laps. -/
theorem IdleAt.receive {s : RecvSock} {w : ℕ} (h : IdleAt s w) (bytes : List Byte)
    (hne : bytes ≠ []) (hle : bytes.length ≤ 32641) :
    bytes.length ≤ s.offered ∧ RingInv (s.receive bytes) ∧ (s.receive bytes).unread = bytes ∧
      (s.receive bytes).dwBufsize = 32641 ∧ (s.receive bytes).sock = 7 ∧
      (s.receive bytes).dwReadpos.toNat = w ∧ 0 < (s.receive bytes).dwWritepos.toNat ∧
      (s.receive bytes).dwWritepos.toNat ≤ 32641 ∧
      Circular.Follows 32641 w bytes.length (s.receive bytes).dwWritepos.toNat ∧
      ∀ i ∉ Circular.arc 32641 w bytes.length, (s.receive bytes).buf i = s.buf i := by
  have hB : s.dwBufsize.toNat = 32641 := by rw [h.size]; rfl
  have hempty := (bEmpty_iff_unread s h.ring.toPosInv).mpr h.unread
  have hR : s.dwReadpos.toNat = w := by rw [h.ring.empty hempty, h.write]
  have hoff : s.offered = 32641 := by
    rw [offered_eq s h.ring, hB, ← length_unread s h.ring.toPosInv, h.unread]
    rfl
  obtain ⟨hring, hun, _⟩ := receive_spec s h.ring bytes hne (by omega)
  obtain ⟨w', hrun, hw0, hwle, hfol⟩ := receive_shape s h.ring bytes hne (by omega)
  rw [h.unread, List.nil_append] at hun
  rw [hB, h.write] at hfol
  refine ⟨by omega, hring, hun, ?_, ?_, ?_, ?_, ?_, ?_, ?_⟩ <;> rw [hrun]
  · exact h.size
  · exact h.sock
  · exact hR
  · exact hw0
  · rwa [hB] at hwle
  · exact hfol
  · intro i hi
    rw [hB, h.write, Circular.writeAt_take, Circular.take_arc (by omega)]
    exact Circular.writeAt_of_notMem _ _ _ _ hi

/-- A completion of whole frames is delivered and leaves the ring idle behind it. -/
theorem IdleAt.after (s : RecvSock) (w : ℕ) (ps : List (List Byte)) (hring : RingInv s)
    (hB : s.dwBufsize = 32641) (hsock : s.sock = 7) (hw : s.dwWritepos.toNat = w)
    (hu : s.unread = ps.flatMap encode) (hlen : ps.length ≤ 32641)
    (hps : ∀ p ∈ ps, p.length ≤ 4007) :
    ∃ more t, completionLoop 32641 4096 (fun _ => .zeroed) 0 s = some (more, t) ∧ IdleAt t w ∧
      t.buf = s.buf := by
  have hdata : ((4096 : DWORD) - BUFFER_OBJ_SIZE).toNat = 4009 := rfl
  obtain ⟨more, t, hloop, ht, htu, htB, hts, htW, hbuf⟩ := deliver_whole 4096 (fun _ => .zeroed) 0
    ps s hring (by rw [hB]; decide) (by rw [hB]; decide)
    (fun p hp => by have := hps p hp; omega) hu 32642 (by omega)
  exact ⟨more, t, hloop, ⟨ht, htB.trans hB, hts.trans hsock, htu, by rw [htW, hw]⟩, hbuf⟩

/-- Payloads of zeros. Frames of the long one and one shorter frame end exactly where the ring ends,
in its second lap. -/
def longPayload : List Byte := List.replicate 4007 0

def shortPayload : List Byte := List.replicate 1034 0

def firstLap : List (List Byte) := List.replicate 8 longPayload

def acrossEnd : List (List Byte) := [longPayload]

def secondLap : List (List Byte) := List.replicate 7 longPayload ++ [shortPayload]

def staleStream : List (List Byte) := firstLap ++ (acrossEnd ++ (secondLap ++ [[]]))

theorem longPayload_length : longPayload.length = 4007 := List.length_replicate

theorem shortPayload_length : shortPayload.length = 1034 := List.length_replicate

theorem staleStream_le (p : List Byte) (hp : p ∈ staleStream) : p.length ≤ 4007 := by
  have hcases : p = longPayload ∨ p = shortPayload ∨ p = [] := by
    simp [staleStream, firstLap, acrossEnd, secondLap] at hp
    tauto
  rcases hcases with rfl | rfl | rfl
  · rw [longPayload_length]
  · rw [shortPayload_length]
    omega
  · exact Nat.zero_le _

theorem firstLap_length : (firstLap.flatMap encode).length = 32120 := by
  simp [firstLap, longPayload_length]

theorem acrossEnd_length : (acrossEnd.flatMap encode).length = 4015 := by
  simp [acrossEnd, longPayload_length]

theorem secondLap_length : (secondLap.flatMap encode).length = 29147 := by
  simp [secondLap, longPayload_length, shortPayload_length]

/-- The byte that comes to lie at `buf[1]`, where a header would have 0xfc. -/
theorem acrossEnd_getD : (acrossEnd.flatMap encode).getD 522 0 = 0 := by
  rw [acrossEnd, List.flatMap_singleton, show 522 = 6+516 from rfl,
    encode_getD _ _ (by rw [longPayload_length]; omega)]
  exact List.getD_replicate _ (by omega)

theorem staleStream_eq : staleStream.flatMap encode = firstLap.flatMap encode ++
    (acrossEnd.flatMap encode ++ (secondLap.flatMap encode ++ encode [])) := by
  simp [staleStream]

theorem ne_nil_of_length {bytes : List Byte} {n : ℕ} (h : bytes.length = n+1) : bytes ≠ [] := by
  intro hh
  rw [hh] at h
  contradiction

/-- The connection has taken `rcvd` and waits for its next receive, with nothing unread. -/
def Rests (rcvd : List Byte) (t : RecvSock) (w : ℕ) : Prop :=
  ∃ posted s more, Arrives 32641 4096 (fun _ => .zeroed) 0 7 staleStream rcvd posted s ∧
    completionLoop 32641 4096 (fun _ => .zeroed) 0 s = some (more, t) ∧ IdleAt t w

/-- Whole frames move an idle ring on by their length, and lie where they were stored. -/
theorem Rests.frames {rcvd : List Byte} {t : RecvSock} {w : ℕ} (h : Rests rcvd t w)
    (ps : List (List Byte)) (hps : ∀ p ∈ ps, p.length ≤ 4007) (hlen : ps.length ≤ 32641)
    (n w' : ℕ) (hn : (ps.flatMap encode).length = n+1) (hle : n+1 ≤ 32641)
    (hstream : rcvd ++ ps.flatMap encode <+: staleStream.flatMap encode)
    (hw0 : 0 < w') (hwle : w' ≤ 32641) (hw : Circular.Follows 32641 w (n+1) w') :
    ∃ u, Rests (rcvd ++ ps.flatMap encode) u w' ∧
      (∀ i ∉ Circular.arc 32641 w (n+1), u.buf i = t.buf i) ∧
      ∀ i < n+1, u.buf (Circular.wrap 32641 w i) = (ps.flatMap encode).getD i 0 := by
  obtain ⟨posted, s, more, harr, hloop, hidle⟩ := h
  have hne := ne_nil_of_length hn
  obtain ⟨hoff, hring, hu, hB, hs, hR, hpos, hposle, hfol, hkeep⟩ :=
    hidle.receive (ps.flatMap encode) hne (by omega)
  have hopen : t.sock ≠ INVALID_SOCKET := by
    rw [hidle.sock]
    decide
  have hnext := harr.recv (ps.flatMap encode) hloop hopen hne hoff hstream
  have hwrite : (t.receive (ps.flatMap encode)).dwWritepos.toNat = w' := by
    unfold Circular.Follows at hfol hw
    omega
  obtain ⟨more', u, hloop', hidle', hbuf⟩ :=
    IdleAt.after _ w' ps hring hB hs hwrite hu hlen hps
  refine ⟨u, ⟨_, _, more', hnext, hloop', hidle'⟩, ?_, ?_⟩
  · intro i hi
    rw [hbuf]
    exact hkeep i (by rwa [hn])
  · intro i hi
    have hcount := length_unread _ hring.toPosInv
    rw [hu, hn] at hcount
    have hget := unread_getD _ hring.toPosInv i (by omega)
    rw [hu, hR, hB] at hget
    rw [hbuf]
    exact hget.symm

theorem firstLap_rests : ∃ t, Rests (firstLap.flatMap encode) t 32120 := by
  have hlap := firstLap_length
  have hne : firstLap.flatMap encode ≠ [] := ne_nil_of_length hlap
  obtain ⟨hring, hu, hB, hs⟩ := acceptFill_spec zeroed _ 32641 7 rfl (firstLap.flatMap encode)
    hne (by rw [hlap]; decide)
  have harr : Arrives 32641 4096 (fun _ => .zeroed) 0 7 staleStream (firstLap.flatMap encode) []
      ((zeroed.connect 32641 7).acceptFill (firstLap.flatMap encode)) :=
    .accept zeroed _ hne (by rw [hlap]; decide)
      (by rw [staleStream_eq]; exact List.prefix_append _ _)
  have hread : ((zeroed.connect 32641 7).acceptFill (firstLap.flatMap encode)).dwReadpos = 0 :=
    initWRpos_readpos _ _
  rw [connect] at harr hread
  generalize acceptFill { zeroed.init 32641 with sock := 7 } (firstLap.flatMap encode) = s at *
  have hpos : s.dwWritepos.toNat = 32120 := by
    have hfol := unreadCount_follows s hring.toPosInv
    have hw := hring.write_pos ((unreadCount_pos s hring.toPosInv).mp (by
      rw [← length_unread s hring.toPosInv, hu, hlap]
      omega))
    rw [← length_unread s hring.toPosInv, hu, hlap, hread, hB,
      show (0 : DWORD).toNat = 0 from rfl, show (32641 : DWORD).toNat = 32641 from rfl] at hfol
    unfold Circular.Follows at hfol
    omega
  obtain ⟨more, t, hloop, hidle, _⟩ := IdleAt.after s 32120 firstLap hring hB hs hpos hu
    (by decide) (fun p hp => staleStream_le p (List.mem_append_left _ hp))
  exact ⟨t, [], s, more, harr, hloop, hidle⟩

/-- Three laps: the header of the last frame starts at `buf[0]` behind a full lap, with one byte of
it received and the others left from the frame that crossed the end before. -/
theorem stale_header_reached : ∃ rcvd posted s,
    Arrives 32641 4096 (fun _ => .zeroed) 0 7 staleStream rcvd posted s ∧
    RingInv s ∧ s.dwBufsize = 32641 ∧ s.unread = [0xfb] ∧ s.dwReadpos.toNat = 32641 ∧
    s.dwWritepos.toNat = 1 ∧ s.buf 1 = 0 := by
  have hfb : [0xfb] <+: encode [] := ⟨[0xfc, 0, 0, 0, 0, 0, 0x0d], rfl⟩
  obtain ⟨t₁, hrests₁⟩ := firstLap_rests
  obtain ⟨t₂, hrests₂, _, hlies⟩ := hrests₁.frames acrossEnd
    (fun p hp => staleStream_le p (by simp [staleStream, hp])) (by decide) 4014 3494
    acrossEnd_length (by omega) (by simp [staleStream_eq]) (by omega) (by omega) (Or.inr (by omega))
  obtain ⟨t₃, hrests₃, hkept, _⟩ := hrests₂.frames secondLap
    (fun p hp => staleStream_le p (by simp [staleStream, hp])) (by decide) 29146 32641
    secondLap_length (by omega) (by simp [staleStream_eq]) (by omega) (by omega) (Or.inl (by omega))
  have hbuf₃ : t₃.buf 1 = 0 := by
    have hnot : 1 ∉ Circular.arc 32641 3494 29147 := by
      rw [Circular.arc_of_le (by omega), List.mem_range']
      omega
    have hlie := hlies 522 (by omega)
    rw [acrossEnd_getD, show Circular.wrap 32641 32120 522 = 1 from rfl] at hlie
    rw [hkept 1 hnot, hlie]
  obtain ⟨posted, s, more, harr, hloop, hidle⟩ := hrests₃
  obtain ⟨hoff, hring, hu, hB, hs, hR, hpos, hposle, hfol, hkeep⟩ :=
    hidle.receive [0xfb] (by decide) (by decide)
  have hopen : t₃.sock ≠ INVALID_SOCKET := by
    rw [hidle.sock]
    decide
  have hstream : firstLap.flatMap encode ++ acrossEnd.flatMap encode ++ secondLap.flatMap encode ++
      [0xfb] <+: staleStream.flatMap encode := by
    simpa [staleStream_eq] using hfb
  refine ⟨_, _, _, harr.recv [0xfb] hloop hopen (by decide) hoff hstream, hring, hB, hu, hR, ?_, ?_⟩
  · unfold Circular.Follows at hfol
    rw [List.length_singleton] at hfol
    omega
  · rw [hkeep 1 (by decide)]
    exact hbuf₃

/-- A compliant client is dropped in its third lap: one byte of a header at the start of
the ring is judged together with a stale byte behind it. -/
theorem compliant_client_dropped : ∃ rcvd posted s,
    (∀ p ∈ staleStream, p.length+8 ≤ (32641 : DWORD).toNat ∧
      p.length+2 ≤ ((4096 : DWORD) - BUFFER_OBJ_SIZE).toNat) ∧
    Arrives 32641 4096 (fun _ => .zeroed) 0 7 staleStream rcvd posted s ∧ s.unread = [0xfb] ∧
    (∃ t, s.getCmdDataLength = some (0, t) ∧ t.sock = INVALID_SOCKET) ∧
    ¬ RoundTrip 32641 4096 (fun _ => .zeroed) 0 7 staleStream rcvd posted s := by
  obtain ⟨rcvd, posted, s, harr, hring, hB, hu, hR, hW, hbuf⟩ := stale_header_reached
  have hcount := length_unread s hring.toPosInv
  rw [hu, List.length_singleton] at hcount
  have he : s.bEmpty = false := (unreadCount_pos s hring.toPosInv).mp (by omega)
  have hmagic : ¬ frameMagic s.headerBytes := by
    rintro ⟨_, hsecond⟩
    rw [headerBytes_getD s 1 (by omega), hB, hR,
      show Circular.wrap (32641 : DWORD).toNat 32641 1 = 1 from rfl, hbuf] at hsecond
    contradiction
  have hd := getCmdDataLength_eq s hring he (by rw [hB]; decide) (by omega)
  rw [if_pos hmagic] at hd
  refine ⟨rcvd, posted, s, ?_, harr, hu, ⟨_, hd, rfl⟩, ?_⟩
  · intro p hp
    have hle := staleStream_le p hp
    rw [show (32641 : DWORD).toNat = 32641 from rfl,
      show ((4096 : DWORD) - BUFFER_OBJ_SIZE).toNat = 4009 from rfl]
    omega
  · rintro ⟨more, t, hloop, hsock, _⟩
    have hlast := deliver_last 4096 (fun _ => .zeroed) 0 hd 32641
    unfold completionLoop at hloop
    rw [show (32641 : DWORD).toNat+1 = 32641+1 from rfl, hlast] at hloop
    simp only [Option.some.injEq, Prod.mk.injEq] at hloop
    rw [← hloop.2] at hsock
    have hclosed : INVALID_SOCKET = 7 := hsock
    exact absurd hclosed (by decide)

end Stale

end RecvSock

end CustomersCard
