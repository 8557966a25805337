import CustomersCardMS.Listener

namespace CustomersCard

abbrev HANDLE := BitVec 64

/-- The address of a LISTEN_SOCK. -/
abbrev LSockPtr := ℕ

def WSA_MAXIMUM_WAIT_EVENTS : ℕ := 64

structure ListenSock where
  sListenSock : SOCKET
  fpAcceptex : Option Server
  hPostAcceptexEvent : HANDLE
  acceptPendingMap : ℤ → Option SockPtr

/-- A handle that it still has is closed. -/
def ListenSock.init (_l : ListenSock) : ListenSock := ⟨INVALID_SOCKET, none, 0, fun _ => none⟩

/-- What the system calls return; zero is NULL. -/
structure SetupChoice where
  hEvent : HANDLE
  socket : SOCKET
  completionPort : Bool
  eventSelect : Bool
  bind : Bool
  listen : Bool

inductive SetupFault
  -- A write past the last entry of an array.
  | overrun

structure Listeners where
  lsock : LSockPtr → ListenSock
  lSock_Array : ℕ → LSockPtr
  hEvent_Array : ℕ → HANDLE
  g_dwListenCount : DWORD

namespace Listeners

section Access

variable (g : Listeners)

def setLSock (lsock : LSockPtr) (l : ListenSock) : Listeners :=
  { g with lsock := Function.update g.lsock lsock l }

/-- `closesocket(lsock->sListenSock); lsock->sListenSock = INVALID_SOCKET;` -/
def closeListenSock (lsock : LSockPtr) : Listeners :=
  g.setLSock lsock { g.lsock lsock with sListenSock := INVALID_SOCKET }

/-- `LSock_Array[g_dwListenCount] = lsock; hEvent_Array[g_dwListenCount++] = ...` -/
def register (lsock : LSockPtr) : Except SetupFault Listeners :=
  if g.g_dwListenCount.toNat < WSA_MAXIMUM_WAIT_EVENTS then
    .ok { g with
      lSock_Array := Function.update g.lSock_Array g.g_dwListenCount.toNat lsock
      hEvent_Array := Function.update g.hEvent_Array g.g_dwListenCount.toNat
        (g.lsock lsock).hPostAcceptexEvent
      g_dwListenCount := g.g_dwListenCount + 1 }
  else .error .overrun

end Access

def initListenSock (g : Listeners) (lsock : Option LSockPtr) (ch : SetupChoice) :
    Except SetupFault (Listeners × Bool) :=
  match lsock with
  | none => .ok (g, false)
  | some lsock =>
    let g := g.setLSock lsock (g.lsock lsock).init
    let g := g.setLSock lsock { g.lsock lsock with hPostAcceptexEvent := ch.hEvent }
    if ch.hEvent = 0 then .ok (g, false)
    else
      let g := g.setLSock lsock { g.lsock lsock with sListenSock := ch.socket }
      if ch.socket = INVALID_SOCKET then .ok (g, false)
      else if ¬ch.completionPort then .ok (g.closeListenSock lsock, false)
      else
        -- The arrays are written before the calls that may still fail.
        (g.register lsock).bind fun g =>
          if ¬ch.eventSelect then .ok (g.closeListenSock lsock, false)
          else if ¬ch.bind then .ok (g.closeListenSock lsock, false)
          else if ¬ch.listen then .ok (g.closeListenSock lsock, false)
          else .ok (g, true)

end Listeners

namespace SetupChoice

/-- The call gets as far as the arrays. -/
def registers (ch : SetupChoice) : Bool :=
  ch.hEvent != 0 && ch.socket != INVALID_SOCKET && ch.completionPort

/-- WSAEventSelect, bind and listen. -/
def listens (ch : SetupChoice) : Bool := ch.eventSelect && ch.bind && ch.listen

end SetupChoice

namespace Listeners

variable {g g' : Listeners} {lsock : LSockPtr} {ch : SetupChoice} {ok : Bool}

/-- Everything that a call can do. -/
inductive Sets (g : Listeners) (lsock : LSockPtr) (ch : SetupChoice) :
    Except SetupFault (Listeners × Bool) → Prop
  | early {g' : Listeners} : ch.registers = false → g'.lSock_Array = g.lSock_Array →
      g'.hEvent_Array = g.hEvent_Array → g'.g_dwListenCount = g.g_dwListenCount →
      (∀ p ≠ lsock, g'.lsock p = g.lsock p) → Sets g lsock ch (.ok (g', false))
  | registered {g' : Listeners} : ch.registers = true →
      g.g_dwListenCount.toNat < WSA_MAXIMUM_WAIT_EVENTS →
      g'.lSock_Array = Function.update g.lSock_Array g.g_dwListenCount.toNat lsock →
      g'.hEvent_Array = Function.update g.hEvent_Array g.g_dwListenCount.toNat ch.hEvent →
      g'.g_dwListenCount = g.g_dwListenCount + 1 →
      (g'.lsock lsock).hPostAcceptexEvent = ch.hEvent →
      (∀ p ≠ lsock, g'.lsock p = g.lsock p) → Sets g lsock ch (.ok (g', ch.listens))
  | overruns : ch.registers = true → WSA_MAXIMUM_WAIT_EVENTS ≤ g.g_dwListenCount.toNat →
      Sets g lsock ch (.error .overrun)

/-- What is done to one LISTEN_SOCK alone. -/
structure Apart (lsock : LSockPtr) (hEvent : HANDLE) (g g' : Listeners) : Prop where
  listeners : g'.lSock_Array = g.lSock_Array
  events : g'.hEvent_Array = g.hEvent_Array
  count : g'.g_dwListenCount = g.g_dwListenCount
  event : (g'.lsock lsock).hPostAcceptexEvent = hEvent
  others : ∀ p ≠ lsock, g'.lsock p = g.lsock p

theorem setLSock_apart (l : ListenSock) :
    Apart lsock l.hPostAcceptexEvent g (g.setLSock lsock l) := by
  constructor
  · rfl
  · rfl
  · rfl
  · exact congrArg ListenSock.hPostAcceptexEvent (Function.update_self ..)
  · intro p hp
    exact Function.update_of_ne hp ..

theorem Apart.trans {g'' : Listeners} {hEvent hEvent' : HANDLE} (h : Apart lsock hEvent g g')
    (h' : Apart lsock hEvent' g' g'') : Apart lsock hEvent' g g'' where
  listeners := h'.listeners.trans h.listeners
  events := h'.events.trans h.events
  count := h'.count.trans h.count
  event := h'.event
  others p hp := (h'.others p hp).trans (h.others p hp)

theorem closeListenSock_apart {hEvent : HANDLE} (h : Apart lsock hEvent g g') :
    Apart lsock hEvent g (g'.closeListenSock lsock) := by
  have hclose : Apart lsock (g'.lsock lsock).hPostAcceptexEvent g' (g'.closeListenSock lsock) :=
    setLSock_apart { g'.lsock lsock with sListenSock := INVALID_SOCKET }
  rw [h.event] at hclose
  exact h.trans hclose

theorem registers_iff : ch.registers = true ↔
    ch.hEvent ≠ 0 ∧ ch.socket ≠ INVALID_SOCKET ∧ ch.completionPort = true := by
  unfold SetupChoice.registers
  rw [Bool.and_eq_true, Bool.and_eq_true, bne_iff_ne, bne_iff_ne, and_assoc]

theorem listens_iff : ch.listens = true ↔
    ch.eventSelect = true ∧ ch.bind = true ∧ ch.listen = true := by
  unfold SetupChoice.listens
  rw [Bool.and_eq_true, Bool.and_eq_true, and_assoc]

theorem Apart.early (h : Apart lsock ch.hEvent g g') (hr : ¬ch.registers = true) :
    Sets g lsock ch (.ok (g', false)) :=
  Sets.early (Bool.eq_false_iff.mpr hr) h.listeners h.events h.count h.others

/-- From the registration on a call changes its LISTEN_SOCK alone. -/
theorem Apart.register {f : Listeners → Except SetupFault (Listeners × Bool)}
    (h : Apart lsock ch.hEvent g g') (hr : ch.registers = true)
    (hf : ∀ g₂, (g₂.lsock lsock).hPostAcceptexEvent = ch.hEvent →
      ∃ g₃, f g₂ = .ok (g₃, ch.listens) ∧ Apart lsock ch.hEvent g₂ g₃) :
    Sets g lsock ch ((g'.register lsock).bind f) := by
  unfold Listeners.register
  rw [h.listeners, h.events, h.count, h.event]
  split
  · case isTrue hlt =>
    obtain ⟨g₃, heq, hlate⟩ := hf { g' with
      lSock_Array := Function.update g.lSock_Array g.g_dwListenCount.toNat lsock
      hEvent_Array := Function.update g.hEvent_Array g.g_dwListenCount.toNat ch.hEvent
      g_dwListenCount := g.g_dwListenCount + 1 } h.event
    change Sets g lsock ch (f _)
    rw [heq]
    apply Sets.registered hr hlt hlate.listeners hlate.events hlate.count hlate.event
    intro p hp
    exact (hlate.others p hp).trans (h.others p hp)
  · case isFalse hge => exact Sets.overruns hr (Nat.not_lt.mp hge)

theorem initListenSock_sets (g : Listeners) (lsock : LSockPtr) (ch : SetupChoice) :
    Sets g lsock ch (g.initListenSock (some lsock) ch) := by
  unfold initListenSock
  dsimp only
  generalize hinit : g.setLSock lsock (g.lsock lsock).init = g₁
  generalize hevent : g₁.setLSock lsock
    { g₁.lsock lsock with hPostAcceptexEvent := ch.hEvent } = g₂
  generalize hsocket : g₂.setLSock lsock { g₂.lsock lsock with sListenSock := ch.socket } = g₃
  have h₁ : Apart lsock 0 g g₁ := hinit ▸ setLSock_apart (g.lsock lsock).init
  have h₂ : Apart lsock ch.hEvent g g₂ := by
    apply h₁.trans
    rw [← hevent]
    exact setLSock_apart { g₁.lsock lsock with hPostAcceptexEvent := ch.hEvent }
  have h₃ : Apart lsock ch.hEvent g g₃ := by
    have hset : Apart lsock (g₂.lsock lsock).hPostAcceptexEvent g₂ g₃ :=
      hsocket ▸ setLSock_apart { g₂.lsock lsock with sListenSock := ch.socket }
    rw [h₂.event] at hset
    exact h₂.trans hset
  by_cases hnull : ch.hEvent = 0
  · rw [if_pos hnull]
    apply h₂.early
    intro hr
    exact (registers_iff.mp hr).1 hnull
  by_cases hinvalid : ch.socket = INVALID_SOCKET
  · rw [if_neg hnull, if_pos hinvalid]
    apply h₃.early
    intro hr
    exact (registers_iff.mp hr).2.1 hinvalid
  by_cases hport : ch.completionPort = true
  · rw [if_neg hnull, if_neg hinvalid, if_neg (not_not.mpr hport)]
    apply h₃.register (registers_iff.mpr ⟨hnull, hinvalid, hport⟩)
    intro g₄ hevent₄
    have hsame : Apart lsock ch.hEvent g₄ g₄ := ⟨rfl, rfl, rfl, hevent₄, fun _ _ => rfl⟩
    have hclosed (hl : ¬ch.listens = true) : ∃ g₅, (Except.ok (g₄.closeListenSock lsock, false) :
        Except SetupFault (Listeners × Bool)) = .ok (g₅, ch.listens) ∧
          Apart lsock ch.hEvent g₄ g₅ := by
      rw [Bool.eq_false_iff.mpr hl]
      exact ⟨_, rfl, closeListenSock_apart hsame⟩
    split
    · case isTrue hselect =>
      apply hclosed
      intro hl
      exact hselect (listens_iff.mp hl).1
    split
    · case isTrue hbind =>
      apply hclosed
      intro hl
      exact hbind (listens_iff.mp hl).2.1
    split
    · case isTrue hlisten =>
      apply hclosed
      intro hl
      exact hlisten (listens_iff.mp hl).2.2
    · case isFalse hselect hbind hlisten =>
      rw [not_not] at hselect hbind hlisten
      rw [listens_iff.mpr ⟨hselect, hbind, hlisten⟩]
      exact ⟨g₄, rfl, hsame⟩
  · rw [if_neg hnull, if_neg hinvalid, if_pos hport]
    apply (closeListenSock_apart h₃).early
    intro hr
    exact hport (registers_iff.mp hr).2.2

/-- A call of InitListenSock for a LISTEN_SOCK, and what its system calls return. -/
structure Call where
  lsock : LSockPtr
  choice : SetupChoice

namespace Call

def succeeds (call : Call) : Bool := call.choice.registers && call.choice.listens

/-- WSAEventSelect, bind or listen fails. -/
def failsLate (call : Call) : Bool := call.choice.registers && !call.choice.listens

end Call

/-- The calls one after another, each with what it returns. -/
def setup (g : Listeners) : List Call → Except SetupFault (Listeners × List (LSockPtr × Bool))
  | [] => .ok (g, [])
  | call :: calls =>
    (g.initListenSock (some call.lsock) call.choice).bind fun r =>
      (setup r.1 calls).map fun r' => (r'.1, (call.lsock, r.2) :: r'.2)

theorem setup_snoc {calls : List Call} {call : Call} : g.setup (calls ++ [call]) =
    (g.setup calls).bind fun r =>
      (r.1.initListenSock (some call.lsock) call.choice).map fun r' =>
        (r'.1, r.2 ++ [(call.lsock, r'.2)]) := by
  induction calls generalizing g with
  | nil =>
    change (g.initListenSock (some call.lsock) call.choice).bind _ =
      (g.initListenSock (some call.lsock) call.choice).map _
    cases g.initListenSock (some call.lsock) call.choice with
    | error f => rfl
    | ok r => rfl
  | cons call' calls ih =>
    rw [List.cons_append, setup, setup]
    cases g.initListenSock (some call'.lsock) call'.choice with
    | error f => rfl
    | ok r =>
      dsimp only [Except.bind]
      rw [ih]
      cases r.1.setup calls with
      | error f => rfl
      | ok r' =>
        dsimp only [Except.bind, Except.map]
        cases r'.1.initListenSock (some call.lsock) call.choice with
        | error f => rfl
        | ok r'' => rfl

/-- The listeners whose call returned true, in call order. -/
def returned (res : List (LSockPtr × Bool)) : List LSockPtr :=
  (res.filter fun r => r.2).map Prod.fst

/-- The first g_dwListenCount entries of the arrays are the listeners `done` and their events. -/
structure Registered (g : Listeners) (done : List LSockPtr) : Prop where
  listeners : (List.range g.g_dwListenCount.toNat).map g.lSock_Array = done
  events : ∀ i < g.g_dwListenCount.toNat,
    g.hEvent_Array i = (g.lsock (g.lSock_Array i)).hPostAcceptexEvent

/-- The entries that are in use, and their number, are as they were. -/
structure SameEntries (g g' : Listeners) : Prop where
  count : g'.g_dwListenCount = g.g_dwListenCount
  listeners : ∀ i < g.g_dwListenCount.toNat, g'.lSock_Array i = g.lSock_Array i
  events : ∀ i < g.g_dwListenCount.toNat, g'.hEvent_Array i = g.hEvent_Array i

/-- No write leaves the arrays, each call leaves exactly the listeners that it should, and one that
returns false leaves what it found. -/
structure Exact (g : Listeners) (calls : List Call) : Prop where
  bounded : ∀ pre, pre <+: calls → ∃ r, g.setup pre = .ok r
  registered : ∀ pre, pre <+: calls → ∀ g' res, g.setup pre = .ok (g', res) →
    Registered g' (returned res)
  unchanged : ∀ pre call, pre ++ [call] <+: calls → ∀ g' res g'', g.setup pre = .ok (g', res) →
    g'.initListenSock (some call.lsock) call.choice = .ok (g'', false) → SameEntries g' g''

section Run

variable {calls pre : List Call} {call : Call} {done : List LSockPtr}
  {res : List (LSockPtr × Bool)}

theorem setup_snoc_ok (h : g.setup pre = .ok (g', res)) {r : Listeners × Bool}
    (hcall : g'.initListenSock (some call.lsock) call.choice = .ok r) :
    g.setup (pre ++ [call]) = .ok (r.1, res ++ [(call.lsock, r.2)]) := by
  rw [setup_snoc, h]
  dsimp only [Except.bind]
  rw [hcall]
  rfl

/-- A sequence of calls that runs through, cut before its last call. -/
theorem setup_snoc_inv {g'' : Listeners} {res' : List (LSockPtr × Bool)}
    (h : g.setup (pre ++ [call]) = .ok (g'', res')) : ∃ g' res ok, g.setup pre = .ok (g', res) ∧
      g'.initListenSock (some call.lsock) call.choice = .ok (g'', ok) ∧
        res' = res ++ [(call.lsock, ok)] := by
  rw [setup_snoc] at h
  cases hpre : g.setup pre with
  | error f =>
    rw [hpre] at h
    cases h
  | ok r =>
    rw [hpre] at h
    dsimp only [Except.bind] at h
    cases hcall : r.1.initListenSock (some call.lsock) call.choice with
    | error f =>
      rw [hcall] at h
      cases h
    | ok r' =>
      rw [hcall] at h
      cases h
      exact ⟨r.1, r.2, r'.2, rfl, hcall, rfl⟩

theorem returned_snoc (lsock : LSockPtr) (ok : Bool) :
    returned (res ++ [(lsock, ok)]) = returned res ++ if ok then [lsock] else [] := by
  unfold returned
  rw [List.filter_append, List.map_append]
  cases ok with
  | true => rfl
  | false => rfl

theorem count_succ (h : g.g_dwListenCount.toNat < WSA_MAXIMUM_WAIT_EVENTS) :
    (g.g_dwListenCount + 1).toNat = g.g_dwListenCount.toNat+1 := by
  have hlt : g.g_dwListenCount.toNat < 64 := h
  rw [BitVec.toNat_add]
  change (_+1)%2^32 = _
  omega

/-- A call returns true where all six system calls succeed, and the count stays in the arrays. -/
theorem setup_returned (h : g.setup pre = .ok (g', res))
    (hcount : g.g_dwListenCount.toNat ≤ WSA_MAXIMUM_WAIT_EVENTS) :
    returned res = (pre.filter Call.succeeds).map Call.lsock ∧
      g'.g_dwListenCount.toNat ≤ WSA_MAXIMUM_WAIT_EVENTS := by
  induction pre using List.reverseRecOn generalizing g' res with
  | nil =>
    cases h
    exact ⟨rfl, hcount⟩
  | append_singleton pre call ih =>
    obtain ⟨g₁, res₁, ok, hpre, hcall, rfl⟩ := setup_snoc_inv h
    obtain ⟨hreturned, hbound⟩ := ih hpre
    have hsets := initListenSock_sets g₁ call.lsock call.choice
    rw [hcall] at hsets
    rw [returned_snoc, hreturned, List.filter_append, List.map_append]
    generalize hr : Except.ok (g', ok) = r at hsets
    cases hsets with
    | early hearly _ _ hsame =>
      cases hr
      have hfails : call.succeeds = false := by
        unfold Call.succeeds
        rw [hearly, Bool.false_and]
      refine ⟨?_, hsame ▸ hbound⟩
      rw [List.filter_cons_of_neg (Bool.eq_false_iff.mp hfails)]
      rfl
    | registered hregisters hlt _ _ hsucc =>
      cases hr
      have hsucceeds : call.succeeds = call.choice.listens := by
        unfold Call.succeeds
        rw [hregisters, Bool.true_and]
      refine ⟨?_, ?_⟩
      · rw [List.filter_cons, hsucceeds]
        cases call.choice.listens with
        | true => rfl
        | false => rfl
      · rw [hsucc, count_succ hlt]
        exact hlt
    | overruns => cases hr

theorem Registered.length (h : Registered g done) : done.length = g.g_dwListenCount.toNat := by
  rw [← h.listeners, List.length_map, List.length_range]

theorem Registered.mem (h : Registered g done) {i : ℕ} (hi : i < g.g_dwListenCount.toNat) :
    g.lSock_Array i ∈ done := by
  rw [← h.listeners]
  exact List.mem_map_of_mem (List.mem_range.mpr hi)

theorem Registered.keep (h : Registered g done) (hlisteners : g'.lSock_Array = g.lSock_Array)
    (hevents : g'.hEvent_Array = g.hEvent_Array) (hcount : g'.g_dwListenCount = g.g_dwListenCount)
    (hothers : ∀ p ≠ lsock, g'.lsock p = g.lsock p) (hnew : lsock ∉ done) :
    Registered g' done := by
  constructor
  · rw [hlisteners, hcount]
    exact h.listeners
  · intro i hi
    rw [hcount] at hi
    rw [hlisteners, hevents, hothers _ (ne_of_mem_of_not_mem (h.mem hi) hnew)]
    exact h.events i hi

theorem Registered.add (h : Registered g done)
    (hlt : g.g_dwListenCount.toNat < WSA_MAXIMUM_WAIT_EVENTS) {hEvent : HANDLE}
    (hlisteners : g'.lSock_Array = Function.update g.lSock_Array g.g_dwListenCount.toNat lsock)
    (hevents : g'.hEvent_Array = Function.update g.hEvent_Array g.g_dwListenCount.toNat hEvent)
    (hcount : g'.g_dwListenCount = g.g_dwListenCount + 1)
    (hevent : (g'.lsock lsock).hPostAcceptexEvent = hEvent)
    (hothers : ∀ p ≠ lsock, g'.lsock p = g.lsock p) (hnew : lsock ∉ done) :
    Registered g' (done ++ [lsock]) := by
  have hsucc : g'.g_dwListenCount.toNat = g.g_dwListenCount.toNat+1 := by
    rw [hcount, count_succ hlt]
  constructor
  · rw [hsucc, List.range_succ, List.map_append, ← h.listeners, hlisteners, List.map_singleton,
      Function.update_self]
    congr 1
    apply List.map_congr_left
    intro i hi
    exact Function.update_of_ne (Nat.ne_of_lt (List.mem_range.mp hi)) ..
  · intro i hi
    rw [hlisteners, hevents]
    rcases Nat.lt_succ_iff_lt_or_eq.mp (hsucc ▸ hi) with hlt' | rfl
    · rw [Function.update_of_ne (Nat.ne_of_lt hlt'), Function.update_of_ne (Nat.ne_of_lt hlt'),
        hothers _ (ne_of_mem_of_not_mem (h.mem hlt') hnew)]
      exact h.events i hlt'
    · rw [Function.update_self, Function.update_self, hevent]

/-- Calls of which none fails late, and no more succeed than there are entries, run through. -/
theorem setup_registered (hstart : g.g_dwListenCount = 0)
    (hdistinct : (pre.map Call.lsock).Nodup) (hontime : ∀ call ∈ pre, call.failsLate = false)
    (hfew : (pre.filter Call.succeeds).length ≤ WSA_MAXIMUM_WAIT_EVENTS) :
    ∃ g' res, g.setup pre = .ok (g', res) ∧ Registered g' (returned res) := by
  induction pre using List.reverseRecOn with
  | nil =>
    refine ⟨g, [], rfl, ?_, ?_⟩
    · rw [hstart]
      rfl
    · intro i hi
      rw [hstart] at hi
      exact absurd hi (Nat.not_lt_zero i)
  | append_singleton pre call ih =>
    rw [List.map_append, List.nodup_append] at hdistinct
    rw [List.filter_append, List.length_append] at hfew
    obtain ⟨g', res, hpre, hregistered⟩ := ih hdistinct.1
      (fun c hc => hontime c (List.mem_append_left _ hc)) (by omega)
    obtain ⟨hreturned, _⟩ := setup_returned hpre (hstart ▸ Nat.zero_le _)
    have hlength := hregistered.length
    rw [hreturned, List.length_map] at hlength
    have hnew : call.lsock ∉ returned res := by
      rw [hreturned]
      intro hmem
      obtain ⟨c, hc, heq⟩ := List.mem_map.mp hmem
      exact hdistinct.2.2 _ (List.mem_map_of_mem (List.mem_of_mem_filter hc)) _
        (List.mem_singleton_self _) heq
    have hcall := hontime call (List.mem_append_right _ (List.mem_singleton_self _))
    have hsets := initListenSock_sets g' call.lsock call.choice
    generalize hr : g'.initListenSock (some call.lsock) call.choice = r at hsets
    cases hsets with
    | early _ hlisteners hevents hcount hothers =>
      refine ⟨_, _, setup_snoc_ok hpre hr, ?_⟩
      rw [returned_snoc, if_neg Bool.false_ne_true, List.append_nil]
      exact hregistered.keep hlisteners hevents hcount hothers hnew
    | registered hregisters hlt hlisteners hevents hcount hevent hothers =>
      have hlistens : call.choice.listens = true := by
        unfold Call.failsLate at hcall
        rwa [hregisters, Bool.true_and, Bool.not_eq_false'] at hcall
      refine ⟨_, _, setup_snoc_ok hpre hr, ?_⟩
      rw [returned_snoc, hlistens, if_pos rfl]
      exact hregistered.add hlt hlisteners hevents hcount hevent hothers hnew
    | overruns hregisters hge =>
      have hsucceeds : call.succeeds = true := by
        unfold Call.failsLate at hcall
        unfold Call.succeeds
        rw [hregisters, Bool.true_and, Bool.not_eq_false'] at hcall
        rw [hregisters, hcall, Bool.and_true]
      rw [List.filter_cons_of_pos hsucceeds, List.length_cons] at hfew
      omega

theorem Exact.few (h : Exact g calls) (hstart : g.g_dwListenCount = 0) :
    (calls.filter Call.succeeds).length ≤ WSA_MAXIMUM_WAIT_EVENTS := by
  obtain ⟨⟨g', res⟩, hsetup⟩ := h.bounded calls (List.prefix_refl calls)
  obtain ⟨hreturned, hbound⟩ := setup_returned hsetup (hstart ▸ Nat.zero_le _)
  have hlength := (h.registered calls (List.prefix_refl calls) g' res hsetup).length
  rw [hreturned, List.length_map] at hlength
  omega

/-- A call that fails behind its registration leaves an entry. -/
theorem Exact.onTime (h : Exact g calls) (hcall : call ∈ calls) : call.failsLate = false := by
  obtain ⟨pre, post, rfl⟩ := List.append_of_mem hcall
  have hto : pre ++ [call] <+: pre ++ call :: post := by
    apply (List.prefix_append_right_inj pre).mpr
    exact ⟨post, rfl⟩
  obtain ⟨⟨g'', res'⟩, hsetup⟩ := h.bounded _ hto
  obtain ⟨g', res, ok, hpre, hstep, _⟩ := setup_snoc_inv hsetup
  by_contra hlate
  rw [Bool.not_eq_false] at hlate
  unfold Call.failsLate at hlate
  rw [Bool.and_eq_true, Bool.not_eq_true'] at hlate
  have hsets := initListenSock_sets g' call.lsock call.choice
  generalize hr : g'.initListenSock (some call.lsock) call.choice = r at hsets
  cases hsets with
  | early hearly =>
    rw [hearly] at hlate
    exact absurd hlate.1 Bool.false_ne_true
  | registered _ hlt _ _ hcount =>
    rw [hlate.2] at hr
    have hsame := (h.unchanged pre call hto g' res _ hpre hr).count
    have hsucc := count_succ hlt
    rw [← hcount, hsame] at hsucc
    omega
  | overruns =>
    rw [hstep] at hr
    cases hr

/-- The arrays hold exactly the listeners that InitListenSock returned true for, after every call of
a sequence, if and only if no call fails from WSAEventSelect on and no more succeed than there are
entries. -/
theorem registration_exact_iff (g : Listeners) (calls : List Call) (hstart : g.g_dwListenCount = 0)
    (hdistinct : (calls.map Call.lsock).Nodup) : Exact g calls ↔
      (∀ call ∈ calls, call.failsLate = false) ∧
        (calls.filter Call.succeeds).length ≤ WSA_MAXIMUM_WAIT_EVENTS := by
  constructor
  · intro h
    exact ⟨fun call hcall => h.onTime hcall, h.few hstart⟩
  · rintro ⟨hontime, hfew⟩
    have hrun {pre : List Call} (hpre : pre <+: calls) :
        ∃ g' res, g.setup pre = .ok (g', res) ∧ Registered g' (returned res) := by
      obtain ⟨post, rfl⟩ := hpre
      rw [List.map_append, List.nodup_append] at hdistinct
      rw [List.filter_append, List.length_append] at hfew
      exact setup_registered hstart hdistinct.1
        (fun c hc => hontime c (List.mem_append_left _ hc)) (by omega)
    constructor
    · intro pre hpre
      obtain ⟨g', res, hsetup, _⟩ := hrun hpre
      exact ⟨_, hsetup⟩
    · intro pre hpre g' res hsetup
      obtain ⟨g'', res', hsetup', hregistered⟩ := hrun hpre
      rw [hsetup] at hsetup'
      cases hsetup'
      exact hregistered
    · intro pre call hpre g' res g'' hsetup hcall
      have hlate := hontime call (hpre.subset (List.mem_append_right _ (List.mem_singleton_self _)))
      have hsets := initListenSock_sets g' call.lsock call.choice
      rw [hcall] at hsets
      generalize hr : (Except.ok (g'', false) : Except SetupFault _) = r at hsets
      cases hsets with
      | early _ hlisteners hevents hcount =>
        cases hr
        exact ⟨hcount, fun i _ => congrFun hlisteners i, fun i _ => congrFun hevents i⟩
      | registered hregisters =>
        unfold Call.failsLate at hlate
        rw [hregisters, Bool.true_and, Bool.not_eq_false'] at hlate
        rw [hlate] at hr
        cases hr
      | overruns => cases hr

end Run

/-- A process that has called nothing yet. -/
def unset : Listeners where
  lsock := fun _ => ⟨0, none, 0, fun _ => none⟩
  lSock_Array := fun _ => 0
  hEvent_Array := fun _ => 0
  g_dwListenCount := 0

/-- The calls for listener `p` work, up to `bind`. -/
def bindCall (p : LSockPtr) (bind : Bool) : Call := ⟨p, ⟨4, 8, true, true, bind, true⟩⟩

/-- The first listener gets no event, the second one listens. -/
theorem second_listener_registered :
    Exact unset [⟨1, ⟨0, 8, true, true, true, true⟩⟩, bindCall 2 true] := by
  apply (registration_exact_iff unset _ rfl (by decide)).mpr
  decide

/-- A listener whose port is taken stays in the arrays, and a listener more than they hold is
written behind them. -/
theorem failed_bind_registered : ¬Exact unset [bindCall 1 false] ∧
    ¬Exact unset ((List.range 65).map fun p => bindCall p true) := by
  constructor
  · intro h
    exact absurd (h.onTime (List.mem_singleton_self _)) (by decide)
  · intro h
    exact absurd (h.few rfl) (by decide)

end Listeners

end CustomersCard
