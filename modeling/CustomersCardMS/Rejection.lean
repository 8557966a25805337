import CustomersCardMS.RefcountSafety
import Mathlib.Algebra.Order.BigOperators.Group.List
import Mathlib.Algebra.Order.Group.Nat

namespace CustomersCard
open Interleaving

namespace Task

/-- The turns that the receive chain can still take. -/
def winding : Task → ℕ
  | .postZeroRecv => 5
  | .release .robj => 4
  | .releaseClose .robj => 3
  | .releaseFreeRSock .robj => 2
  | .releaseTail .robj => 1
  | _ => 0

/-- The reference of the chain, as long as it is not given back. -/
def owes : Task → ℕ
  | .postZeroRecv | .release .robj => 1
  | _ => 0

theorem winding_of_chain {t : Task} (h : t.chain = 0) : t.winding = 0 ∧ t.owes = 0 := by
  cases t with
  | release k | releaseClose k | releaseFreeRSock k | releaseTail k =>
    cases k with
    | robj => contradiction
    | bobj | nothing => exact ⟨rfl, rfl⟩
  | postZeroRecv => contradiction
  | _ => exact ⟨rfl, rfl⟩

theorem owes_le (t : Task) : t.owes ≤ t.chain := by
  cases t with
  | release k =>
    cases k with
    | robj => exact Nat.le_refl 1
    | bobj | nothing => exact Nat.zero_le _
  | postZeroRecv => exact Nat.le_refl 1
  | _ => exact Nat.zero_le _

end Task

/-- Events that take nothing from the received bytes and close nothing. -/
def Event.settles : Event → Prop
  | .closesocket _ | .allocBObj _ | .queued _ => False
  | _ => True

namespace ClientConn

/-- What a turn of the receive chain takes off the reference count. -/
def lowers (c : ClientConn) (t : Task) (ch : Choice) : ℤ :=
  match c.step t ch with
  | .ok (c', _, _) => if t.chain = 0 then 0 else c.rsock.nRef - c'.rsock.nRef
  | .error _ => 0

/-- Counts the turns of the receive chain, and the references that it gives back. -/
def chainTurns : Monitor (ℕ × ℤ) ClientConn Task Choice where
  next n c t ch := (n.1 + t.chain, n.2 + c.lowers t ch)
  permits _ _ _ _ := true

/-- A step on a connection whose socket was closed by the decoder. -/
structure Winds (c : ClientConn) (t : Task) (c' : ClientConn) (new : List Task)
    (evs : List Event) : Prop where
  sock : c'.rsock.sock = INVALID_SOCKET
  tasks : ∀ u ∈ new, u.chain ≠ 0 → u.winding ≠ 0
  turns : total Task.winding new + t.chain ≤ t.winding
  owed : (total Task.owes new : ℤ) + (if t.chain = 0 then 0 else c.rsock.nRef - c'.rsock.nRef) =
    t.owes
  events : ∀ e ∈ evs, e.settles
  freed : evs.count .freeRObj + (if c'.robjLive then 1 else 0) = if c.robjLive then 1 else 0

section Step

variable {c c' : ClientConn} {t : Task} {rest new : List Task} {evs : List Event} {ch : Choice}

/-- The tasks that do not belong to the chain lead to none that does. -/
theorem Winds.aside (ht : t.chain = 0) (hnew : ∀ u ∈ new, u.chain = 0)
    (hsock : c'.rsock.sock = INVALID_SOCKET) (hlive : c'.robjLive = c.robjLive)
    (hevs : ∀ e ∈ evs, e.settles) (hfree : evs.count .freeRObj = 0) : Winds c t c' new evs := by
  have hself := Task.winding_of_chain ht
  refine ⟨hsock, fun u hu hne => absurd (hnew u hu) hne, ?_, ?_, hevs, ?_⟩
  · rw [total_none fun u hu => (Task.winding_of_chain (hnew u hu)).1, ht]
    exact Nat.zero_le _
  · rw [total_none fun u hu => (Task.winding_of_chain (hnew u hu)).2, hself.2, if_pos ht]
    rfl
  · rw [hfree, hlive, Nat.zero_add]

/-- A closed handle is not closed again. -/
theorem Closes.rejected (h : Closes t c c' evs) (hsock : c.rsock.sock = INVALID_SOCKET) :
    c'.rsock.sock = INVALID_SOCKET ∧ evs = [] := by
  cases h with
  | keeps hs => exact ⟨hs.trans hsock, rfl⟩
  | closes _ hvalid => exact absurd hsock hvalid

/-- The other tasks of the connection leave the chain alone. -/
theorem Fires.aside (hf : Fires c t c' new evs) (ht : t.chain = 0)
    (hsock : c.rsock.sock = INVALID_SOCKET) : Winds c t c' new evs := by
  have hnew := hf.off_chain ht
  have hevent (e : Event) (he : e.settles) : ∀ e' ∈ [e], e'.settles := by
    intro e' he'
    rw [List.mem_singleton.mp he']
    exact he
  have hsilent : ∀ e ∈ ([] : List Event), e.settles := by
    intro e he
    contradiction
  cases hf with
  | pass hpass hl hc _ =>
    obtain ⟨hsock', rfl⟩ := hc.rejected hsock
    exact Winds.aside ht hnew hsock' hl.robjLive hsilent rfl
  | release | releaseZero | nextDecRef | releaseNothing =>
    exact Winds.aside ht hnew hsock rfl hsilent rfl
  | releaseFreeRSock | freeBObj | acceptFreeRSock =>
    exact Winds.aside ht hnew hsock rfl (hevent _ trivial) rfl
  | sendFailed | dequeue => exact Winds.aside ht hnew hsock rfl (hevent _ trivial) rfl
  | enqueue b bytes _ _ hs _ hlive =>
    exact Winds.aside ht hnew (hs.trans hsock) hlive (hevent _ trivial) rfl
  | start b _ _ hl hs =>
    exact Winds.aside ht hnew (hs.trans hsock) hl.robjLive (hevent _ trivial) rfl
  | sent b bytes _ _ hl hs =>
    exact Winds.aside ht hnew (hs.trans hsock) hl.robjLive (hevent _ trivial) rfl
  | _ => contradiction

/-- The next turn of the chain. -/
theorem Winds.next {t' : Task} (hsock : c'.rsock.sock = INVALID_SOCKET)
    (ht' : t'.winding ≠ 0) (hturn : t'.winding + t.chain ≤ t.winding)
    (howed : (t'.owes : ℤ) + (c.rsock.nRef - c'.rsock.nRef) = t.owes)
    (hlive : c'.robjLive = c.robjLive) (hevs : ∀ e ∈ evs, e.settles)
    (hfree : evs.count .freeRObj = 0) : Winds c t c' [t'] evs := by
  have hchain : t.chain ≠ 0 := by
    intro hz
    rw [(Task.winding_of_chain hz).1] at hturn
    omega
  refine ⟨hsock, ?_, ?_, ?_, hevs, ?_⟩
  · intro u hu _
    rwa [List.mem_singleton.mp hu]
  · rwa [total_cons]
  · rwa [total_cons, if_neg hchain]
  · rw [hfree, hlive, Nat.zero_add]

/-- On a rejected connection every step winds the receive chain up. -/
theorem Owned.winds (h : Owned c (t :: rest)) (hsock : c.rsock.sock = INVALID_SOCKET)
    (ht : t.chain ≠ 0 → t.winding ≠ 0) (hfresh : ch.pBObj ∉ c.objs)
    (hstep : c.step t ch = .ok (c', new, evs)) : Winds c t c' new evs := by
  have hsilent : ∀ e ∈ ([] : List Event), e.settles := by
    intro e he
    contradiction
  have hkeeps (n k : ℤ) : k + (n - n) = k := by omega
  have hgives (n : ℤ) : 0 + (n - (n - 1)) = 1 := by omega
  -- Outside the chain nothing posts a receive or takes a command.
  by_cases hchain : t.chain = 0
  · exact (step_turn hfresh hstep).fires.aside hchain hsock
  cases t with
  | postZeroRecv =>
    -- WSARecv fails at once.
    have hrefused (d : ClientConn) (hd : d.rsock.sock = INVALID_SOCKET) : ¬ d.posts ch = true := by
      unfold posts
      rw [hd, bne_self_eq_false, Bool.and_false]
      decide
    simp only [step, withRObj, withRSock, guarded_ok, ok_inj] at hstep
    rcases hstep with ⟨_, _, rfl, rfl, rfl⟩
    rw [if_neg]
    · exact Winds.next hsock (by decide) (by decide) (hkeeps _ _) rfl hsilent rfl
    · exact hrefused _ hsock
  -- The one turn that lowers nRef.
  | release k =>
    cases k with
    | robj =>
      simp only [step, withRSock, guarded_ok, ok_inj] at hstep
      rcases hstep with ⟨_, rfl, rfl, rfl⟩
      split
      · exact Winds.next hsock (by decide) (by decide) (hgives _) rfl hsilent rfl
      · exact Winds.next hsock (by decide) (by decide) (hgives _) rfl hsilent rfl
    | _ => contradiction
  | releaseClose k =>
    cases k with
    | robj =>
      simp only [step, withRSock, guarded_ok, cmCloseSocket] at hstep
      rw [if_neg (not_not.mpr hsock), ok_inj] at hstep
      rcases hstep with ⟨_, rfl, rfl, rfl⟩
      exact Winds.next hsock (by decide) (by decide) (hkeeps _ _) rfl hsilent rfl
    | _ => contradiction
  | releaseFreeRSock k =>
    cases k with
    | robj =>
      simp only [step, freeRSock, guarded_ok, ok_inj] at hstep
      rcases hstep with ⟨_, rfl, rfl, rfl⟩
      refine Winds.next hsock (by decide) (by decide) (hkeeps _ _) rfl ?_ rfl
      intro e he
      rw [List.mem_singleton.mp he]
      trivial
    | _ => contradiction
  | releaseTail k =>
    cases k with
    | robj =>
      simp only [step, freeRObj, guarded_ok, ok_inj] at hstep
      rcases hstep with ⟨hlive, rfl, rfl, rfl⟩
      refine ⟨hsock, ?_, Nat.le_refl _, hkeeps _ _, ?_, ?_⟩
      · intro u hu
        contradiction
      · intro e he
        rw [List.mem_singleton.mp he]
        trivial
      · rw [hlive]
        rfl
    | _ => contradiction
  | _ => exact absurd rfl (ht hchain)

theorem proceeds_guarded {p : Prop} [Decidable p] {f : Fault} {k : Outcome} (hp : p)
    (hk : ∃ r, k = .ok r) : ∃ r, guarded p f k = .ok r := by
  unfold guarded
  rwa [if_pos hp]

/-- The chain can always take its next turn. -/
theorem winding_steps (h : Ready c t) (ht : t.winding ≠ 0) (ch : Choice) :
    ∃ r, c.step t ch = .ok r := by
  have hrsock := h.rsock
  cases t with
  | postZeroRecv =>
    exact proceeds_guarded (h.robj rfl) (proceeds_guarded (hrsock (by decide)) ⟨_, rfl⟩)
  | release k => exact proceeds_guarded (hrsock (Nat.le_add_right 1 _)) ⟨_, rfl⟩
  | releaseClose k =>
    apply proceeds_guarded (hrsock (by decide : 0 < 1))
    unfold cmCloseSocket
    split
    · exact ⟨_, rfl⟩
    · exact ⟨_, rfl⟩
  | releaseFreeRSock k => exact proceeds_guarded (hrsock (by decide : 0 < 1)) ⟨_, rfl⟩
  | releaseTail k =>
    cases k with
    | robj => exact proceeds_guarded (h.robj rfl) ⟨_, rfl⟩
    | _ => contradiction
  | _ => contradiction

end Step

/-- What holds from the rejection on: the pool and the counts of `chainTurns`. -/
structure Rejected (evs : List Event) (c : ClientConn) (n : ℕ × ℤ) (ts : List Task) : Prop where
  owned : Owned c ts
  sock : c.rsock.sock = INVALID_SOCKET
  tasks : ∀ t ∈ ts, t.chain ≠ 0 → t.winding ≠ 0
  turns : n.1 + total Task.winding ts ≤ 5
  owed : n.2 + total Task.owes ts = 1
  events : ∀ e ∈ evs, e.settles
  freed : evs.count .freeRObj + (if c.robjLive then 1 else 0) = 1

theorem Rejected.perm {evs : List Event} {c : ClientConn} {n : ℕ × ℤ} {ts us : List Task}
    (h : Rejected evs c n ts) (hp : ts.Perm us) : Rejected evs c n us where
  owned := h.owned.perm hp
  sock := h.sock
  tasks t ht := h.tasks t (hp.mem_iff.mpr ht)
  turns := by
    rw [← total_perm _ hp]
    exact h.turns
  owed := by
    rw [← total_perm _ hp]
    exact h.owed
  events := h.events
  freed := h.freed

theorem Rejected.step {es evs : List Event} {c c' : ClientConn} {n : ℕ × ℤ} {t : Task} {ch : Choice}
    {rest new : List Task} (h : Rejected es c n (t :: rest)) (hfresh : ch.pBObj ∉ c.objs)
    (hstep : c.step t ch = .ok (c', new, evs)) :
    Rejected (es ++ evs) c' (chainTurns.next n c t ch) (new ++ rest) := by
  have hw := h.owned.winds h.sock (h.tasks t List.mem_cons_self) hfresh hstep
  have hturns := h.turns
  have howed := h.owed
  have hfreed := h.freed
  rw [total_cons] at hturns howed
  constructor
  · exact h.owned.turn (step_turn hfresh hstep)
  · exact hw.sock
  · intro u hu hchain
    rcases List.mem_append.mp hu with hu | hu
    · exact hw.tasks u hu hchain
    · exact h.tasks u (List.mem_cons_of_mem t hu) hchain
  · have hnext := hw.turns
    rw [total_append]
    change n.1 + t.chain + _ ≤ 5
    omega
  · have hnext := hw.owed
    have hlowers : c.lowers t ch = if t.chain = 0 then 0 else c.rsock.nRef - c'.rsock.nRef := by
      unfold lowers
      rw [hstep]
    rw [total_append]
    change n.2 + c.lowers t ch + _ = 1
    rw [hlowers]
    omega
  · intro e he
    rcases List.mem_append.mp he with he | he
    · exact h.events e he
    · exact hw.events e he
  · rw [List.count_append, Nat.add_assoc, hw.freed]
    exact hfreed

theorem Rejected.run {evs : List Event} {conf₀ conf : Conf (ClientConn × (ℕ × ℤ)) Task}
    (h₀ : Rejected [] conf₀.shared.1 conf₀.shared.2 conf₀.tasks)
    (h : Run (machine.watched chainTurns) conf₀ evs conf) :
    Rejected evs conf.shared.1 conf.shared.2 conf.tasks := by
  apply h.invariant (fun evs conf => Rejected evs conf.shared.1 conf.shared.2 conf.tasks) h₀
  intro evs conf es conf' hinv hstep
  cases hstep with
  | turn hp hfresh hok =>
    obtain ⟨_, hstep, hnext⟩ := watched_step hok
    have hnew := (hinv.perm hp).step hfresh hstep
    rw [← hnext] at hnew
    exact hnew

/-- The turn of a delivery loop in which GetCmdDataLength closes the socket. -/
inductive Rejects : Conf ClientConn Task → Conf ClientConn Task → Prop
  | turn {c c' : ClientConn} {o : Origin} {ch : Choice} {tasks rest new : List Task}
      {es : List Event} {sock : SOCKET} : tasks.Perm (.loop o :: rest) → machine.allowed c ch →
      c.step (.loop o) ch = .ok (c', new, es) → .closesocket sock ∈ es →
      Rejects ⟨c, tasks⟩ ⟨c', new ++ rest⟩

theorem loop_closes {c c' : ClientConn} {o : Origin} {ch : Choice} {new : List Task}
    {es : List Event} {sock : SOCKET} (hstep : c.step (.loop o) ch = .ok (c', new, es))
    (hclosed : .closesocket sock ∈ es) :
    c'.rsock.sock = INVALID_SOCKET ∧ new = [.postZeroRecv] ∧ c'.robjLive = c.robjLive := by
  simp only [step, withRSock, guarded_ok, loopStep] at hstep
  rcases hstep with ⟨_, hstep⟩
  split at hstep
  · contradiction
  split at hstep
  · rw [ok_inj] at hstep
    rcases hstep with ⟨rfl, rfl, rfl⟩
    split at hclosed
    · case isTrue hinvalid => exact ⟨hinvalid.2, rfl, rfl⟩
    · contradiction
  · unfold takeCommand at hstep
    split at hstep
    · contradiction
    split at hstep
    · contradiction
    · rw [ok_inj] at hstep
      rcases hstep with ⟨_, _, rfl⟩
      simp at hclosed

theorem Rejects.rejected {conf conf' : Conf ClientConn Task}
    (howned : Owned conf.shared conf.tasks) (h : Rejects conf conf') :
    Rejected [] conf'.shared (0, 0) conf'.tasks := by
  cases h with
  | turn hp hfresh hstep hclosed =>
    obtain ⟨hsock, rfl, hlive⟩ := loop_closes hstep hclosed
    have hpool := howned.perm hp
    obtain ⟨hrest, hrobj⟩ := hpool.rest_chain rfl
    have haside (t : Task) (ht : t ∈ _) : t.chain = 0 := total_eq_zero _ hrest t ht
    refine ⟨hpool.turn (step_turn hfresh hstep), hsock, ?_, ?_, ?_, ?_, ?_⟩
    · intro t ht hchain
      rcases List.mem_cons.mp ht with rfl | ht
      · decide
      · exact absurd (haside t ht) hchain
    · rw [List.singleton_append, total_cons, total_none fun t ht =>
        (Task.winding_of_chain (haside t ht)).1]
      decide
    · rw [List.singleton_append, total_cons, total_none fun t ht =>
        (Task.winding_of_chain (haside t ht)).2]
      rfl
    · intro e he
      contradiction
    · rw [hlive, hrobj]
      rfl

/-- After a rejection: nothing of the received bytes is queued, no receive is outstanding, and the
receive chain is over after at most five turns, none of which can be held up. It takes one off the
reference count, and frees the RECV_OBJ. -/
structure WindsUp (evs : List Event) (conf : Conf (ClientConn × (ℕ × ℤ)) Task) : Prop where
  noCommand : ∀ b, .queued b ∉ evs ∧ .allocBObj b ∉ evs
  noReceive : .accept ∉ conf.tasks ∧ .zeroRecv ∉ conf.tasks ∧ .recv ∉ conf.tasks
  stays : conf.shared.1.rsock.sock = INVALID_SOCKET ∧ ∀ sock, .closesocket sock ∉ evs
  turns : conf.shared.2.1 ≤ 5
  goesOn : conf.shared.1.robjLive = true → ∃ t ∈ conf.tasks, t.chain = 1 ∧
    ∀ ch, ∃ r, conf.shared.1.step t ch = .ok r
  once : (conf.shared.2.2 = 0 ∨ conf.shared.2.2 = 1) ∧ evs.count .freeRObj ≤ 1
  ended : conf.shared.1.robjLive = false → (∀ t ∈ conf.tasks, t.chain = 0) ∧
    conf.shared.2.2 = 1 ∧ evs.count .freeRObj = 1

/-- A rejection by GetCmdDataLength is final for the connection. -/
theorem rejection_is_final (conf₀ conf conf' : Conf ClientConn Task) (evs evs' : List Event)
    (conf'' : Conf (ClientConn × (ℕ × ℤ)) Task) (h₀ : Begins conf₀) (h : Run machine conf₀ evs conf)
    (hreject : Rejects conf conf')
    (h' : Run (machine.watched chainTurns) (conf'.watch (0, 0)) evs' conf'') :
    WindsUp evs' conf'' := by
  have hinv : Rejected evs' conf''.shared.1 conf''.shared.2 conf''.tasks :=
    Rejected.run (hreject.rejected (h₀.owned.run h)) h'
  have hchain := hinv.owned.chain
  have howed := hinv.owed
  have hturns := hinv.turns
  have hfreed := hinv.freed
  have hnot (t : Task) (ht : t.chain ≠ 0) (hw : t.winding = 0) : t ∉ conf''.tasks := by
    intro hmem
    exact hinv.tasks t hmem ht hw
  constructor
  · intro b
    constructor
    · intro he
      exact hinv.events _ he
    · intro he
      exact hinv.events _ he
  · exact ⟨hnot _ (by decide) rfl, hnot _ (by decide) rfl, hnot _ (by decide) rfl⟩
  · exact ⟨hinv.sock, fun sock he => hinv.events _ he⟩
  · omega
  · intro hlive
    rw [hlive, if_pos rfl] at hchain
    have hsome : ∃ t ∈ conf''.tasks, t.chain ≠ 0 := by
      by_contra hno
      simp only [not_exists, not_and, not_not] at hno
      rw [total_none hno] at hchain
      contradiction
    obtain ⟨t, ht, hne⟩ := hsome
    have hle := le_total_of_mem Task.chain ht
    refine ⟨t, ht, by omega, ?_⟩
    intro ch
    exact winding_steps (hinv.owned.ready ht) (hinv.tasks t ht hne) ch
  · have hle : total Task.owes conf''.tasks ≤ total Task.chain conf''.tasks :=
      List.sum_le_sum fun t _ => Task.owes_le t
    split at hchain <;> omega
  · intro hdead
    rw [hdead, if_neg (by decide)] at hchain hfreed
    have haside := total_eq_zero Task.chain hchain
    rw [total_none fun t ht => (Task.winding_of_chain (haside t ht)).2] at howed
    exact ⟨haside, (add_zero _).symm.trans howed, hfreed⟩

/-- A delivery loop that has six bytes which begin no frame. -/
def garbage : Conf ClientConn Task :=
  serving { sample.shared with rsock := sample.shared.rsock.acceptFill [1, 2, 3, 4, 5, 6] } []

theorem garbage_winds_up : ∃ conf' evs conf'', Rejects garbage conf' ∧
    Run (machine.watched chainTurns) (conf'.watch (0, 0)) evs conf'' ∧ WindsUp evs conf'' ∧
      conf''.tasks = [] ∧ conf''.shared.2 = (5, 1) := by
  have hfresh : machine.allowed garbage.shared (gives []) := List.not_mem_nil
  have hstep : garbage.shared.step (.loop .recv) (gives []) =
      .ok (garbage.shared.setRSock garbage.shared.rsock.zeroSum.closeSock, [.postZeroRecv],
        [.closesocket 7]) := rfl
  have hreject : Rejects garbage
      ⟨garbage.shared.setRSock garbage.shared.rsock.zeroSum.closeSock, [.postZeroRecv]⟩ :=
    Rejects.turn (List.Perm.refl _) hfresh hstep (List.mem_singleton_self _)
  have hplay : (play (machine.watched chainTurns) (Conf.watch
      ⟨garbage.shared.setRSock garbage.shared.rsock.zeroSum.closeSock, [.postZeroRecv]⟩ (0, 0))
      (List.replicate 5 (0, gives []))).map (fun r => (r.2.tasks, r.2.shared.2)) =
        some ([], 5, 1) := rfl
  obtain ⟨evs, conf'', hrun, hres⟩ := play_reaches hplay
  rw [Prod.mk.injEq] at hres
  exact ⟨_, evs, conf'', hreject, hrun, rejection_is_final garbage garbage _ [] evs conf''
    (Begins.serve _ [] List.nodup_nil) Run.nil hreject hrun, hres⟩

end ClientConn

end CustomersCard
