import CustomersCardMS.SendDiscipline

namespace CustomersCard
open Interleaving SendQueue

/-- The BUFFER_OBJ whose WSASend is called or completes. -/
def Task.sends : Task → List BufferObjPtr
  | .startSend b | .repostSend b | .nextSend b | .send b => [b]
  | _ => []

namespace ClientConn

/-- A WSASend that is refused, or completes as a failure, with bytes of its BUFFER_OBJ left. -/
def cutsShort (c : ClientConn) : Task → Choice → Bool
  | .startSend b, ch | .repostSend b, ch | .nextSend b, ch =>
    !c.posts ch && !(c.bobj b).unsent.isEmpty
  | .send b, ch =>
    (!ch.ok || ((c.bobj b).unsent.take ch.count).isEmpty) &&
      !((c.bobj b).unsent.drop ch.count).isEmpty
  | _, _ => false

/-- A WSASend that transfers bytes, all or some of what it was given. -/
def transfers (c : ClientConn) : Task → Choice → Bool
  | .send b, ch => !((c.bobj b).unsent.take ch.count).isEmpty
  | _, _ => false

/-- The socket is gone once a WSASend was refused or failed: none transfers bytes later. -/
def goneAfterCut : Monitor Bool ClientConn Task Choice where
  next cut c t ch := cut || c.cutsShort t ch
  permits cut c t ch := !cut || !c.transfers t ch

section Step

variable {c c' : ClientConn} {t : Task} {ch : Choice} {new : List Task} {evs : List Event}
  {b : BufferObjPtr}

/-- The other tasks put nothing on the wire and give no send up. -/
theorem Fires.quiet (hf : Fires c t c' new evs) (ht : t.sends = []) :
    losing c t new evs = false ∧ evs.flatMap Event.sentBytes = [] := by
  cases hf with
  | pass hpass _ hcloses _ =>
    refine ⟨?_, hcloses.silent.sent⟩
    rcases hpass.silent with ⟨b, rfl, _⟩ | ⟨_, hret, _⟩
    · contradiction
    · apply losing_none
      rw [List.flatMap_singleton, hret]
  | freeBObj b _ hfree => exact ⟨losing_none hfree.silent.2.1, rfl⟩
  | enqueue b bytes =>
    refine ⟨losing_none ?_, rfl⟩
    split <;> rfl
  | start b hstart => rcases hstart with rfl | rfl <;> contradiction
  | sent b bytes | sendFailed b bytes => contradiction
  | dequeue b x front => exact ⟨losing_none rfl, rfl⟩
  | _ => exact ⟨losing_none rfl, rfl⟩

theorem cutsShort_quiet (ht : t.sends = []) : c.cutsShort t ch = false := by
  cases t <;> first | rfl | exact absurd ht (List.cons_ne_nil _ _)

/-- A send that is over, after `bytes` were transmitted. -/
theorem losing_iff {bytes : List Byte} (ht : t.retiring = []) (hb : t.front = [b])
    (hevs : evs.flatMap Event.sentBytes = bytes) :
    losing c t [.getNextData b] evs = true ↔ bytes ≠ (c.bobj b).unsent := by
  have hfront : (t.front.flatMap fun b => (c.bobj b).unsent) = (c.bobj b).unsent := by
    rw [hb, List.flatMap_singleton]
  unfold losing
  rw [decide_eq_true_iff, hevs, hfront]
  constructor
  · intro hall
    exact hall.2.2
  · intro hne
    exact ⟨ht, List.cons_ne_nil _ _, hne⟩

/-- A post is short when it is refused and something is left to send. -/
theorem posts_short {evs' : List Event} (hpost : c.postSend b ch evs' = .ok (c', new, evs))
    (ht : t.retiring = []) (hb : t.front = [b]) (hevs : evs'.flatMap Event.sentBytes = []) :
    losing c t new evs = (!c.posts ch && !(c.bobj b).unsent.isEmpty) := by
  simp only [postSend, withRSock, withBObj, guarded_ok, ok_inj] at hpost
  rcases hpost with ⟨_, _, _, rfl, rfl⟩
  cases c.posts ch with
  | true => exact losing_none rfl
  | false =>
    apply Bool.eq_iff_iff.mpr
    refine (losing_iff ht hb hevs).trans ?_
    cases (c.bobj b).unsent <;> simp

theorem completes_short (hready : Ready c (.send b))
    (h : c.sendCompletion b ch = .ok (c', new, evs)) :
    losing c (.send b) new evs = c.cutsShort (.send b) ch ∧
      evs = [.transmit b ((c.bobj b).unsent.take ch.count)] := by
  simp only [sendCompletion, withBObj, dispatchBObj, guarded_ok, hready.offered] at h
  rcases h with ⟨_, _, h⟩
  have hsplit := List.take_append_drop ch.count (c.bobj b).unsent
  split at h
  -- All of it went out, or the rest is posted: nothing is lost either way.
  · case isTrue hsent =>
    rw [ok_inj] at h
    rcases h with ⟨_, rfl, rfl⟩
    refine ⟨?_, rfl⟩
    have hlt := (c.bobj b).advance_lt ch.count hsent.2
    have hcut : c.cutsShort (.send b) ch = false := by
      simp [cutsShort, hsent.1, hsent.2]
    rw [hcut]
    split
    · exact losing_none rfl
    · case isFalse hall =>
      have hdrop := not_not.mp ((not_congr hlt).mp hall)
      rw [hdrop, List.append_nil] at hsplit
      apply Bool.eq_false_iff.mpr
      intro hl
      exact (losing_iff rfl rfl (List.append_nil _)).mp hl hsplit
  -- What the failed completion left is lost, if it left anything.
  · case isFalse hfail =>
    rw [ok_inj] at h
    rcases h with ⟨_, rfl, rfl⟩
    refine ⟨?_, rfl⟩
    have hfirst : (!ch.ok || ((c.bobj b).unsent.take ch.count).isEmpty) = true := by
      rcases hok : ch.ok with _ | _
      · rfl
      · have hnil : (c.bobj b).unsent.take ch.count = [] := by
          by_contra hne
          exact hfail ⟨hok, hne⟩
        rw [hnil]
        rfl
    apply Bool.eq_iff_iff.mpr
    refine (losing_iff rfl rfl (List.append_nil _)).trans ?_
    dsimp only [cutsShort]
    rw [hfirst, Bool.true_and, Bool.not_eq_true', List.isEmpty_eq_false_iff]
    apply not_congr
    change (c.bobj b).unsent.take ch.count = (c.bobj b).unsent ↔ _
    rw [List.take_eq_self_iff, List.drop_eq_nil_iff]

theorem nextSend_short (h : c.step (.nextSend b) ch = .ok (c', new, evs)) :
    losing c (.nextSend b) new evs = c.cutsShort (.nextSend b) ch ∧ evs = [.start b] := by
  simp only [step, withBObj, guarded_ok] at h
  rcases h with ⟨_, hpost⟩
  have hshort := posts_short (t := .nextSend b) hpost rfl rfl rfl
  have hleft : ((c.setBObj b ((c.bobj b).setIoRequestFunction .clientSendCompletionFailed
      .clientSendCompletionSuccess)).bobj b).unsent = (c.bobj b).unsent := by
    rw [setBObj_bobj]
    rfl
  rw [hleft] at hshort
  refine ⟨Eq.trans ?_ hshort, (postSend_ok hpost).2.1⟩
  have hfront : (Task.nextSend b).front = [b] := rfl
  simp only [losing, hfront, List.flatMap_singleton, hleft]

/-- What the queue of sends loses in a step is what the environment cuts short. -/
theorem losing_eq_cutsShort (hready : Ready c t) (hfresh : ch.pBObj ∉ c.objs)
    (h : c.step t ch = .ok (c', new, evs)) : losing c t new evs = c.cutsShort t ch := by
  cases t with
  | send b => exact (completes_short hready h).1
  | startSend b => exact posts_short h rfl rfl rfl
  | repostSend b => exact posts_short h rfl rfl rfl
  | nextSend b => exact (nextSend_short h).1
  | _ =>
    rw [cutsShort_quiet rfl]
    exact ((step_turn hfresh h).fires.quiet rfl).1

theorem silent_of_transfers (hready : Ready c t) (hfresh : ch.pBObj ∉ c.objs)
    (h : c.step t ch = .ok (c', new, evs)) (ht : c.transfers t ch = false) :
    evs.flatMap Event.sentBytes = [] := by
  cases t with
  | send b =>
    dsimp only [transfers] at ht
    rw [Bool.not_eq_false', List.isEmpty_iff] at ht
    rw [(completes_short hready h).2, ht]
    rfl
  | startSend b | repostSend b =>
    rw [(postSend_ok h).2.1]
    rfl
  | nextSend b =>
    rw [(nextSend_short h).2]
    rfl
  | _ => exact ((step_turn hfresh h).fires.quiet rfl).2

/-- A turn that the monitor permits puts nothing on the wire after a loss. -/
theorem Sends.streamed {q : State BufferObjPtr Byte} {rest : List Task} {es : List Event}
    {cut : Bool} (h : Sends es c (t :: rest) q) (ho : Ordered q) (hcount : Counted c q)
    (howned : Owned c (t :: rest)) (hstream : Streamed q) (hlost : q.lost = cut)
    (hfresh : ch.pBObj ∉ c.objs) (hstep : c.step t ch = .ok (c', new, evs))
    (hpermits : goneAfterCut.permits cut c t ch = true) :
    ∃ q', Ordered q' ∧ Counted c' q' ∧ Sends (es ++ evs) c' (new ++ rest) q' ∧ Streamed q' ∧
      q'.lost = goneAfterCut.next cut c t ch := by
  obtain ⟨q', ha, hlost', hcount', hs'⟩ :=
    h.fires ho hcount howned (step_turn hfresh hstep).fires
  have hready := howned.ready List.mem_cons_self
  -- After a loss the monitor permits no transfer.
  have hquiet : cut = true → q'.wire = q.wire := by
    intro hcut
    have htransfers : c.transfers t ch = false := by
      dsimp only [goneAfterCut] at hpermits
      rw [hcut, Bool.not_true, Bool.false_or, Bool.not_eq_true'] at hpermits
      exact hpermits
    rw [hs'.wire, h.wire, List.flatMap_append, silent_of_transfers hready hfresh hstep htransfers,
      List.append_nil]
  refine ⟨q', ha.ordered ho, hcount', hs', ?_, ?_⟩
  · obtain ⟨q₁, hm₁, hm₂, hwire⟩ := ha
    have hstream₁ : Streamed q₁ := by
      apply hstream.move ho hm₁
      intro hl
      rw [← hwire]
      exact hquiet (hlost.symm.trans hl)
    apply hstream₁.move (ho.move hm₁) hm₂
    intro _
    exact hwire
  · rw [hlost', hlost, losing_eq_cutsShort hready hfresh hstep]
    rfl

end Step

/-- What the peer has got is a prefix of the responses, in the order in which they were queued.
Once a send was cut short it ends inside that response. -/
structure GapFree (evs : List Event) (cut : Bool) : Prop where
  stream : evs.flatMap Event.sentBytes <+: contents (evs.filterMap Event.enqueued?)
  stalled : cut = true → ∃ front x back tail,
    evs.filterMap Event.enqueued? = front ++ x :: back ∧ tail ≠ [] ∧
      evs.flatMap Event.sentBytes ++ tail = contents (front ++ [x])

/-- The responses go out without a gap along every run in which no WSASend transfers bytes
after one was refused, or failed, with bytes of its BUFFER_OBJ left. -/
theorem response_stream_gap_free (conf₀ : Conf ClientConn Task) (evs : List Event)
    (conf : Conf (ClientConn × Bool) Task) (h₀ : Begins conf₀)
    (h : Run (machine.watched goneAfterCut) (conf₀.watch false) evs conf) :
    GapFree evs conf.shared.2 := by
  have hinv : Owned conf.shared.1 conf.tasks ∧ ∃ q, Ordered q ∧ Counted conf.shared.1 q ∧
      Sends evs conf.shared.1 conf.tasks q ∧ Streamed q ∧ q.lost = conf.shared.2 := by
    apply h.invariant (fun evs conf => Owned conf.shared.1 conf.tasks ∧ ∃ q, Ordered q ∧
      Counted conf.shared.1 q ∧ Sends evs conf.shared.1 conf.tasks q ∧ Streamed q ∧
      q.lost = conf.shared.2)
    · exact ⟨h₀.owned, State.empty, Ordered.empty, h₀.sends.1, h₀.sends.2, Streamed.empty, rfl⟩
    · intro evs conf es conf' hinv hstep
      rcases hinv with ⟨howned, q, ho, hcount, hs, hstream, hlost⟩
      cases hstep with
      | turn hp hfresh hok =>
        obtain ⟨hpermits, hstep, hnext⟩ := watched_step hok
        have hpool := howned.perm hp
        obtain ⟨q', ho', hcount', hs', hstream', hlost'⟩ :=
          (hs.perm hp).streamed ho hcount hpool hstream hlost hfresh hstep hpermits
        refine ⟨hpool.turn (step_turn hfresh hstep), q', ho', hcount', hs', hstream', ?_⟩
        rw [hlost', hnext]
  obtain ⟨_, q, _, _, hs, hstream, hlost⟩ := hinv
  constructor
  · rw [← hs.wire, ← hs.enqueued]
    exact hstream.sent
  · intro hcut
    rw [← hs.wire, ← hs.enqueued]
    exact hstream.stalled (hlost.trans hcut)

/-- The first send of `answered` transfers one of its bytes, and the rest is refused; the second
BUFFER_OBJ is sent. -/
def partialThenNext : List (ℕ × Choice) :=
  answered [1, 2, 3] [4] ++
    [(0, past 2 [] 1), (0, { past 2 [] 0 with ok := false }), (0, past 2 [] 0), (0, past 2 [] 0),
      (0, past 2 [] 0), (0, past 2 [] 0), (0, past 2 [] 1)]

theorem one_byte_then_silence : ∃ evs conf,
    Run (machine.watched goneAfterCut) (sample.watch false) evs conf ∧ GapFree evs conf.shared.2 ∧
      conf.shared.2 = true ∧ evs.flatMap Event.sentBytes = [1] := by
  have hplay : (play (machine.watched goneAfterCut) (sample.watch false)
      (partialThenNext.take 18)).map (fun r => (r.2.shared.2, r.1.flatMap Event.sentBytes)) =
        some (true, [1]) := by decide +kernel
  obtain ⟨evs, conf, hrun, hres⟩ := play_reaches hplay
  rw [Prod.mk.injEq] at hres
  exact ⟨evs, conf, hrun, response_stream_gap_free sample evs conf
    (Begins.accept _ _ _ _ _ _) hrun, hres⟩

/-- The peer gets the first byte of one response and then another response. -/
theorem response_stream_gap : ∃ evs conf, Run machine sample evs conf ∧
    evs.filterMap Event.enqueued? = [(0, [1, 2, 3]), (1, [4])] ∧
    evs.flatMap Event.sentBytes = [1, 4] ∧
    ¬ evs.flatMap Event.sentBytes <+: contents (evs.filterMap Event.enqueued?) := by
  have hplay : (play machine sample partialThenNext).map
      (fun r => (r.1.filterMap Event.enqueued?, r.1.flatMap Event.sentBytes)) =
        some ([(0, [1, 2, 3]), (1, [4])], [1, 4]) := by decide +kernel
  obtain ⟨evs, conf, hrun, hres⟩ := play_reaches hplay
  rw [Prod.mk.injEq] at hres
  refine ⟨evs, conf, hrun, hres.1, hres.2, ?_⟩
  change evs.filterMap Event.enqueued? = _ ∧ evs.flatMap Event.sentBytes = _ at hres
  rw [hres.1, hres.2]
  decide

end ClientConn

end CustomersCard
