import CustomersCardMS.NcLifetime
import CustomersCardMS.Simulation
import CustomersCardMS.StreamGap

namespace CustomersCard
open Interleaving

inductive AnswerTask
  -- Nc_PostSend, and the WSASend that is outstanding.
  | postSend
  | send
  -- What goes on as everywhere else in the connection: CMCloseSocket and what is freed after it.
  | nc (t : NcTask)
  deriving DecidableEq

inductive AnswerEvent
  | transmit (bytes : List Byte)
  -- Nc_PostSend returns FALSE, or NC_SendCompFailed is called.
  | failed
  | nc (e : NcEvent)
  deriving DecidableEq

namespace AnswerEvent

def sentBytes : AnswerEvent → List Byte
  | .transmit bytes => bytes
  | _ => []

def released? : AnswerEvent → Option NcEvent
  | .nc e => some e
  | _ => none

end AnswerEvent

structure AnswerChoice where
  nc : NcChoice
  -- How much of the WSABUF a WSASend takes.
  count : ℕ

namespace NcConn

abbrev AnswerOutcome := Except NcConnFault (NcConn × List AnswerTask × List AnswerEvent)

def ending : Outcome → AnswerOutcome
  | .error f => .error f
  | .ok (c, new, evs) => .ok (c, new.map .nc, evs.map .nc)

def ncPostSend (c : NcConn) (ch : NcChoice) : AnswerOutcome :=
  if c.bobjLive ∧ c.bsockLive then
    if c.posts ch then .ok (c.setBObj c.bobj.setWsaBuf, [.send], [])
    else .ok (c.setBObj c.bobj.setWsaBuf, [.nc .close], [.failed])
  else .error .useAfterFree

/-- NC_SendCompSuccess, which calls NC_SendCompFailed when nothing was sent, and
NC_SendCompFailed. -/
def ncSendComp (c : NcConn) (ch : AnswerChoice) : AnswerOutcome :=
  if c.bobj.fpFailed = some .ncSendCompFailed ∧ c.bobj.fpSuccess = some .ncSendCompSuccess then
    if c.bobjLive then
      let bytes := c.bobj.offered.take ch.count
      let b := c.bobj.transferred bytes.length
      if ch.nc.ok ∧ bytes ≠ [] then
        let b := b.advance (BitVec.ofNat 32 bytes.length)
        .ok (c.setBObj b,
          if b.dwSendedCount < b.dwRecvedCount then [.postSend] else [.nc .close],
          [.transmit bytes])
      else .ok (c.setBObj b, [.nc .close], [.transmit bytes, .failed])
    else .error .useAfterFree
  else .error .wrongHandler

def answerStep (c : NcConn) : AnswerTask → AnswerChoice → AnswerOutcome
  | .postSend, ch => c.ncPostSend ch.nc
  | .send, ch => c.ncSendComp ch
  | .nc t, ch => ending (c.step t ch.nc)

def answering : Machine NcConn AnswerTask AnswerChoice AnswerEvent NcConnFault where
  step := answerStep
  allowed _ _ := True

instance (c : NcConn) (ch : AnswerChoice) : Decidable (answering.allowed c ch) :=
  inferInstanceAs (Decidable True)

/-- Both objects are in use, and the BUFFER_OBJ holds the handlers of a send and an answer that
is sent up to dwSendedCount. -/
structure Answers (c : NcConn) : Prop where
  bsock : c.bsockLive = true
  bobj : c.bobjLive = true
  fpFailed : c.bobj.fpFailed = some .ncSendCompFailed
  fpSuccess : c.bobj.fpSuccess = some .ncSendCompSuccess
  sended : c.bobj.dwSendedCount ≤ c.bobj.dwRecvedCount

/-- CMCloseSocket of a connection on `sock`. -/
def closing (sock : SOCKET) : List NcEvent :=
  if sock ≠ INVALID_SOCKET then [.closesocket sock] else []

/-- How far the end of a connection on `sock` has come, and what was released. -/
inductive Ends (sock : SOCKET) (c : NcConn) : List AnswerTask → List NcEvent → Prop
  | close : c.bsock.sock = sock → c.bsockLive = true → c.bobjLive = true →
      Ends sock c [.nc .close] []
  | freeBSock : c.bsockLive = true → c.bobjLive = true → Ends sock c [.nc .freeBSock] (closing sock)
  | freeBObj : c.bobjLive = true → Ends sock c [.nc .freeBObj] (closing sock ++ [.freeBSock])
  | freed : Ends sock c [] (closing sock ++ [.freeBSock, .freeBObj])

/-- How far the answer of `c₀` has come. -/
inductive Sent (c₀ : NcConn) (evs : List AnswerEvent) : Conf NcConn AnswerTask → Prop
  | sending {c : NcConn} {t : AnswerTask} :
      t = .postSend ∨ t = .send ∧ c.bobj.offered = c.bobj.unsent → c.Answers → c.bsock = c₀.bsock →
      evs.flatMap AnswerEvent.sentBytes ++ c.bobj.unsent = c₀.bobj.unsent →
      evs.filterMap AnswerEvent.released? = [] → Sent c₀ evs ⟨c, [t]⟩
  | ending {c : NcConn} {ts : List AnswerTask} :
      evs.flatMap AnswerEvent.sentBytes <+: c₀.bobj.unsent →
      (.failed ∉ evs → evs.flatMap AnswerEvent.sentBytes = c₀.bobj.unsent) →
      Ends c₀.bsock.sock c ts (evs.filterMap AnswerEvent.released?) → Sent c₀ evs ⟨c, ts⟩

/-- The turns that are left, at most. -/
def turns (c : NcConn) : AnswerTask → ℕ
  | .postSend => 2 * c.bobj.unsent.length+5
  | .send => 2 * c.bobj.unsent.length+4
  | .nc .close => 3
  | .nc .freeBSock => 2
  | .nc _ => 1

section Step

variable {c₀ c : NcConn} {new : List AnswerTask} {es evs : List AnswerEvent}

/-- The BUFFER_OBJ after a statement of Nc_PostSend or NC_SendCompSuccess. -/
theorem Answers.setBObj {b : BufferObj} (h : c.Answers) (hfailed : b.fpFailed = c.bobj.fpFailed)
    (hsuccess : b.fpSuccess = c.bobj.fpSuccess) (hle : b.dwSendedCount ≤ b.dwRecvedCount) :
    (c.setBObj b).Answers :=
  ⟨h.bsock, h.bobj, hfailed.trans h.fpFailed, hsuccess.trans h.fpSuccess, hle⟩

theorem flatMap_transmit (es : List AnswerEvent) (bytes : List Byte) {tail : List AnswerEvent}
    (htail : tail.flatMap AnswerEvent.sentBytes = []) :
    (es ++ .transmit bytes :: tail).flatMap AnswerEvent.sentBytes =
      es.flatMap AnswerEvent.sentBytes ++ bytes := by
  rw [List.flatMap_append, List.flatMap_cons, htail, List.append_nil]
  rfl

theorem filterMap_released {tail : List AnswerEvent}
    (hes : es.filterMap AnswerEvent.released? = [])
    (htail : tail.filterMap AnswerEvent.released? = []) :
    (es ++ tail).filterMap AnswerEvent.released? = [] := by
  rw [List.filterMap_append, hes, htail]
  rfl

/-- A turn of `t` takes place, and leaves fewer to come. -/
def Goes (c₀ : NcConn) (es : List AnswerEvent) (c : NcConn) (t : AnswerTask) : Prop :=
  ∀ ch, ∃ c' new evs, c.answerStep t ch = .ok (c', new, evs) ∧ Sent c₀ (es ++ evs) ⟨c', new⟩ ∧
    total (turns c') new < turns c t

/-- What ends the connection after a send. -/
theorem Answers.close (h : c.Answers) (hbsock : c.bsock = c₀.bsock)
    (hsent : evs.flatMap AnswerEvent.sentBytes <+: c₀.bobj.unsent)
    (hall : .failed ∉ evs → evs.flatMap AnswerEvent.sentBytes = c₀.bobj.unsent)
    (hreleased : evs.filterMap AnswerEvent.released? = []) : Sent c₀ evs ⟨c, [.nc .close]⟩ := by
  apply Sent.ending hsent hall
  rw [hreleased]
  exact Ends.close (congrArg BufferSock.sock hbsock) h.bsock h.bobj

theorem postSend_goes (h : c.Answers) (hbsock : c.bsock = c₀.bsock)
    (hsent : es.flatMap AnswerEvent.sentBytes ++ c.bobj.unsent = c₀.bobj.unsent)
    (hreleased : es.filterMap AnswerEvent.released? = []) : Goes c₀ es c .postSend := by
  intro ch
  have hlive : c.bobjLive = true ∧ c.bsockLive = true := ⟨h.bobj, h.bsock⟩
  have hnext : (c.setBObj c.bobj.setWsaBuf).Answers := h.setBObj rfl rfl h.sended
  have hunsent : c.bobj.setWsaBuf.unsent = c.bobj.unsent := rfl
  dsimp only [answerStep, ncPostSend]
  rw [if_pos hlive]
  by_cases hposts : c.posts ch.nc = true
  · rw [if_pos hposts]
    refine ⟨_, _, _, rfl, ?_, ?_⟩
    · rw [List.append_nil]
      have hoffered : c.bobj.setWsaBuf.offered = c.bobj.setWsaBuf.unsent :=
        BufferObj.Posted.offered rfl h.sended
      exact Sent.sending (Or.inr ⟨rfl, hoffered⟩) hnext hbsock hsent hreleased
    · change 2 * c.bobj.setWsaBuf.unsent.length+4 < 2 * c.bobj.unsent.length+5
      rw [hunsent]
      omega
  · rw [if_neg hposts]
    refine ⟨_, _, _, rfl, ?_, ?_⟩
    · apply hnext.close hbsock
      · rw [List.flatMap_append]
        exact ⟨c.bobj.unsent, by rw [← hsent]; exact List.append_assoc _ _ _⟩
      · intro hno
        exact absurd (List.mem_append_right _ (List.mem_singleton_self _)) hno
      · rw [List.filterMap_append, hreleased]
        rfl
    · change 3 < 2 * c.bobj.unsent.length+5
      omega

theorem send_goes (h : c.Answers) (hbsock : c.bsock = c₀.bsock)
    (hoffered : c.bobj.offered = c.bobj.unsent)
    (hsent : es.flatMap AnswerEvent.sentBytes ++ c.bobj.unsent = c₀.bobj.unsent)
    (hreleased : es.filterMap AnswerEvent.released? = []) : Goes c₀ es c .send := by
  intro ch
  dsimp only [answerStep, ncSendComp]
  rw [if_pos ⟨h.fpFailed, h.fpSuccess⟩, if_pos h.bobj, hoffered]
  have hprefix : c.bobj.unsent.take ch.count <+: c.bobj.unsent := List.take_prefix _ _
  have hsplit := List.take_append_drop ch.count c.bobj.unsent
  have hnext := h.setBObj (b := c.bobj.transferred (c.bobj.unsent.take ch.count).length) rfl rfl
    h.sended
  have hunsent : (c.bobj.transferred (c.bobj.unsent.take ch.count).length).unsent =
    c.bobj.unsent := rfl
  generalize c.bobj.transferred (c.bobj.unsent.take ch.count).length = b at hnext hunsent ⊢
  have hlt := b.advance_lt ch.count
  rw [hunsent] at hlt
  generalize c.bobj.unsent.take ch.count = bytes at hprefix hsplit hlt ⊢
  have hpart : es.flatMap AnswerEvent.sentBytes ++ bytes <+: c₀.bobj.unsent := by
    rw [← hsent]
    exact (List.prefix_append_right_inj _).mpr hprefix
  by_cases hok : ch.nc.ok = true ∧ bytes ≠ []
  · rw [if_pos hok]
    have hrest := b.advance_unsent (hunsent ▸ hprefix)
    have hcount := b.advance_toNat bytes (hunsent ▸ hprefix)
    have hle : (b.advance (BitVec.ofNat 32 bytes.length)).dwSendedCount ≤ b.dwRecvedCount := by
      have hlen := (hunsent ▸ hprefix : bytes <+: b.unsent).length_le
      have hsended : b.dwSendedCount.toNat ≤ b.dwRecvedCount.toNat := hnext.sended
      rw [BufferObj.length_unsent] at hlen
      rw [BitVec.le_def, hcount]
      omega
    have hnext' : (c.setBObj (b.advance (BitVec.ofNat 32 bytes.length))).Answers :=
      hnext.setBObj rfl rfl hle
    have hsent' : (es ++ [AnswerEvent.transmit bytes]).flatMap AnswerEvent.sentBytes ++
        (b.advance (BitVec.ofNat 32 bytes.length)).unsent = c₀.bobj.unsent := by
      calc _ = (es.flatMap AnswerEvent.sentBytes ++ bytes) ++
            (b.advance (BitVec.ofNat 32 bytes.length)).unsent := by
              rw [flatMap_transmit es bytes rfl]
        _ = es.flatMap AnswerEvent.sentBytes ++ b.unsent := by rw [List.append_assoc, hrest]
        _ = c₀.bobj.unsent := by rw [hunsent, hsent]
    have hreleased' : (es ++ [AnswerEvent.transmit bytes]).filterMap AnswerEvent.released? = [] :=
      filterMap_released hreleased rfl
    by_cases hmore : (b.advance (BitVec.ofNat 32 bytes.length)).dwSendedCount <
        (b.advance (BitVec.ofNat 32 bytes.length)).dwRecvedCount
    · rw [if_pos hmore]
      refine ⟨_, _, _, rfl, Sent.sending (Or.inl rfl) hnext' hbsock hsent' hreleased', ?_⟩
      have hlen := congrArg List.length hrest
      have hpos := List.length_pos_iff.mpr hok.2
      rw [List.length_append, hunsent] at hlen
      change 2 * (b.advance (BitVec.ofNat 32 bytes.length)).unsent.length+5 <
        2 * c.bobj.unsent.length+4
      omega
    · rw [if_neg hmore]
      -- dwSendedCount has come to dwRecvedCount.
      have hnil : c.bobj.unsent.drop ch.count = [] := not_not.mp ((not_congr (hlt hok.2)).mp hmore)
      rw [hnil, List.append_nil] at hsplit
      have hall : (es ++ [AnswerEvent.transmit bytes]).flatMap AnswerEvent.sentBytes =
          c₀.bobj.unsent := by
        rw [flatMap_transmit es bytes rfl, hsplit, hsent]
      have hclose := hnext'.close hbsock (hall ▸ List.prefix_refl _) (fun _ => hall) hreleased'
      refine ⟨_, _, _, rfl, hclose, ?_⟩
      change 3 < 2 * c.bobj.unsent.length+4
      omega
  · rw [if_neg hok]
    refine ⟨_, _, _, rfl, ?_, ?_⟩
    · apply hnext.close hbsock
      · rw [flatMap_transmit es bytes rfl]
        exact hpart
      · intro hno
        exact absurd (List.mem_append_right _ (List.mem_cons_of_mem _ List.mem_cons_self)) hno
      · exact filterMap_released hreleased rfl
    · change 3 < 2 * c.bobj.unsent.length+4
      omega

theorem close_runs (h : c.bsockLive = true) (ch : NcChoice) :
    ∃ c', c.step .close ch = .ok (c', [.freeBSock], closing c.bsock.sock) ∧
      c'.bsockLive = true ∧ c'.bobjLive = c.bobjLive := by
  dsimp only [step, withBSock, guarded, cmCloseSocket]
  unfold closing
  rw [if_pos h]
  by_cases hvalid : c.bsock.sock ≠ INVALID_SOCKET
  · rw [if_pos hvalid, if_pos hvalid]
    exact ⟨_, rfl, h, rfl⟩
  · rw [if_neg hvalid, if_neg hvalid]
    exact ⟨_, rfl, h, rfl⟩

/-- What CMCloseSocket and the frees add to the events. -/
theorem Sent.ends {evs : List NcEvent} (hsent : es.flatMap AnswerEvent.sentBytes <+: c₀.bobj.unsent)
    (hall : .failed ∉ es → es.flatMap AnswerEvent.sentBytes = c₀.bobj.unsent)
    (hends : Ends c₀.bsock.sock c new (es.filterMap AnswerEvent.released? ++ evs)) :
    Sent c₀ (es ++ evs.map AnswerEvent.nc) ⟨c, new⟩ := by
  have hbytes : (es ++ evs.map AnswerEvent.nc).flatMap AnswerEvent.sentBytes =
      es.flatMap AnswerEvent.sentBytes := by
    have hnone : evs.flatMap (AnswerEvent.sentBytes ∘ AnswerEvent.nc) = [] :=
      List.flatMap_eq_nil_iff.mpr fun _ _ => rfl
    calc _ = es.flatMap AnswerEvent.sentBytes ++
          evs.flatMap (AnswerEvent.sentBytes ∘ AnswerEvent.nc) := by
            rw [List.flatMap_append, List.flatMap_map]
            rfl
      _ = es.flatMap AnswerEvent.sentBytes := by rw [hnone, List.append_nil]
  have hreleased : (es ++ evs.map AnswerEvent.nc).filterMap AnswerEvent.released? =
      es.filterMap AnswerEvent.released? ++ evs := by
    rw [List.filterMap_append, List.filterMap_map]
    exact congrArg _ List.filterMap_some
  apply Sent.ending
  · rw [hbytes]
    exact hsent
  · intro hno
    rw [hbytes]
    exact hall fun hfailed => hno (List.mem_append_left _ hfailed)
  · rw [hreleased]
    exact hends

/-- A task that is left at the end runs without fault. -/
theorem Ends.runs {sock : SOCKET} {ts : List AnswerTask} {released : List NcEvent}
    (h : Ends sock c ts released) :
    ts = [] ∨ ∃ t, ts = [.nc t] ∧ ∀ ch, ∃ c' new evs, c.step t ch = .ok (c', new, evs) ∧
      Ends sock c' (new.map .nc) (released ++ evs) ∧
        total (turns c') (new.map .nc) < turns c (.nc t) := by
  cases h with
  | close hsock hbsock hbobj =>
    refine Or.inr ⟨.close, rfl, ?_⟩
    intro ch
    obtain ⟨c', hstep, hbsock', hbobj'⟩ := close_runs hbsock ch
    rw [hsock] at hstep
    exact ⟨c', _, _, hstep, Ends.freeBSock hbsock' (hbobj'.trans hbobj), Nat.lt_succ_self 2⟩
  | freeBSock hbsock hbobj =>
    refine Or.inr ⟨.freeBSock, rfl, ?_⟩
    intro ch
    exact ⟨_, _, _, if_pos hbsock, Ends.freeBObj hbobj, Nat.lt_succ_self 1⟩
  | freeBObj hbobj =>
    refine Or.inr ⟨.freeBObj, rfl, ?_⟩
    intro ch
    have hover : Ends sock { c with bobjLive := false } []
        ((closing sock ++ [.freeBSock]) ++ [.freeBObj]) := by
      rw [List.append_assoc]
      exact Ends.freed
    exact ⟨_, _, _, if_pos hbobj, hover, Nat.lt_succ_self 0⟩
  | freed => exact Or.inl rfl

/-- The connection has one task at most, and that goes on. -/
theorem Sent.goes {ts : List AnswerTask} (h : Sent c₀ es ⟨c, ts⟩) :
    ts = [] ∨ ∃ t, ts = [t] ∧ Goes c₀ es c t := by
  cases h with
  | @sending _ t ht hanswers hbsock hsent hreleased =>
    refine Or.inr ⟨t, rfl, ?_⟩
    rcases ht with rfl | ⟨rfl, hoffered⟩
    · exact postSend_goes hanswers hbsock hsent hreleased
    · exact send_goes hanswers hbsock hoffered hsent hreleased
  | ending hsent hall hends =>
    rcases hends.runs with hnil | ⟨t, hts, hruns⟩
    · exact Or.inl hnil
    · refine Or.inr ⟨.nc t, hts, ?_⟩
      intro ch
      obtain ⟨c', new, evs, hstep, hends', hturns⟩ := hruns ch.nc
      refine ⟨c', new.map .nc, evs.map .nc, ?_, Sent.ends hsent hall hends', hturns⟩
      dsimp only [answerStep]
      rw [hstep]
      rfl

/-- Every turn keeps to the answer and leaves fewer to come. -/
theorem Sent.turn {conf conf' : Conf NcConn AnswerTask} (h : Sent c₀ es conf)
    (hstep : Step answering conf evs conf') :
    Sent c₀ (es ++ evs) conf' ∧
      total (turns conf'.shared) conf'.tasks < total (turns conf.shared) conf.tasks := by
  cases hstep with
  | @turn c c' t ch ts new rest _ hp _ hok =>
    rcases h.goes with rfl | ⟨u, rfl, hgoes⟩
    · exact absurd hp.symm.eq_nil (List.cons_ne_nil _ _)
    · have hts := List.singleton_perm.mp hp
      rw [List.cons.injEq] at hts
      rcases hts with ⟨rfl, rfl⟩
      obtain ⟨c'', new', evs', hok', hsent, hturns⟩ := hgoes ch
      have heq := hok.symm.trans hok'
      cases heq
      rw [List.append_nil, total_cons]
      exact ⟨hsent, Nat.lt_of_lt_of_le hturns (Nat.le_add_right _ _)⟩

theorem Sent.bytes {conf : Conf NcConn AnswerTask} (h : Sent c₀ es conf) :
    es.flatMap AnswerEvent.sentBytes <+: c₀.bobj.unsent := by
  cases h with
  | sending _ _ _ hsent _ => exact ⟨_, hsent⟩
  | ending hsent _ _ => exact hsent

theorem Sent.ended {conf : Conf NcConn AnswerTask} (h : Sent c₀ es conf) (hnil : conf.tasks = []) :
    es.filterMap AnswerEvent.released? = closing c₀.bsock.sock ++ [.freeBSock, .freeBObj] ∧
      (.failed ∉ es → es.flatMap AnswerEvent.sentBytes = c₀.bobj.unsent) := by
  cases h with
  | sending => contradiction
  | ending _ hall hends =>
    dsimp only at hnil
    rw [hnil] at hends
    generalize es.filterMap AnswerEvent.released? = released at hends ⊢
    cases hends with
    | freed => exact ⟨rfl, hall⟩

end Step

/-- An answer that doNcResponse would leave in the BUFFER_OBJ is sent in order and no part of it
twice. No handler faults on the way, and it takes only so many turns until the handle is closed and
both objects are freed, each once; all of the answer was sent then, unless a WSASend failed. -/
theorem answer_sent_once (c₀ : NcConn) (h : c₀.Answers) (evs : List AnswerEvent)
    (conf : Conf NcConn AnswerTask) (hrun : Run answering ⟨c₀, [.postSend]⟩ evs conf) :
    evs.flatMap AnswerEvent.sentBytes <+: c₀.bobj.unsent ∧
      (∀ t ∈ conf.tasks, ∀ ch f, conf.shared.answerStep t ch ≠ .error f) ∧
      (∀ n conf', Turns answering (fun _ => True) conf n conf' →
        n ≤ 2 * c₀.bobj.unsent.length+5) ∧
      (∃ n conf', Turns answering (fun _ => True) conf n conf' ∧ conf'.tasks = []) ∧
      (conf.tasks = [] →
        evs.filterMap AnswerEvent.released? = closing c₀.bsock.sock ++ [.freeBSock, .freeBObj] ∧
          (.failed ∉ evs → evs.flatMap AnswerEvent.sentBytes = c₀.bobj.unsent)) := by
  have hstart : Sent c₀ [] ⟨c₀, [.postSend]⟩ := Sent.sending (Or.inl rfl) h rfl rfl rfl
  have hinv : Sent c₀ evs conf ∧
      total (turns conf.shared) conf.tasks ≤ 2 * c₀.bobj.unsent.length+5 := by
    apply hrun.invariant fun evs conf => Sent c₀ evs conf ∧
      total (turns conf.shared) conf.tasks ≤ 2 * c₀.bobj.unsent.length+5
    · exact ⟨hstart, le_rfl⟩
    · rintro evs conf es conf' ⟨hsent, hle⟩ hstep
      obtain ⟨hsent', hlt⟩ := hsent.turn hstep
      exact ⟨hsent', by omega⟩
  obtain ⟨hsent, hle⟩ := hinv
  have hkeeps (d : Conf NcConn AnswerTask) (es : List AnswerEvent) (d' : Conf NcConn AnswerTask)
      (hd : ∃ evs, Sent c₀ evs d) (hturn : TurnOf answering (fun _ => True) d es d') :
      ∃ evs, Sent c₀ evs d' := by
    obtain ⟨evs, hd⟩ := hd
    exact ⟨evs ++ es, (hd.turn hturn.step).1⟩
  have hfewer (d : Conf NcConn AnswerTask) (es : List AnswerEvent) (d' : Conf NcConn AnswerTask)
      (hd : ∃ evs, Sent c₀ evs d) (hturn : TurnOf answering (fun _ => True) d es d') :
      total (turns d'.shared) d'.tasks < total (turns d.shared) d.tasks := by
    obtain ⟨evs, hd⟩ := hd
    exact (hd.turn hturn.step).2
  refine ⟨hsent.bytes, ?_, ?_, ?_, hsent.ended⟩
  · intro t ht ch f herror
    rcases hsent.goes with hnil | ⟨u, hu, hgoes⟩
    · rw [hnil] at ht
      contradiction
    · rw [hu, List.mem_singleton] at ht
      obtain ⟨c', new, es, hok, _⟩ := hgoes ch
      rw [← ht, herror] at hok
      contradiction
  · intro n conf' hturns
    have hbound := (Turns.bounded hkeeps hfewer ⟨evs, hsent⟩ hturns).2
    omega
  · obtain ⟨n, conf', hturns, ⟨es, hd⟩, hrest⟩ := Turns.exhausted hkeeps hfewer ⟨evs, hsent⟩
    refine ⟨n, conf', hturns, ?_⟩
    rcases hd.goes with hnil | ⟨u, hu, hgoes⟩
    · exact hnil
    · obtain ⟨c', new, es', hok, _⟩ := hgoes ⟨⟨true, [], []⟩, 0⟩
      have hturn : TurnOf answering (fun _ => True) conf' es' ⟨c', new ++ []⟩ := by
        refine TurnOf.turn trivial ?_ trivial hok
        rw [hu]
      exact absurd hturn (hrest _ _)

/-- Three bytes are to be sent. -/
def answered : NcConn where
  bsock := ⟨0, 7⟩
  bsockLive := true
  bobj := { BufferObj.zeroed.setIoRequestFunction .ncSendCompFailed .ncSendCompSuccess with
    dwRecvedCount := 3
    datalen := 4009 }
  bobjLive := true

def sends (count : ℕ) : AnswerChoice := ⟨⟨true, [], []⟩, count⟩

theorem three_bytes_sent : ∃ evs conf, Run answering ⟨answered, [.postSend]⟩ evs conf ∧
    evs.flatMap AnswerEvent.sentBytes = [0, 0, 0] ∧
      evs.filterMap AnswerEvent.released? = [.closesocket 7, .freeBSock, .freeBObj] := by
  have hplay : (play answering ⟨answered, [.postSend]⟩
      [(0, sends 0), (0, sends 2), (0, sends 0), (0, sends 1), (0, sends 0), (0, sends 0),
        (0, sends 0)]).map (fun r => (r.2.tasks, decide (AnswerEvent.failed ∈ r.1))) =
          some ([], false) := by decide +kernel
  obtain ⟨evs, conf, hrun, hres⟩ := play_reaches hplay
  rw [Prod.mk.injEq, decide_eq_false_iff_not] at hres
  obtain ⟨_, _, _, _, hover⟩ := answer_sent_once answered
    ⟨rfl, rfl, rfl, rfl, by decide⟩ evs conf hrun
  obtain ⟨hreleased, hall⟩ := hover hres.1
  refine ⟨evs, conf, hrun, ?_, ?_⟩
  · exact (hall hres.2).trans (by decide)
  · exact hreleased.trans (by decide)

end NcConn

end CustomersCard
