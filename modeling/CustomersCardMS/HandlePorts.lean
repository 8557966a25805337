import CustomersCardMS.WorkerInvariant

namespace CustomersCard
open Interleaving

namespace Task

/-- An operation whose completion is that of a transfer on the socket. -/
def transfers : Task → Prop
  | .zeroRecv | .recv | .send _ => True
  | _ => False

end Task

namespace NcTask

/-- The tasks between CreateIoCompletionPort and CMCloseSocket. -/
def associated : NcTask → Prop
  | .check | .postZeroRecv | .zeroRecv | .postRecv | .recv => True
  | _ => False

def transfers : NcTask → Prop
  | .zeroRecv | .recv => True
  | _ => False

end NcTask

namespace ClientConn

/-- The handle that a connection has. -/
def handle (c : ClientConn) (sock : SOCKET) : Prop := sock = c.rsock.sock ∧ sock ≠ INVALID_SOCKET

section Step

variable {c c' : ClientConn} {t u : Task} {rest new : List Task} {evs : List Event} {ch : Choice}

theorem Fires.handle_moves (hf : Fires c t c' new evs) :
    OwnerTable.Moves c.handle c'.handle (evs.filterMap Event.handle?) := by
  have hkeep (hs : c'.rsock.sock = c.rsock.sock) (hevs : evs.filterMap Event.handle? = []) :
      OwnerTable.Moves c.handle c'.handle (evs.filterMap Event.handle?) := by
    rw [hevs]
    apply OwnerTable.Moves.keep
    intro q hq
    exact ⟨hq.1.trans hs, hq.2⟩
  cases hf with
  | pass _ _ hc =>
    cases hc with
    | keeps hs => exact hkeep hs rfl
    | closes _ hvalid hinvalid =>
      have hhandle : c.handle c.rsock.sock := ⟨rfl, hvalid⟩
      apply OwnerTable.Moves.drop _ hhandle
      intro q hq
      exact absurd (hq.1.trans hinvalid) hq.2
  | alloc _ _ _ _ _ _ _ _ hs => exact hkeep hs rfl
  | queue _ _ _ hs => exact hkeep hs rfl
  | enqueue _ _ _ _ hs => exact hkeep hs rfl
  | start _ _ _ _ hs => exact hkeep hs rfl
  | sent _ _ _ _ _ hs => exact hkeep hs rfl
  | _ => exact hkeep rfl rfl

/-- A handle that is still there was not exchanged. -/
theorem Fires.sock_eq (hf : Fires c t c' new evs) (hvalid : c'.rsock.sock ≠ INVALID_SOCKET) :
    c'.rsock.sock = c.rsock.sock := by
  cases hf with
  | pass _ _ hc =>
    cases hc with
    | keeps hs => exact hs
    | closes _ _ hinvalid => exact absurd hinvalid hvalid
  | alloc _ _ _ _ _ _ _ _ hs => exact hs
  | queue _ _ _ hs => exact hs
  | enqueue _ _ _ _ hs => exact hs
  | start _ _ _ _ hs => exact hs
  | sent _ _ _ _ _ hs => exact hs
  | _ => rfl

/-- AcceptEx is posted by nobody but fpAcceptex, and a connection leaves the accept by way of
CreateIoCompletionPort. -/
theorem step_leads (h : c.step t ch = .ok (c', new, evs)) (hfresh : ch.pBObj ∉ c.objs)
    (hu : u ∈ new) : u ≠ .accept ∧
      (t.accepting ≠ 0 → u.accepting = 0 → (t.associates && ch.ok) = true) := by
  have hone {t' : Task} (hu : u ∈ [t']) (hn : t' ≠ .accept) (ht : t.accepting = 0) :
      u ≠ .accept ∧ (t.accepting ≠ 0 → u.accepting = 0 → (t.associates && ch.ok) = true) := by
    rw [List.mem_singleton.mp hu]
    exact ⟨hn, fun hne => absurd ht hne⟩
  have hstill {t' : Task} (hu : u ∈ [t']) (hn : t' ≠ .accept) (ht : t'.accepting ≠ 0) :
      u ≠ .accept ∧ (t.accepting ≠ 0 → u.accepting = 0 → (t.associates && ch.ok) = true) := by
    rw [List.mem_singleton.mp hu]
    exact ⟨hn, fun _ hz => absurd hz ht⟩
  cases (step_turn hfresh h).fires with
  | pass hpass =>
    cases hpass with
    | associated n =>
      rw [List.mem_singleton.mp hu]
      refine ⟨by simp, ?_⟩
      intro _ _
      simp only [step, withRSock, guarded_ok] at h
      split at h
      · case isTrue hok =>
        change (true && ch.ok) = true
        rw [hok]
        rfl
      · rw [ok_inj] at h
        exact absurd h.2.2.1 (by simp)
    | accepted | refused | unassociated | closed => exact hstill hu (by simp) Nat.one_ne_zero
    | _ => exact hone hu (by simp) rfl
  | acceptFreeRObj => exact hstill hu (by simp) Nat.one_ne_zero
  | queue o b =>
    rcases List.mem_cons.mp hu with rfl | hu
    · exact ⟨by simp, fun hne => absurd rfl hne⟩
    · exact hone hu (by simp) rfl
  | freeBObj b _ hfree =>
    cases hfree with
    | cmd => contradiction
    | _ => exact hone hu (by simp) rfl
  | acceptFreeRSock | earlyFreeRSock | releaseFreeRObj | releaseNothing => contradiction
  | enqueue =>
    split at hu
    · exact hone hu (by simp) rfl
    · contradiction
  | start b ht ht' =>
    have hz : t.accepting = 0 := by
      rcases ht with rfl | rfl
      · rfl
      · rfl
    rcases ht' with rfl | rfl
    · exact hone hu (by simp) hz
    · exact hone hu (by simp) hz
  | sent =>
    split at hu
    · exact hone hu (by simp) rfl
    · exact hone hu (by simp) rfl
  | _ => exact hone hu (by simp) rfl

theorem postSend_valid {b : BufferObjPtr} {es : List Event}
    (h : c.postSend b ch es = .ok (c', new, evs)) (hu : u ∈ new) (ht : u.transfers) :
    c'.rsock.sock ≠ INVALID_SOCKET := by
  simp only [postSend, withRSock, withBObj, guarded_ok, ok_inj] at h
  rcases h with ⟨_, _, rfl, rfl, _⟩
  split at hu
  · case isTrue hposts =>
    have hvalid := (Bool.and_eq_true_iff.mp hposts).2
    exact bne_iff_ne.mp hvalid
  · rw [List.mem_singleton.mp hu] at ht
    exact False.elim ht

/-- No transfer is outstanding that was asked for on INVALID_SOCKET. -/
theorem step_valid (h : c.step t ch = .ok (c', new, evs)) (hfresh : ch.pBObj ∉ c.objs)
    (hu : u ∈ new) (ht : u.transfers) : c'.rsock.sock ≠ INVALID_SOCKET := by
  have hone {t' : Task} (hu : u ∈ [t']) (hn : ¬ t'.transfers) : c'.rsock.sock ≠ INVALID_SOCKET := by
    rw [List.mem_singleton.mp hu] at ht
    exact absurd ht hn
  cases (step_turn hfresh h).fires with
  | pass hpass =>
    cases hpass with
    | zeroPosted | recvPosted =>
      simp only [step, withRObj, withRSock, guarded_ok, ok_inj] at h
      rcases h with ⟨_, _, rfl, hnew, _⟩
      split at hnew
      · case isTrue hposts => exact bne_iff_ne.mp (Bool.and_eq_true_iff.mp hposts).2
      · simp at hnew
    | reposted => exact postSend_valid h hu ht
    | _ => exact hone hu not_false
  | start b hstart =>
    rcases hstart with rfl | rfl
    · exact postSend_valid h hu ht
    · simp only [step, withBObj, guarded_ok] at h
      exact postSend_valid h.2 hu ht
  | queue o b =>
    rcases List.mem_cons.mp hu with rfl | hu
    · contradiction
    · exact hone hu not_false
  | freeBObj b _ hfree =>
    cases hfree with
    | cmd => contradiction
    | _ => exact hone hu not_false
  | acceptFreeRSock | earlyFreeRSock | releaseFreeRObj | releaseNothing => contradiction
  | enqueue =>
    split at hu
    · exact hone hu not_false
    · contradiction
  | sent =>
    split at hu
    · exact hone hu not_false
    · exact hone hu not_false
  | _ => exact hone hu not_false

end Step

end ClientConn

namespace NcConn

def handle (c : NcConn) (sock : SOCKET) : Prop := sock = c.bsock.sock ∧ sock ≠ INVALID_SOCKET

section Step

variable {c c' : NcConn} {t u : NcTask} {rest new : List NcTask} {evs : List NcEvent}
  {ch : NcChoice}

theorem Fires.sock_eq (hf : Fires c t c' new evs) (hvalid : c'.bsock.sock ≠ INVALID_SOCKET) :
    c'.bsock.sock = c.bsock.sock := by
  cases hf with
  | goes _ _ _ _ hs =>
    rw [hs]
  | closes => exact absurd rfl hvalid
  | _ => rfl

/-- A step closes its own handle, if it does not take the BUFFER_OBJ for a socket. -/
theorem Fires.handle_moves (hf : Fires c t c' new evs) :
    OwnerTable.Moves c.handle c'.handle (evs.filterMap NcEvent.handle?) ∨
      (c'.bsock = c.bsock ∧ t = .check ∧ c.bobj.ncDecision = .ok .close ∧
        ∀ e ∈ evs, e = .closesocket c.bobj.ol.internalHigh) := by
  have hkeep (hs : c'.bsock.sock = c.bsock.sock) (hevs : evs.filterMap NcEvent.handle? = []) :
      OwnerTable.Moves c.handle c'.handle (evs.filterMap NcEvent.handle?) := by
    rw [hevs]
    apply OwnerTable.Moves.keep
    intro q hq
    exact ⟨hq.1.trans hs, hq.2⟩
  cases hf with
  | goes _ _ _ _ hs => exact Or.inl (hkeep (congrArg BufferSock.sock hs) rfl)
  | waits | completes | freeBSock | freeBObj => exact Or.inl (hkeep rfl rfl)
  | strays hd =>
    refine Or.inr ⟨rfl, rfl, hd, ?_⟩
    intro e he
    unfold BufferObj.cmCloseSocket at he
    split at he
    · exact List.mem_singleton.mp he
    · contradiction
  | closes =>
    left
    split
    · case isTrue hvalid =>
      have hhandle : c.handle c.bsock.sock := ⟨rfl, hvalid⟩
      apply OwnerTable.Moves.drop _ hhandle
      intro q hq
      exact absurd hq.1 hq.2
    · apply OwnerTable.Moves.keep
      intro q hq
      exact absurd hq.1 hq.2

/-- AcceptEx is posted by nobody but fpAcceptex, the handle is associated before it is received
from, and no receive is outstanding on INVALID_SOCKET. -/
theorem step_leads (h : c.step t ch = .ok (c', new, evs)) (hu : u ∈ new) : u ≠ .accept ∧
    (¬ t.associated → u.associated → (t.associates && ch.ok) = true) ∧
      (u.transfers → c'.bsock.sock ≠ INVALID_SOCKET) := by
  have hposts (d : NcConn) (hd : d.posts ch = true) : d.bsock.sock ≠ INVALID_SOCKET :=
    bne_iff_ne.mp (Bool.and_eq_true_iff.mp hd).2
  cases step_next h hu with
  | associated n =>
    refine ⟨by simp, fun _ _ => ?_, fun htransfers => False.elim htransfers⟩
    simp only [step, withBObj, withBSock, guarded_ok] at h
    split at h
    · case isTrue hok => exact hok
    · have hnew := (ok_inj.mp h.2.2).2.1
      rw [← hnew, List.mem_singleton] at hu
      contradiction
  | zeroPosted | recvPosted =>
    refine ⟨by simp, fun hn => absurd trivial hn, fun _ => ?_⟩
    simp only [step, withBObj, withBSock, guarded_ok, ok_inj] at h
    rcases h with ⟨_, _, rfl, rfl, _⟩
    split at hu
    · case isTrue hp => exact hposts _ hp
    · rw [List.mem_singleton] at hu
      contradiction
  | received | checked | readable =>
    exact ⟨by simp, fun hn => absurd trivial hn, fun htransfers => False.elim htransfers⟩
  | _ =>
    exact ⟨by simp, fun _ hassoc => False.elim hassoc, fun htransfers => False.elim htransfers⟩

end Step

end NcConn

namespace Process

/-- The key of an operation is the one that its handlers expect. -/
def keyed (s : Process) : Running → Prop
  | .acceptex _ => True
  | .client i t key => key = t.expects (s.clients i).conn.pRSock
  | .nc i t key => key = t.expects (s.ncs i).pBSock

structure ClientPort (s : Process) (i : ℕ) (ts : List Task) : Prop where
  handle : ∀ sock, (s.clients i).conn.handle sock → s.owner sock = some (.client i)
  port : ∀ t ∈ ts, t.accepting = 0 → ∀ sock, (s.clients i).conn.handle sock →
    s.key sock = some (.recvSock (s.clients i).conn.pRSock)

structure NcPort (s : Process) (i : ℕ) (ts : List NcTask) : Prop where
  handle : ∀ sock, (s.ncs i).conn.handle sock → s.owner sock = some (.nc i)
  port : ∀ t ∈ ts, t.associated → ∀ sock, (s.ncs i).conn.handle sock →
    s.key sock = some (.bufferSock (s.ncs i).pBSock)

/-- Each connection has its handle, under its own key once it has been accepted. -/
structure Ports (s : Process) (ts : List Running) : Prop where
  client : ∀ i < s.nClients, ClientPort s i (clientTasks i ts)
  nc : ∀ i < s.nNcs, NcPort s i (ncTasks i ts)
  invalid : s.owner INVALID_SOCKET = none
  listens : ∀ server, s.owner (s.sListenSock server) = some (.listener server) →
    s.key (s.sListenSock server) = some (.listener server)
  keyed : ∀ r ∈ ts, s.keyed r

section Keep

variable {s s' : Process} {i : ℕ} {ts us : List Running}

theorem ClientPort.perm {ts us : List Task} (h : ClientPort s i ts) (hp : ts.Perm us) :
    ClientPort s i us := ⟨h.handle, fun t ht => h.port t (hp.mem_iff.mpr ht)⟩

theorem NcPort.perm {ts us : List NcTask} (h : NcPort s i ts) (hp : ts.Perm us) : NcPort s i us :=
  ⟨h.handle, fun t ht => h.port t (hp.mem_iff.mpr ht)⟩

theorem Ports.perm (h : Ports s ts) (hp : ts.Perm us) : Ports s us where
  client i hi := (h.client i hi).perm (clientTasks_perm i hp)
  nc i hi := (h.nc i hi).perm (ncTasks_perm i hp)
  invalid := h.invalid
  listens := h.listens
  keyed r hr := h.keyed r (hp.mem_iff.mpr hr)

/-- What a step leaves of the handles of the others. -/
structure Spares (w : Owner) (s s' : Process) : Prop where
  owner : ∀ w' ≠ w, ∀ sock, s.owner sock = some w' →
    s'.owner sock = some w' ∧ s'.key sock = s.key sock
  source : ∀ w' ≠ w, ∀ sock, s'.owner sock = some w' → s.owner sock = some w'
  invalid : s'.owner INVALID_SOCKET = none
  sListenSock : s'.sListenSock = s.sListenSock

theorem ClientPort.congr {w : Owner} {ts : List Task} (h : ClientPort s i ts) (hs : Spares w s s')
    (hw : .client i ≠ w) (hc : s'.clients i = s.clients i) : ClientPort s' i ts := by
  constructor
  · intro sock hsock
    rw [hc] at hsock
    exact (hs.owner _ hw sock (h.handle sock hsock)).1
  · intro t ht hacc sock hsock
    rw [hc] at hsock ⊢
    rw [(hs.owner _ hw sock (h.handle sock hsock)).2]
    exact h.port t ht hacc sock hsock

theorem NcPort.congr {w : Owner} {ts : List NcTask} (h : NcPort s i ts) (hs : Spares w s s')
    (hw : .nc i ≠ w) (hc : s'.ncs i = s.ncs i) : NcPort s' i ts := by
  constructor
  · intro sock hsock
    rw [hc] at hsock
    exact (hs.owner _ hw sock (h.handle sock hsock)).1
  · intro t ht hassoc sock hsock
    rw [hc] at hsock ⊢
    rw [(hs.owner _ hw sock (h.handle sock hsock)).2]
    exact h.port t ht hassoc sock hsock

theorem Spares.listens {w : Owner} (hs : Spares w s s') (hw : ∀ server, .listener server ≠ w)
    (h : ∀ server, s.owner (s.sListenSock server) = some (.listener server) →
      s.key (s.sListenSock server) = some (.listener server)) :
    ∀ server, s'.owner (s'.sListenSock server) = some (.listener server) →
      s'.key (s'.sListenSock server) = some (.listener server) := by
  intro server howner
  rw [hs.sListenSock] at howner ⊢
  have hsource := hs.source _ (hw server) _ howner
  rw [(hs.owner _ (hw server) _ hsource).2]
  exact h server hsource

end Keep

/-- CheckNCData is about to close an open handle whose number is the byte count of a transfer. -/
def strays (s : Process) : Running → Bool
  | .nc i .check _ =>
    let bobj := (s.ncs i).conn.bobj
    match bobj.ncDecision with
    | .ok .close => (s.owner bobj.ol.internalHigh).isSome
    | _ => false
  | _ => false

/-- Permits no turn that closes the handle of another. -/
def noStray : Monitor Unit Process Running WorkerChoice where
  next _ _ _ _ := ()
  permits _ s r _ := !s.strays r

theorem handle?_drops {α : Type*} {f : α → Option (OwnerTable.Change SOCKET)} {es : List α}
    (hf : ∀ e sock, f e ≠ some (.take sock)) (sock : SOCKET) : .take sock ∉ es.filterMap f := by
  intro hmem
  rcases List.mem_filterMap.mp hmem with ⟨e, _, he⟩
  exact hf e sock he

theorem Event.handle?_drops (e : Event) (sock : SOCKET) : e.handle? ≠ some (.take sock) := by
  cases e <;> simp [Event.handle?]

theorem NcEvent.handle?_drops (e : NcEvent) (sock : SOCKET) : e.handle? ≠ some (.take sock) := by
  cases e <;> simp [NcEvent.handle?]

section Step

variable {s s' : Process} {i : ℕ} {key : Option Key} {rest new : List Running}
  {evs : List WorkerEvent}

/-- CreateIoCompletionPort gives its own handle its own key. -/
theorem associate_key {sock : SOCKET} {key : Key} {done : Bool} {q : SOCKET} :
    (s.associate sock key done).key q = if done ∧ q = sock then some key else s.key q := by
  unfold associate
  cases done with
  | false => simp
  | true =>
    rcases eq_or_ne q sock with rfl | hne
    · simp
    · simp [hne]

theorem granted_owner {ok ask posts associates : Bool} {sock : SOCKET}
    (h : ok = (ask && s.grants sock posts associates)) (hok : (associates && ok) = true) :
    s.owner sock ≠ none := by
  rw [h] at hok
  unfold grants at hok
  simp only [Bool.and_eq_true] at hok
  rw [hok.1] at hok
  simp at hok
  intro hnone
  rw [hnone] at hok
  simp at hok

/-- A step of `w`, which associates no handle but its own. -/
theorem Spares.effects {w : Owner} {e : Process} {chs : List (OwnerTable.Change SOCKET)}
    {sock : SOCKET} {key : Key} {done : Bool} (hinvalid : s.owner INVALID_SOCKET = none)
    (hfair : OwnerTable.FairRun w s.owner chs) (htake : .take INVALID_SOCKET ∉ chs)
    (howner : e.owner = OwnerTable.run w s.owner chs) (hkey : e.key = s.key)
    (hlistens : e.sListenSock = s.sListenSock) (hmine : done = true → s.owner sock = some w) :
    Spares w s (e.associate sock key done) := by
  constructor
  · intro w' hw q hq
    constructor
    · rw [associate_owner, howner]
      exact OwnerTable.run_spares hfair hw hq
    · rw [associate_key, if_neg]
      · rw [hkey]
      · rintro ⟨hdone, rfl⟩
        rw [hmine hdone] at hq
        exact hw (Option.some.inj hq).symm
  · intro w' hw q hq
    rw [associate_owner, howner] at hq
    exact OwnerTable.run_source hw hq
  · rw [associate_owner, howner]
    exact OwnerTable.run_none hinvalid htake
  · rw [← hlistens]
    unfold associate
    split
    · rfl
    · rfl

theorem ClientPort.spares {ts : List Task} {t : Task} {ch : Choice} {ok : Bool} {conn : ClientConn}
    {next : List Task} {es : List Event} (h : ClientPort s i (t :: ts))
    (hinvalid : s.owner INVALID_SOCKET = none) (hfresh : ch.pBObj ∉ (s.clients i).conn.objs)
    (hturn : ClientTurn s i t ch s' new ok conn next es) : Spares (.client i) s s' := by
  have hnew : ({ ch with ok } : Choice).pBObj ∉ (s.clients i).conn.objs := hfresh
  have hf := (ClientConn.step_turn hnew hturn.step).fires
  have hfair := hf.handle_moves.fair h.handle fun sock hsock =>
    absurd hsock (handle?_drops Event.handle?_drops sock)
  rw [hturn.state]
  apply Spares.effects (e := s.clientEffects i conn es) hinvalid hfair
    (handle?_drops Event.handle?_drops _) rfl rfl rfl
  intro hdone
  have hopen := granted_owner hturn.granted hdone
  apply h.handle
  refine ⟨rfl, ?_⟩
  intro heq
  rw [heq] at hopen
  exact hopen hinvalid

theorem ClientPort.turn {ts : List Task} {t : Task} {ch : Choice} {ok : Bool} {conn : ClientConn}
    {next : List Task} {es : List Event} (h : ClientPort s i (t :: ts))
    (hfresh : ch.pBObj ∉ (s.clients i).conn.objs)
    (hturn : ClientTurn s i t ch s' new ok conn next es) : ClientPort s' i (next ++ ts) := by
  have hnew : ({ ch with ok } : Choice).pBObj ∉ (s.clients i).conn.objs := hfresh
  have hlocal := ClientConn.step_turn hnew hturn.step
  have hclient : s'.clients i = { s.clients i with conn } := by
    rw [(clientTurn_state hturn).2.1, Function.update_self]
  have howner : s'.owner = OwnerTable.run (.client i) s.owner (es.filterMap Event.handle?) := by
    rw [hturn.state, associate_owner]
    rfl
  constructor
  · intro sock hsock
    rw [hclient] at hsock
    rw [howner]
    exact hlocal.fires.handle_moves.holds h.handle sock hsock
  · intro u hu hacc sock hsock
    rw [hclient] at hsock ⊢
    change conn.handle sock at hsock
    change s'.key sock = some (.recvSock conn.pRSock)
    rw [hlocal.frame.pRSock]
    have hvalid : conn.rsock.sock ≠ INVALID_SOCKET := by
      rw [← hsock.1]
      exact hsock.2
    have hsame := hlocal.fires.sock_eq hvalid
    have hold : (s.clients i).conn.handle sock := ⟨hsock.1.trans hsame, hsock.2⟩
    rw [hturn.state, associate_key]
    split
    · rfl
    · case isFalse hnot =>
      have hdone : ¬ (t.associates && ok) = true := fun hdone => hnot ⟨hdone, hold.1⟩
      change s.key sock = _
      rcases List.mem_append.mp hu with hu | hu
      · by_cases hz : t.accepting = 0
        · exact h.port t List.mem_cons_self hz sock hold
        · exact absurd ((ClientConn.step_leads hturn.step hnew hu).2 hz hacc) hdone
      · exact h.port u (List.mem_cons_of_mem t hu) hacc sock hold

theorem ClientPort.keyed {ts : List Task} {t : Task} {ch : Choice} {ok : Bool} {conn : ClientConn}
    {next : List Task} {es : List Event} (h : ClientPort s' i (next ++ ts))
    (hfresh : ch.pBObj ∉ (s.clients i).conn.objs)
    (hturn : ClientTurn s i t ch s' new ok conn next es) : ∀ r ∈ new, s'.keyed r := by
  have hnew : ({ ch with ok } : Choice).pBObj ∉ (s.clients i).conn.objs := hfresh
  have hclient : s'.clients i = { s.clients i with conn } := by
    rw [(clientTurn_state hturn).2.1, Function.update_self]
  intro r hr
  rw [hturn.tasks] at hr
  rcases List.mem_map.mp hr with ⟨u, hu, rfl⟩
  change s'.clientKey conn.rsock.sock u = u.expects (s'.clients i).conn.pRSock
  have hport (hz : u.accepting = 0) (htransfers : u.transfers) :
      s'.key conn.rsock.sock = some (.recvSock (s'.clients i).conn.pRSock) := by
    apply h.port u (List.mem_append_left _ hu) hz
    rw [hclient]
    exact ⟨rfl, ClientConn.step_valid hturn.step hnew hu htransfers⟩
  cases u with
  | accept => exact absurd rfl (ClientConn.step_leads hturn.step hnew hu).1
  | zeroRecv | recv | send => exact hport rfl trivial
  | _ => rfl

theorem strays_close {ts : Option Key} (h : s.strays (.nc i .check ts) = false)
    (hd : (s.ncs i).conn.bobj.ncDecision = .ok .close) :
    s.owner (s.ncs i).conn.bobj.ol.internalHigh = none := by
  unfold strays at h
  dsimp only at h
  rw [hd] at h
  exact Option.isNone_iff_eq_none.mp (Option.isSome_eq_false_iff.mp h)

/-- What a step that does not stray does to the table of handles. -/
theorem NcPort.handles {ts : List NcTask} {t : NcTask} {ch : NcChoice} {ok : Bool} {conn : NcConn}
    {next : List NcTask} {es : List NcEvent} (h : NcPort s i (t :: ts))
    (hstray : s.strays (.nc i t key) = false)
    (hturn : NcTurn s i t ch s' new ok conn next es) :
    OwnerTable.FairRun (.nc i) s.owner (es.filterMap NcEvent.handle?) ∧
      ∀ sock, conn.handle sock →
        OwnerTable.run (.nc i) s.owner (es.filterMap NcEvent.handle?) sock = some (.nc i) := by
  rcases (NcConn.step_fires hturn.step).handle_moves with hmoves | ⟨hsame, rfl, hd, hevs⟩
  · refine ⟨?_, hmoves.holds h.handle⟩
    exact hmoves.fair h.handle fun sock hsock =>
      absurd hsock (handle?_drops NcEvent.handle?_drops sock)
  · have hnone := strays_close hstray hd
    have hdrops : ∀ ch ∈ es.filterMap NcEvent.handle?,
        ch = .drop (s.ncs i).conn.bobj.ol.internalHigh := by
      intro ch hch
      rcases List.mem_filterMap.mp hch with ⟨e, he, hsome⟩
      rw [hevs e he] at hsome
      exact (Option.some.inj hsome).symm
    refine ⟨OwnerTable.drops_fair hnone hdrops, ?_⟩
    intro sock hsock
    have hown : (s.ncs i).conn.handle sock := by
      unfold NcConn.handle at hsock ⊢
      rwa [hsame] at hsock
    apply OwnerTable.run_keeps (h.handle sock hown)
    intro hmem
    have heq := OwnerTable.Change.drop.inj (hdrops _ hmem)
    rw [← heq, h.handle sock hown] at hnone
    contradiction

theorem ncTurn_owner {t : NcTask} {ch : NcChoice} {ok : Bool} {conn : NcConn} {next : List NcTask}
    {es : List NcEvent} (hturn : NcTurn s i t ch s' new ok conn next es) :
    s'.owner = OwnerTable.run (.nc i) s.owner (es.filterMap NcEvent.handle?) := by
  rw [hturn.state, associate_owner]
  rfl

theorem NcPort.spares {ts : List NcTask} {t : NcTask} {ch : NcChoice} {ok : Bool} {conn : NcConn}
    {next : List NcTask} {es : List NcEvent} (h : NcPort s i (t :: ts))
    (hinvalid : s.owner INVALID_SOCKET = none) (hstray : s.strays (.nc i t key) = false)
    (hturn : NcTurn s i t ch s' new ok conn next es) : Spares (.nc i) s s' := by
  obtain ⟨hfair, _⟩ := h.handles hstray hturn
  rw [hturn.state]
  apply Spares.effects (e := s.ncEffects i conn es) hinvalid hfair
    (handle?_drops NcEvent.handle?_drops _) rfl rfl rfl
  intro hdone
  have hopen := granted_owner hturn.granted hdone
  apply h.handle
  refine ⟨rfl, ?_⟩
  intro heq
  rw [heq] at hopen
  exact hopen hinvalid

theorem NcPort.turn {ts : List NcTask} {t : NcTask} {ch : NcChoice} {ok : Bool} {conn : NcConn}
    {next : List NcTask} {es : List NcEvent} (h : NcPort s i (t :: ts))
    (hstray : s.strays (.nc i t key) = false)
    (hturn : NcTurn s i t ch s' new ok conn next es) : NcPort s' i (next ++ ts) := by
  have hf := NcConn.step_fires hturn.step
  have hnc : s'.ncs i = { s.ncs i with conn } := by
    rw [(ncTurn_state hturn).2.1, Function.update_self]
  constructor
  · intro sock hsock
    rw [hnc] at hsock
    rw [ncTurn_owner hturn]
    exact (h.handles hstray hturn).2 sock hsock
  · intro u hu hassoc sock hsock
    rw [hnc] at hsock ⊢
    change conn.handle sock at hsock
    change s'.key sock = some (.bufferSock (s.ncs i).pBSock)
    have hvalid : conn.bsock.sock ≠ INVALID_SOCKET := by
      rw [← hsock.1]
      exact hsock.2
    have hold : (s.ncs i).conn.handle sock := ⟨hsock.1.trans (hf.sock_eq hvalid), hsock.2⟩
    rw [hturn.state, associate_key]
    split
    · rfl
    · case isFalse hnot =>
      have hdone : ¬ (t.associates && ok) = true := fun hdone => hnot ⟨hdone, hold.1⟩
      change s.key sock = _
      rcases List.mem_append.mp hu with hu | hu
      · by_cases ht : t.associated
        · exact h.port t List.mem_cons_self ht sock hold
        · exact absurd ((NcConn.step_leads hturn.step hu).2.1 ht hassoc) hdone
      · exact h.port u (List.mem_cons_of_mem t hu) hassoc sock hold

theorem NcPort.keyed {ts : List NcTask} {t : NcTask} {ch : NcChoice} {ok : Bool} {conn : NcConn}
    {next : List NcTask} {es : List NcEvent} (h : NcPort s' i (next ++ ts))
    (hturn : NcTurn s i t ch s' new ok conn next es) : ∀ r ∈ new, s'.keyed r := by
  have hnc : s'.ncs i = { s.ncs i with conn } := by
    rw [(ncTurn_state hturn).2.1, Function.update_self]
  intro r hr
  rw [hturn.tasks] at hr
  rcases List.mem_map.mp hr with ⟨u, hu, rfl⟩
  change s'.ncKey conn.bsock.sock u = u.expects (s'.ncs i).pBSock
  obtain ⟨haccept, _, hvalid⟩ := NcConn.step_leads hturn.step hu
  have hport (hassoc : u.associated) (htransfers : u.transfers) :
      s'.key conn.bsock.sock = some (.bufferSock (s'.ncs i).pBSock) := by
    apply h.port u (List.mem_append_left _ hu) hassoc
    rw [hnc]
    exact ⟨rfl, hvalid htransfers⟩
  cases u with
  | accept => exact absurd rfl haccept
  | zeroRecv | recv => exact hport trivial trivial
  | _ => rfl

theorem Inv.client_mem {ts : List Running} {t : Task} (h : Inv s ts) (hr : .client i t key ∈ ts) :
    i < s.nClients := (h.perm (List.perm_cons_erase hr)).client_lt

theorem Inv.nc_mem {ts : List Running} {t : NcTask} (h : Inv s ts) (hr : .nc i t key ∈ ts) :
    i < s.nNcs := (h.perm (List.perm_cons_erase hr)).nc_lt

theorem keyed_congr {r : Running} (h : s.keyed r)
    (hc : ∀ j t key, r = .client j t key → (s'.clients j).conn.pRSock = (s.clients j).conn.pRSock)
    (hn : ∀ j t key, r = .nc j t key → (s'.ncs j).pBSock = (s.ncs j).pBSock) : s'.keyed r := by
  cases r with
  | acceptex => trivial
  | client j t key =>
    change key = t.expects _
    rw [hc j t key rfl]
    exact h
  | nc j t key =>
    change key = t.expects _
    rw [hn j t key rfl]
    exact h

/-- A turn of a client connection. -/
theorem Ports.clientTurn {t : Task} {ch : Choice} {ok : Bool} {conn : ClientConn} {next : List Task}
    {es : List Event} (hp : Ports s (.client i t key :: rest)) (h : Inv s (.client i t key :: rest))
    (hfresh : s.user (.bufferObj ch.pBObj) = none)
    (hturn : ClientTurn s i t ch s' new ok conn next es) : Ports s' (new ++ rest) := by
  have hi := h.client_lt
  obtain ⟨_, hclients, hn, hncs, hm⟩ := clientTurn_state hturn
  have hunused : ch.pBObj ∉ (s.clients i).conn.objs := by
    intro hmem
    have hused := (h.client i hi).pool (.bufferObj ch.pBObj) hmem
    rw [hfresh] at hused
    contradiction
  have hport := hp.client i hi
  rw [clientTasks_self] at hport
  have hspares := hport.spares hp.invalid hunused hturn
  have hnew := hport.turn hunused hturn
  have hother (j : ℕ) (hne : j ≠ i) : s'.clients j = s.clients j := by
    rw [hclients, Function.update_of_ne hne]
  constructor
  · intro j hj
    rw [hn] at hj
    rw [hturn.tasks]
    rcases eq_or_ne i j with rfl | hne
    · rw [clientTasks_append, clientTasks_map]
      exact hnew
    · have hkeep := hp.client j hj
      rw [clientTasks_other hne] at hkeep
      rw [clientTasks_append, clientTasks_map_other _ hne, List.nil_append]
      exact hkeep.congr hspares (by simpa using hne.symm) (hother j hne.symm)
  · intro j hj
    rw [hm] at hj
    rw [hturn.tasks]
    have hkeep := hp.nc j hj
    rw [ncTasks_client] at hkeep
    rw [ncTasks_append, ncTasks_client_map, List.nil_append]
    exact hkeep.congr hspares (by simp) (by rw [hncs])
  · exact hspares.invalid
  · exact hspares.listens (by simp) hp.listens
  · intro r hr
    rcases List.mem_append.mp hr with hr | hr
    · exact hnew.keyed hunused hturn r hr
    · apply keyed_congr (hp.keyed r (List.mem_cons_of_mem _ hr))
      · intro j _ _ _
        rcases eq_or_ne j i with rfl | hne
        · rw [hclients, Function.update_self]
          have hfresh' : ({ ch with ok } : Choice).pBObj ∉ (s.clients j).conn.objs := hunused
          exact (ClientConn.step_turn hfresh' hturn.step).frame.pRSock
        · rw [hother j hne]
      · intro j _ _ _
        rw [hncs]

/-- A turn of a connection that pushes requests. -/
theorem Ports.ncTurn {t : NcTask} {ch : NcChoice} {ok : Bool} {conn : NcConn} {next : List NcTask}
    {es : List NcEvent} (hp : Ports s (.nc i t key :: rest)) (h : Inv s (.nc i t key :: rest))
    (hstray : s.strays (.nc i t key) = false)
    (hturn : NcTurn s i t ch s' new ok conn next es) : Ports s' (new ++ rest) := by
  have hi := h.nc_lt
  obtain ⟨_, hncs, hm, hclients, hn⟩ := ncTurn_state hturn
  have hport := hp.nc i hi
  rw [ncTasks_self] at hport
  have hspares := hport.spares hp.invalid hstray hturn
  have hnew := hport.turn hstray hturn
  have hother (j : ℕ) (hne : j ≠ i) : s'.ncs j = s.ncs j := by
    rw [hncs, Function.update_of_ne hne]
  constructor
  · intro j hj
    rw [hn] at hj
    rw [hturn.tasks]
    have hkeep := hp.client j hj
    rw [clientTasks_nc] at hkeep
    rw [clientTasks_append, clientTasks_nc_map, List.nil_append]
    exact hkeep.congr hspares (by simp) (by rw [hclients])
  · intro j hj
    rw [hm] at hj
    rw [hturn.tasks]
    rcases eq_or_ne i j with rfl | hne
    · rw [ncTasks_append, ncTasks_map]
      exact hnew
    · have hkeep := hp.nc j hj
      rw [ncTasks_other hne] at hkeep
      rw [ncTasks_append, ncTasks_map_other _ hne, List.nil_append]
      exact hkeep.congr hspares (by simpa using hne.symm) (hother j hne.symm)
  · exact hspares.invalid
  · exact hspares.listens (by simp) hp.listens
  · intro r hr
    rcases List.mem_append.mp hr with hr | hr
    · exact hnew.keyed hturn r hr
    · apply keyed_congr (hp.keyed r (List.mem_cons_of_mem _ hr))
      · intro j _ _ _
        rw [hclients]
      · intro j _ _ _
        rcases eq_or_ne j i with rfl | hne
        · rw [hncs, Function.update_self]
        · rw [hother j hne]

/-- A handle that was not open is nobody else's. -/
theorem opened_spares {w : Owner} {sock : SOCKET} (hfree : s.owner sock = none)
    (hvalid : sock ≠ INVALID_SOCKET) (hinvalid : s.owner INVALID_SOCKET = none)
    (howner : s'.owner = Function.update s.owner sock (some w))
    (hkey : s'.key = Function.update s.key sock none) (hlisten : s'.sListenSock = s.sListenSock) :
    Spares w s s' := by
  constructor
  · intro w' _ q hq
    have hne : q ≠ sock := by
      intro heq
      rw [heq, hfree] at hq
      contradiction
    rw [howner, hkey, Function.update_of_ne hne, Function.update_of_ne hne]
    exact ⟨hq, rfl⟩
  · intro w' hw q hq
    rw [howner] at hq
    rcases eq_or_ne q sock with rfl | hne
    · rw [Function.update_self] at hq
      exact absurd (Option.some.inj hq).symm hw
    · rwa [Function.update_of_ne hne] at hq
  · rw [howner, Function.update_of_ne hvalid.symm]
    exact hinvalid
  · exact hlisten

theorem Ports.clientOpened {ch : WorkerChoice} (hp : Ports s (.acceptex .client :: rest))
    (h : Inv s (.acceptex .client :: rest)) (hallowed : machine.allowed s ch)
    (hopened : ClientOpened s ch s' new) : Ports s' (new ++ rest) := by
  obtain ⟨⟨hfree, hvalid⟩, _⟩ := hallowed
  have hspares := opened_spares hfree hvalid hp.invalid hopened.owner hopened.key
    hopened.sListenSock
  have hnil := h.clients s.nClients (Nat.le_refl _)
  rw [clientTasks_acceptex] at hnil
  have hother (j : ℕ) (hne : j ≠ s.nClients) : s'.clients j = s.clients j := by
    rw [hopened.clients, Function.update_of_ne hne]
  constructor
  · intro j hj
    rw [hopened.nClients] at hj
    rw [hopened.tasks]
    rcases eq_or_ne j s.nClients with rfl | hne
    · rw [clientTasks_append, clientTasks_acceptex, clientTasks_self, hnil]
      constructor
      · intro sock hsock
        rw [hopened.clients, Function.update_self] at hsock
        rw [hopened.owner, hsock.1]
        exact Function.update_self _ _ _
      · intro t ht hacc
        rw [List.mem_singleton.mp ht] at hacc
        contradiction
    · have hkeep := hp.client j (Nat.lt_of_le_of_ne (Nat.le_of_lt_succ hj) hne)
      rw [clientTasks_acceptex] at hkeep
      rw [clientTasks_append, clientTasks_acceptex, clientTasks_other hne.symm, clientTasks_nil,
        List.nil_append]
      exact hkeep.congr hspares (by simpa using hne) (hother j hne)
  · intro j hj
    rw [hopened.nNcs] at hj
    rw [hopened.tasks]
    have hkeep := hp.nc j hj
    rw [ncTasks_acceptex] at hkeep
    rw [ncTasks_append, ncTasks_acceptex, ncTasks_client, ncTasks_nil, List.nil_append]
    exact hkeep.congr hspares (by simp) (by rw [hopened.ncs])
  · exact hspares.invalid
  · exact hspares.listens (by simp) hp.listens
  · intro r hr
    rw [hopened.tasks] at hr
    rcases List.mem_append.mp hr with hr | hr
    · rcases List.mem_cons.mp hr with rfl | hr
      · trivial
      · rw [List.mem_singleton.mp hr]
        exact hp.listens .client hopened.listens
    · apply keyed_congr (hp.keyed r (List.mem_cons_of_mem _ hr))
      · rintro j t key rfl
        have hj := h.client_mem (List.mem_cons_of_mem _ hr)
        rw [hother j (Nat.ne_of_lt hj)]
      · intro j _ _ _
        rw [hopened.ncs]

theorem Ports.ncOpened {ch : WorkerChoice} (hp : Ports s (.acceptex .nc :: rest))
    (h : Inv s (.acceptex .nc :: rest)) (hallowed : machine.allowed s ch)
    (hopened : NcOpened s ch s' new) : Ports s' (new ++ rest) := by
  obtain ⟨⟨hfree, hvalid⟩, _⟩ := hallowed
  have hspares := opened_spares hfree hvalid hp.invalid hopened.owner hopened.key
    hopened.sListenSock
  have hnil := h.ncs s.nNcs (Nat.le_refl _)
  rw [ncTasks_acceptex] at hnil
  have hother (j : ℕ) (hne : j ≠ s.nNcs) : s'.ncs j = s.ncs j := by
    rw [hopened.ncs, Function.update_of_ne hne]
  constructor
  · intro j hj
    rw [hopened.nClients] at hj
    rw [hopened.tasks]
    have hkeep := hp.client j hj
    rw [clientTasks_acceptex] at hkeep
    rw [clientTasks_append, clientTasks_acceptex, clientTasks_nc, clientTasks_nil, List.nil_append]
    exact hkeep.congr hspares (by simp) (by rw [hopened.clients])
  · intro j hj
    rw [hopened.nNcs] at hj
    rw [hopened.tasks]
    rcases eq_or_ne j s.nNcs with rfl | hne
    · rw [ncTasks_append, ncTasks_acceptex, ncTasks_self, hnil]
      constructor
      · intro sock hsock
        rw [hopened.ncs, Function.update_self] at hsock
        rw [hopened.owner, hsock.1]
        exact Function.update_self _ _ _
      · intro t ht hassoc
        rw [List.mem_singleton.mp ht] at hassoc
        exact False.elim hassoc
    · have hkeep := hp.nc j (Nat.lt_of_le_of_ne (Nat.le_of_lt_succ hj) hne)
      rw [ncTasks_acceptex] at hkeep
      rw [ncTasks_append, ncTasks_acceptex, ncTasks_other hne.symm, ncTasks_nil, List.nil_append]
      exact hkeep.congr hspares (by simpa using hne) (hother j hne)
  · exact hspares.invalid
  · exact hspares.listens (by simp) hp.listens
  · intro r hr
    rw [hopened.tasks] at hr
    rcases List.mem_append.mp hr with hr | hr
    · rcases List.mem_cons.mp hr with rfl | hr
      · trivial
      · rw [List.mem_singleton.mp hr]
        exact hp.listens .nc hopened.listens
    · apply keyed_congr (hp.keyed r (List.mem_cons_of_mem _ hr))
      · intro j _ _ _
        rw [hopened.clients]
      · rintro j t key rfl
        have hj := h.nc_mem (List.mem_cons_of_mem _ hr)
        rw [hother j (Nat.ne_of_lt hj)]

/-- A turn that closes nobody else's handle keeps every connection on its own handle and key. -/
theorem Ports.step {r : Running} {ch : WorkerChoice} (hp : Ports s (r :: rest))
    (h : Inv s (r :: rest)) (hallowed : machine.allowed s ch) (hstray : s.strays r = false)
    (hstep : s.step r ch = .ok (s', new, evs)) : Ports s' (new ++ rest) := by
  cases r with
  | acceptex server =>
    rcases postAcceptEx_opened hstep with ⟨rfl, rfl⟩ | ⟨rfl, hopened⟩ | ⟨rfl, hopened⟩
    · exact hp
    · exact hp.clientOpened h hallowed hopened
    · exact hp.ncOpened h hallowed hopened
  | client i t key =>
    obtain ⟨_, ok, conn, next, es, hturn⟩ := clientStep_turn hstep
    exact hp.clientTurn h hallowed.2.2.2 hturn
  | nc i t key =>
    obtain ⟨_, ok, conn, next, es, _, hturn⟩ := ncStep_turn hstep
    exact hp.ncTurn h hstray hturn

end Step

end Process

end CustomersCard
