import CustomersCardMS.SweepAccount

namespace CustomersCard
open Interleaving

namespace AcceptLoop

section Turns

variable {s s' : AcceptLoop} {t u : LoopTask} {ts us rest new : List LoopTask} {ch : LoopChoice}
  {es : List ListenEvent} {pObj : ObjPtr} {pSock : SockPtr} {nIndex : ℕ} {k : ℤ}

theorem Accounted.goes (h : Accounted s (t :: rest)) (ht : t.main = true)
    (hshut : t.shutting s = []) (hu : u.main = true) (hunshut : u.shutting s = [])
    (hsweep : u.sweeping = t.sweeping) (haims : u.Aims s) : Accounted s ([u] ++ rest) := by
  apply h.moves ht hshut hu hunshut _ haims
  rw [hsweep]
  exact h.sweeps t List.mem_cons_self ht

theorem Accounted.idles (h : Accounted s (t :: rest)) (ht : t.main = true)
    (hidle : t.sweeping = false) (hu : u.main = true) (husweep : u.sweeping = false) :
    Accounted s ([u] ++ rest) := by
  apply h.goes ht (idle_passive hidle).1 hu (idle_passive husweep).1 _ (idle_passive husweep).2
  rw [husweep, hidle]

theorem withNode_ok {f : SockPtr → Outcome} {r : AcceptLoop × List LoopTask × List ListenEvent}
    (h : s.withNode f = .ok r) : ∃ p, s.second = some p ∧ f p = .ok r := by
  unfold withNode at h
  split at h
  · contradiction
  · case h_2 p hp => exact ⟨p, hp, h⟩

theorem overdue_valid {p : SockPtr} {optval : Option DWORD} (h : Accounted s ts)
    (hdue : s.overdue p optval = true) : s.listener.sock p ≠ INVALID_SOCKET := by
  unfold overdue at hdue
  split at hdue
  · contradiction
  · have hmem : s.listener.sock p ∈ s.listener.opened := by
      simp only [Bool.and_eq_true, decide_eq_true_eq] at hdue
      exact hdue.1.1
    exact (Listener.mem_held.mp (h.handles.symm.subset (List.mem_append_left _ hmem))).1

theorem accept_step (hrelate : (s.listener.obj pObj).pRelateSock = some pSock) :
    s.step (.accept nIndex pObj) ch = .ok (s.putLSock nIndex (s.listener.nKey pSock)
      ((s.lsock nIndex).deleteFromPendingMap pSock), [.obj pObj, .sock pSock], []) := by
  have hcompletes : (s.lsock nIndex).acceptCompletion pObj =
      .ok ((s.lsock nIndex).deleteFromPendingMap pSock, [.obj pObj, .sock pSock], []) := by
    have hlistener : ((s.lsock nIndex).obj pObj).pRelateSock = some pSock := hrelate
    unfold Listener.acceptCompletion
    rw [hlistener]
  dsimp only [AcceptLoop.step]
  rw [hrelate]
  dsimp only
  rw [hcompletes]
  rfl

theorem accept_ok (hok : s.step (.accept nIndex pObj) ch = .ok (s', new, es)) :
    ∃ p, (s.listener.obj pObj).pRelateSock = some p ∧ new = [.obj pObj, .sock p] ∧
      s' = s.putLSock nIndex (s.listener.nKey p) ((s.lsock nIndex).deleteFromPendingMap p) := by
  cases hrelate : (s.listener.obj pObj).pRelateSock with
  | none =>
    dsimp only [AcceptLoop.step] at hok
    rw [hrelate] at hok
    contradiction
  | some p =>
    rw [accept_step hrelate] at hok
    cases hok
    exact ⟨p, rfl, rfl, rfl⟩

theorem completed_second (s : AcceptLoop) (nIndex : ℕ) (pSock : SockPtr) :
    (s.putLSock nIndex (s.listener.nKey pSock)
      ((s.lsock nIndex).deleteFromPendingMap pSock)).second =
        if s.i = some (nIndex, s.listener.nKey pSock) then none else s.second := by
  apply erased_second
  exact Function.update_self _ _ _

theorem disturbs_iff (hrelate : (s.listener.obj pObj).pRelateSock = some pSock) :
    s.disturbs (.accept nIndex pObj) = true ↔ s.i = some (nIndex, s.listener.nKey pSock) := by
  dsimp only [disturbs]
  rw [hrelate, Option.map_some, Bool.and_eq_true, decide_eq_true_eq]
  constructor
  · exact fun h => h.2
  · intro h
    rw [h]
    exact ⟨rfl, rfl⟩

theorem Accounted.stands (h : Accounted s (t :: rest)) (hd : ¬Dangling s)
    (ht : t.sweeping = true) : ∃ p, s.second = some p := by
  have hmain : t.main = true := by
    cases t with
    | accept _ _ | obj _ | sock _ => contradiction
    | _ => rfl
  have hi := h.sweeps t List.mem_cons_self hmain
  rw [ht] at hi
  apply Option.ne_none_iff_exists'.mp
  intro hsecond
  exact hd ⟨hi.symm, hsecond⟩

/-- A turn that takes no node from under the iterator keeps account of the handles. -/
theorem Accounted.step (h : Accounted s (t :: rest)) (hd : ¬Dangling s)
    (hallowed : machine.allowed s ch) (hcalm : s.disturbs t = false)
    (hok : s.step t ch = .ok (s', new, es)) : Accounted s' (new ++ rest) := by
  cases t with
  | boot nIndex i =>
    dsimp only [AcceptLoop.step] at hok
    split at hok
    · split at hok
      · exact h.posts rfl rfl rfl rfl hallowed.2.1 hallowed.2.2 hok
      · cases hok
        exact h.idles rfl rfl rfl rfl
    · cases hok
      exact h.idles rfl rfl rfl rfl
  | wait =>
    dsimp only [AcceptLoop.step] at hok
    split at hok
    · cases hok
      exact h.exits rfl rfl
    · cases hok
      exact h.idles rfl rfl rfl rfl
  | poll nIndex =>
    dsimp only [AcceptLoop.step] at hok
    split at hok
    · split at hok
      · cases hok
        exact h.idles rfl rfl rfl rfl
      · cases hok
        exact h.exits rfl rfl
      · cases hok
        exact h.idles rfl rfl rfl rfl
    · cases hok
      exact h.idles rfl rfl rfl rfl
  | post nIndex i =>
    dsimp only [AcceptLoop.step] at hok
    split at hok
    · exact h.posts rfl rfl rfl rfl hallowed.2.1 hallowed.2.2 hok
    · cases hok
      exact h.idles rfl rfl rfl rfl
  | size nIndex =>
    cases hok
    split
    · exact h.idles rfl rfl rfl rfl
    · exact h.idles rfl rfl rfl rfl
  | next nIndex =>
    dsimp only [AcceptLoop.step] at hok
    split at hok
    · cases hok
      exact h.idles rfl rfl rfl rfl
    · cases hok
      exact h.moves rfl rfl rfl rfl rfl trivial
  -- From here to `advance` the sweep reads the node that it stands on.
  | age nIndex =>
    obtain ⟨p, hp, hok⟩ := withNode_ok hok
    cases hok
    split
    · case isTrue hdue =>
      have haims : LoopTask.Aims s (.close nIndex) := by
        intro q hq
        rw [← Option.some.inj (hp.symm.trans hq)]
        exact overdue_valid h hdue
      exact h.goes rfl rfl rfl rfl rfl haims
    · exact h.goes rfl rfl rfl rfl rfl trivial
  | close nIndex =>
    obtain ⟨p, hp, hok⟩ := withNode_ok hok
    cases hok
    have haims : LoopTask.Aims s (.shut nIndex (s.listener.sock p)) := by
      refine ⟨h.aims _ List.mem_cons_self p hp, ?_⟩
      intro q hq
      rw [← Option.some.inj (hp.symm.trans hq)]
    exact h.goes rfl rfl rfl rfl rfl haims
  | shut nIndex sock =>
    cases hok
    obtain ⟨p, hp⟩ := h.stands hd rfl
    exact h.shuts hp
  | clear nIndex =>
    obtain ⟨p, hp, hok⟩ := withNode_ok hok
    cases hok
    exact h.clears hp
  | advance nIndex =>
    obtain ⟨p, hp, hok⟩ := withNode_ok hok
    cases hok
    exact h.moves rfl rfl rfl rfl rfl trivial
  -- Not the node of the iterator: that would be the disturbance.
  | accept nIndex pObj =>
    obtain ⟨p, hrelate, rfl, rfl⟩ := accept_ok hok
    apply h.completes hrelate rfl
    intro hi
    rw [(disturbs_iff hrelate).mpr hi] at hcalm
    contradiction
  | obj pObj =>
    dsimp only [AcceptLoop.step] at hok
    split at hok
    · cases hok
      exact h.freesObj
    · cases hok
      exact h
  | sock pSock =>
    dsimp only [AcceptLoop.step] at hok
    split at hok
    · cases hok
      exact h.closes.freesSock (Listener.cmCloseSocket_sock _ _)
    · split at hok
      · cases hok
        exact h.closes
      · cases hok
        exact h

theorem post_i {ch : AcceptChoice} {next : List LoopTask}
    (hok : s.post nIndex next ch = .ok (s', new, es)) : s'.i = s.i := by
  unfold post call at hok
  split at hok
  · contradiction
  · cases hok
    rfl

theorem dangling_idle (h : s.i = none) : ¬Dangling s := by
  intro hd
  rw [Dangling, h] at hd
  exact Bool.false_ne_true hd.1

/-- The iterator is left without a node by the completion of its AcceptEx, and by nothing else. -/
theorem Accounted.dangles (h : Accounted s (t :: rest)) (hd : ¬Dangling s)
    (hok : s.step t ch = .ok (s', new, es)) : Dangling s' ↔ s.disturbs t = true := by
  have hcalm (hc : ¬Dangling s') (ht : s.disturbs t = false) :
      Dangling s' ↔ s.disturbs t = true := by
    rw [ht]
    exact ⟨fun hdangling => absurd hdangling hc, fun heq => absurd heq Bool.false_ne_true⟩
  cases t with
  | boot nIndex i =>
    apply hcalm _ rfl
    dsimp only [AcceptLoop.step] at hok
    split at hok
    · split at hok
      · apply dangling_idle
        rw [post_i hok]
        exact (h.idle rfl rfl).1
      · cases hok
        exact hd
    · cases hok
      exact hd
  | post nIndex i =>
    apply hcalm _ rfl
    dsimp only [AcceptLoop.step] at hok
    split at hok
    · apply dangling_idle
      rw [post_i hok]
      exact (h.idle rfl rfl).1
    · cases hok
      exact hd
  | wait =>
    apply hcalm _ rfl
    dsimp only [AcceptLoop.step] at hok
    split at hok
    · cases hok
      exact hd
    · cases hok
      exact hd
  | poll nIndex =>
    apply hcalm _ rfl
    dsimp only [AcceptLoop.step] at hok
    split at hok
    · split at hok
      · cases hok
        exact hd
      · cases hok
        exact hd
      · cases hok
        exact hd
    · cases hok
      exact hd
  | size nIndex =>
    cases hok
    exact hcalm hd rfl
  -- The iterator comes to a node of the table.
  | next nIndex =>
    apply hcalm _ rfl
    dsimp only [AcceptLoop.step] at hok
    split at hok
    · cases hok
      exact hd
    · case h_2 k p hfound =>
      cases hok
      intro hdangling
      obtain ⟨j, _, hj⟩ := Option.bind_eq_some_iff.mp hfound
      have hnode : (s.acceptPendingMap nIndex).find k = none := hdangling.2
      have hsome := PendingTable.find_getElem hj
      rw [hnode] at hsome
      contradiction
  | age nIndex =>
    obtain ⟨_, _, hok⟩ := withNode_ok hok
    cases hok
    exact hcalm hd rfl
  | close nIndex =>
    obtain ⟨_, _, hok⟩ := withNode_ok hok
    cases hok
    exact hcalm hd rfl
  | shut nIndex sock =>
    cases hok
    exact hcalm hd rfl
  | clear nIndex =>
    obtain ⟨_, _, hok⟩ := withNode_ok hok
    cases hok
    exact hcalm hd rfl
  | advance nIndex =>
    obtain ⟨_, _, hok⟩ := withNode_ok hok
    cases hok
    exact hcalm (dangling_idle rfl) rfl
  -- DeleteFromPendingMap, the one turn that erases.
  | accept nIndex pObj =>
    obtain ⟨p, hrelate, rfl, rfl⟩ := accept_ok hok
    rw [disturbs_iff hrelate, Dangling, completed_second]
    constructor
    · rintro ⟨hi, hsecond⟩
      by_contra hne
      rw [if_neg hne] at hsecond
      exact hd ⟨hi, hsecond⟩
    · intro hi
      refine ⟨?_, if_pos hi⟩
      change s.i.isSome = true
      rw [hi]
      rfl
  | obj pObj =>
    apply hcalm _ rfl
    dsimp only [AcceptLoop.step] at hok
    split at hok
    · cases hok
      exact hd
    · cases hok
      exact hd
  | sock pSock =>
    apply hcalm _ rfl
    dsimp only [AcceptLoop.step] at hok
    split at hok
    · cases hok
      exact hd
    · split at hok
      · cases hok
        exact hd
      · cases hok
        exact hd

theorem postAcceptEx_error {l : Listener} {ch : AcceptChoice} {f : ListenFault}
    (h : l.postAcceptEx ch = .error f) : ch.server = .client ∧ ch.pSock = none := by
  unfold Listener.postAcceptEx at h
  split at h
  · contradiction
  · dsimp only at h
    split at h
    · case h_1 hnone =>
      split at h
      · case h_1 hserver => exact ⟨hserver, hnone⟩
      · contradiction
    · split at h
      · contradiction
      · split at h
        · contradiction
        · contradiction

theorem post_error {ch : LoopChoice} {next : List LoopTask} {f : LoopFault}
    (h : s.post nIndex next ch.accept = .error f) :
    s.fpAcceptex nIndex = .client ∧ ch.accept.pSock = none := by
  unfold post call at h
  split at h
  · case h_1 hpost => exact postAcceptEx_error hpost
  · contradiction

/-- The fault of a program whose iterator stands on a node. -/
theorem Accounted.faults {f : LoopFault} (h : Accounted s (t :: rest)) (hd : ¬Dangling s)
    (herror : s.step t ch = .error f) : s.outOfMemory t ch := by
  have hnode {g : SockPtr → Outcome} (ht : t.sweeping = true)
      (hg : ∀ p, ∃ r, g p = .ok r) : s.withNode g ≠ .error f := by
    obtain ⟨p, hp⟩ := h.stands hd ht
    obtain ⟨r, hr⟩ := hg p
    unfold withNode
    rw [hp]
    dsimp only
    rw [hr]
    exact fun heq => nomatch heq
  cases t with
  | boot nIndex i =>
    dsimp only [AcceptLoop.step] at herror
    split at herror
    · split at herror
      · exact ⟨nIndex, i, Or.inl rfl, post_error herror⟩
      · contradiction
    · contradiction
  | post nIndex i =>
    dsimp only [AcceptLoop.step] at herror
    split at herror
    · exact ⟨nIndex, i, Or.inr rfl, post_error herror⟩
    · contradiction
  | wait =>
    dsimp only [AcceptLoop.step] at herror
    split at herror
    · contradiction
    · contradiction
  | poll nIndex =>
    dsimp only [AcceptLoop.step] at herror
    split at herror
    · split at herror
      · contradiction
      · contradiction
      · contradiction
    · contradiction
  | next nIndex =>
    dsimp only [AcceptLoop.step] at herror
    split at herror
    · contradiction
    · contradiction
  | size _ | shut _ _ => contradiction
  | age _ | close _ | clear _ | advance _ =>
    exact absurd herror (hnode rfl fun _ => ⟨_, rfl⟩)
  | accept nIndex pObj =>
    obtain ⟨p, hrelate⟩ := Option.ne_none_iff_exists'.mp
      (h.related nIndex pObj List.mem_cons_self)
    rw [accept_step hrelate] at herror
    contradiction
  | obj pObj =>
    dsimp only [AcceptLoop.step] at herror
    split at herror
    · contradiction
    · contradiction
  | sock pSock =>
    dsimp only [AcceptLoop.step] at herror
    split at herror
    · contradiction
    · split at herror
      · contradiction
      · contradiction

/-- An AcceptEx of the listener that is outstanding, and the key of its socket. -/
def acceptsOn (nIndex : ℕ) : LoopTask → Bool
  | .accept n _ => n == nIndex
  | _ => false

def keyOf (l : Listener) : LoopTask → ℤ
  | .accept _ pObj => ((l.obj pObj).pRelateSock.map l.nKey).getD 0
  | _ => 0

/-- `size()` counts no more than what is outstanding: a sweep starts only when it is more than
a hundred. -/
theorem Accounted.size_le (h : Accounted s ts) (nIndex : ℕ) :
    (s.acceptPendingMap nIndex).length ≤ ts.countP (acceptsOn nIndex) := by
  have hsub : (s.acceptPendingMap nIndex).map Prod.fst ⊆
      (ts.filter (acceptsOn nIndex)).map (keyOf s.listener) := by
    intro k hk
    obtain ⟨e, he, rfl⟩ := List.mem_map.mp hk
    obtain ⟨j, hj⟩ := List.getElem?_of_mem he
    obtain ⟨p, hp⟩ := Option.isSome_iff_exists.mp (PendingTable.find_getElem hj)
    obtain ⟨hkey, pObj, hmem, hrelate⟩ := h.entry nIndex e.1 p hp
    refine List.mem_map.mpr ⟨_, List.mem_filter.mpr ⟨hmem, beq_self_eq_true nIndex⟩, ?_⟩
    change ((s.listener.obj pObj).pRelateSock.map s.listener.nKey).getD 0 = e.1
    rw [hrelate]
    exact hkey
  calc
    _ = ((s.acceptPendingMap nIndex).map Prod.fst).length := (List.length_map _).symm
    _ ≤ ((ts.filter (acceptsOn nIndex)).map (keyOf s.listener)).length :=
      (List.subperm_of_subset (h.keys nIndex) hsub).length_le
    _ = _ := by rw [List.length_map, List.countP_eq_length_filter]

/-- What is left of the account once the node is gone. -/
structure Adrift (s : AcceptLoop) (ts : List LoopTask) : Prop where
  dangling : Dangling s
  sole : ts.countP LoopTask.main ≤ 1
  sweeps : ∀ t ∈ ts, t.main = true → t.sweeping = true

theorem Adrift.perm (h : Adrift s ts) (hp : ts.Perm us) : Adrift s us where
  dangling := h.dangling
  sole := (hp.countP_eq _).symm.trans_le h.sole
  sweeps u hu := h.sweeps u (hp.mem_iff.mpr hu)

/-- Of the sweep only closesocket is still possible. -/
theorem Adrift.strands (h : Adrift s ts) (ht : t ∈ ts) (hmain : t.main = true)
    (hok : s.step t ch = .ok (s', new, es)) : ∃ nIndex sock, t = .shut nIndex sock := by
  have hsweep := h.sweeps t ht hmain
  have hnode {g : SockPtr → Outcome} {r : AcceptLoop × List LoopTask × List ListenEvent}
      (hg : s.withNode g = .ok r) : False := by
    obtain ⟨p, hp, _⟩ := withNode_ok hg
    rw [h.dangling.2] at hp
    contradiction
  cases t with
  | shut nIndex sock => exact ⟨nIndex, sock, rfl⟩
  | age _ | close _ | clear _ | advance _ => exact absurd hok hnode
  | _ => contradiction

/-- Only main enters nodes into the tables. -/
theorem Adrift.step (h : Adrift s (t :: rest)) (hok : s.step t ch = .ok (s', new, es)) :
    Adrift s' (new ++ rest) := by
  have hrest (u : LoopTask) (hu : u ∈ rest) (hmain : u.main = true) : u.sweeping = true :=
    h.sweeps u (List.mem_cons_of_mem _ hu) hmain
  cases hmain : t.main with
  | true =>
    obtain ⟨nIndex, sock, rfl⟩ := h.strands List.mem_cons_self hmain hok
    cases hok
    refine ⟨h.dangling, h.sole, ?_⟩
    intro u hu hu'
    rcases List.mem_cons.mp hu with rfl | hu
    · rfl
    · exact hrest u hu hu'
  | false =>
    have hsole : rest.countP LoopTask.main ≤ 1 := by
      have hcount := h.sole
      rw [List.countP_cons_of_neg (by simp [hmain])] at hcount
      exact hcount
    have hnew (hdangling : Dangling s') (hworkers : ∀ u ∈ new, u.main = false) :
        Adrift s' (new ++ rest) := by
      refine ⟨hdangling, ?_, ?_⟩
      · rw [List.countP_append, List.countP_eq_zero.mpr, Nat.zero_add]
        · exact hsole
        · intro u hu
          rw [hworkers u hu]
          exact Bool.false_ne_true
      · intro u hu hu'
        rcases List.mem_append.mp hu with hu | hu
        · rw [hworkers u hu] at hu'
          contradiction
        · exact hrest u hu hu'
    cases t with
    | accept nIndex pObj =>
      obtain ⟨p, _, rfl, rfl⟩ := accept_ok hok
      apply hnew
      · refine ⟨h.dangling.1, ?_⟩
        rw [completed_second, h.dangling.2]
        split
        · rfl
        · rfl
      · intro u hu
        rcases List.mem_pair.mp hu with rfl | rfl <;> rfl
    | obj pObj =>
      dsimp only [AcceptLoop.step] at hok
      split at hok
      · cases hok
        exact hnew h.dangling (fun u hu => absurd hu List.not_mem_nil)
      · cases hok
        exact h
    | sock pSock =>
      dsimp only [AcceptLoop.step] at hok
      split at hok
      · cases hok
        exact hnew h.dangling (fun u hu => absurd hu List.not_mem_nil)
      · split at hok
        · cases hok
          exact ⟨h.dangling, h.sole, h.sweeps⟩
        · cases hok
          exact h
    | _ => contradiction

/-- The completion that deletes the node. -/
theorem Accounted.drifts (h : Accounted s (t :: rest)) (hd : ¬Dangling s)
    (hdisturbs : s.disturbs t = true) (hok : s.step t ch = .ok (s', new, es)) :
    Adrift s' (new ++ rest) := by
  have hdangling := (h.dangles hd hok).mpr hdisturbs
  cases t with
  | accept nIndex pObj =>
    obtain ⟨p, hrelate, rfl, rfl⟩ := accept_ok hok
    refine ⟨hdangling, h.sole, ?_⟩
    intro u hu hmain
    rcases List.mem_append.mp hu with hu | hu
    · rcases List.mem_pair.mp hu with rfl | rfl <;> contradiction
    · rw [h.sweeps u (List.mem_cons_of_mem _ hu) hmain, (disturbs_iff hrelate).mp hdisturbs]
      rfl
  | _ => contradiction

theorem booted_accounted (g_dwListenCount : ℕ) (fpAcceptex : ℕ → Server) :
    Accounted (booted g_dwListenCount fpAcceptex).shared [.boot 0 0] := by
  refine ⟨le_rfl, ?_, List.Perm.refl _, List.nodup_nil, List.Perm.refl _, List.nodup_nil, ?_, ?_,
    List.Perm.refl _, List.nodup_nil, List.not_mem_nil, fun _ _ => Or.inl rfl, ?_,
    fun _ => List.nodup_nil⟩
  · intro u hu _
    rw [List.mem_singleton.mp hu]
    rfl
  · intro n q hq
    exact absurd (List.mem_singleton.mp hq) (by simp)
  · intro n j p hp
    contradiction
  · intro u hu
    rw [List.mem_singleton.mp hu]
    trivial

end Turns

/-- Along every run of main and the worker threads, each open handle is in one socket object and
a table leads to the AcceptEx of its listener that are outstanding, until the AcceptEx at whose
node the sweep is at work completes. From then on every read of the sweep is of freed memory. -/
theorem sweep_sound (g_dwListenCount : ℕ) (fpAcceptex : ℕ → Server)
    (conf : Conf AcceptLoop LoopTask) (evs : List ListenEvent)
    (h : Run machine (booted g_dwListenCount fpAcceptex) evs conf) :
    (Accounted conf.shared conf.tasks ∧ ¬Dangling conf.shared ∧
      (∀ nIndex, (conf.shared.acceptPendingMap nIndex).length ≤
        conf.tasks.countP (acceptsOn nIndex)) ∧
      ∀ t rest ch, conf.tasks.Perm (t :: rest) →
        (∀ f, machine.step conf.shared t ch = .error f → conf.shared.outOfMemory t ch) ∧
          ∀ s' new es, machine.step conf.shared t ch = .ok (s', new, es) →
            (Dangling s' ↔ conf.shared.disturbs t = true)) ∨
      (Dangling conf.shared ∧ ∀ t ∈ conf.tasks, t.main = true → ∀ ch s' new es,
        machine.step conf.shared t ch = .ok (s', new, es) →
          Dangling s' ∧ ∃ nIndex sock, t = .shut nIndex sock) := by
  have hinv : (Accounted conf.shared conf.tasks ∧ ¬Dangling conf.shared) ∨
      Adrift conf.shared conf.tasks := by
    apply h.invariant (fun _ conf => (Accounted conf.shared conf.tasks ∧ ¬Dangling conf.shared) ∨
      Adrift conf.shared conf.tasks)
    · exact Or.inl ⟨booted_accounted g_dwListenCount fpAcceptex, dangling_idle rfl⟩
    · intro evs conf es conf' hinv hstep
      cases hstep with
      | @turn s s' t ch tasks new rest _ hp hallowed hok =>
        rcases hinv with ⟨hacc, hd⟩ | hadrift
        · have hacc := hacc.perm hp
          cases hdisturbs : s.disturbs t with
          | true => exact Or.inr (hacc.drifts hd hdisturbs hok)
          | false =>
            refine Or.inl ⟨hacc.step hd hallowed hdisturbs hok, ?_⟩
            intro hdangling
            have hcause := (hacc.dangles hd hok).mp hdangling
            rw [hdisturbs] at hcause
            contradiction
        · exact Or.inr ((hadrift.perm hp).step hok)
  rcases hinv with ⟨hacc, hd⟩ | hadrift
  · refine Or.inl ⟨hacc, hd, hacc.size_le, ?_⟩
    intro t rest ch hp
    refine ⟨fun f herror => (hacc.perm hp).faults hd herror, ?_⟩
    intro s' new es hok
    exact (hacc.perm hp).dangles hd hok
  · refine Or.inr ⟨hadrift.dangling, ?_⟩
    intro t ht hmain ch s' new es hok
    obtain ⟨nIndex, sock, rfl⟩ := hadrift.strands ht hmain hok
    refine ⟨?_, nIndex, sock, rfl⟩
    cases hok
    exact hadrift.dangling

/-- Main gets the objects `p` and the key `rand`. -/
def loopPosts (p rand : ℕ) : LoopChoice :=
  ⟨Listener.posts p rand, .signalled, none, none, false⟩

/-- Main posts ten accepts and takes `others` turns more. -/
def tenPosts (n others : ℕ) : List (ℕ × LoopChoice) :=
  (List.range 10).map (fun k => (0, loopPosts (10*n+k) (10*n+k))) ++
    List.replicate others (0, loopPosts 110 0)

/-- The first ten accepts and those of ten events, after which more than 100 are pending. -/
def untilSweep : List (ℕ × LoopChoice) :=
  tenPosts 0 4 ++ (List.range 9).flatMap (fun n => tenPosts (n+1) 5) ++ tenPosts 10 2

/-- The sweep comes to a client that connected 61 seconds ago, and closes its handle. -/
def closesOverdue : List (ℕ × LoopChoice) :=
  [(0, { loopPosts 110 0 with node := some 30 }),
    (0, { loopPosts 110 0 with optval := some 61 }),
    (0, loopPosts 110 0), (0, loopPosts 110 0)]

theorem overdue_client_accounted : ∃ evs conf, Run machine (booted 1 fun _ => .nc) evs conf ∧
    conf.tasks.head? = some (.clear 0) ∧ evs.getLast? = some (.closesocket 320) ∧
      Accounted conf.shared conf.tasks := by
  have hplay : (play machine (booted 1 fun _ => .nc) (untilSweep ++ closesOverdue)).map
      (fun r => (r.2.tasks.head?, r.1.getLast?, r.2.shared.second)) =
        some (some (.clear 0), some (.closesocket 320), some 79) := by decide +kernel
  obtain ⟨evs, conf, hrun, hres⟩ := play_reaches hplay
  rw [Prod.mk.injEq, Prod.mk.injEq] at hres
  refine ⟨evs, conf, hrun, hres.1, hres.2.1, ?_⟩
  rcases sweep_sound 1 (fun _ => .nc) conf evs hrun with ⟨hacc, _⟩ | ⟨hd, _⟩
  · exact hacc
  · rw [Dangling, hres.2.2] at hd
    exact absurd hd.2 (by simp)

end AcceptLoop

end CustomersCard
