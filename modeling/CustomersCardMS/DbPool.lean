import CustomersCardMS.DbMysql

namespace CustomersCard
open Interleaving

namespace DbTask

/-- The connection that a thread has taken out of the pool and not closed. -/
def conns : DbTask → List MysqlPtr
  | .ping pMysql | .close pMysql | .held pMysql => [pMysql]
  | _ => []

def handedOut : DbTask → ℕ
  | .held _ => 1
  | _ => 0

/-- Popped, and being checked or replaced. -/
def checking : DbTask → ℕ
  | .ping _ | .close _ | .reconnect | .giveUp => 1
  | _ => 0

/-- A thread that counts for a connection. -/
def linked (t : DbTask) : Bool := t.handedOut+t.checking != 0

/-- The tasks of the time after db_init. -/
def serving : DbTask → Bool
  | .caller | .dbInit | .fill _ => false
  | _ => true

end DbTask

namespace Db

/-- db_init adds at most DB_LINK_MIN connections before any worker thread runs. -/
inductive Phase (d : Db) : List DbTask → Prop
  | init : d.v_db = [] → d.g_nCurrentLinkNumber = 0 → Phase d [.dbInit]
  | fill (n : ℕ) : d.g_nCurrentLinkNumber+n ≤ DB_LINK_MIN → Phase d [.fill n]
  | serve (ts : List DbTask) : (∀ t ∈ ts, t.serving = true) →
      d.g_nCurrentLinkNumber ≤ DB_LINK_MAX → Phase d ts

/-- Every open connection is in the pool or with one thread, and all of them count. -/
structure Accounted (d : Db) (ts : List DbTask) : Prop where
  exact : d.g_nCurrentLinkNumber =
    d.v_db.length+(total DbTask.handedOut ts+total DbTask.checking ts)
  owned : (d.v_db ++ ts.flatMap DbTask.conns).Perm d.opened
  distinct : d.opened.Nodup
  phase : Phase d ts

section Step

variable {d d' : Db} {t : DbTask} {o : MysqlChoice} {rest new ts us : List DbTask}
  {es : List DbEvent}

theorem Phase.bounded (h : Phase d ts) : d.g_nCurrentLinkNumber ≤ DB_LINK_MAX := by
  cases h with
  | init _ hzero =>
    rw [hzero]
    decide
  | fill n hle =>
    unfold DB_LINK_MIN at hle
    unfold DB_LINK_MAX
    omega
  | serve _ _ hle => exact hle

theorem Phase.perm (h : Phase d ts) (hp : ts.Perm us) : Phase d us := by
  cases h with
  | init hnil hzero =>
    rw [← hp.singleton_eq]
    exact Phase.init hnil hzero
  | fill n hle =>
    rw [← hp.singleton_eq]
    exact Phase.fill n hle
  | serve _ hserve hle =>
    apply Phase.serve us _ hle
    intro t ht
    exact hserve t (hp.mem_iff.mpr ht)

theorem Accounted.perm (h : Accounted d ts) (hp : ts.Perm us) : Accounted d us := by
  constructor
  · rw [← total_perm _ hp, ← total_perm _ hp]
    exact h.exact
  · exact ((hp.flatMap_right _).append_left _).symm.trans h.owned
  · exact h.distinct
  · exact h.phase.perm hp

/-- A step after db_init keeps the bound and starts no other phase. -/
theorem Phase.step (h : Phase d (t :: rest)) (ht : t.serving = true)
    (hnew : ∀ t ∈ new, t.serving = true) (hle : d'.g_nCurrentLinkNumber ≤ DB_LINK_MAX) :
    Phase d' (new ++ rest) := by
  cases h with
  | init => contradiction
  | fill => contradiction
  | serve _ hserve _ =>
    apply Phase.serve _ _ hle
    intro u hu
    rcases List.mem_append.mp hu with hu | hu
    · exact hnew u hu
    · exact hserve u (List.mem_cons_of_mem _ hu)

/-- What a step adds to the pool, to the threads and to the count. -/
theorem Accounted.step (h : Accounted d (t :: rest))
    (hexact : d'.g_nCurrentLinkNumber+(d.v_db.length+(t.handedOut+t.checking)) =
      d.g_nCurrentLinkNumber+
        (d'.v_db.length+(total DbTask.handedOut new+total DbTask.checking new)))
    (howned : (d.v_db ++ (t.conns ++ rest.flatMap DbTask.conns)).Perm d.opened →
      (d'.v_db ++ (new.flatMap DbTask.conns ++ rest.flatMap DbTask.conns)).Perm d'.opened)
    (hdistinct : d'.opened.Nodup) (hphase : Phase d' (new ++ rest)) :
    Accounted d' (new ++ rest) := by
  have hcount := h.exact
  have hown := h.owned
  rw [List.flatMap_cons] at hown
  rw [total_cons, total_cons] at hcount
  constructor
  · rw [total_append, total_append]
    push_cast at hcount hexact ⊢
    omega
  · rw [List.flatMap_append]
    exact howned hown
  · exact hdistinct
  · exact hphase

theorem connects_distinct {r : Option MysqlPtr × Db} (hd : d.opened.Nodup)
    (hfresh : machine.allowed d o) (hr : Connects d o r) : r.2.opened.Nodup := by
  cases hr with
  | null d' _ _ _ hopened =>
    rw [hopened]
    exact hd
  | opened pMysql d' _ _ hinit _ _ hopened _ =>
    rw [hopened]
    exact List.nodup_cons.mpr ⟨hfresh pMysql hinit, hd⟩

theorem accounted_step (h : Accounted d (t :: rest)) (hfresh : machine.allowed d o)
    (hok : d.step t o = .ok (d', new, es)) : Accounted d' (new ++ rest) := by
  have hdistinct := h.distinct
  have hbound := h.phase.bounded
  have hconnect := dbConnect_connects d o
  have hopened := connects_distinct hdistinct hfresh hconnect
  cases t with
  -- In the server only the workers call.
  | caller =>
    cases h.phase with
    | serve _ hserve _ => exact absurd (hserve _ List.mem_cons_self) (by decide)
  | worker =>
    cases hok
    exact h.step rfl (fun hp => hp) hdistinct (h.phase.step rfl (by decide) hbound)
  | dbInit =>
    cases hok
    cases h.phase with
    | init hnil hzero =>
      refine h.step ?_ (fun hp => ?_) hdistinct (Phase.fill _ ?_)
      · rw [hnil]
        rfl
      · rw [hnil] at hp
        exact hp
      · dsimp only
        rw [hzero]
        decide
    | serve _ hserve _ => exact absurd (hserve _ List.mem_cons_self) (by decide)
  -- While db_init fills the vector it is the only thread, so the count is the length.
  | fill n =>
    cases h.phase with
    | serve _ hserve _ => exact absurd (hserve _ List.mem_cons_self) (by simp [DbTask.serving])
    | fill _ hle =>
      cases n with
      | zero =>
        cases hok
        exact h.step rfl (fun hp => hp) hdistinct (Phase.serve _ (by decide) hbound)
      | succ n =>
        dsimp only [Db.step] at hok
        rcases hr : d.dbConnect o with ⟨r, d₁⟩
        rw [hr] at hconnect hopened hok
        cases hconnect with
        | null _ _ hv hg ho =>
          cases hok
          apply h.step
          · rw [hv, hg]
            rfl
          · intro hp
            rw [hv, ho]
            exact hp
          · exact hopened
          · apply Phase.fill n
            rw [hg]
            push_cast at hle
            omega
        | opened pMysql _ _ _ _ hv hg ho _ =>
          cases hok
          apply h.step
          · simp only [count, pushBack, hv, hg, List.length_cons, DbTask.handedOut,
              DbTask.checking, total, List.map_cons, List.map_nil, List.sum_cons, List.sum_nil]
            push_cast
            omega
          · intro hp
            simp only [count, pushBack, hv, ho]
            exact hp.cons pMysql
          · exact hopened
          · apply Phase.fill n
            simp only [count, pushBack, hg]
            push_cast at hle
            omega
  | dbAlloc =>
    dsimp only [Db.step] at hok
    cases hv : d.v_db with
    | nil =>
      rw [hv] at hok
      dsimp only at hok
      split at hok
      · case isTrue hlt =>
        rcases hr : d.dbConnect o with ⟨r, d₁⟩
        rw [hr] at hconnect hopened hok
        cases hconnect with
        | null _ _ hv' hg ho =>
          cases hok
          apply h.step
          · rw [hv', hg]
            rfl
          · intro hp
            rw [hv', ho]
            exact hp
          · exact hopened
          · exact h.phase.step rfl (by simp) (by rw [hg]; exact hbound)
        | opened pMysql _ _ _ _ hv' hg ho _ =>
          cases hok
          apply h.step
          · simp only [count, hv', hg, DbTask.handedOut, DbTask.checking, total, List.map_cons,
              List.map_nil, List.sum_cons, List.sum_nil]
            push_cast
            omega
          · intro hp
            simp only [count, hv', ho]
            exact List.perm_middle.trans (hp.cons pMysql)
          · exact hopened
          · apply h.phase.step rfl (by simp [DbTask.serving])
            simp only [count, hg]
            omega
      · cases hok
        exact h.step rfl (fun hp => hp) hdistinct (h.phase.step rfl (by simp) hbound)
    -- The connection goes from the vector to the thread that pings it: the same places in all.
    | cons pMysql v_db =>
      rw [hv] at hok
      cases hok
      apply h.step
      · simp only [hv, List.length_cons, DbTask.handedOut, DbTask.checking, total, List.map_cons,
          List.map_nil, List.sum_cons, List.sum_nil]
        push_cast
        omega
      · intro hp
        rw [hv] at hp
        exact List.perm_middle.trans hp
      · exact hdistinct
      · exact h.phase.step rfl (by simp [DbTask.serving]) hbound
  | ping pMysql =>
    cases hok
    split
    · exact h.step rfl (fun hp => hp) hdistinct
        (h.phase.step rfl (by simp [DbTask.serving]) hbound)
    · exact h.step rfl (fun hp => hp) hdistinct
        (h.phase.step rfl (by simp [DbTask.serving]) hbound)
  -- mysql_close gives the object back and leaves its place counted.
  | close pMysql =>
    cases hok
    apply h.step
    · rfl
    · intro hp
      have hfront := List.perm_middle.symm.trans hp
      have herase := hfront.erase pMysql
      rw [List.erase_cons_head] at herase
      exact herase
    · exact hdistinct.erase pMysql
    · exact h.phase.step rfl (by simp [DbTask.serving]) hbound
  | reconnect =>
    dsimp only [Db.step] at hok
    rcases hr : d.dbConnect o with ⟨r, d₁⟩
    rw [hr] at hconnect hopened hok
    cases hconnect with
    | null _ _ hv hg ho =>
      cases hok
      apply h.step
      · rw [hv, hg]
        rfl
      · intro hp
        rw [hv, ho]
        exact hp
      · exact hopened
      · exact h.phase.step rfl (by simp [DbTask.serving]) (by rw [hg]; exact hbound)
    | opened pMysql _ _ _ _ hv hg ho _ =>
      cases hok
      apply h.step
      · rw [hv, hg]
        rfl
      · intro hp
        rw [hv, ho]
        exact List.perm_middle.trans (hp.cons pMysql)
      · exact hopened
      · exact h.phase.step rfl (by simp [DbTask.serving]) (by rw [hg]; exact hbound)
  -- Only here the count goes down.
  | giveUp =>
    cases hok
    apply h.step
    · simp only [count, DbTask.handedOut, DbTask.checking, total, List.map_nil, List.sum_nil]
      push_cast
      omega
    · exact fun hp => hp
    · exact hdistinct
    · apply h.phase.step rfl (by simp)
      dsimp only [count]
      omega
  | held pMysql =>
    dsimp only [Db.step] at hok
    split at hok
    · cases hok
      apply h.step
      · simp only [pushBack, List.length_cons, DbTask.handedOut, DbTask.checking, total,
          List.map_nil, List.sum_nil]
        push_cast
        omega
      · intro hp
        exact List.perm_middle.symm.trans hp
      · exact hdistinct
      · exact h.phase.step rfl (by simp) hbound
    · cases hok
      exact h.step rfl (fun hp => hp) hdistinct
        (h.phase.step rfl (by simp [DbTask.serving]) hbound)

end Step

/-- The server as it starts: db_init is about to run, and the worker threads follow it. -/
def startUp : Conf Db DbTask := ⟨fresh, [.dbInit]⟩

theorem run_accounted {conf : Conf Db DbTask} {evs : List DbEvent}
    (h : Run machine startUp evs conf) : Accounted conf.shared conf.tasks := by
  apply h.invariant (fun _ conf => Accounted conf.shared conf.tasks)
  · exact ⟨rfl, List.Perm.refl _, List.nodup_nil, Phase.init rfl rfl⟩
  · intro _ conf _ conf' hinv hstep
    cases hstep with
    | turn hp hfresh hok => exact accounted_step (hinv.perm hp) hfresh hok

/-- The accounting of the pool in one state. -/
structure PoolExact (conf : Conf Db DbTask) : Prop where
  exact : conf.shared.g_nCurrentLinkNumber = conf.shared.v_db.length+
    (total DbTask.handedOut conf.tasks+total DbTask.checking conf.tasks)
  bounded : conf.shared.g_nCurrentLinkNumber ≤ DB_LINK_MAX
  -- No connection is with two threads, nor with a thread and in the pool.
  distinct : (conf.shared.v_db ++ conf.tasks.flatMap DbTask.conns).Nodup
  live : ∀ pMysql ∈ conf.shared.v_db ++ conf.tasks.flatMap DbTask.conns,
    pMysql ∈ conf.shared.opened

/-- The pool is accounted for along every interleaving of db_alloc and db_free. -/
theorem pool_accounting_exact (conf : Conf Db DbTask) (evs : List DbEvent)
    (h : Run machine startUp evs conf) : PoolExact conf := by
  have hinv := run_accounted h
  constructor
  · exact hinv.exact
  · exact hinv.phase.bounded
  · exact hinv.owned.nodup_iff.mpr hinv.distinct
  · intro pMysql hmem
    exact hinv.owned.mem_iff.mp hmem

/-- Every MySQL call answers, mysql_init with `pMysql`. -/
def answers (pMysql : MysqlPtr) (charset : ℤ) : MysqlChoice := ⟨some pMysql, true, charset, 0, true⟩

/-- db_init fills the pool with the connections 0 to 9. -/
def filled (charset : ℤ) : List (ℕ × MysqlChoice) :=
  (0, answers 0 charset) :: (List.range 11).map fun pMysql => (0, answers pMysql charset)

theorem ten_connections_accounted : ∃ evs conf, Run machine startUp evs conf ∧ PoolExact conf ∧
    conf.shared.g_nCurrentLinkNumber = 10 ∧ conf.tasks = [.held 9, .worker] := by
  have hplay : (play machine startUp (filled 1 ++ [(0, answers 10 1), (1, answers 10 1),
      (0, answers 10 1)])).map (fun r => (r.2.shared.g_nCurrentLinkNumber, r.2.tasks)) =
        some (10, [.held 9, .worker]) := by decide +kernel
  obtain ⟨evs, conf, hrun, hres⟩ := play_reaches hplay
  rw [Prod.mk.injEq] at hres
  exact ⟨evs, conf, hrun, pool_accounting_exact conf evs hrun, hres⟩

section Connect

/-- What the pool is for: every connection that it holds or that a caller has is open,
connected, and has the character set, and db_alloc fails only for a reason. -/
structure Sound (evs : List DbEvent) (conf : Conf Db DbTask) : Prop where
  configured : ∀ pMysql, pMysql ∈ conf.shared.v_db ∨ .held pMysql ∈ conf.tasks →
    pMysql ∈ conf.shared.opened ∧ (conf.shared.mysql pMysql).connected = true ∧
      (conf.shared.mysql pMysql).gbk = true
  nulls : ∀ limit failed, .null limit failed ∈ evs → limit = true ∨ failed = true

/-- No db_connect gets past mysql_real_connect, unless mysql_set_character_set then succeeds
and db_connect was not called for a db_alloc with an empty pool. -/
def unconnected : Monitor Unit Db DbTask MysqlChoice where
  next _ _ _ _ := ()
  permits _ d t o :=
    match t with
    | .fill (_+1) | .reconnect => o.failsEarly || o.mysqlSetCharacterSet == 0
    | .dbAlloc => !d.v_db.isEmpty || decide (DB_LINK_MAX ≤ d.g_nCurrentLinkNumber) || o.failsEarly
    | _ => true

variable {d d' : Db} {t : DbTask} {o : MysqlChoice} {rest new : List DbTask} {es : List DbEvent}

/-- No caller has seen a connection yet. -/
structure Unlinked (evs : List DbEvent) (d : Db) (ts : List DbTask) : Prop where
  pool : d.v_db = []
  threads : ∀ t ∈ ts, t.linked = false
  nulls : ∀ limit failed, .null limit failed ∈ evs → limit = true ∨ failed = true

theorem Unlinked.sound {evs : List DbEvent} {ts : List DbTask} (h : Unlinked evs d ts) :
    Sound evs ⟨d, ts⟩ := by
  constructor
  · intro pMysql hmem
    rcases hmem with hmem | hmem
    · rw [h.pool] at hmem
      contradiction
    · exact absurd (h.threads _ hmem) (by simp [DbTask.linked, DbTask.handedOut])
  · exact h.nulls

theorem Unlinked.perm {evs : List DbEvent} {ts us : List DbTask} (h : Unlinked evs d ts)
    (hp : ts.Perm us) : Unlinked evs d us :=
  ⟨h.pool, fun t ht => h.threads t (hp.mem_iff.mpr ht), h.nulls⟩

theorem Unlinked.next {evs : List DbEvent} (h : Unlinked evs d (t :: rest)) (hv : d'.v_db = [])
    (hnew : ∀ u ∈ new, u.linked = false)
    (hnull : ∀ limit failed, .null limit failed ∈ es → limit = true ∨ failed = true) :
    Unlinked (evs ++ es) d' (new ++ rest) := by
  constructor
  · exact hv
  · intro u hu
    rcases List.mem_append.mp hu with hu | hu
    · exact hnew u hu
    · exact h.threads u (List.mem_cons_of_mem _ hu)
  · intro limit failed hmem
    rcases List.mem_append.mp hmem with hmem | hmem
    · exact h.nulls limit failed hmem
    · exact hnull limit failed hmem

/-- A connection that db_connect returns does not have the character set. -/
theorem unsound {evs : List DbEvent} {ts : List DbTask} {pMysql : MysqlPtr}
    (hmem : pMysql ∈ d.v_db ∨ .held pMysql ∈ ts) (hgbk : (d.mysql pMysql).gbk = false) :
    ¬Sound evs ⟨d, ts⟩ := by
  intro h
  have hconf := (h.configured pMysql hmem).2.2
  dsimp only at hconf
  rw [hgbk] at hconf
  contradiction

theorem failed_eq (o : MysqlChoice) :
    o.failed = (o.failsEarly || o.mysqlSetCharacterSet != 0) := rfl

/-- A step keeps the pool sound if and only if the monitor permits it. -/
theorem Unlinked.step_iff {evs : List DbEvent} (h : Unlinked evs d (t :: rest))
    (hok : d.step t o = .ok (d', new, es)) :
    (unconnected.permits () d t o = true → Unlinked (evs ++ es) d' (new ++ rest)) ∧
      (unconnected.permits () d t o = false → ¬Sound (evs ++ es) ⟨d', new ++ rest⟩) := by
  have hv := h.pool
  have ht := h.threads t List.mem_cons_self
  have hconnect := dbConnect_connects d o
  have hquiet : ∀ limit failed, DbEvent.null limit failed ∈ [] → limit = true ∨ failed = true := by
    intro _ _ hmem
    contradiction
  cases t with
  -- No thread has a connection yet.
  | ping | close | reconnect | giveUp | held => contradiction
  | caller =>
    cases hok
    refine ⟨fun _ => h.next hv ?_ hquiet, fun hpermits => absurd hpermits (by simp [unconnected])⟩
    cases o.call <;> decide
  | worker =>
    cases hok
    exact ⟨fun _ => h.next hv (by decide) hquiet,
      fun hpermits => absurd hpermits (by simp [unconnected])⟩
  | dbInit =>
    cases hok
    exact ⟨fun _ => h.next rfl (by decide) hquiet,
      fun hpermits => absurd hpermits (by simp [unconnected])⟩
  | fill n =>
    cases n with
    | zero =>
      cases hok
      exact ⟨fun _ => h.next hv (by decide) hquiet,
        fun hpermits => absurd hpermits (by simp [unconnected])⟩
    | succ n =>
      dsimp only [Db.step] at hok
      rcases hr : d.dbConnect o with ⟨r, d₁⟩
      rw [hr] at hconnect hok
      cases hconnect with
      | null _ hwhy hv' _ _ =>
        cases hok
        constructor
        · intro _
          apply h.next (hv'.trans hv) _ hquiet
          simp [DbTask.linked, DbTask.handedOut, DbTask.checking]
        · intro hpermits
          dsimp only [unconnected] at hpermits
          rcases hwhy with hwhy | hwhy <;> simp [hwhy] at hpermits
      | opened pMysql _ hearly hset _ _ _ _ hgbk =>
        cases hok
        constructor
        · intro hpermits
          dsimp only [unconnected] at hpermits
          simp [hearly, hset] at hpermits
        · intro _
          exact unsound (Or.inl List.mem_cons_self) hgbk
  | dbAlloc =>
    dsimp only [Db.step] at hok
    rw [hv] at hok
    dsimp only at hok
    split at hok
    · case isTrue hlt =>
      have hmax : decide (DB_LINK_MAX ≤ d.g_nCurrentLinkNumber) = false := by
        rw [decide_eq_false_iff_not]
        omega
      have hpermit : unconnected.permits () d .dbAlloc o = o.failsEarly := by
        dsimp only [unconnected]
        rw [hv, hmax]
        rfl
      rw [hpermit]
      rcases hr : d.dbConnect o with ⟨r, d₁⟩
      rw [hr] at hconnect hok
      cases hconnect with
      -- NULL, where a call has failed or where mysql_set_character_set has returned 0.
      | null _ hwhy hv' _ _ =>
        cases hok
        constructor
        · intro hearly
          apply h.next (hv'.trans hv) (by simp)
          intro limit failed hmem
          cases List.mem_singleton.mp hmem
          right
          rw [failed_eq, hearly, Bool.true_or]
        · intro hearly hsound
          have hset := hwhy.resolve_left (by simp [hearly])
          have hnull := hsound.nulls false o.failed (List.mem_append_right _ List.mem_cons_self)
          rw [failed_eq, hearly, hset] at hnull
          simp at hnull
      -- The first connection that is handed out is one without the character set.
      | opened pMysql _ hearly hset _ _ _ _ hgbk =>
        cases hok
        constructor
        · intro hpermits
          rw [hearly] at hpermits
          contradiction
        · intro _
          exact unsound (Or.inr List.mem_cons_self) hgbk
    · case isFalse hge =>
      cases hok
      constructor
      · intro _
        apply h.next hv (by simp)
        intro limit failed hmem
        cases List.mem_singleton.mp hmem
        exact Or.inl rfl
      · intro hpermits
        dsimp only [unconnected] at hpermits
        rw [decide_eq_true (Int.not_lt.mp hge)] at hpermits
        simp at hpermits

/-- Any calls of db_init, db_alloc and db_free. -/
def anyCalls : Conf Db DbTask := ⟨fresh, [.caller]⟩

/-- The pool stays sound along a run exactly as long as every step meets the condition of
`unconnected`. -/
theorem connections_sound_iff (conf : Conf (Db × Unit) DbTask) (evs : List DbEvent)
    (h : Run (machine.watched unconnected) (anyCalls.watch ()) evs conf) :
    Sound evs conf.unwatch ∧ ∀ t rest o d' new es, conf.tasks.Perm (t :: rest) →
      machine.step conf.shared.1 t o = .ok (d', new, es) →
        (unconnected.permits () conf.shared.1 t o = true ↔
          Sound (evs ++ es) ⟨d', new ++ rest⟩) := by
  have hinv : Unlinked evs conf.shared.1 conf.tasks := by
    apply h.invariant (fun evs conf => Unlinked evs conf.shared.1 conf.tasks)
    · constructor
      · rfl
      · change ∀ t ∈ [DbTask.caller], t.linked = false
        decide
      · intro _ _ hmem
        contradiction
    · intro evs conf es conf' hinv hstep
      cases hstep with
      | turn hp hfresh hok =>
        obtain ⟨hpermits, hstep, _⟩ := watched_step hok
        exact ((hinv.perm hp).step_iff hstep).1 hpermits
  refine ⟨hinv.sound, ?_⟩
  intro t rest o d' new es hp hok
  obtain ⟨hkeeps, hbreaks⟩ := (hinv.perm hp).step_iff hok
  constructor
  · intro hpermits
    exact (hkeeps hpermits).sound
  · intro hsound
    cases hpermits : unconnected.permits () conf.shared.1 t o with
    | false => exact absurd hsound (hbreaks hpermits)
    | true => rfl

/-- mysql_real_connect returns NULL. -/
def refused (pMysql : MysqlPtr) : MysqlChoice := { answers pMysql 0 with mysqlRealConnect := false }

theorem refused_alloc_sound : ∃ evs conf,
    Run (machine.watched unconnected) (anyCalls.watch ()) evs conf ∧ Sound evs conf.unwatch ∧
      evs = [.null false true] := by
  have hplay : (play (machine.watched unconnected) (anyCalls.watch ())
      [(0, { refused 0 with call := false }), (1, refused 0)]).map Prod.fst =
        some [.null false true] := by decide +kernel
  obtain ⟨evs, conf, hrun, hevs⟩ := play_reaches hplay
  exact ⟨evs, conf, hrun, (connections_sound_iff conf evs hrun).1, hevs⟩

/-- When every MySQL call succeeds, db_alloc returns NULL below the limit; when
mysql_set_character_set fails, db_alloc hands the connection out. -/
theorem connections_unsound :
    (∃ evs conf, Run machine anyCalls evs conf ∧ evs = [.null false false] ∧ ¬Sound evs conf) ∧
    (∃ evs conf, Run machine anyCalls evs conf ∧ .held 0 ∈ conf.tasks ∧
      (conf.shared.mysql 0).gbk = false ∧ ¬Sound evs conf) := by
  constructor
  · have hplay : (play machine anyCalls [(0, { answers 0 0 with call := false }),
        (1, answers 0 0)]).map Prod.fst = some [.null false false] := by decide +kernel
    obtain ⟨evs, conf, hrun, hevs⟩ := play_reaches hplay
    dsimp only at hevs
    refine ⟨evs, conf, hrun, hevs, ?_⟩
    intro hsound
    have hnull := hsound.nulls false false (by rw [hevs]; exact List.mem_cons_self)
    simp at hnull
  · have hplay : (play machine anyCalls [(0, { answers 0 1 with call := false }),
        (1, answers 0 1)]).map (fun r => (r.2.tasks, (r.2.shared.mysql 0).gbk)) =
          some ([.held 0, .caller], false) := by decide +kernel
    obtain ⟨evs, conf, hrun, hres⟩ := play_reaches hplay
    rw [Prod.mk.injEq] at hres
    have hmem : DbTask.held 0 ∈ conf.tasks := by
      rw [hres.1]
      exact List.mem_cons_self
    exact ⟨evs, conf, hrun, hmem, hres.2, unsound (Or.inr hmem) hres.2⟩

end Connect

end Db

end CustomersCard
