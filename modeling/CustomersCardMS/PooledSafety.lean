import CustomersCardMS.PooledProcess
import Mathlib.Data.Fintype.EquivFin

namespace CustomersCard
open Interleaving OwnerTable

namespace Object

theorem object_kind_addr (o : Object) : o.kind.object o.addr = o := by
  cases o with
  | recvSock | recvObj | bufferSock | bufferObj => rfl

theorem kind_object (k : Kind) (p : Addr) : (k.object p).kind = k := by
  cases k with
  | rsock | robj | bsock | bobj => rfl

theorem addr_object (k : Kind) (p : Addr) : (k.object p).addr = p := by
  cases k with
  | rsock | robj | bsock | bobj => rfl

end Object

namespace Pools

/-- A user for each of the objects. -/
def users (os : List Object) : List PoolTask := os.map fun o => .user o.kind o.addr

/-- The objects with a user in the table are exactly those that the pools have handed out, and the
blocks of each kind have the one size that the code asks for. -/
structure Holds (g_dwPagesize : DWORD) (evs : List PoolEvent) (m : Pools)
    (user : Object → Option Owner) (os : List Object) : Prop where
  sound : Sound evs m (users os)
  used : ∀ o, (user o).isSome = true ↔ o ∈ os
  uniform : Memory.Uniform (asked g_dwPagesize) m

variable {g_dwPagesize : DWORD} {evs es : List PoolEvent} {m m' : Pools}
  {user user' : Object → Option Owner} {o : Object} {os : List Object} {ch : HeapChoice}

theorem mem_users (ho : o ∈ os) : .user o.kind o.addr ∈ users os :=
  List.mem_map_of_mem (f := fun o : Object => PoolTask.user o.kind o.addr) ho

theorem users_objs (os : List Object) :
    (users os).flatMap PoolTask.objs = os.map fun o => (o.kind, o.addr) := by
  induction os with
  | nil => rfl
  | cons o os ih =>
    change (o.kind, o.addr) :: (users os).flatMap PoolTask.objs = _
    rw [ih]
    rfl

theorem Holds.nodup (h : Holds g_dwPagesize evs m user os) : os.Nodup := by
  have hdistinct := h.sound.owned.distinct
  rw [users_objs, List.map_append, List.map_map] at hdistinct
  exact (List.nodup_append.mp hdistinct).2.1.of_map _

theorem Holds.some_kept (h : Holds g_dwPagesize evs m user os) {p : Addr}
    (hp : ∀ u ∈ users os, ∀ x ∈ u.objs, x.2 ≠ p) (k : Kind) : user (k.object p) = none := by
  cases huser : user (k.object p) with
  | none => rfl
  | some w =>
    have hmem := (h.used (k.object p)).mp (by rw [huser, Option.isSome_some])
    have hne := hp _ (mem_users hmem) _ (List.mem_singleton_self _)
    exact absurd (Object.addr_object k p) hne

/-- What a pool hands out next, or the heap, nobody has. -/
theorem Holds.next_free (h : Holds g_dwPagesize evs m user os) (hfresh : m.Fresh ch) {k : Kind}
    {p : Addr} (hnext : m.next k ch = some p) (k' : Kind) : user (k'.object p) = none := by
  apply h.some_kept
  intro u hu x hx
  exact h.sound.next_unused hfresh hnext u hu x hx

/-- The heap is never exhausted by what was allocated. -/
theorem Holds.unused (h : Holds g_dwPagesize evs m user os) :
    ∃ q, ∀ k : Kind, user (k.object q) = none := by
  obtain ⟨q, hq⟩ := Infinite.exists_notMem_finset (os.map Object.addr).toFinset
  rw [List.mem_toFinset] at hq
  refine ⟨q, ?_⟩
  intro k
  apply h.some_kept
  intro u hu x hx heq
  obtain ⟨o, ho, rfl⟩ := List.mem_map.mp hu
  rw [List.mem_singleton.mp hx] at heq
  exact hq (List.mem_map.mpr ⟨o, ho, heq⟩)

theorem Holds.take (h : Holds g_dwPagesize evs m user os) (hfresh : m.Fresh ch)
    (htakes : Takes m ch o.addr o.kind (blockSize o.kind (asked g_dwPagesize o.kind)) m' es)
    (huser : ∀ q, (user' q).isSome = true ↔ q = o ∨ (user q).isSome = true) :
    Holds g_dwPagesize (evs ++ es) m' user' (o :: os) where
  sound := h.sound.takes (t := .user o.kind o.addr) rfl hfresh htakes
  used q := by rw [huser, h.used, List.mem_cons]
  uniform := Memory.Uniform.takes (m := ⟨m, fun _ => RecvSock.zeroed, fun _ => BufferObj.zeroed⟩)
    h.uniform htakes

theorem Holds.drop (h : Holds g_dwPagesize evs m user os) (ho : o ∈ os)
    (huser : ∀ q, (user' q).isSome = true ↔ q ≠ o ∧ (user q).isSome = true) :
    Holds g_dwPagesize (evs ++ (m.release o.kind o.addr).2) (m.release o.kind o.addr).1 user'
      (os.erase o) where
  sound := by
    have hperm : (users os).Perm (users (o :: os.erase o)) := (List.perm_cons_erase ho).map _
    exact (h.sound.perm hperm).gives rfl release_gives
  used q := by rw [huser, h.used, h.nodup.mem_erase_iff]
  uniform := Memory.Uniform.gives (m := ⟨m, fun _ => RecvSock.zeroed, fun _ => BufferObj.zeroed⟩)
    h.uniform release_gives

/-- Everything that an allocator can do. -/
inductive Answer (m : Pools) (k : Kind) (dwSize : DWORD) (ch : HeapChoice) :
    Except PoolFault (Pools × Option Addr × List PoolEvent) → Prop
  | fault (f : PoolFault) : Answer m k dwSize ch (.error f)
  | none : m.next k ch = none → Answer m k dwSize ch (.ok (m, none, []))
  | some (p : Addr) (m' : Pools) (es : List PoolEvent) : m.next k ch = some p →
      Takes m ch p k (blockSize k dwSize) m' es → Answer m k dwSize ch (.ok (m', some p, es))

theorem allocate_answer (m : Pools) (k : Kind) (dwSize : DWORD) (ch : HeapChoice) :
    Answer m k dwSize ch (m.allocate k dwSize ch) := by
  cases hnext : m.next k ch with
  | none =>
    by_cases hk : k = .rsock
    · rw [hk] at hnext ⊢
      change Answer m .rsock dwSize ch (m.allocRSock dwSize ch)
      unfold next at hnext
      unfold allocRSock
      cases hpool : m.pool .rsock with
      | nil =>
        rw [hpool] at hnext
        dsimp only at hnext
        rw [hnext]
        exact Answer.fault _
      | cons p v =>
        rw [hpool] at hnext
        contradiction
    · rw [allocate_none hk hnext]
      exact Answer.none hnext
  | some p =>
    by_cases hlist : k = .rsock → m.pool .rsock = [] → ch.list.isSome = true
    · obtain ⟨m', es, heq, htakes⟩ := allocate_takes dwSize hnext hlist
      rw [heq]
      exact Answer.some p m' es hnext htakes
    · simp only [not_forall, Option.not_isSome_iff_eq_none] at hlist
      obtain ⟨rfl, hpool, hlist⟩ := hlist
      change Answer m .rsock dwSize ch (m.allocRSock dwSize ch)
      unfold next at hnext
      unfold allocRSock
      rw [hpool] at hnext ⊢
      dsimp only at hnext ⊢
      rw [hnext, hlist]
      exact Answer.fault _

variable {chs : List (Change Object)} {w : Owner} {old new : Object → Prop}

/-- An object that is not in use comes into use, and one goes out of use. -/
theorem take_used (o : Object) (q : Object) :
    (apply w user (.take o) q).isSome = true ↔ q = o ∨ (user q).isSome = true := by
  change (Function.update user o (some w) q).isSome = true ↔ _
  by_cases hq : q = o
  · rw [hq, Function.update_self]
    simp
  · rw [Function.update_of_ne hq]
    simp [hq]

theorem drop_used (o : Object) (q : Object) :
    (apply w user (.drop o) q).isSome = true ↔ q ≠ o ∧ (user q).isSome = true := by
  change (Function.update user o none q).isSome = true ↔ _
  by_cases hq : q = o
  · rw [hq, Function.update_self]
    simp
  · rw [Function.update_of_ne hq]
    simp [hq]

/-- An object that is taken and given back. -/
theorem undo_used (hnone : user o = none) (q : Object) :
    (user q).isSome = true ↔ q ≠ o ∧ (apply w user (.take o) q).isSome = true := by
  rw [take_used]
  constructor
  · intro hq
    refine ⟨?_, Or.inr hq⟩
    rintro rfl
    rw [hnone] at hq
    contradiction
  · rintro ⟨hne, heq | hq⟩
    · exact absurd heq hne
    · exact hq

theorem Holds.congr (h : Holds g_dwPagesize evs m user os)
    (huser : ∀ q, (user' q).isSome = true ↔ (user q).isSome = true) :
    Holds g_dwPagesize evs m user' os :=
  ⟨h.sound, fun q => (huser q).trans (h.used q), h.uniform⟩

theorem Holds.takeAt (h : Holds g_dwPagesize evs m user os) (hfresh : m.Fresh ch) {k : Kind}
    {p : Addr} (htakes : Takes m ch p k (blockSize k (asked g_dwPagesize k)) m' es) (w : Owner) :
    Holds g_dwPagesize (evs ++ es) m' (apply w user (.take (k.object p))) (k.object p :: os) := by
  apply h.take hfresh _ (take_used _)
  rwa [Object.kind_object, Object.addr_object]

theorem Holds.dropAt (h : Holds g_dwPagesize evs m user os) {k : Kind} {p : Addr}
    (ho : (user (k.object p)).isSome = true)
    (huser : ∀ q, (user' q).isSome = true ↔ q ≠ k.object p ∧ (user q).isSome = true) :
    ∃ os', Holds g_dwPagesize (evs ++ (m.release k p).2) (m.release k p).1 user' os' := by
  have hdrop := h.drop ((h.used _).mp ho) huser
  rw [Object.kind_object, Object.addr_object] at hdrop
  exact ⟨_, hdrop⟩

theorem calls_none {r : Pools × List PoolEvent} (hk : o.kind ≠ .rsock)
    (hnext : m.next o.kind ch = none) : m.calls g_dwPagesize ch [.take o] ≠ .ok r := by
  unfold calls call
  dsimp only
  rw [allocate_none hk hnext]
  nofun

/-- The calls of one handler: it takes what the pool has next, or gives back what is its own. -/
theorem Holds.calls (h : Holds g_dwPagesize evs m user os) (hfresh : m.Fresh ch)
    (hmoves : Moves old new chs) (hold : ∀ o, old o → user o = some w)
    (hnext : ∀ o, .take o ∈ chs → ∀ p, m.next o.kind ch = some p → o.addr = p)
    (hcalls : m.calls g_dwPagesize ch chs = .ok (m', es)) :
    ∃ os', Holds g_dwPagesize (evs ++ es) m' (run w user chs) os' := by
  cases hmoves with
  | keep =>
    cases hcalls
    rw [List.append_nil]
    exact ⟨os, h⟩
  | take o =>
    simp only [Pools.calls, Pools.call] at hcalls
    have hanswer := allocate_answer m o.kind (asked g_dwPagesize o.kind) ch
    generalize m.allocate o.kind (asked g_dwPagesize o.kind) ch = r at hanswer hcalls
    cases hanswer with
    | fault | none => contradiction
    | some p m₁ es₁ hsome htakes =>
      cases hcalls
      rw [List.append_nil]
      rw [← hnext o List.mem_cons_self p hsome] at htakes
      exact ⟨o :: os, h.take hfresh htakes (take_used o)⟩
  | drop o ho =>
    have hused : o ∈ os := by
      rw [← h.used, hold o ho, Option.isSome_some]
    cases hcalls
    rw [List.append_nil]
    exact ⟨os.erase o, h.drop hused (drop_used (w := w) o)⟩

end Pools

namespace ClientConn

section Alloc

variable {c c' : ClientConn} {t : Task} {ch : Choice} {new : List Task} {evs : List Event}

/-- Only the delivery loop takes an object. -/
theorem step_pBObj (ht : ∀ o, t ≠ .loop o) (b : BufferObjPtr) :
    c.step t { ch with pBObj := b } = c.step t ch := by
  cases t with
  | loop o => exact absurd rfl (ht o)
  | releaseTail k =>
    cases k with
    | robj | bobj | nothing => rfl
  | freeSent b obj =>
    cases obj with
    | none | some => rfl
  | _ => rfl

theorem loop_allocates {o : Origin} (h : c.step (.loop o) ch = .ok (c', new, evs)) :
    evs = [.allocBObj ch.pBObj] ∨ (∀ b, .allocBObj b ∉ evs) ∧
      ∀ b, c.step (.loop o) { ch with pBObj := b } = .ok (c', new, evs) := by
  simp only [step, withRSock, guarded_ok] at h ⊢
  obtain ⟨hlive, h⟩ := h
  unfold loopStep at h ⊢
  split at h
  · contradiction
  · split at h
    · case isTrue hz =>
      right
      constructor
      · rw [ok_inj] at h
        rw [← h.2.2]
        intro b hb
        split at hb
        · rw [List.mem_singleton] at hb
          contradiction
        · contradiction
      · intro b
        rw [if_pos hz]
        exact ⟨hlive, h⟩
    · unfold takeCommand at h
      split at h
      · contradiction
      · split at h
        · contradiction
        · rw [ok_inj] at h
          exact Or.inl h.2.2.symm

/-- A step takes one object or none, and what the pool would hand out does not matter to a step that
takes none. -/
theorem step_allocates (h : c.step t ch = .ok (c', new, evs)) :
    (∃ b, evs = [.allocBObj b]) ∨ ∀ b, c.step t { ch with pBObj := b } = .ok (c', new, evs) := by
  by_cases hloop : ∃ o, t = .loop o
  · obtain ⟨o, rfl⟩ := hloop
    rcases loop_allocates h with htakes | ⟨_, hsame⟩
    · exact Or.inl ⟨_, htakes⟩
    · exact Or.inr hsame
  · right
    intro b
    rw [not_exists] at hloop
    rw [step_pBObj hloop]
    exact h

end Alloc

end ClientConn

namespace Process

variable {s s' : Process} {i : ℕ} {key : Option Key} {new : List Running} {evs : List WorkerEvent}

theorem clientStep_allocates {t : Task} {ch : Choice}
    (h : s.clientStep i t key ch = .ok (s', new, evs)) :
    (∃ b, clientEvents i evs = [.allocBObj b]) ∨
      ∀ b, s.clientStep i t key { ch with pBObj := b } = .ok (s', new, evs) := by
  unfold clientStep at h
  dsimp only at h
  split at h
  · case isTrue hkey =>
    split at h
    · contradiction
    · case h_2 conn next es hstep =>
      have hown : clientEvents i evs = es := by
        cases h
        exact clientEvents_self es
      rw [hown]
      rcases ClientConn.step_allocates hstep with htakes | hsame
      · exact Or.inl htakes
      · right
        intro b
        have hstep' := hsame b
        unfold clientStep
        dsimp only at hstep' ⊢
        rw [if_pos hkey, hstep']
        exact h
  · contradiction

theorem postAcceptEx_refused {server : Server} {ch : WorkerChoice} (hok : ch.ok = false) :
    s.postAcceptEx server ch = .ok (s, [.acceptex server], []) := by
  unfold postAcceptEx
  dsimp only
  rw [hok, if_neg fun h => Bool.false_ne_true h.1]

end Process

namespace PooledProcess

/-- The events of the handlers, and those of the pools. -/
def workerEvents (evs : List PooledEvent) : List WorkerEvent := evs.filterMap Sum.getLeft?

def poolEvents (evs : List PooledEvent) : List PoolEvent := evs.filterMap Sum.getRight?

section Events

variable (evs : List WorkerEvent) (es : List PoolEvent)

theorem workerEvents_split : workerEvents (evs.map .inl ++ es.map .inr) = evs := by
  unfold workerEvents
  rw [List.filterMap_append, List.filterMap_map, List.filterMap_map]
  change evs.filterMap some ++ es.filterMap (fun _ => none) = evs
  rw [List.filterMap_some, List.filterMap_none, List.append_nil]

theorem poolEvents_split : poolEvents (evs.map .inl ++ es.map .inr) = es := by
  unfold poolEvents
  rw [List.filterMap_append, List.filterMap_map, List.filterMap_map]
  change evs.filterMap (fun _ => none) ++ es.filterMap some = es
  rw [List.filterMap_some, List.filterMap_none, List.nil_append]

end Events

/-- A turn as the process notes it. -/
def note (s : PooledProcess) (r : Running) (ch : PooledChoice) : WorkerNote :=
  s.process.note r ch.worker

/-- A turn that the process can take as well, and that leaves the pools in order. -/
structure Follows (g_dwPagesize : DWORD) (before : List PoolEvent) (s : PooledProcess) (r : Running)
    (ch : PooledChoice) (s' : PooledProcess) (new : List Running) (evs : List PooledEvent) :
    Prop where
  turn : ∃ w, Process.machine.allowed s.process w ∧ s.process.note r w = s.note r ch ∧
    s.process.step r w = .ok (s'.process, new, workerEvents evs)
  pools : ∃ os, Pools.Holds g_dwPagesize (before ++ poolEvents evs) s'.pools s'.process.user os

section Step

variable {g_dwPagesize : DWORD} {before : List PoolEvent} {s s' : PooledProcess}
  {os : List Object} {ch : PooledChoice} {i : ℕ} {key : Option Key} {rest new : List Running}
  {evs : List PooledEvent}

theorem allowed_fresh (h : machine.allowed s ch) : s.pools.Fresh ch.obj ∧ s.pools.Fresh ch.sock :=
  ⟨⟨fun p hp => (h.2.1 p hp).1, h.2.2.2.1⟩, ⟨h.2.2.1, h.2.2.2.2⟩⟩

/-- The environment's choice for the process alone, which hands out these objects. -/
def handing (w : WorkerChoice) (ok : Bool) (pSock pObj pBObj : Addr) : WorkerChoice :=
  { w with ok, pSock, pObj, client := { w.client with pBObj } }

theorem handing_allowed {ok : Bool} {pSock pObj pBObj : Addr} (hallowed : machine.allowed s ch)
    (hpSock : ∀ k : Kind, s.process.user (k.object pSock) = none)
    (hpObj : ∀ k : Kind, s.process.user (k.object pObj) = none)
    (hpBObj : s.process.user (.bufferObj pBObj) = none) :
    Process.machine.allowed s.process (handing ch.worker ok pSock pObj pBObj) :=
  ⟨hallowed.1, ⟨hpSock .rsock, hpSock .bsock⟩, ⟨hpObj .robj, hpObj .bobj⟩, hpBObj⟩

theorem client_follows {t : Task}
    (h : Pools.Holds g_dwPagesize before s.pools s.process.user os)
    (hinv : Process.Inv s.process (.client i t key :: rest)) (hallowed : machine.allowed s ch)
    (hsize : s.process.g_dwPagesize = g_dwPagesize)
    (hstep : s.handle (.client i t key) ch = .ok (s', new, evs)) :
    Follows g_dwPagesize before s (.client i t key) ch s' new evs := by
  obtain ⟨hfresh, _⟩ := allowed_fresh hallowed
  obtain ⟨q, hq⟩ := h.unused
  have hi := hinv.client_lt
  have hmine := hinv.client i hi
  rw [clientTasks_self] at hmine
  unfold handle at hstep
  split at hstep
  · contradiction
  · case h_2 process next wevs hworker =>
    split at hstep
    · contradiction
    · case h_2 pools es hcalls =>
      cases hstep
      change s.process.clientStep i t key (s.choose ch).client = _ at hworker
      change s.pools.calls s.process.g_dwPagesize ch.obj ((clientEvents i wevs).filterMap
        (Event.pool? (s.process.clients i).conn.pRSock (s.process.clients i).pRObj)) = _ at hcalls
      rw [hsize] at hcalls
      -- What allocBObj hands out if it is called, and an unused address otherwise.
      have hchosen : ∃ b, s.process.user (.bufferObj b) = none ∧
          (∀ p, s.pools.next .bobj ch.obj = some p → b = p) ∧
          s.process.clientStep i t key { (s.choose ch).client with pBObj := b } =
            .ok (process, new, wevs) := by
        cases hnext : s.pools.next .bobj ch.obj with
        | some p =>
          refine ⟨p, h.next_free hfresh hnext .bobj, fun p' hp' => Option.some.inj hp', ?_⟩
          have hsame : (s.choose ch).client = { (s.choose ch).client with pBObj := p } := by
            unfold choose
            rw [hnext]
            rfl
          rwa [← hsame]
        | none =>
          refine ⟨q, hq .bobj, nofun, ?_⟩
          rcases Process.clientStep_allocates hworker with ⟨b, hb⟩ | hsame
          · rw [hb] at hcalls
            exact absurd hcalls (Pools.calls_none nofun hnext)
          · exact hsame q
      obtain ⟨b, hbfree, hbnext, hrun⟩ := hchosen
      obtain ⟨ok, conn, next', es', rfl, hturn⟩ := Process.clientStep_own hrun
      have hnew : b ∉ (s.process.clients i).conn.objs := by
        intro hmem
        have hused := hmine.pool (.bufferObj b) hmem
        rw [hbfree] at hused
        contradiction
      have hlocal := ClientConn.step_turn hnew hturn.step
      have hmoves := hlocal.moves (s.process.clients i).pRObj hmine.owned
      rw [clientEvents_self] at hcalls
      -- Of what a turn takes there is at most this one.
      have htake : ∀ o, .take o ∈ es'.filterMap (Event.pool? (s.process.clients i).conn.pRSock
          (s.process.clients i).pRObj) → ∀ p, s.pools.next o.kind ch.obj = some p → o.addr = p := by
        intro o ho p hp
        rw [ClientConn.step_takes hturn.step hnew ho] at hp ⊢
        exact hbnext p hp
      obtain ⟨os', hos'⟩ := h.calls hfresh hmoves hmine.pool htake hcalls
      constructor
      · refine ⟨handing ch.worker true q q b, ?_, rfl, ?_⟩
        · exact handing_allowed hallowed hq hq hbfree
        · rw [workerEvents_split]
          exact hrun
      · rw [poolEvents_split]
        refine ⟨os', ?_⟩
        rw [(Process.clientTurn_state hturn).1]
        exact hos'

theorem nc_follows {t : NcTask} (h : Pools.Holds g_dwPagesize before s.pools s.process.user os)
    (hinv : Process.Inv s.process (.nc i t key :: rest)) (hallowed : machine.allowed s ch)
    (hsize : s.process.g_dwPagesize = g_dwPagesize)
    (hstep : s.handle (.nc i t key) ch = .ok (s', new, evs)) :
    Follows g_dwPagesize before s (.nc i t key) ch s' new evs := by
  obtain ⟨hfresh, _⟩ := allowed_fresh hallowed
  obtain ⟨q, hq⟩ := h.unused
  have hmine := hinv.nc i hinv.nc_lt
  rw [ncTasks_self] at hmine
  unfold handle at hstep
  split at hstep
  · contradiction
  · case h_2 process next wevs hworker =>
    split at hstep
    · contradiction
    · case h_2 pools es hcalls =>
      cases hstep
      change s.process.ncStep i t key ch.worker.nc = _ at hworker
      change s.pools.calls s.process.g_dwPagesize ch.obj ((ncEvents i wevs).filterMap
        (NcEvent.pool? (s.process.ncs i).pBSock (s.process.ncs i).pBObj)) = _ at hcalls
      rw [hsize] at hcalls
      obtain ⟨_, ok, conn, next', es', rfl, hturn⟩ := Process.ncStep_turn hworker
      obtain ⟨sock, es₀, _, hstands⟩ := hmine.stands
      have hmoves := (NcConn.step_fires hturn.step).moves hstands
      rw [ncEvents_self] at hcalls
      have htake : ∀ o, .take o ∈ es'.filterMap (NcEvent.pool? (s.process.ncs i).pBSock
          (s.process.ncs i).pBObj) → ∀ p, s.pools.next o.kind ch.obj = some p → o.addr = p := by
        intro o ho
        rcases List.mem_filterMap.mp ho with ⟨e, _, hsome⟩
        cases e with
        | freeBSock | freeBObj =>
          have hchange := Option.some.inj hsome
          contradiction
        | _ => contradiction
      obtain ⟨os', hos'⟩ := h.calls hfresh hmoves hmine.pool htake hcalls
      constructor
      · refine ⟨handing ch.worker true q q q, ?_, rfl, ?_⟩
        · exact handing_allowed hallowed hq hq (hq .bobj)
        · rw [workerEvents_split]
          exact hworker
      · rw [poolEvents_split]
        refine ⟨os', ?_⟩
        rw [(Process.ncTurn_state hturn).1]
        exact hos'

theorem refuse_follows {server : Server} {pools : Pools} {es : List PoolEvent}
    (h : Pools.Holds g_dwPagesize before s.pools s.process.user os)
    (hallowed : machine.allowed s ch)
    (hpools : ∃ os, Pools.Holds g_dwPagesize (before ++ es) pools s.process.user os)
    (hstep : s.refuse server pools es = .ok (s', new, evs)) :
    Follows g_dwPagesize before s (.acceptex server) ch s' new evs := by
  obtain ⟨q, hq⟩ := h.unused
  have hsplit := workerEvents_split [] es
  have hsplit' := poolEvents_split [] es
  rw [List.map_nil, List.nil_append] at hsplit hsplit'
  cases hstep
  constructor
  · refine ⟨handing ch.worker false q q q, ?_, rfl, ?_⟩
    · exact handing_allowed hallowed hq hq (hq .bobj)
    · have hok : (handing ch.worker false q q q).ok = false := rfl
      rw [hsplit]
      exact Process.postAcceptEx_refused hok
  · rw [hsplit']
    exact hpools

/-- The two objects of a connection come into use. -/
theorem opened_user {server : Server} {w : WorkerChoice} {process : Process}
    {wevs : List WorkerEvent}
    (hok : w.ok = true ∧ s.process.owner (s.process.sListenSock server) = some (.listener server))
    (h : s.process.postAcceptEx server w = .ok (process, new, wevs)) :
    ∀ q, (process.user q).isSome = true ↔ q = server.sockKind.object w.pSock ∨
      q = server.objKind.object w.pObj ∨ (s.process.user q).isSome = true := by
  unfold Process.postAcceptEx at h
  dsimp only at h
  rw [if_pos hok] at h
  intro q
  cases server with
  | client | nc =>
    cases h
    rw [or_left_comm]
    refine (Pools.take_used _ q).trans (or_congr_right ?_)
    exact Pools.take_used _ q

theorem postAcceptEx_follows {server : Server}
    (h : Pools.Holds g_dwPagesize before s.pools s.process.user os)
    (hallowed : machine.allowed s ch) (hsize : s.process.g_dwPagesize = g_dwPagesize)
    (hstep : s.postAcceptEx server ch = .ok (s', new, evs)) :
    Follows g_dwPagesize before s (.acceptex server) ch s' new evs := by
  obtain ⟨hfresh, hfresh'⟩ := allowed_fresh hallowed
  obtain ⟨q, hq⟩ := h.unused
  unfold postAcceptEx at hstep
  rw [hsize] at hstep
  dsimp only at hstep
  have hobj := Pools.allocate_answer s.pools server.objKind
    (Pools.asked g_dwPagesize server.objKind) ch.obj
  generalize s.pools.allocate server.objKind _ ch.obj = robj at hobj hstep
  cases hobj with
  | fault => contradiction
  | none =>
    apply refuse_follows h hallowed _ hstep
    rw [List.append_nil]
    exact ⟨os, h⟩
  | some pObj pools es hnext htakes =>
    have hone := h.takeAt hfresh htakes .other
    have hfree := h.next_free hfresh hnext
    have hused (o : Object) (user : Object → Option Owner) :
        (apply Owner.other user (.take o) o).isSome = true :=
      (Pools.take_used o o).mpr (Or.inl rfl)
    have hapart : Acceptor.FreshHeap s.pools ⟨ch.obj, ch.sock, 0, 0, true⟩ :=
      ⟨hfresh, hfresh', fun p hp hp' => (hallowed.2.1 p hp').2 hp⟩
    have hafter := hapart.after (Acceptor.objKind_ne server) htakes
    dsimp only at hstep
    have hsock := Pools.allocate_answer pools server.sockKind
      (Pools.asked g_dwPagesize server.sockKind) ch.sock
    generalize pools.allocate server.sockKind _ ch.sock = rsock at hsock hstep
    cases hsock with
    | fault => contradiction
    -- The first object goes back to where it came from.
    | none =>
      apply refuse_follows h hallowed _ hstep
      rw [List.append_nil, ← List.append_assoc]
      exact hone.dropAt (hused _ _) (Pools.undo_used (hfree _))
    | some pSock pools' es' hnext' htakes' =>
      have htwo := hone.takeAt hafter htakes' .other
      have hfree' (k : Kind) : s.process.user (k.object pSock) = none := by
        have hnone := hone.next_free hafter hnext' k
        cases huser : s.process.user (k.object pSock) with
        | none => rfl
        | some w =>
          have hsome : (apply Owner.other s.process.user (.take (server.objKind.object pObj))
              (k.object pSock)).isSome = true := by
            rw [Pools.take_used, huser]
            exact Or.inr rfl
          rw [hnone] at hsome
          contradiction
      dsimp only at hstep
      split at hstep
      · case isTrue hok =>
        split at hstep
        · contradiction
        · case h_2 process next wevs hworker =>
          cases hstep
          constructor
          · refine ⟨handing ch.worker ch.worker.ok pSock pObj q, ?_, rfl, ?_⟩
            · exact handing_allowed hallowed hfree' hfree (hq .bobj)
            · rw [workerEvents_split]
              exact hworker
          · rw [poolEvents_split, ← List.append_assoc]
            refine ⟨_, htwo.congr ?_⟩
            intro o
            rw [Pools.take_used, Pools.take_used]
            exact opened_user (w := { ch.worker with pObj, pSock }) hok hworker o
      · apply refuse_follows h hallowed _ hstep
        -- The two objects, in the order in which they are given back.
        have hne : server.objKind.object pObj ≠ server.sockKind.object pSock := by
          intro heq
          have hkind := congrArg Object.kind heq
          rw [Object.kind_object, Object.kind_object] at hkind
          exact Acceptor.sockKind_ne server hkind.symm
        have hswap : Pools.Holds g_dwPagesize (before ++ es ++ es') pools'
            (apply Owner.other (apply Owner.other s.process.user
              (.take (server.sockKind.object pSock))) (.take (server.objKind.object pObj)))
            (server.sockKind.object pSock :: server.objKind.object pObj :: os) := by
          apply htwo.congr
          intro o
          rw [Pools.take_used, Pools.take_used, Pools.take_used, Pools.take_used, or_left_comm]
        have hnone : apply Owner.other s.process.user (.take (server.sockKind.object pSock))
            (server.objKind.object pObj) = none :=
          (Function.update_of_ne hne ..).trans (hfree _)
        obtain ⟨os', hfirst⟩ := hswap.dropAt (hused _ _) (Pools.undo_used hnone)
        rw [← List.append_assoc, ← List.append_assoc, ← List.append_assoc]
        exact hfirst.dropAt (hused _ _) (Pools.undo_used (hfree' _))

/-- Whatever a turn does with the pools, the process can take the turn without them. -/
theorem step_follows {r : Running} (h : Pools.Holds g_dwPagesize before s.pools s.process.user os)
    (hinv : Process.Inv s.process (r :: rest)) (hallowed : machine.allowed s ch)
    (hsize : s.process.g_dwPagesize = g_dwPagesize) (hstep : s.step r ch = .ok (s', new, evs)) :
    Follows g_dwPagesize before s r ch s' new evs := by
  cases r with
  | acceptex server => exact postAcceptEx_follows h hallowed hsize hstep
  | client i t key => exact client_follows h hinv hallowed hsize hstep
  | nc i t key => exact nc_follows h hinv hallowed hsize hstep

end Step

/-- What the pools give the process. Every block of the heap is in the pool of its kind or has
one user, each is freed at most once, and each has room for what its Init was passed. -/
structure InOrder (g_dwPagesize : DWORD) (evs : List PooledEvent) (s : PooledProcess) : Prop where
  known : ∀ k p, (∃ n, s.pools.heap p = some (k, n)) ↔
    p ∈ s.pools.pool k ∨ (s.process.user (k.object p)).isSome = true
  apart : ∀ k p, p ∈ s.pools.pool k → ∀ k' : Kind, s.process.user (k'.object p) = none
  once : ∀ k, (s.pools.pool k).Nodup ∧ (s.pools.pool k).length ≤ k.sizeMax
  blocks : Accounted s.pools.heap ((poolEvents evs).filterMap PoolEvent.block?)
  lists : Accounted s.pools.lists ((poolEvents evs).filterMap PoolEvent.list?)
  room : (∀ k, Memory.headerSize k ≤ Pools.asked g_dwPagesize k) → ∀ k p,
    (s.process.user (k.object p)).isSome = true → ∃ n, s.pools.heap p = some (k, n) ∧
      Memory.dataOffset k+Memory.requested k (Pools.asked g_dwPagesize k) ≤ n

section Order

variable {g_dwPagesize : DWORD} {evs : List PooledEvent} {s : PooledProcess} {os : List Object}

theorem holds_order (h : Pools.Holds g_dwPagesize (poolEvents evs) s.pools s.process.user os) :
    InOrder g_dwPagesize evs s := by
  have hobjs : (Pools.users os).flatMap PoolTask.objs = os.map fun o => (o.kind, o.addr) :=
    Pools.users_objs os
  have hmem (k : Kind) (p : Addr) : (k, p) ∈ os.map (fun o => (o.kind, o.addr)) ↔
      (s.process.user (k.object p)).isSome = true := by
    rw [h.used, List.mem_map]
    constructor
    · rintro ⟨o, ho, heq⟩
      cases heq
      rwa [Object.object_kind_addr]
    · intro ho
      exact ⟨_, ho, by rw [Object.kind_object, Object.addr_object]⟩
  have howned := h.sound.owned
  rw [hobjs] at howned
  have hknown (k : Kind) (p : Addr) : (∃ n, s.pools.heap p = some (k, n)) ↔
      p ∈ s.pools.pool k ∨ (s.process.user (k.object p)).isSome = true := by
    rw [← howned.known, List.mem_append, Pools.mem_pooled, hmem]
  have hdistinct := howned.distinct
  rw [List.map_append, List.nodup_append] at hdistinct
  constructor
  · exact hknown
  · intro k p hp k'
    cases huser : s.process.user (k'.object p) with
    | none => rfl
    | some w =>
      have hused := (hmem k' p).mpr (by rw [huser, Option.isSome_some])
      exact absurd rfl (hdistinct.2.2 p (List.mem_map.mpr ⟨_, Pools.mem_pooled.mpr hp, rfl⟩) p
        (List.mem_map.mpr ⟨_, hused, rfl⟩))
  · intro k
    refine ⟨?_, h.sound.bounded k⟩
    have hkind : ((s.pools.pool k).map (k, ·)).Sublist s.pools.pooled := by
      apply List.sublist_flatten_of_mem
      refine List.mem_map.mpr ⟨k, ?_, rfl⟩
      cases k with
      | rsock | robj | bsock | bobj => decide
    have hnodup := hdistinct.1.sublist (hkind.map Prod.snd)
    rwa [List.map_map, List.map_id''] at hnodup
    exact fun _ => rfl
  · exact h.sound.blocks
  · exact h.sound.lists
  · intro hheader k p hused
    obtain ⟨n, hn⟩ := (hknown k p).mpr (Or.inr hused)
    refine ⟨n, hn, ?_⟩
    rw [h.uniform k p n hn]
    exact Memory.fresh_room (hheader k)

end Order

/-- The notes of the process, without what the turns do with the pools. -/
def workerNotes (ns : List (WorkerNote × List PooledEvent)) :
    List (WorkerNote × List WorkerEvent) :=
  ns.map fun n => (n.1, workerEvents n.2)

section Run

variable {g_dwPagesize : DWORD} {sListenSock : Server → SOCKET} {others : SOCKET → Bool}
  {clients : ℕ → Client} {ncs : ℕ → Pusher} {ns : List (WorkerNote × List PooledEvent)}
  {conf : Conf PooledProcess Running}

theorem booted_holds (g_dwPagesize : DWORD) :
    Pools.Holds g_dwPagesize [] Pools.initMemory (fun _ => none) [] := by
  have hstart := @Memory.start_sound (fun _ => RecvSock.zeroed) (fun _ => BufferObj.zeroed)
  refine ⟨?_, ?_, nofun⟩
  · exact ⟨hstart.owned, hstart.bounded, hstart.blocks, hstart.lists, hstart.ofBlock,
      hstart.ofList⟩
  · intro o
    exact ⟨nofun, nofun⟩

theorem holds_run
    (h : Run (machine.noting note) (booted g_dwPagesize sListenSock others clients ncs) ns conf) :
    Run (Process.machine.noting Process.note)
        (Process.booted g_dwPagesize sListenSock others clients ncs) (workerNotes ns)
        ⟨conf.shared.process, conf.tasks⟩ ∧
      ∃ os, Pools.Holds g_dwPagesize (poolEvents (ns.flatMap Prod.snd)) conf.shared.pools
        conf.shared.process.user os := by
  apply h.invariant fun ns conf =>
    Run (Process.machine.noting Process.note)
        (Process.booted g_dwPagesize sListenSock others clients ncs) (workerNotes ns)
        ⟨conf.shared.process, conf.tasks⟩ ∧
      ∃ os, Pools.Holds g_dwPagesize (poolEvents (ns.flatMap Prod.snd)) conf.shared.pools
        conf.shared.process.user os
  · exact ⟨Run.nil, [], booted_holds g_dwPagesize⟩
  · rintro ns conf es conf' ⟨hrun, os, hholds⟩ hstep
    cases hstep with
    | @turn s s' r ch tasks new rest _ hp hallowed hnoted =>
      obtain ⟨evs, hs, rfl⟩ := noted_step hnoted
      obtain ⟨hinv, halone⟩ := Process.Alone.run hrun
      obtain ⟨⟨w, hw, hnote, hturn⟩, os', hos'⟩ :=
        step_follows hholds (hinv.perm hp) hallowed halone.pagesize hs
      have hworker : Step (Process.machine.noting Process.note) ⟨s.process, tasks⟩
          [(s.note r ch, workerEvents evs)] ⟨s'.process, new ++ rest⟩ := by
        rw [← hnote]
        exact Step.turn hp hw (noting_ok hturn)
      have hnotes : workerNotes (ns ++ [(s.note r ch, evs)]) =
          workerNotes ns ++ [(s.note r ch, workerEvents evs)] := List.map_append
      have hevents : poolEvents ((ns ++ [(s.note r ch, evs)]).flatMap Prod.snd) =
          poolEvents (ns.flatMap Prod.snd) ++ poolEvents evs := by
        rw [List.flatMap_append, List.flatMap_singleton]
        exact List.filterMap_append
      rw [hnotes, hevents]
      exact ⟨hrun.snoc hworker, os', hos'⟩

/-- The process over its pools refines the process: the same tasks take the same turns with the same
bytes where the pools never hand out what is in use, and the pools are in order all the time, until
an operation is posted on a handle that has become another connection's. -/
theorem pooled_refines
    (h : Run (machine.noting note) (booted g_dwPagesize sListenSock others clients ncs) ns conf) :
    Run (Process.machine.noting Process.note)
        (Process.booted g_dwPagesize sListenSock others clients ncs) (workerNotes ns)
        ⟨conf.shared.process, conf.tasks⟩ ∧
      InOrder g_dwPagesize (ns.flatMap Prod.snd) conf.shared := by
  obtain ⟨hrun, os, hholds⟩ := holds_run h
  exact ⟨hrun, holds_order hholds⟩

end Run

def sample : Conf PooledProcess Running :=
  ⟨⟨Process.sample.shared, Pools.initMemory⟩, Process.sample.tasks⟩

/-- The heap has these blocks, should the pools need them. -/
def heapGives (sock : SOCKET) (pObj pSock l : Addr) : PooledChoice :=
  ⟨Process.gives [] sock 0, ⟨some pObj, none⟩, ⟨some pSock, some l⟩⟩

/-- A client that sends nothing is dropped, and the next one gets its objects. -/
def objectsReused : List (ℕ × PooledChoice) :=
  [(0, heapGives 22 1 2 3), (1, heapGives 30 51 52 53), (0, heapGives 30 51 52 53),
    (0, heapGives 30 51 52 53), (0, heapGives 30 51 52 53), (0, heapGives 22 51 52 53)]

theorem second_client_pooled : ∃ ns conf, Run (machine.noting note) sample ns conf ∧
    conf.shared.process.user (.recvSock 2) = some (.client 1) ∧
      InOrder 4096 (ns.flatMap Prod.snd) conf.shared := by
  have hplay : (play machine sample objectsReused).map
      (fun r => r.2.shared.process.user (.recvSock 2)) = some (some (.client 1)) := by
    decide +kernel
  obtain ⟨evs, conf, hplain, huser⟩ := play_reaches hplay
  obtain ⟨ns, hrun, _⟩ := hplain.noted note
  exact ⟨ns, conf, hrun, huser, (pooled_refines hrun).2⟩

end PooledProcess

end CustomersCard
