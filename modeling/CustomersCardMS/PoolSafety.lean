import CustomersCardMS.Pools

namespace CustomersCard
open Interleaving OwnerTable

namespace PoolTask

/-- The object that a task has. -/
def objs : PoolTask → List (Kind × Addr)
  | .caller => []
  | .init k p _ | .user k p => [(k, p)]

end PoolTask

namespace PoolEvent

def block? : PoolEvent → Option (Change Addr)
  | .block ch => some ch
  | .list _ => none

def list? : PoolEvent → Option (Change Addr)
  | .block _ => none
  | .list ch => some ch

end PoolEvent

namespace Pools

def kinds : List Kind := [.rsock, .robj, .bsock, .bobj]

/-- Every object in a pool. -/
def pooled (m : Pools) : List (Kind × Addr) := kinds.flatMap fun k => (m.pool k).map (k, ·)

/-- The blocks of the heap are exactly these objects, each with a block of its own. -/
structure Owned (heap : Addr → Option (Kind × ℕ)) (os : List (Kind × Addr)) : Prop where
  distinct : (os.map Prod.snd).Nodup
  known : ∀ k p, (k, p) ∈ os ↔ ∃ n, heap p = some (k, n)

/-- Every block of the heap is in a pool or has one user, a pool holds no more than it may, each
block is freed at most once, and each RECV_SOCK has a list of its own exactly as long as it
exists. -/
structure Sound (evs : List PoolEvent) (m : Pools) (ts : List PoolTask) : Prop where
  owned : Owned m.heap (m.pooled ++ ts.flatMap PoolTask.objs)
  bounded : ∀ k, (m.pool k).length ≤ k.sizeMax
  blocks : Accounted m.heap (evs.filterMap PoolEvent.block?)
  lists : Accounted m.lists (evs.filterMap PoolEvent.list?)
  ofBlock : ∀ p n, m.heap p = some (.rsock, n) → ∃ l, m.lstSend p = some l ∧ m.lists l = some p
  ofList : ∀ l p, m.lists l = some p → m.lstSend p = some l ∧ ∃ n, m.heap p = some (.rsock, n)

section Heap

variable {heap : Addr → Option (Kind × ℕ)} {os os' : List (Kind × Addr)} {k : Kind} {p : Addr}
  {w : Kind × ℕ}

theorem Owned.perm (h : Owned heap os) (hp : os.Perm os') : Owned heap os' where
  distinct := (hp.map Prod.snd).nodup_iff.mp h.distinct
  known k p := by
    rw [← hp.mem_iff]
    exact h.known k p

theorem Owned.fresh (h : Owned heap os) (hp : heap p = none) (n : ℕ) :
    Owned (apply (k, n) heap (.take p)) ((k, p) :: os) := by
  have hnew {k' : Kind} : (k', p) ∉ os := by
    intro hmem
    obtain ⟨n', hn'⟩ := (h.known k' p).mp hmem
    rw [hp] at hn'
    contradiction
  constructor
  · rw [List.map_cons, List.nodup_cons]
    refine ⟨?_, h.distinct⟩
    intro hmem
    obtain ⟨⟨k', p'⟩, hmem, heq⟩ := List.mem_map.mp hmem
    rw [show p' = p from heq] at hmem
    exact hnew hmem
  · intro k' q
    rw [List.mem_cons]
    by_cases hq : q = p
    · rw [hq]
      simp only [apply, Function.update_self, Option.some.injEq, Prod.mk.injEq, and_true]
      constructor
      · rintro (hk | hmem)
        · exact ⟨n, hk.symm, rfl⟩
        · exact absurd hmem hnew
      · rintro ⟨_, hk, _⟩
        exact Or.inl hk.symm
    · simp only [apply, Function.update_of_ne hq]
      rw [← h.known k' q, Prod.mk.injEq]
      simp [hq]

theorem Owned.freed (h : Owned heap ((k, p) :: os)) : Owned (apply w heap (.drop p)) os := by
  have hdistinct := h.distinct
  rw [List.map_cons, List.nodup_cons] at hdistinct
  constructor
  · exact hdistinct.2
  · intro k' q
    by_cases hq : q = p
    · rw [hq]
      simp only [apply, Function.update_self, reduceCtorEq, exists_const, iff_false]
      intro hmem
      exact hdistinct.1 (List.mem_map.mpr ⟨(k', p), hmem, rfl⟩)
    · simp only [apply, Function.update_of_ne hq]
      rw [← h.known k' q, List.mem_cons, Prod.mk.injEq]
      simp [hq]

theorem Owned.head (h : Owned heap ((k, p) :: os)) : ∃ n, heap p = some (k, n) :=
  (h.known k p).mp List.mem_cons_self

end Heap

section Pool

variable {m m' : Pools} {k : Kind} {p l : Addr} {v : List Addr} {ts us : List PoolTask}
  {evs es : List PoolEvent}

theorem mem_pooled : (k, p) ∈ m.pooled ↔ p ∈ m.pool k := by
  unfold pooled
  rw [List.mem_flatMap]
  constructor
  · rintro ⟨k', _, hmem⟩
    obtain ⟨q, hq, heq⟩ := List.mem_map.mp hmem
    cases heq
    exact hq
  · intro hp
    refine ⟨k, ?_, List.mem_map_of_mem hp⟩
    cases k <;> decide

/-- An object more in one of the pools is an object more in all of them. -/
theorem pooled_push : (m.setPool k (p :: v)).pooled.Perm ((k, p) :: (m.setPool k v).pooled) := by
  have hothers (k' : Kind) (hk : k' ≠ k) (w : List Addr) : (m.setPool k w).pool k' = m.pool k' :=
    Function.update_of_ne hk ..
  have hself (w : List Addr) : (m.setPool k w).pool k = w := Function.update_self ..
  unfold pooled kinds
  simp only [List.flatMap_cons, List.flatMap_nil, List.append_nil]
  cases k with
  | rsock => simp [hself, hothers]
  | robj =>
    simp only [hself, hothers .rsock (by decide), hothers .bsock (by decide),
      hothers .bobj (by decide), List.map_cons, List.cons_append]
    exact List.perm_middle
  | bsock =>
    simp only [hself, hothers .rsock (by decide), hothers .robj (by decide),
      hothers .bobj (by decide), List.map_cons, List.cons_append]
    rw [← List.append_assoc, ← List.append_assoc]
    exact List.perm_middle
  | bobj =>
    simp only [hself, hothers .rsock (by decide), hothers .robj (by decide),
      hothers .bsock (by decide), List.map_cons]
    rw [← List.append_assoc, ← List.append_assoc, ← List.append_assoc, ← List.append_assoc]
    exact List.perm_middle

theorem setPool_self : m.setPool k (m.pool k) = m := by
  unfold setPool
  rw [Function.update_eq_self]

theorem Sound.perm (h : Sound evs m ts) (hp : ts.Perm us) : Sound evs m us where
  owned := h.owned.perm ((List.Perm.refl m.pooled).append (hp.flatMap_right PoolTask.objs))
  bounded := h.bounded
  blocks := h.blocks
  lists := h.lists
  ofBlock := h.ofBlock
  ofList := h.ofList

/-- A change that leaves the heap as it is moves objects between the pools and their users. -/
theorem Sound.moves (h : Sound evs m ts)
    (hp : (m.pooled ++ ts.flatMap PoolTask.objs).Perm
      ((m.setPool k v).pooled ++ us.flatMap PoolTask.objs))
    (hv : v.length ≤ k.sizeMax) : Sound evs (m.setPool k v) us where
  owned := h.owned.perm hp
  bounded k' := by
    rcases eq_or_ne k' k with rfl | hk
    · rw [show (m.setPool k' v).pool k' = v from Function.update_self ..]
      exact hv
    · rw [show (m.setPool k v).pool k' = m.pool k' from Function.update_of_ne hk ..]
      exact h.bounded k'
  blocks := h.blocks
  lists := h.lists
  ofBlock := h.ofBlock
  ofList := h.ofList

/-- The objects when a task takes one, or gives one back. -/
theorem objs_cons {t : PoolTask} (ht : t.objs = [(k, p)]) (os : List (Kind × Addr)) :
    (os ++ (t :: ts).flatMap PoolTask.objs).Perm ((k, p) :: (os ++ ts.flatMap PoolTask.objs)) := by
  rw [List.flatMap_cons, ht]
  exact List.perm_middle

theorem Sound.reuse (h : Sound evs m ts) {t : PoolTask} (ht : t.objs = [(k, p)])
    (hpool : m.pool k = p :: v) : Sound evs (m.setPool k v) (t :: ts) := by
  have hpush := pooled_push (m := m) (k := k) (p := p) (v := v)
  rw [← hpool, setPool_self] at hpush
  apply h.moves
  · calc
      List.Perm _ ((k, p) :: (m.setPool k v).pooled ++ ts.flatMap PoolTask.objs) :=
        hpush.append_right _
      List.Perm _ _ := (objs_cons ht _).symm
  · have hbound := h.bounded k
    rw [hpool, List.length_cons] at hbound
    omega

theorem Sound.keep {t : PoolTask} (h : Sound evs m (t :: ts)) (ht : t.objs = [(k, p)])
    (hroom : (m.pool k).length < k.sizeMax) : Sound evs (m.setPool k (p :: m.pool k)) ts := by
  have hpush := pooled_push (m := m) (k := k) (p := p) (v := m.pool k)
  rw [setPool_self] at hpush
  apply h.moves
  · calc
      List.Perm _ ((k, p) :: (m.pooled ++ ts.flatMap PoolTask.objs)) := objs_cons ht _
      List.Perm _ _ := (hpush.append_right _).symm
  · exact hroom

/-- A block that is new, for an object without a list. -/
theorem Sound.fresh (h : Sound evs m ts) {t : PoolTask} (ht : t.objs = [(k, p)])
    (hp : m.heap p = none) (hk : k ≠ .rsock) (dwSize : DWORD) :
    Sound (evs ++ [.block (.take p)]) (m.heapAlloc k p dwSize) (t :: ts) where
  owned := (h.owned.fresh hp _).perm (objs_cons ht m.pooled).symm
  bounded := h.bounded
  blocks := by
    rw [List.filterMap_append]
    exact h.blocks.take hp
  lists := by
    rw [List.filterMap_append]
    change Accounted m.lists (evs.filterMap PoolEvent.list? ++ [])
    rw [List.append_nil]
    exact h.lists
  ofBlock q n hq := by
    have hne : q ≠ p := by
      rintro rfl
      simp only [heapAlloc, apply, Function.update_self, Option.some.injEq, Prod.mk.injEq] at hq
      exact hk hq.1
    simp only [heapAlloc, apply, Function.update_of_ne hne] at hq
    exact h.ofBlock q n hq
  ofList l q hq := by
    obtain ⟨hlst, n, hn⟩ := h.ofList l q hq
    have hne : q ≠ p := by
      rintro rfl
      rw [hp] at hn
      contradiction
    refine ⟨hlst, n, ?_⟩
    simp only [heapAlloc, apply, Function.update_of_ne hne]
    exact hn

/-- A new RECV_SOCK and its list. -/
theorem Sound.freshSock (h : Sound evs m ts) {t : PoolTask} (ht : t.objs = [(.rsock, p)])
    (hp : m.heap p = none) (hl : m.lists l = none) (dwSize : DWORD) :
    Sound (evs ++ [.block (.take p), .list (.take l)])
      ((m.heapAlloc .rsock p dwSize).newList p l) (t :: ts) where
  owned := (h.owned.fresh hp _).perm (objs_cons ht m.pooled).symm
  bounded := h.bounded
  blocks := by
    rw [List.filterMap_append]
    exact h.blocks.take hp
  lists := by
    rw [List.filterMap_append]
    exact h.lists.take hl
  ofBlock q n hq := by
    rcases eq_or_ne q p with rfl | hne
    · refine ⟨l, ?_, ?_⟩
      · exact Function.update_self ..
      · exact Function.update_self ..
    · simp only [newList, heapAlloc, apply, Function.update_of_ne hne] at hq
      obtain ⟨l', hlst, hlists⟩ := h.ofBlock q n hq
      have hne' : l' ≠ l := by
        rintro rfl
        rw [hl] at hlists
        contradiction
      refine ⟨l', ?_, ?_⟩
      · exact (Function.update_of_ne hne ..).trans hlst
      · exact (Function.update_of_ne hne' ..).trans hlists
  ofList l' q hq := by
    rcases eq_or_ne l' l with rfl | hne'
    · simp only [newList, apply, Function.update_self, Option.some.injEq] at hq
      rw [← hq]
      refine ⟨Function.update_self .., dwSize.toNat, ?_⟩
      exact Function.update_self ..
    · simp only [newList, apply, Function.update_of_ne hne'] at hq
      obtain ⟨hlst, n, hn⟩ := h.ofList l' q hq
      have hne : q ≠ p := by
        rintro rfl
        rw [hp] at hn
        contradiction
      refine ⟨(Function.update_of_ne hne ..).trans hlst, n, ?_⟩
      exact (Function.update_of_ne hne ..).trans hn

/-- A block without a list that is given back to the heap. -/
theorem Sound.freed {t : PoolTask} (h : Sound evs m (t :: ts)) (ht : t.objs = [(k, p)])
    (hk : k ≠ .rsock) : Sound (evs ++ [.block (.drop p)]) (m.heapFree k p) ts := by
  have howned := h.owned.perm (objs_cons ht m.pooled)
  obtain ⟨n₀, hn₀⟩ := howned.head
  constructor
  · exact howned.freed (w := (k, 0))
  · exact h.bounded
  · rw [List.filterMap_append]
    exact h.blocks.drop (w := (k, 0)) (by rw [hn₀, Option.isSome_some])
  · rw [List.filterMap_append]
    change Accounted m.lists (evs.filterMap PoolEvent.list? ++ [])
    rw [List.append_nil]
    exact h.lists
  · intro q n hq
    have hne : q ≠ p := by
      rintro rfl
      simp only [heapFree, apply, Function.update_self, reduceCtorEq] at hq
    simp only [heapFree, apply, Function.update_of_ne hne] at hq
    exact h.ofBlock q n hq
  · intro l q hq
    obtain ⟨hlst, n, hn⟩ := h.ofList l q hq
    have hne : q ≠ p := by
      rintro rfl
      rw [hn₀, Option.some.injEq, Prod.mk.injEq] at hn
      exact hk hn.1
    exact ⟨hlst, n, (Function.update_of_ne hne ..).trans hn⟩

/-- A RECV_SOCK that is given back to the heap, with its list. -/
theorem Sound.freedSock {t : PoolTask} (h : Sound evs m (t :: ts)) (ht : t.objs = [(.rsock, p)])
    (hlst : m.lstSend p = some l) :
    Sound (evs ++ [.list (.drop l), .block (.drop p)])
      ((m.deleteList p l).heapFree .rsock p) ts := by
  have howned := h.owned.perm (objs_cons ht m.pooled)
  obtain ⟨n₀, hn₀⟩ := howned.head
  obtain ⟨l₀, hlst₀, hlists⟩ := h.ofBlock p n₀ hn₀
  rw [hlst, Option.some.injEq] at hlst₀
  rw [← hlst₀] at hlists
  constructor
  · exact howned.freed (w := (.rsock, 0))
  · exact h.bounded
  · rw [List.filterMap_append]
    exact h.blocks.drop (w := (.rsock, 0)) (by rw [hn₀, Option.isSome_some])
  · rw [List.filterMap_append]
    exact h.lists.drop (w := p) (by rw [hlists, Option.isSome_some])
  · intro q n hq
    have hne : q ≠ p := by
      rintro rfl
      simp only [heapFree, apply, Function.update_self, reduceCtorEq] at hq
    simp only [heapFree, deleteList, apply, Function.update_of_ne hne] at hq
    obtain ⟨l', hlst', hlists'⟩ := h.ofBlock q n hq
    have hne' : l' ≠ l := by
      rintro rfl
      rw [hlists, Option.some.injEq] at hlists'
      exact hne hlists'.symm
    exact ⟨l', hlst', (Function.update_of_ne hne' ..).trans hlists'⟩
  · intro l' q hq
    have hne' : l' ≠ l := by
      rintro rfl
      simp only [heapFree, deleteList, apply, Function.update_self, reduceCtorEq] at hq
    simp only [heapFree, deleteList, apply, Function.update_of_ne hne'] at hq
    obtain ⟨hlst', n, hn⟩ := h.ofList l' q hq
    have hne : q ≠ p := by
      rintro rfl
      rw [hlst, Option.some.injEq] at hlst'
      exact hne' hlst'.symm
    exact ⟨hlst', n, (Function.update_of_ne hne ..).trans hn⟩

/-- What the heap hands out is not in use. -/
structure Fresh (m : Pools) (ch : HeapChoice) : Prop where
  block : ∀ p ∈ ch.block, m.heap p = none
  list : ∀ l ∈ ch.list, m.lists l = none

/-- What an allocator hands out. -/
def next (m : Pools) (k : Kind) (ch : HeapChoice) : Option Addr :=
  match m.pool k with
  | [] => ch.block
  | p :: _ => some p

/-- What HeapAlloc is asked for. -/
def blockSize (k : Kind) (dwSize : DWORD) : DWORD :=
  match k with
  | .robj => RECV_OBJ_SIZE
  | .bsock => BUFER_SOCK_SIZE
  | _ => dwSize

/-- Everything that an allocator can do to hand out `p`. -/
inductive Takes (m : Pools) (ch : HeapChoice) (p : Addr) :
    Kind → DWORD → Pools → List PoolEvent → Prop
  | reuse {k : Kind} {dwSize : DWORD} (v : List Addr) : m.pool k = p :: v →
      Takes m ch p k dwSize (m.setPool k v) []
  | fresh {k : Kind} {dwSize : DWORD} : m.pool k = [] → ch.block = some p → k ≠ .rsock →
      Takes m ch p k dwSize (m.heapAlloc k p dwSize) [.block (.take p)]
  | freshSock {dwSize : DWORD} (l : Addr) : m.pool .rsock = [] → ch.block = some p →
      ch.list = some l →
      Takes m ch p .rsock dwSize ((m.heapAlloc .rsock p dwSize).newList p l)
        [.block (.take p), .list (.take l)]

/-- Everything that giving back `p` can do. -/
inductive Gives (m : Pools) (p : Addr) : Kind → Pools → List PoolEvent → Prop
  | keep {k : Kind} : (m.pool k).length < k.sizeMax → Gives m p k (m.setPool k (p :: m.pool k)) []
  | freed {k : Kind} : k ≠ .rsock → Gives m p k (m.heapFree k p) [.block (.drop p)]
  | freedSock (l : Addr) : m.lstSend p = some l →
      Gives m p .rsock ((m.deleteList p l).heapFree .rsock p) [.list (.drop l), .block (.drop p)]
  | freedNull : m.lstSend p = none → Gives m p .rsock (m.heapFree .rsock p) [.block (.drop p)]

variable {ch : HeapChoice} {dwSize : DWORD}

theorem next_of_block (k : Kind) (hp : ch.block = some p) : ∃ q, m.next k ch = some q := by
  unfold next
  cases hpool : m.pool k with
  | nil => exact ⟨p, hp⟩
  | cons q v => exact ⟨q, rfl⟩

theorem alloc_takes (dwSize : DWORD) (hk : k ≠ .rsock) (hnext : m.next k ch = some p) :
    ∃ m' es, m.alloc k dwSize ch = (m', some p, es) ∧ Takes m ch p k dwSize m' es := by
  unfold next at hnext
  unfold alloc
  cases hpool : m.pool k with
  | nil =>
    rw [hpool] at hnext
    dsimp only at hnext
    rw [hnext]
    exact ⟨_, _, rfl, Takes.fresh hpool hnext hk⟩
  | cons q v =>
    rw [hpool] at hnext
    cases hnext
    exact ⟨_, _, rfl, Takes.reuse v hpool⟩

theorem allocRSock_takes (dwSize : DWORD) (hnext : m.next .rsock ch = some p)
    (hlist : m.pool .rsock = [] → ch.list.isSome = true) :
    ∃ m' es, m.allocRSock dwSize ch = .ok (m', some p, es) ∧
      Takes m ch p .rsock dwSize m' es := by
  unfold next at hnext
  unfold allocRSock
  cases hpool : m.pool .rsock with
  | nil =>
    obtain ⟨l, hl⟩ := Option.isSome_iff_exists.mp (hlist hpool)
    rw [hpool] at hnext
    dsimp only at hnext
    rw [hnext, hl]
    exact ⟨_, _, rfl, Takes.freshSock l hpool hnext hl⟩
  | cons q v =>
    rw [hpool] at hnext
    cases hnext
    exact ⟨_, _, rfl, Takes.reuse v hpool⟩

theorem allocate_takes (dwSize : DWORD) (hnext : m.next k ch = some p)
    (hlist : k = .rsock → m.pool .rsock = [] → ch.list.isSome = true) :
    ∃ m' es, m.allocate k dwSize ch = .ok (m', some p, es) ∧
      Takes m ch p k (Pools.blockSize k dwSize) m' es := by
  cases k with
  | rsock => exact allocRSock_takes dwSize hnext (hlist rfl)
  | robj =>
    obtain ⟨m', es, heq, htakes⟩ := alloc_takes RECV_OBJ_SIZE (by decide) hnext
    exact ⟨m', es, congrArg Except.ok heq, htakes⟩
  | bsock =>
    obtain ⟨m', es, heq, htakes⟩ := alloc_takes BUFER_SOCK_SIZE (by decide) hnext
    exact ⟨m', es, congrArg Except.ok heq, htakes⟩
  | bobj =>
    obtain ⟨m', es, heq, htakes⟩ := alloc_takes dwSize (by decide) hnext
    exact ⟨m', es, congrArg Except.ok heq, htakes⟩

theorem free_gives (hk : k ≠ .rsock) : Gives m p k (m.free k p).1 (m.free k p).2 := by
  unfold free
  split
  · case isTrue hroom => exact Gives.keep hroom
  · exact Gives.freed hk

theorem freeRSock_gives : Gives m p .rsock (m.freeRSock p).1 (m.freeRSock p).2 := by
  unfold freeRSock
  split
  · case isTrue hroom => exact Gives.keep hroom
  · cases hl : m.lstSend p with
    | none => exact Gives.freedNull hl
    | some l => exact Gives.freedSock l hl

theorem release_gives : Gives m p k (m.release k p).1 (m.release k p).2 := by
  cases k with
  | rsock => exact freeRSock_gives
  | robj | bsock | bobj => exact free_gives (by decide)

theorem Sound.takes (h : Sound evs m ts) {t : PoolTask} (ht : t.objs = [(k, p)])
    (hfresh : Fresh m ch) (htakes : Takes m ch p k dwSize m' es) :
    Sound (evs ++ es) m' (t :: ts) := by
  cases htakes with
  | reuse v hpool =>
    rw [List.append_nil]
    exact h.reuse ht hpool
  | fresh _ hp hk => exact h.fresh ht (hfresh.block p hp) hk dwSize
  | freshSock l _ hp hl => exact h.freshSock ht (hfresh.block p hp) (hfresh.list l hl) dwSize

theorem Sound.gives {t : PoolTask} (h : Sound evs m (t :: ts)) (ht : t.objs = [(k, p)])
    (hgives : Gives m p k m' es) : Sound (evs ++ es) m' ts := by
  cases hgives with
  | keep hroom =>
    rw [List.append_nil]
    exact h.keep ht hroom
  | freed hk => exact h.freed ht hk
  | freedSock l hl => exact h.freedSock ht hl
  | freedNull hl =>
    obtain ⟨n, hn⟩ := (h.owned.perm (objs_cons ht m.pooled)).head
    obtain ⟨l, hlst, _⟩ := h.ofBlock p n hn
    rw [hl] at hlst
    contradiction

theorem Sound.owned_head {t : PoolTask} (h : Sound evs m (t :: ts)) (ht : t.objs = [(k, p)]) :
    ∃ n, m.heap p = some (k, n) := (h.owned.perm (objs_cons ht m.pooled)).head

/-- Nobody else has the object of a task. -/
theorem Sound.others {t u : PoolTask} (h : Sound evs m (t :: ts)) (ht : t.objs = [(k, p)])
    (hu : u ∈ ts) : ∀ o ∈ u.objs, o.2 ≠ p := by
  intro o ho heq
  have hdistinct := (h.owned.perm (objs_cons ht m.pooled)).distinct
  rw [List.map_cons, List.nodup_cons] at hdistinct
  apply hdistinct.1
  have hmem : o ∈ m.pooled ++ ts.flatMap PoolTask.objs :=
    List.mem_append_right _ (List.mem_flatMap_of_mem hu ho)
  exact List.mem_map.mpr ⟨o, hmem, heq⟩

/-- A task that goes on with its object. -/
theorem Sound.relabel {t u : PoolTask} (h : Sound evs m (t :: ts)) (ho : u.objs = t.objs) :
    Sound evs m (u :: ts) where
  owned := by
    rw [List.flatMap_cons, ho, ← List.flatMap_cons]
    exact h.owned
  bounded := h.bounded
  blocks := h.blocks
  lists := h.lists
  ofBlock := h.ofBlock
  ofList := h.ofList

end Pool

end Pools

namespace Memory

/-- offsetof(RECV_SOCK, buf) and offsetof(BUFFER_OBJ, data) -/
def dataOffset : Kind → ℕ
  | .rsock => 124
  | .bobj => 84
  | _ => 0

/-- The size that Init is passed. -/
def requested (k : Kind) (dwSize : DWORD) : ℕ :=
  match k with
  | .rsock => (dwSize - RECV_SOCK_SIZE).toNat
  | .bobj => (dwSize - BUFFER_OBJ_SIZE).toNat
  | _ => 0

/-- The dwBufsize or datalen of an object. -/
def recorded (m : Memory) (k : Kind) (p : Addr) : ℕ :=
  match k with
  | .rsock => (m.rsock p).dwBufsize.toNat
  | .bobj => (m.bobj p).datalen.toNat
  | _ => 0

/-- The block of an object holds as many bytes of data as the object says. -/
def HasRoom (m : Memory) (k : Kind) (p : Addr) : Prop :=
  ∃ n, m.pools.heap p = some (k, n) ∧ dataOffset k+m.recorded k p ≤ n

/-- A pool that is not empty has a block that is large enough next. -/
def fits (m : Memory) (k : Kind) (dwSize : DWORD) : Bool :=
  match m.pools.pool k with
  | [] => true
  | p :: _ =>
    match m.pools.heap p with
    | none => false
    | some (_, n) => dataOffset k+requested k dwSize ≤ n

/-- Whether every allocation so far found a block that fits. -/
def fitting : Monitor Bool Memory PoolTask PoolChoice where
  next all m t ch :=
    match t with
    | .caller => all && m.fits ch.kind ch.dwSize
    | _ => all
  permits _ _ _ _ := true

/-- What a task knows of its object if every allocation fitted. -/
def Roomy (m : Memory) : PoolTask → Prop
  | .caller => True
  | .init k p dwSize => ∃ n, m.pools.heap p = some (k, n) ∧ dataOffset k+requested k dwSize ≤ n
  | .user k p => m.HasRoom k p

section Step

variable {m m' : Memory} {k : Kind} {p : Addr} {t : PoolTask} {ch : PoolChoice} {dwSize : DWORD}
  {rest new ts : List PoolTask} {evs es : List PoolEvent} {pools : Pools}

theorem allowed_fresh (h : machine.allowed m ch) : Pools.Fresh m.pools ch.heap := by
  obtain ⟨⟨p, hp, hfree⟩, ⟨l, hl, hunused⟩, _⟩ := h
  constructor
  · intro q hq
    rw [← Option.some.inj (hp.symm.trans hq)]
    exact hfree
  · intro q hq
    rw [← Option.some.inj (hl.symm.trans hq)]
    exact hunused

theorem allocate_takes (k : Kind) (dwSize : DWORD) (h : machine.allowed m ch) : ∃ p pools es,
    m.pools.allocate k dwSize ch.heap = .ok (pools, some p, es) ∧
      Pools.Takes m.pools ch.heap p k (Pools.blockSize k dwSize) pools es := by
  obtain ⟨⟨q, hq, _⟩, ⟨l, hl, _⟩, _⟩ := h
  obtain ⟨p, hnext⟩ := Pools.next_of_block (m := m.pools) k hq
  obtain ⟨pools, es, heq, htakes⟩ := Pools.allocate_takes dwSize hnext
    fun _ _ => Option.isSome_iff_exists.mpr ⟨l, hl⟩
  exact ⟨p, pools, es, heq, htakes⟩

/-- Two memories that agree at an address. -/
structure Agree (m m' : Memory) (p : Addr) : Prop where
  heap : m'.pools.heap p = m.pools.heap p
  rsock : m'.rsock p = m.rsock p
  bobj : m'.bobj p = m.bobj p

theorem Agree.recorded (h : Agree m m' p) : m'.recorded k p = m.recorded k p := by
  unfold Memory.recorded
  rw [h.rsock, h.bobj]

theorem Agree.roomy (h : ∀ o ∈ t.objs, Agree m m' o.2) (hr : m.Roomy t) : m'.Roomy t := by
  cases t with
  | caller => trivial
  | init k p dwSize =>
    obtain ⟨n, hn, hle⟩ := hr
    exact ⟨n, (h _ (List.mem_singleton_self _)).heap.trans hn, hle⟩
  | user k p =>
    obtain ⟨n, hn, hle⟩ := hr
    have hp := h _ (List.mem_singleton_self _)
    refine ⟨n, hp.heap.trans hn, ?_⟩
    rw [hp.recorded]
    exact hle

theorem zero_agree {q : Addr} (hne : q ≠ p) : Agree m (m.zero k p) q := by
  cases k with
  | rsock => exact ⟨rfl, Function.update_of_ne hne .., rfl⟩
  | bobj => exact ⟨rfl, rfl, Function.update_of_ne hne ..⟩
  | robj | bsock => exact ⟨rfl, rfl, rfl⟩

theorem init_agree {q : Addr} (hne : q ≠ p) : Agree m (m.init k p dwSize) q := by
  cases k with
  | rsock => exact ⟨rfl, Function.update_of_ne hne .., rfl⟩
  | bobj => exact ⟨rfl, rfl, Function.update_of_ne hne ..⟩
  | robj | bsock => exact ⟨rfl, rfl, rfl⟩

theorem write_agree {q : Addr} (hne : q ≠ p) : Agree m (m.write k p ch) q := by
  cases k with
  | rsock => exact ⟨rfl, Function.update_of_ne hne .., rfl⟩
  | bobj => exact ⟨rfl, rfl, Function.update_of_ne hne ..⟩
  | robj | bsock => exact ⟨rfl, rfl, rfl⟩

theorem init_recorded : (m.init k p dwSize).recorded k p = requested k dwSize := by
  cases k with
  | rsock =>
    change ((Function.update m.rsock p _) p).dwBufsize.toNat = _
    rw [Function.update_self]
    rfl
  | bobj =>
    change ((Function.update m.bobj p _) p).datalen.toNat = _
    rw [Function.update_self]
    rfl
  | robj | bsock => rfl

theorem write_recorded : (m.write k p ch).recorded k p = m.recorded k p := by
  cases k with
  | rsock =>
    change ((Function.update m.rsock p _) p).dwBufsize.toNat = _
    rw [Function.update_self]
    rfl
  | bobj =>
    change ((Function.update m.bobj p _) p).datalen.toNat = _
    rw [Function.update_self]
    rfl
  | robj | bsock => rfl

theorem init_pools : (m.init k p dwSize).pools = m.pools := by
  cases k <;> rfl

theorem write_pools : (m.write k p ch).pools = m.pools := by
  cases k <;> rfl

/-- A block that is new has the size that was asked for. -/
theorem fresh_room (h : headerSize k ≤ dwSize) :
    dataOffset k+requested k dwSize ≤ (Pools.blockSize k dwSize).toNat := by
  have hle := BitVec.le_def.mp h
  cases k with
  | rsock =>
    have hsub : (dwSize - RECV_SOCK_SIZE).toNat = dwSize.toNat-127 := BitVec.toNat_sub_of_le h
    change 127 ≤ dwSize.toNat at hle
    change 124+(dwSize - RECV_SOCK_SIZE).toNat ≤ dwSize.toNat
    omega
  | bobj =>
    have hsub : (dwSize - BUFFER_OBJ_SIZE).toNat = dwSize.toNat-87 := BitVec.toNat_sub_of_le h
    change 87 ≤ dwSize.toNat at hle
    change 84+(dwSize - BUFFER_OBJ_SIZE).toNat ≤ dwSize.toNat
    omega
  | robj | bsock => exact Nat.zero_le _

/-- Everything that a turn can do. -/
inductive Turn (m : Memory) : PoolTask → PoolChoice → Memory → List PoolTask → List PoolEvent → Prop
  | allocate {ch : PoolChoice} {z : Memory} (p : Addr) (pools : Pools) (es : List PoolEvent) :
      Pools.Fresh m.pools ch.heap →
      Pools.Takes m.pools ch.heap p ch.kind (Pools.blockSize ch.kind ch.dwSize) pools es →
      headerSize ch.kind ≤ ch.dwSize → (∀ q ≠ p, Agree m z q) →
      Turn m .caller ch { z with pools } [.caller, .init ch.kind p ch.dwSize] es
  | init {ch : PoolChoice} (k : Kind) (p : Addr) (dwSize : DWORD) :
      Turn m (.init k p dwSize) ch (m.init k p dwSize) [.user k p] []
  | write {ch : PoolChoice} (k : Kind) (p : Addr) :
      Turn m (.user k p) ch (m.write k p ch) [.user k p] []
  | release {ch : PoolChoice} (k : Kind) (p : Addr) (pools : Pools) (es : List PoolEvent) :
      Pools.Gives m.pools p k pools es → Turn m (.user k p) ch { m with pools } [] es

theorem step_turn (hallowed : machine.allowed m ch) (h : machine.step m t ch = .ok (m', new, es)) :
    Turn m t ch m' new es := by
  cases t with
  | caller =>
    obtain ⟨p, pools, es', heq, htakes⟩ := allocate_takes ch.kind ch.dwSize hallowed
    change step m .caller ch = _ at h
    unfold step at h
    dsimp only at h
    rw [heq] at h
    cases h
    apply Turn.allocate p _ _ (allowed_fresh hallowed) htakes hallowed.2.2
    intro q hne
    split
    · exact zero_agree hne
    · exact ⟨rfl, rfl, rfl⟩
  | init k p dwSize =>
    cases h
    exact Turn.init k p dwSize
  | user k p =>
    change step m (.user k p) ch = _ at h
    unfold step at h
    dsimp only at h
    split at h
    · cases h
      exact Turn.release k p _ _ Pools.release_gives
    · cases h
      exact Turn.write k p

theorem heapAlloc_self (m : Pools) : (m.heapAlloc k p dwSize).heap p = some (k, dwSize.toNat) :=
  Function.update_self ..

theorem takes_heap {q : Addr} {c : HeapChoice} (h : Pools.Takes m.pools c p k dwSize pools es)
    (hne : q ≠ p) :
    pools.heap q = m.pools.heap q := by
  cases h with
  | reuse v hpool => rfl
  | fresh | freshSock => exact Function.update_of_ne hne ..

theorem gives_heap {q : Addr} (h : Pools.Gives m.pools p k pools es) (hne : q ≠ p) :
    pools.heap q = m.pools.heap q := by
  cases h with
  | keep hroom => rfl
  | freed | freedSock | freedNull => exact Function.update_of_ne hne ..

/-- The block that is handed out is large enough, whether it is new or was in a pool that fits. -/
theorem takes_room (h : Pools.Sound evs m.pools ts) {c : HeapChoice}
    (hfresh : Pools.Fresh m.pools c)
    (htakes : Pools.Takes m.pools c p k (Pools.blockSize k dwSize) pools es)
    (hheader : headerSize k ≤ dwSize) (hfits : m.fits k dwSize = true) :
    ∃ n, pools.heap p = some (k, n) ∧ dataOffset k+requested k dwSize ≤ n := by
  obtain ⟨n, hn⟩ := (h.takes (t := .init k p dwSize) rfl hfresh htakes).owned_head rfl
  refine ⟨n, hn, ?_⟩
  unfold fits at hfits
  cases htakes with
  | reuse v hpool =>
    change m.pools.heap p = _ at hn
    rw [hpool] at hfits
    dsimp only at hfits
    rw [hn] at hfits
    exact of_decide_eq_true hfits
  | fresh _ _ _ =>
    rw [heapAlloc_self, Option.some.injEq, Prod.mk.injEq] at hn
    rw [← hn.2]
    exact fresh_room hheader
  | freshSock l _ _ _ =>
    change (m.pools.heapAlloc .rsock p (Pools.blockSize .rsock dwSize)).heap p = _ at hn
    rw [heapAlloc_self, Option.some.injEq, Prod.mk.injEq] at hn
    rw [← hn.2]
    exact fresh_room hheader

theorem Turn.sound (hturn : Turn m t ch m' new es) (h : Pools.Sound evs m.pools (t :: rest)) :
    Pools.Sound (evs ++ es) m'.pools (new ++ rest) := by
  cases hturn with
  | allocate p pools es hfresh htakes _ _ =>
    have hinit := h.takes (t := .init ch.kind p ch.dwSize) rfl hfresh htakes
    exact hinit.perm (List.Perm.swap _ _ _)
  | init k p dwSize =>
    rw [init_pools, List.append_nil]
    exact h.relabel rfl
  | write k p =>
    rw [write_pools, List.append_nil]
    exact h.relabel rfl
  | release k p pools es hgives => exact h.gives rfl hgives

theorem Turn.roomy (hturn : Turn m t ch m' new es) (h : Pools.Sound evs m.pools (t :: rest))
    (hfits : t = .caller → m.fits ch.kind ch.dwSize = true) (hr : ∀ u ∈ t :: rest, m.Roomy u) :
    ∀ u ∈ new ++ rest, m'.Roomy u := by
  have hrest (u : PoolTask) (hu : u ∈ rest) : m.Roomy u := hr u (List.mem_cons_of_mem t hu)
  have ht : m.Roomy t := hr t List.mem_cons_self
  cases hturn with
  | allocate p pools es hfresh htakes hheader hz =>
    have hinit := h.takes (t := .init ch.kind p ch.dwSize) rfl hfresh htakes
    intro u hu
    simp only [List.cons_append, List.nil_append, List.mem_cons] at hu
    rcases hu with rfl | rfl | hu
    · trivial
    · exact takes_room h hfresh htakes hheader (hfits rfl)
    · apply Agree.roomy _ (hrest u hu)
      intro o ho
      have hne := hinit.others rfl (List.mem_cons_of_mem _ hu) o ho
      exact ⟨takes_heap htakes hne, (hz _ hne).rsock, (hz _ hne).bobj⟩
  | init k p dwSize =>
    intro u hu
    rcases List.mem_cons.mp hu with rfl | hu
    · obtain ⟨n, hn, hle⟩ := ht
      refine ⟨n, ?_, ?_⟩
      · rw [init_pools]
        exact hn
      · rw [init_recorded]
        exact hle
    · apply Agree.roomy _ (hrest u hu)
      intro o ho
      exact init_agree (h.others rfl hu o ho)
  | write k p =>
    intro u hu
    rcases List.mem_cons.mp hu with rfl | hu
    · obtain ⟨n, hn, hle⟩ := ht
      refine ⟨n, ?_, ?_⟩
      · rw [write_pools]
        exact hn
      · rw [write_recorded]
        exact hle
    · apply Agree.roomy _ (hrest u hu)
      intro o ho
      exact write_agree (h.others rfl hu o ho)
  | release k p pools es hgives =>
    intro u hu
    apply Agree.roomy _ (hrest u hu)
    intro o ho
    exact ⟨gives_heap hgives (h.others rfl hu o ho), rfl, rfl⟩

/-- A block that does not fit is handed out all the same. -/
theorem fits_of_room {z : Memory} {c : HeapChoice}
    (htakes : Pools.Takes m.pools c p k (Pools.blockSize k dwSize) pools es)
    (hroom : Memory.HasRoom (init { z with pools } k p dwSize) k p) : m.fits k dwSize = true := by
  obtain ⟨n, hn, hle⟩ := hroom
  rw [init_pools] at hn
  rw [init_recorded] at hle
  unfold fits
  cases htakes with
  | reuse v hpool =>
    change m.pools.heap p = _ at hn
    rw [hpool]
    dsimp only
    rw [hn]
    exact decide_eq_true hle
  | fresh hpool | freshSock _ hpool => rw [hpool]

theorem start_sound {rsock : Addr → RecvSock} {bobj : Addr → BufferObj} :
    Pools.Sound [] (start rsock bobj).shared.pools (start rsock bobj).tasks where
  owned := by
    constructor
    · exact List.nodup_nil
    · intro k p
      constructor
      · intro hmem
        exact absurd hmem List.not_mem_nil
      · rintro ⟨n, hn⟩
        exact absurd hn nofun
  bounded k := Nat.zero_le _
  blocks _ := rfl
  lists _ := rfl
  ofBlock _ _ := nofun
  ofList _ _ := nofun

/-- A turn of the allocators, and what the monitor has seen after it. -/
theorem fitting_next {all : Bool} (h : fitting.next all m t ch = true) :
    all = true ∧ (t = .caller → m.fits ch.kind ch.dwSize = true) := by
  cases t with
  | caller =>
    obtain ⟨hall, hfits⟩ := (Bool.and_eq_true _ _).mp h
    exact ⟨hall, fun _ => hfits⟩
  | init | user => exact ⟨h, nofun⟩

end Step

/-- Whatever sizes are asked for, no object has two users, is in a pool while it is used, or is
freed twice. And if every allocation found a block that fits, every object that was handed out has
room for as many bytes as it says. -/
theorem pools_sound {rsock : Addr → RecvSock} {bobj : Addr → BufferObj} {evs : List PoolEvent}
    {conf : Conf (Memory × Bool) PoolTask}
    (h : Run (machine.watched fitting) ((start rsock bobj).watch true) evs conf) :
    Pools.Sound evs conf.shared.1.pools conf.tasks ∧
      (conf.shared.2 = true → ∀ k p, .user k p ∈ conf.tasks → conf.shared.1.HasRoom k p) := by
  have hinv : Pools.Sound evs conf.shared.1.pools conf.tasks ∧
      (conf.shared.2 = true → ∀ u ∈ conf.tasks, conf.shared.1.Roomy u) := by
    apply h.invariant fun evs conf => Pools.Sound evs conf.shared.1.pools conf.tasks ∧
      (conf.shared.2 = true → ∀ u ∈ conf.tasks, conf.shared.1.Roomy u)
    · refine ⟨start_sound, ?_⟩
      intro _ u hu
      rw [List.mem_singleton.mp hu]
      trivial
    · rintro evs conf es conf' ⟨hsound, hroomy⟩ hstep
      cases hstep with
      | turn hp hallowed hstep =>
        obtain ⟨_, hstep, hnext⟩ := watched_step hstep
        have hturn := step_turn hallowed hstep
        have hfirst := hsound.perm hp
        refine ⟨hturn.sound hfirst, ?_⟩
        intro hall
        rw [hnext] at hall
        obtain ⟨hbefore, hfits⟩ := fitting_next hall
        apply hturn.roomy hfirst hfits
        intro u hu
        exact hroomy hbefore u (hp.mem_iff.mpr hu)
  refine ⟨hinv.1, ?_⟩
  intro hall k p hmem
  exact hinv.2 hall _ hmem

/-- Each kind of object is asked for with one size. -/
def sized (size : Kind → DWORD) : Monitor Unit Memory PoolTask PoolChoice where
  next _ _ _ _ := ()
  permits _ _ t ch :=
    match t with
    | .caller => ch.dwSize == size ch.kind
    | _ => true

/-- The size of every block goes by its kind. -/
def Uniform (size : Kind → DWORD) (m : Pools) : Prop :=
  ∀ k p n, m.heap p = some (k, n) → n = (Pools.blockSize k (size k)).toNat

section Uniform

variable {size : Kind → DWORD} {m : Memory} {k : Kind} {p : Addr} {dwSize : DWORD}
  {evs es : List PoolEvent} {ts : List PoolTask} {pools : Pools}

theorem Uniform.takes (h : Uniform size m.pools) {c : HeapChoice}
    (htakes : Pools.Takes m.pools c p k (Pools.blockSize k (size k)) pools es) :
    Uniform size pools := by
  intro k' q n hq
  rcases eq_or_ne q p with rfl | hne
  · cases htakes with
    | reuse v hpool => exact h k' q n hq
    | fresh =>
      rw [heapAlloc_self, Option.some.injEq, Prod.mk.injEq] at hq
      rw [← hq.1, ← hq.2]
    | freshSock =>
      change (m.pools.heapAlloc .rsock q (Pools.blockSize .rsock (size .rsock))).heap q = _ at hq
      rw [heapAlloc_self, Option.some.injEq, Prod.mk.injEq] at hq
      rw [← hq.1, ← hq.2]
  · rw [takes_heap htakes hne] at hq
    exact h k' q n hq

theorem Uniform.gives (h : Uniform size m.pools) (hgives : Pools.Gives m.pools p k pools es) :
    Uniform size pools := by
  intro k' q n hq
  rcases eq_or_ne q p with rfl | hne
  · cases hgives with
    | keep hroom => exact h k' q n hq
    | freed | freedSock | freedNull =>
      have hfree : some (k', n) = none := hq.symm.trans (Function.update_self ..)
      contradiction
  · rw [gives_heap hgives hne] at hq
    exact h k' q n hq

theorem Uniform.turn {m' : Memory} {t : PoolTask} {ch : PoolChoice} {new : List PoolTask}
    (h : Uniform size m.pools) (hsized : (sized size).permits () m t ch = true)
    (hturn : Turn m t ch m' new es) : Uniform size m'.pools := by
  cases hturn with
  | allocate p pools es _ htakes _ _ =>
    rw [show ch.dwSize = size ch.kind from eq_of_beq hsized] at htakes
    exact h.takes htakes
  | init k p dwSize =>
    rw [init_pools]
    exact h
  | write k p =>
    rw [write_pools]
    exact h
  | release k p pools es hgives => exact h.gives hgives

theorem Uniform.fits (h : Uniform size m.pools) (hsound : Pools.Sound evs m.pools ts)
    (hk : dwSize = size k) (hheader : headerSize k ≤ dwSize) : m.fits k dwSize = true := by
  unfold Memory.fits
  cases hpool : m.pools.pool k with
  | nil => rfl
  | cons p v =>
    have hmem : (k, p) ∈ m.pools.pooled := by
      rw [Pools.mem_pooled, hpool]
      exact List.mem_cons_self
    obtain ⟨n, hn⟩ := (hsound.owned.known k p).mp (List.mem_append_left _ hmem)
    dsimp only
    rw [hn, h k p n hn, ← hk]
    exact decide_eq_true (fresh_room hheader)

end Uniform

/-- The code asks for every RECV_SOCK with `g_dwPagesize * 8` and for every BUFFER_OBJ with
`g_dwPagesize`. All of these have room for the size that they record. -/
theorem one_size_has_room {size : Kind → DWORD} {rsock : Addr → RecvSock} {bobj : Addr → BufferObj}
    {evs : List PoolEvent} {conf : Conf (Memory × Unit) PoolTask}
    (h : Run (machine.watched (sized size)) ((start rsock bobj).watch ()) evs conf) :
    ∀ k p, .user k p ∈ conf.tasks → conf.shared.1.HasRoom k p := by
  have hinv : Pools.Sound evs conf.shared.1.pools conf.tasks ∧
      Uniform size conf.shared.1.pools ∧ ∀ u ∈ conf.tasks, conf.shared.1.Roomy u := by
    apply h.invariant fun evs conf => Pools.Sound evs conf.shared.1.pools conf.tasks ∧
      Uniform size conf.shared.1.pools ∧ ∀ u ∈ conf.tasks, conf.shared.1.Roomy u
    · refine ⟨start_sound, nofun, ?_⟩
      intro u hu
      rw [List.mem_singleton.mp hu]
      trivial
    · rintro evs conf es conf' ⟨hsound, hsize, hroomy⟩ hstep
      cases hstep with
      | turn hp hallowed hstep =>
        obtain ⟨hpermits, hstep, _⟩ := watched_step hstep
        have hturn := step_turn hallowed hstep
        have hfirst := hsound.perm hp
        refine ⟨hturn.sound hfirst, hsize.turn hpermits hturn, ?_⟩
        apply hturn.roomy hfirst
        · rintro rfl
          exact hsize.fits hsound (eq_of_beq hpermits) hallowed.2.2
        · intro u hu
          exact hroomy u (hp.mem_iff.mpr hu)
  intro k p hmem
  exact hinv.2.2 _ hmem

instance (m : Memory) (ch : PoolChoice) : Decidable (machine.allowed m ch) :=
  inferInstanceAs (Decidable (_ ∧ _ ∧ _))

def blank : Conf Memory PoolTask := start (fun _ => RecvSock.zeroed) (fun _ => BufferObj.zeroed)

/-- An allocation that would get `p` and `l` from the heap. -/
def takes (k : Kind) (dwSize : DWORD) (p l : Addr) : PoolChoice :=
  ⟨k, dwSize, ⟨some p, some l⟩, false, RecvSock.zeroed, BufferObj.zeroed⟩

def gives (p l : Addr) : PoolChoice := { takes .robj 0 p l with release := true }

theorem sock_reused : ∃ evs conf,
    Run (machine.watched fitting) (blank.watch true) evs conf ∧
      conf.tasks = [.user .rsock 1, .caller] ∧
      Pools.Sound evs conf.shared.1.pools conf.tasks ∧ conf.shared.1.HasRoom .rsock 1 := by
  have hplay : (play (machine.watched fitting) (blank.watch true)
      [(0, takes .rsock 32768 1 1), (1, gives 2 2), (0, gives 2 2),
        (0, takes .rsock 32768 2 2), (1, gives 2 2)]).map
      (fun r => (r.2.tasks, r.2.shared.2)) = some ([.user .rsock 1, .caller], true) := by
    decide +kernel
  obtain ⟨evs, conf, hrun, hres⟩ := play_reaches hplay
  rw [Prod.mk.injEq] at hres
  obtain ⟨hsound, hroom⟩ := pools_sound hrun
  refine ⟨evs, conf, hrun, hres.1, hsound, ?_⟩
  apply hroom hres.2
  rw [hres.1]
  exact List.mem_cons_self

/-- An object of 100 bytes is given back, and the next allocation gets it for 4096. -/
theorem small_block_reused : ∃ evs conf, Run machine blank evs conf ∧
    .user .bobj 1 ∈ conf.tasks ∧ ¬conf.shared.HasRoom .bobj 1 := by
  have hplay : (play machine blank
      [(0, takes .bobj 100 1 1), (1, gives 2 2), (0, gives 2 2),
        (0, takes .bobj 4096 2 2), (1, gives 2 2)]).map
      (fun r => (r.2.tasks, r.2.shared.pools.heap 1, r.2.shared.recorded .bobj 1)) =
        some ([.user .bobj 1, .caller], some (.bobj, 100), 4009) := by
    decide +kernel
  obtain ⟨evs, conf, hrun, hres⟩ := play_reaches hplay
  rw [Prod.mk.injEq, Prod.mk.injEq] at hres
  rcases hres with ⟨htasks, hheap, hrecorded⟩
  dsimp only at htasks hheap hrecorded
  refine ⟨evs, conf, hrun, ?_, ?_⟩
  · rw [htasks]
    exact List.mem_cons_self
  · rintro ⟨n, hn, hle⟩
    rw [hheap, Option.some.injEq, Prod.mk.injEq] at hn
    rw [hrecorded, ← hn.2] at hle
    change 84+4009 ≤ 100 at hle
    omega

end Memory

end CustomersCard
