import CustomersCardMS.Interleaving

/-! The MySQL connections of the server: db_connect, and db_init, db_alloc and db_free cut
where a thread is outside the critical section. -/
namespace CustomersCard
open Interleaving

abbrev MysqlPtr := ℕ

/-- What a MYSQL object has been through. -/
structure Mysql where
  connected : Bool
  gbk : Bool

/-- The results of the MySQL calls, and what a caller does next. -/
structure MysqlChoice where
  mysqlInit : Option MysqlPtr
  mysqlRealConnect : Bool
  mysqlSetCharacterSet : ℤ
  mysqlPing : ℤ
  call : Bool

inductive DbTask
  -- Calls db_init and db_alloc at any time.
  | caller
  -- The worker threads, which start when db_init has returned.
  | worker
  | dbInit
  | fill (n : ℕ)
  | dbAlloc
  | ping (pMysql : MysqlPtr)
  | close (pMysql : MysqlPtr)
  | reconnect
  | giveUp
  -- A caller of db_alloc has the connection, and may call db_free.
  | held (pMysql : MysqlPtr)
  deriving DecidableEq

/-- db_alloc returns NULL: whether the limit was reached, and whether a MySQL call failed. -/
inductive DbEvent
  | null (limit failed : Bool)
  deriving DecidableEq

structure Db where
  -- The back of the vector comes first.
  v_db : List MysqlPtr
  g_nCurrentLinkNumber : ℤ
  mysql : MysqlPtr → Mysql
  -- The MYSQL objects of mysql_init that mysql_close has not got back.
  opened : List MysqlPtr

def MysqlChoice.failed (o : MysqlChoice) : Bool :=
  o.mysqlInit.isNone || !o.mysqlRealConnect || o.mysqlSetCharacterSet != 0

/-- mysql_init or mysql_real_connect returns NULL. -/
def MysqlChoice.failsEarly (o : MysqlChoice) : Bool := o.mysqlInit.isNone || !o.mysqlRealConnect

namespace Db

def DB_LINK_MAX : ℤ := 50

def DB_LINK_MIN : ℕ := 10

def mysqlInit (d : Db) (pMysql : MysqlPtr) : Db :=
  { d with
    opened := pMysql :: d.opened
    mysql := Function.update d.mysql pMysql ⟨false, false⟩ }

def mysqlClose (d : Db) (pMysql : MysqlPtr) : Db := { d with opened := d.opened.erase pMysql }

def setConnected (d : Db) (pMysql : MysqlPtr) : Db :=
  { d with mysql := Function.update d.mysql pMysql { d.mysql pMysql with connected := true } }

def setGbk (d : Db) (pMysql : MysqlPtr) : Db :=
  { d with mysql := Function.update d.mysql pMysql { d.mysql pMysql with gbk := true } }

def dbConnect (d : Db) (o : MysqlChoice) : Option MysqlPtr × Db :=
  match o.mysqlInit with
  | none => (none, d)
  | some pMysql =>
    let d := d.mysqlInit pMysql
    if !o.mysqlRealConnect then (none, d.mysqlClose pMysql)
    else
      let d := d.setConnected pMysql
      -- `!mysql_set_character_set(..)` is true when the call has returned 0.
      if o.mysqlSetCharacterSet = 0 then (none, (d.setGbk pMysql).mysqlClose pMysql)
      else (some pMysql, d)

abbrev Outcome := Except Empty (Db × List DbTask × List DbEvent)

def pushBack (d : Db) (pMysql : MysqlPtr) : Db := { d with v_db := pMysql :: d.v_db }

def count (d : Db) (n : ℤ) : Db := { d with g_nCurrentLinkNumber := d.g_nCurrentLinkNumber+n }

def step (d : Db) : DbTask → MysqlChoice → Outcome
  | .caller, o => .ok (d, [.caller, if o.call then .dbInit else .dbAlloc], [])
  | .worker, _ => .ok (d, [.worker, .dbAlloc], [])
  -- The loop of db_init. A connection that fails is left out, and the workers start in any case.
  | .dbInit, _ => .ok ({ d with v_db := [] }, [.fill DB_LINK_MIN], [])
  | .fill 0, _ => .ok (d, [.worker], [])
  | .fill (n+1), o =>
    match d.dbConnect o with
    | (none, d) => .ok (d, [.fill n], [])
    | (some pMysql, d) => .ok ((d.pushBack pMysql).count 1, [.fill n], [])
  -- The critical section of db_alloc, with db_connect under it where the vector is empty.
  | .dbAlloc, o =>
    match d.v_db with
    | [] =>
      if d.g_nCurrentLinkNumber < DB_LINK_MAX then
        match d.dbConnect o with
        | (none, d) => .ok (d, [], [.null false o.failed])
        | (some pMysql, d) => .ok (d.count 1, [.held pMysql], [])
      else .ok (d, [], [.null true false])
    | pMysql :: v_db => .ok ({ d with v_db }, [.ping pMysql], [])
  -- mysql_ping, mysql_close and the second db_connect are outside of it, and the count goes down in
  -- a critical section of its own.
  | .ping pMysql, o => .ok (d, [if o.mysqlPing ≠ 0 then .close pMysql else .held pMysql], [])
  | .close pMysql, _ => .ok (d.mysqlClose pMysql, [.reconnect], [])
  | .reconnect, o =>
    match d.dbConnect o with
    | (none, d) => .ok (d, [.giveUp], [])
    | (some pMysql, d) => .ok (d, [.held pMysql], [])
  | .giveUp, _ => .ok (d.count (-1), [], [.null false true])
  | .held pMysql, o =>
    if o.call then .ok (d.pushBack pMysql, [], []) else .ok (d, [.held pMysql], [])

/-- mysql_init returns an object that is not in use. -/
def machine : Machine Db DbTask MysqlChoice DbEvent Empty where
  step := step
  allowed d o := ∀ pMysql ∈ o.mysqlInit, pMysql ∉ d.opened

instance (d : Db) (o : MysqlChoice) : Decidable (machine.allowed d o) :=
  inferInstanceAs (Decidable (∀ pMysql ∈ o.mysqlInit, pMysql ∉ d.opened))

def fresh : Db := ⟨[], 0, fun _ => ⟨false, false⟩, []⟩

/-- Everything db_connect can do: a failure leaves the pool as it was, and a connection that is
returned does not have the character set. -/
inductive Connects (d : Db) (o : MysqlChoice) : Option MysqlPtr × Db → Prop
  | null (d' : Db) : o.failsEarly = true ∨ o.mysqlSetCharacterSet = 0 → d'.v_db = d.v_db →
      d'.g_nCurrentLinkNumber = d.g_nCurrentLinkNumber → d'.opened = d.opened →
      Connects d o (none, d')
  | opened (pMysql : MysqlPtr) (d' : Db) : o.failsEarly = false → o.mysqlSetCharacterSet ≠ 0 →
      o.mysqlInit = some pMysql → d'.v_db = d.v_db →
      d'.g_nCurrentLinkNumber = d.g_nCurrentLinkNumber → d'.opened = pMysql :: d.opened →
      (d'.mysql pMysql).gbk = false → Connects d o (some pMysql, d')

theorem dbConnect_connects (d : Db) (o : MysqlChoice) : Connects d o (d.dbConnect o) := by
  unfold dbConnect
  cases hinit : o.mysqlInit with
  | none =>
    apply Connects.null d
    · left
      simp [MysqlChoice.failsEarly, hinit]
    all_goals rfl
  | some pMysql =>
    dsimp only
    cases hreal : o.mysqlRealConnect with
    | false =>
      refine Connects.null _ (Or.inl ?_) rfl rfl ?_
      · simp [MysqlChoice.failsEarly, hreal]
      · exact List.erase_cons_head ..
    | true =>
      by_cases hset : o.mysqlSetCharacterSet = 0
      · rw [if_neg (by simp), if_pos hset]
        refine Connects.null _ (Or.inr hset) rfl rfl ?_
        exact List.erase_cons_head ..
      · rw [if_neg (by simp), if_neg hset]
        refine Connects.opened pMysql _ ?_ hset hinit rfl rfl rfl ?_
        · simp [MysqlChoice.failsEarly, hinit, hreal]
        · simp [setConnected, mysqlInit]

end Db

end CustomersCard
