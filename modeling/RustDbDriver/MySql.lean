import RustDbDriver.Binding
import RustDbDriver.ClientRows
import RustDbDriver.MySqlTls

/-!
# Queries to MySQL

`MySqlDriver::query` binds the parameters, fetches all rows of the statement on a connection of the client's pool,
and converts them. The client may refuse a parameter and fail a statement, but no conversion fails
(`query_eq_error_iff`), and a call of `mysql_query` fails for no other reason than these and for want of a pool
(`mysqlQuery_delivers`).
-/

namespace RustDbDriver
open Lib RemoteVTab

/-- The errors of the client, as far as the driver tells them apart. -/
inductive SqlxError where
  | poolTimedOut
  | poolClosed
  | configuration (msg : String)
  | other (text : String)
deriving DecidableEq, Repr

def DbError.ofSqlx : SqlxError → DbError
  | .poolTimedOut => .timeout
  | .poolClosed => .pool "pool closed"
  | .configuration msg => .config msg
  | .other text => .backend text

/-- A pool of the client: what it takes as an argument, and what each of the statements dispatched together comes
to on one of its connections. -/
structure MySqlPool where
  add : Param → Except String Unit
  fetchAll : Nat → String → List Param → Except SqlxError (ClientTable (String × String))

theorem addMysqlArg_eq_error_iff {add : Param → Except String Unit} {v : Value} {e : DbError} :
    addMysqlArg add v = .error e ↔ ∃ text, add (mysqlArg v) = .error text ∧ e = .query text := by
  unfold addMysqlArg
  cases add (mysqlArg v) with
  | error text => simp [eq_comm]
  | ok u => simp

/-- Binding fails with the error of the first value that the client refuses. -/
theorem buildMysqlArgs_eq_error_iff {add : Param → Except String Unit} {params : List Value} {e : DbError} :
    buildMysqlArgs add params = .error e ↔
      ∃ front v rest text, params = front ++ v :: rest ∧ (∀ x ∈ front, ¬ Refuses add x) ∧
        add (mysqlArg v) = .error text ∧ e = .query text := by
  have hok (v : Value) : (∃ arg, addMysqlArg add v = .ok arg) ↔ ¬ Refuses add v := by
    simp [addMysqlArg_eq_ok_iff]
  unfold buildMysqlArgs
  rw [mapM_eq_error_iff]
  simp only [hok, addMysqlArg_eq_error_iff]
  constructor
  · rintro ⟨front, v, rest, hsplit, hfront, text, h⟩
    exact ⟨front, v, rest, text, hsplit, hfront, h⟩
  · rintro ⟨front, v, rest, text, hsplit, hfront, h⟩
    exact ⟨front, v, rest, hsplit, hfront, text, h⟩

namespace MySqlDriver

/-- `connectWith` is the builder of the client's pool. -/
def connect (client : MySqlClient)
    (connectWith : PoolConfig → MySqlConnectOptions client.Others → Except SqlxError MySqlPool)
    (config : DatabaseConfig) : Except DbError MySqlPool := do
  let opts ← buildMysqlOpts client config
  (connectWith config.pool opts).mapError .ofSqlx

variable (toUppercase : String → String)

/-- `MySqlDriver::query`. -/
def driver (pool : MySqlPool) : DbDriver where
  query i sql params := do
    let args ← buildMysqlArgs pool.add params
    let t ← (pool.fetchAll i sql args).mapError .ofSqlx
    mysqlRows toUppercase t.columns t.rows

/-- Why a query fails: the client refuses an argument, of which the first one is reported, or the statement with
its arguments. A cell that the client fails on is no reason. -/
inductive Fails (pool : MySqlPool) (i : Nat) (p : Partition) : DbError → Prop where
  | argument {front rest : List Value} {v : Value} {text : String} :
    p.params = front ++ v :: rest → (∀ x ∈ front, ¬ Refuses pool.add x) → pool.add (mysqlArg v) = .error text →
    Fails pool i p (.query text)
  | fetch {e : SqlxError} : (∀ x ∈ p.params, ¬ Refuses pool.add x) →
    pool.fetchAll i p.sql (p.params.map mysqlArg) = .error e → Fails pool i p (.ofSqlx e)

theorem query_eq_error_iff {pool : MySqlPool} {i : Nat} {p : Partition} {err : DbError} :
    (driver toUppercase pool).query i p.sql p.params = .error err ↔ Fails pool i p err := by
  show (buildMysqlArgs pool.add p.params).bind (fun args =>
    ((pool.fetchAll i p.sql args).mapError DbError.ofSqlx).bind fun t => mysqlRows toUppercase t.columns t.rows) =
      _ ↔ _
  simp only [bind_eq_error_iff, mapError_eq_error_iff, mapError_eq_ok_iff, buildMysqlArgs_eq_error_iff,
    buildMysqlArgs_eq_ok_iff]
  constructor
  · rintro (⟨front, v, rest, text, hsplit, hfront, hadd, rfl⟩ | ⟨args, ⟨rfl, hall⟩, ⟨e, hfetch, rfl⟩ | ⟨t, -, h⟩⟩)
    · exact .argument hsplit hfront hadd
    · exact .fetch hall hfetch
    · -- no conversion fails
      exact nomatch (mysqlRows_eq toUppercase t.columns t.rows).symm.trans h
  · rintro (⟨hsplit, hfront, hadd⟩ | ⟨hall, hfetch⟩)
    · exact .inl ⟨_, _, _, _, hsplit, hfront, hadd, rfl⟩
    · exact .inr ⟨_, ⟨rfl, hall⟩, .inl ⟨_, hfetch, rfl⟩⟩

end MySqlDriver

namespace MySqlConnector

/-- What `MySqlDriver::connect` comes to for a connection string. -/
def connected (client : MySqlClient)
    (connectWith : PoolConfig → MySqlConnectOptions client.Others → Except SqlxError MySqlPool) (connStr : String)
    (maxConnections : UInt32) : Except String MySqlPool :=
  (MySqlDriver.connect client connectWith (config connStr maxConnections)).mapError toString

/-- A call of `mysql_query`, on any parameters and whenever its queries come to their results: it fails because
its pool cannot be opened or the client fails a query, or DuckDB reads the rows the call is about, once each, in
the columns of the base query, or without any column where there are no rows. No cell makes it fail. -/
theorem mysqlQuery_delivers (client : MySqlClient)
    (connectWith : PoolConfig → MySqlConnectOptions client.Others → Except SqlxError MySqlPool)
    (toUppercase : String → String) (parseUuid : String → Option Uuid) (fuel : Nat) (hfuel : 2 ^ 32 ≤ fuel)
    (bind : BindInfo) (base : BaseResult) (cols : List Column) (hcols : ∀ r ∈ base.rows, r.columns = cols)
    (hanswers : ∀ pool,
      connected client connectWith bind.connStr (maxConnections (bind.planned parseUuid)) = .ok pool →
      bind.Answered parseUuid Backend.mysql.uuidOrder base (MySqlDriver.driver toUppercase pool))
    (connect : BackendConnector)
    (hconnect : connect.Runs (MySqlDriver.driver toUppercase) (connected client connectWith)) :
    let connection := connected client connectWith bind.connStr (maxConnections (bind.planned parseUuid))
    (∃ text, RemoteVTab.bind parseUuid fuel connect bind = some (.error text) ∧
      ConnectorFails connection MySqlDriver.Fails (bind.planned parseUuid) text) ∨
    ∃ bound, RemoteVTab.bind parseUuid fuel connect bind = some (.ok bound) ∧
      (∀ text, ¬ ConnectorFails connection MySqlDriver.Fails (bind.planned parseUuid) text) ∧
      Delivers bound cols (bind.wanted parseUuid Backend.mysql.uuidOrder base) :=
  delivers_of_answers hfuel (BindInfo.noStepsBack_of_ne_mssql .mysql nofun base) hcols
    (fun _ _ _ _ => MySqlDriver.query_eq_error_iff toUppercase) hanswers hconnect

/-! ### Two items of a shop, the second without a price -/

def itemTable : ClientTable (String × String) where
  columns := [("price", "BIGINT")]
  rows := [[.of .i64 (7 : Int64)], [.null]]
  rect := by simp

def itemPool : MySqlPool := ⟨fun _ => .ok (), fun _ _ _ => .ok itemTable⟩

/-- The rows of the items, as the result of the base query. -/
def itemResult : BaseResult where
  rows := [⟨[⟨"price", "BIGINT", true⟩], [.int64 7]⟩, ⟨[⟨"price", "BIGINT", true⟩], [.null]⟩]
  intKey _ := none
  uuidKey _ := none

def wholeShop : BindInfo := { connStr := "mysql://app@db/shop", query := "SELECT price FROM item" }

def itemConnector : BackendConnector :=
  promptConnector (MySqlDriver.driver toAsciiUppercase) (connected shopClient fun _ _ => .ok itemPool)

theorem mysqlQuery_delivers_wholeShop :
    let connection := connected shopClient (fun _ _ => .ok itemPool) "mysql://app@db/shop" 1
    (∃ text, RemoteVTab.bind Uuid.read (2 ^ 32) itemConnector wholeShop = some (.error text) ∧
      ConnectorFails connection MySqlDriver.Fails [.new "SELECT price FROM item"] text) ∨
    ∃ bound, RemoteVTab.bind Uuid.read (2 ^ 32) itemConnector wholeShop = some (.ok bound) ∧
      (∀ text, ¬ ConnectorFails connection MySqlDriver.Fails [.new "SELECT price FROM item"] text) ∧
      Delivers bound [⟨"price", "BIGINT", true⟩] (wholeShop.wanted Uuid.read Backend.mysql.uuidOrder itemResult) := by
  refine mysqlQuery_delivers shopClient (fun _ _ => .ok itemPool) toAsciiUppercase Uuid.read (2 ^ 32) le_rfl
    wholeShop itemResult [⟨"price", "BIGINT", true⟩] ?_ ?_ itemConnector (promptConnector_runs _ _)
  · intro r hr
    rcases List.mem_pair.mp hr with rfl | rfl <;> rfl
  · rintro pool hpool i p out hp hquery
    cases hpool
    obtain rfl := List.mem_singleton.mp (List.mem_of_getElem? hp)
    obtain rfl : itemResult.rows = out := Except.ok.inj hquery
    exact .of_eq (by simp [BaseResult.answer, Partition.new, read_query, wholeShop])

end MySqlConnector
end RustDbDriver
