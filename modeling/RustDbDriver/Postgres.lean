import RustDbDriver.Binding
import RustDbDriver.ClientRows
import RustDbDriver.PostgresTls

/-!
# Queries to PostgreSQL

`PostgresDriver::query` takes a connection from the pool, prepares the statement, runs it with its parameters and
converts all rows. Each of these steps may fail, the last one at a cell (`query_eq_error_iff`), and a call of
`postgres_query` fails for no other reason than that and for want of a pool (`postgresQuery_delivers`).
-/

namespace RustDbDriver
open Lib RemoteVTab

/-- A pool and the connections it hands out, as the queries of one call meet them: what `get` comes to for query
`i`, and what its connection makes of a statement. Errors are their texts. -/
structure PgPool where
  get : Nat → Except String Unit
  prepare : Nat → String → Except String Unit
  query : Nat → String → List Param → Except String (ClientTable PgColumn)

namespace PostgresDriver

variable (chrono : Chrono)

/-- `PostgresDriver::query`. -/
def driver (pool : PgPool) : DbDriver where
  query i sql params := do
    (pool.get i).mapError .pool
    (pool.prepare i sql).mapError .backend
    let t ← (pool.query i sql (toPgParams chrono params)).mapError .backend
    pgRows t.columns t.rows

/-- Why a query fails: it gets no connection, the server refuses its text or its parameters, or a cell cannot be
converted, of which the first one is reported. -/
inductive Fails (pool : PgPool) (i : Nat) (p : Partition) : DbError → Prop where
  | get {text : String} : pool.get i = .error text → Fails pool i p (.pool text)
  | prepare {text : String} : pool.get i = .ok () → pool.prepare i p.sql = .error text →
    Fails pool i p (.backend text)
  | query {text : String} : pool.get i = .ok () → pool.prepare i p.sql = .ok () →
    pool.query i p.sql (toPgParams chrono p.params) = .error text → Fails pool i p (.backend text)
  | cell {t : ClientTable PgColumn} {front rest : List (PgColumn × Cell)} {c : PgColumn} {cell : Cell}
      {e : DbError} :
    pool.get i = .ok () → pool.prepare i p.sql = .ok () →
    pool.query i p.sql (toPgParams chrono p.params) = .ok t →
    t.rows.flatMap t.columns.zip = front ++ (c, cell) :: rest →
    (∀ x ∈ front, ∃ v, pgColToValue x.2 x.1.type = .ok v) → pgColToValue cell c.type = .error e → Fails pool i p e

theorem query_eq_error_iff {pool : PgPool} {i : Nat} {p : Partition} {err : DbError} :
    (driver chrono pool).query i p.sql p.params = .error err ↔ Fails chrono pool i p err := by
  show ((pool.get i).mapError DbError.pool).bind (fun _ => ((pool.prepare i p.sql).mapError DbError.backend).bind
    fun _ => ((pool.query i p.sql (toPgParams chrono p.params)).mapError DbError.backend).bind
      fun t => pgRows t.columns t.rows) = _ ↔ _
  simp only [bind_eq_error_iff, mapError_eq_error_iff, mapError_eq_ok_iff]
  constructor
  · rintro (⟨text, hget, rfl⟩ |
      ⟨⟨⟩, hget, ⟨text, hprepare, rfl⟩ | ⟨⟨⟩, hprepare, ⟨text, hquery, rfl⟩ | ⟨t, hquery, h⟩⟩⟩)
    · exact .get hget
    · exact .prepare hget hprepare
    · exact .query hget hprepare hquery
    · obtain ⟨front, c, cell, rest, hsplit, hfront, hcell⟩ := mapM_rowToRow_eq_error_iff.mp h
      exact .cell hget hprepare hquery hsplit hfront hcell
  · rintro (hget | ⟨hget, hprepare⟩ | ⟨hget, hprepare, hquery⟩ | ⟨hget, hprepare, hquery, hsplit, hfront, hcell⟩)
    · exact .inl ⟨_, hget, rfl⟩
    · exact .inr ⟨(), hget, .inl ⟨_, hprepare, rfl⟩⟩
    · exact .inr ⟨(), hget, .inr ⟨(), hprepare, .inl ⟨_, hquery, rfl⟩⟩⟩
    · refine .inr ⟨(), hget, .inr ⟨(), hprepare, .inr ⟨_, hquery, ?_⟩⟩⟩
      exact mapM_rowToRow_eq_error_iff.mpr ⟨_, _, _, _, hsplit, hfront, hcell⟩

end PostgresDriver

namespace PostgresConnector

/-- What `PostgresDriver::connect` comes to for a connection string. -/
def connected (createPool : PgPoolConfig → PgTls → Except String PgPool) (connStr : String)
    (maxConnections : UInt32) : Except String PgPool :=
  (PostgresDriver.connect createPool (config connStr maxConnections)).mapError toString

/-- A call of `postgres_query`, on any parameters and whenever its queries come to their results: it fails because
its pool cannot be created or a query fails, or DuckDB reads the rows the call is about, once each, in the columns
of the base query, or without any column where there are no rows. -/
theorem postgresQuery_delivers (chrono : Chrono) (createPool : PgPoolConfig → PgTls → Except String PgPool)
    (parseUuid : String → Option Uuid) (fuel : Nat) (hfuel : 2 ^ 32 ≤ fuel) (bind : BindInfo) (base : BaseResult)
    (cols : List Column) (hcols : ∀ r ∈ base.rows, r.columns = cols)
    (hanswers : ∀ pool, connected createPool bind.connStr (maxConnections (bind.planned parseUuid)) = .ok pool →
      bind.Answered parseUuid Backend.postgres.uuidOrder base (PostgresDriver.driver chrono pool))
    (connect : BackendConnector) (hconnect : connect.Runs (PostgresDriver.driver chrono) (connected createPool)) :
    let connection := connected createPool bind.connStr (maxConnections (bind.planned parseUuid))
    (∃ text, RemoteVTab.bind parseUuid fuel connect bind = some (.error text) ∧
      ConnectorFails connection (PostgresDriver.Fails chrono) (bind.planned parseUuid) text) ∨
    ∃ bound, RemoteVTab.bind parseUuid fuel connect bind = some (.ok bound) ∧
      (∀ text, ¬ ConnectorFails connection (PostgresDriver.Fails chrono) (bind.planned parseUuid) text) ∧
      Delivers bound cols (bind.wanted parseUuid Backend.postgres.uuidOrder base) :=
  delivers_of_answers hfuel (BindInfo.noStepsBack_of_ne_mssql .postgres nofun base) hcols
    (fun _ _ _ _ => PostgresDriver.query_eq_error_iff chrono) hanswers hconnect

/-! ### A table of two rows -/

def idTable : ClientTable PgColumn where
  columns := [⟨"id", "int8", .int8⟩]
  rows := [[.of .i64 (1 : Int64)], [.of .i64 (2 : Int64)]]
  rect := by simp

def idPool : PgPool := ⟨fun _ => .ok (), fun _ _ => .ok (), fun _ _ _ => .ok idTable⟩

/-- The rows of the table, as the result of the base query. -/
def idResult : BaseResult where
  rows := [⟨[⟨"id", "int8", true⟩], [.int64 1]⟩, ⟨[⟨"id", "int8", true⟩], [.int64 2]⟩]
  intKey _ := none
  uuidKey _ := none

def wholeTable : BindInfo := { connStr := "host=db", query := "SELECT id FROM t" }

def idConnector : BackendConnector :=
  promptConnector (PostgresDriver.driver .gregorian) (connected fun _ _ => .ok idPool)

theorem postgresQuery_delivers_wholeTable :
    let connection := connected (fun _ _ => .ok idPool) "host=db" 1
    (∃ text, RemoteVTab.bind Uuid.read (2 ^ 32) idConnector wholeTable = some (.error text) ∧
      ConnectorFails connection (PostgresDriver.Fails .gregorian) [.new "SELECT id FROM t"] text) ∨
    ∃ bound, RemoteVTab.bind Uuid.read (2 ^ 32) idConnector wholeTable = some (.ok bound) ∧
      (∀ text, ¬ ConnectorFails connection (PostgresDriver.Fails .gregorian) [.new "SELECT id FROM t"] text) ∧
      Delivers bound [⟨"id", "int8", true⟩] (wholeTable.wanted Uuid.read Backend.postgres.uuidOrder idResult) := by
  refine postgresQuery_delivers .gregorian (fun _ _ => .ok idPool) Uuid.read (2 ^ 32) le_rfl wholeTable idResult
    [⟨"id", "int8", true⟩] ?_ ?_ idConnector (promptConnector_runs _ _)
  · intro r hr
    rcases List.mem_pair.mp hr with rfl | rfl <;> rfl
  · rintro pool hpool i p out hp hquery
    cases hpool
    obtain rfl := List.mem_singleton.mp (List.mem_of_getElem? hp)
    obtain rfl : idResult.rows = out := Except.ok.inj hquery
    exact .of_eq (by simp [BaseResult.answer, Partition.new, read_query, wholeTable])

end PostgresConnector
end RustDbDriver
