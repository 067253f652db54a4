import RustDbDriver.Lib.Collect
import RustDbDriver.ResultSets
import RustDbDriver.RoundTrip
import RustDbDriver.TableFunction

/-!
# Results of the clients in a table function

`pg_row_to_row` and `mysql_row_to_row` convert a row cell by cell, and `query` all rows of a result; `run_query`
does so for SQL Server. Whatever comes out of one result has one type in each column, so that `bind` declares
what `func` writes, and what DuckDB reads is what the client read: `postgres_transfers`, `mysql_transfers` and
`mssql_transfers`.
-/

namespace RustDbDriver
open Lib RemoteVTab

/-! ### Rows -/

section Rows

variable {κ : Type} (column : κ → Column) (convert : κ → Cell → Except DbError Value)

/-- What the two conversions of a row share. -/
def rowToRow (columns : List κ) (cells : List Cell) : Except DbError Row :=
  ((columns.zip cells).mapM fun (c, cell) => convert c cell).map fun values => ⟨columns.map column, values⟩

end Rows

structure PgColumn where
  name : String
  typeName : String
  type : PgType

def PgColumn.column (c : PgColumn) : Column := { name := c.name, typeName := c.typeName }

def pgRowToRow : List PgColumn → List Cell → Except DbError Row :=
  rowToRow PgColumn.column fun c cell => pgColToValue cell c.type

/-- The end of `PostgresDriver::query`. -/
def pgRows (columns : List PgColumn) (rows : List (List Cell)) : Except DbError (List Row) :=
  rows.mapM (pgRowToRow columns)

/-- A column by its name and the name of its type. -/
def mysqlColumn : String × String → Column := fun (name, typeName) => { name, typeName }

def mysqlRowToRow (toUppercase : String → String) : List (String × String) → List Cell → Except DbError Row :=
  rowToRow mysqlColumn fun (_, typeName) cell => mysqlColToValue toUppercase cell typeName

/-- The end of `MySqlDriver::query`. -/
def mysqlRows (toUppercase : String → String) (columns : List (String × String)) (rows : List (List Cell)) :
    Except DbError (List Row) :=
  rows.mapM (mysqlRowToRow toUppercase columns)

/-- A result of a client: every row has a cell for every column. -/
structure ClientTable (κ : Type) where
  columns : List κ
  rows : List (List Cell)
  rect : ∀ cells ∈ rows, cells.length = columns.length

/-! ### Cells -/

/-- The column type of the values of a Rust type. -/
def RustType.columnType : RustType → LogicalTypeId
  | .bool => .boolean
  | .i16 => .smallint
  | .i32 => .integer
  | .i64 => .bigint
  | .u64 => .ubigint
  | .f32 => .float
  | .f64 => .double
  | .bytes => .blob
  | _ => .varchar

theorem RustType.columnType_toValue (t : RustType) (x : t.Rep) : (t.toValue x).columnType = some t.columnType := by
  cases t <;> rfl

/-- What a client reads in a cell as a Rust type: NULL where it reads nothing. -/
def Cell.read (c : Cell) (t : RustType) : Value :=
  match c.tryGet t with
  | .ok (some x) => t.toValue x
  | _ => .null

namespace Cell

variable {c : Cell} {t : RustType} {v : Value}

theorem eq_read_of_get (h : c.get t = .ok v) : v = c.read t := by
  unfold get at h
  unfold read
  split
  · next x hx =>
    rw [hx] at h
    cases h
    rfl
  · next hnot =>
    cases hx : c.tryGet t with
    | error e =>
      rw [hx] at h
      cases h
    | ok x =>
      cases x with
      | some x => exact absurd hx (hnot x)
      | none =>
        rw [hx] at h
        cases h
        rfl

theorem getOrNull_eq_read (c : Cell) (t : RustType) : c.getOrNull t = .ok (c.read t) := by
  unfold getOrNull read
  cases c.tryGet t with
  | error e => rfl
  | ok x => cases x <;> rfl

theorem columnType_read (h : (c.read t).isNull = false) : (c.read t).columnType = some t.columnType := by
  unfold read at h ⊢
  split
  · next x _ => exact t.columnType_toValue x
  · next hnot =>
    split at h
    · next x hx => exact absurd hx (hnot x)
    · cases h

end Cell

/-- The Rust type that a column of PostgreSQL is read as: a type with no arm of its own is read as text. -/
def PgType.readAs (ty : PgType) : RustType := ty.rustType.getD .string

theorem pgColToValue_eq_read {cell : Cell} {ty : PgType} {v : Value} (h : pgColToValue cell ty = .ok v) :
    v = cell.read ty.readAs := by
  unfold PgType.readAs
  cases hty : ty.rustType with
  | some t =>
    rw [pgColToValue_eq hty] at h
    exact Cell.eq_read_of_get h
  | none =>
    cases ty with
    | other oid => exact Except.ok.inj (h.symm.trans (cell.getOrNull_eq_read .string))
    | _ => cases hty

/-! ### Typed rows -/

/-- Rows with a value for every column, which has the column's type unless it is NULL. -/
structure TypedRows (columns : List (Column × LogicalTypeId)) (rows : List Row) : Prop where
  columns_eq : ∀ r ∈ rows, r.columns = columns.map Prod.fst
  width : ∀ r ∈ rows, r.values.length = columns.length
  typed : ∀ r ∈ rows, ∀ i v, r.get i = some v → v.isNull = false →
    ∃ c ltype, columns[i]? = some (c, ltype) ∧ v.columnType = some ltype

/-- The type that column `i` of a table is declared with, where its values have type `ltype`: nothing is known of
a column that is NULL in all rows. -/
def declaredType (table : List (List Value)) (i : Nat) (ltype : LogicalTypeId) : LogicalTypeId :=
  if table.any (fun values => (values[i]?).any fun v => !v.isNull) then ltype else .varchar

/-- DuckDB gets a table: its columns are declared with their types, every value is written in the layout that was
declared for it, and a scan of all there is reads the table. Of a table without rows no column is declared. -/
structure Bound.Transfers (fmt : Display) (bound : Bound) (columns : List (Column × LogicalTypeId))
    (table : List (List Value)) : Prop where
  declared : bound.columns =
    if table.isEmpty then [] else columns.mapIdx fun i (c, ltype) => (c.name, declaredType table i ltype)
  written : bound.WritesDeclared fmt
  read : ∀ n, (table.length + 2047) / 2048 ≤ n →
    ∃ chunks pos, calls fmt bound.data n init = some (chunks, pos) ∧
      chunks.flatMap DataChunk.rows = table.map (List.map fun v => some (v.shown fmt))

section Typed

variable {columns : List (Column × LogicalTypeId)} {rows : List Row} {i : Nat} {c : Column} {ltype : LogicalTypeId}

theorem inferColType_eq (h : ∀ row ∈ rows, ∀ v, row.get i = some v → v.isNull = false → v.columnType = some ltype) :
    inferColType rows i = declaredType (rows.map Row.values) i ltype := by
  unfold declaredType
  induction rows with
  | nil => rfl
  | cons row rows ih =>
    have hrest := ih fun row' hrow' => h row' (List.mem_cons_of_mem _ hrow')
    rw [List.map_cons, List.any_cons]
    unfold inferColType
    show _ = if ((row.get i).any fun v => !v.isNull) || _ then _ else _
    cases hget : row.get i with
    | none => simpa using hrest
    | some v =>
      cases hv : v.isNull with
      | true => simpa [hv, Value.columnType_eq_none_iff.mpr hv] using hrest
      | false => simp [hv, h row List.mem_cons_self v hget hv]

namespace TypedRows

/-- A column is declared by its type, unless all of it is NULL. -/
theorem inferColType_column (h : TypedRows columns rows) (hcol : columns[i]? = some (c, ltype)) :
    inferColType rows i = declaredType (rows.map Row.values) i ltype := by
  refine inferColType_eq ?_
  intro row hrow v hget hv
  obtain ⟨c', ltype', hcol', htype⟩ := h.typed row hrow i v hget hv
  rw [hcol] at hcol'
  cases hcol'
  exact htype

theorem writesDeclared (h : TypedRows columns rows) (fmt : Display) : (bindRows rows).WritesDeclared fmt := by
  intro i name ltype hcol row hrow v hget hv
  obtain ⟨-, rfl⟩ := columns_bindRows hcol
  obtain ⟨c, ltype, hcolumn, htype⟩ := h.typed row hrow i v hget hv
  have hsome : (rows.map Row.values).any (fun values => (values[i]?).any fun v => !v.isNull) = true := by
    refine List.any_eq_true.mpr ⟨row.values, List.mem_map_of_mem hrow, ?_⟩
    rw [show row.values[i]? = some v from hget]
    simp [hv]
  rw [physical_writeValue, htype, h.inferColType_column hcolumn, declaredType, if_pos hsome]
  rfl

theorem columns_bindRows (h : TypedRows columns rows) :
    (bindRows rows).columns =
      if (rows.map Row.values).isEmpty then []
      else columns.mapIdx fun i (c, ltype) => (c.name, declaredType (rows.map Row.values) i ltype) := by
  cases rows with
  | nil => rfl
  | cons row rows =>
    have hrow := h.columns_eq row List.mem_cons_self
    rw [if_neg (by simp)]
    refine List.ext_getElem (by simp [bindRows, Row.columnCount, hrow]) ?_
    intro i h₁ h₂
    have hi : i < columns.length := by simpa using h₂
    have htype := h.inferColType_column (List.getElem?_eq_getElem hi)
    simp [bindRows, hrow, hi, htype]

theorem transfers (h : TypedRows columns rows) (fmt : Display) :
    (bindRows rows).Transfers fmt columns (rows.map Row.values) where
  declared := h.columns_bindRows
  written := h.writesDeclared fmt
  read n hn := by
    rw [List.length_map] at hn
    obtain ⟨chunks, hcalls, hchunks⟩ := exists_chunks h.columns_eq fmt hn
    refine ⟨chunks, _, hcalls, ?_⟩
    rw [hchunks, List.map_map]
    refine List.map_congr_left ?_
    intro row hrow
    have hwidth := h.width row hrow
    refine List.ext_getElem (by simp [project, hwidth]) ?_
    intro i h₁ h₂
    have hi : i < row.values.length := by simpa using h₂
    simp [project, Row.get, hi]

end TypedRows
end Typed

/-! ### Rows of cells -/

section ReadRows

variable {κ : Type} {column : κ → Column} {convert : κ → Cell → Except DbError Value} {rust : κ → RustType}
  {columns : List κ} {rows : List (List Cell)} {cells : List Cell}

/-- The row that a client reads, each column as one Rust type. -/
def readRow (column : κ → Column) (rust : κ → RustType) (columns : List κ) (cells : List Cell) : Row :=
  ⟨columns.map column, (columns.zip cells).map fun (c, cell) => cell.read (rust c)⟩

theorem rowToRow_eq_readRow (hread : ∀ c cell v, convert c cell = .ok v → v = cell.read (rust c)) {row : Row}
    (h : rowToRow column convert columns cells = .ok row) : row = readRow column rust columns cells := by
  unfold rowToRow at h
  cases hvalues : (columns.zip cells).mapM fun (c, cell) => convert c cell with
  | error e =>
    rw [hvalues] at h
    cases h
  | ok values =>
    rw [hvalues] at h
    cases h
    rw [eq_map_of_mapM hvalues fun x _ v hv => hread x.1 x.2 v hv]
    rfl

theorem rowToRow_eq_error_iff {e : DbError} : rowToRow column convert columns cells = .error e ↔
    (columns.zip cells).mapM (fun (c, cell) => convert c cell) = .error e := by
  unfold rowToRow
  cases (columns.zip cells).mapM fun (c, cell) => convert c cell <;> simp [Except.map]

/-- Converting the rows fails with the error of the first cell, row by row, that cannot be converted. -/
theorem mapM_rowToRow_eq_error_iff {e : DbError} :
    rows.mapM (rowToRow column convert columns) = .error e ↔
      ∃ front c cell rest, rows.flatMap columns.zip = front ++ (c, cell) :: rest ∧
        (∀ x ∈ front, ∃ v, convert x.1 x.2 = .ok v) ∧ convert c cell = .error e := by
  have hrows : rows.mapM (rowToRow column convert columns) = .error e ↔
      (rows.map columns.zip).mapM (fun xs => xs.mapM fun (c, cell) => convert c cell) = .error e := by
    rw [mapM_eq_error_iff, List.mapM_map, mapM_eq_error_iff]
    have hok (cells : List Cell) : (∃ row, rowToRow column convert columns cells = .ok row) ↔
        ∃ values, (columns.zip cells).mapM (fun (c, cell) => convert c cell) = .ok values := by
      unfold rowToRow
      cases (columns.zip cells).mapM fun (c, cell) => convert c cell <;> simp [Except.map]
    simp only [hok, rowToRow_eq_error_iff, Function.comp_apply]
  rw [hrows, mapM_mapM_eq_error_iff, mapM_eq_error_iff, List.flatMap_def]
  constructor
  · rintro ⟨front, ⟨c, cell⟩, rest, h⟩
    exact ⟨front, c, cell, rest, h⟩
  · rintro ⟨front, c, cell, rest, h⟩
    exact ⟨front, (c, cell), rest, h⟩

theorem typed_readRows (column : κ → Column) (rust : κ → RustType)
    (hrect : ∀ cells ∈ rows, cells.length = columns.length) :
    TypedRows (columns.map fun c => (column c, (rust c).columnType))
      (rows.map (readRow column rust columns)) where
  columns_eq := by
    rintro r hr
    obtain ⟨cells, -, rfl⟩ := List.mem_map.mp hr
    simp [readRow]
  width := by
    rintro r hr
    obtain ⟨cells, hcells, rfl⟩ := List.mem_map.mp hr
    simp [readRow, hrect cells hcells]
  typed := by
    rintro r hr i v hget hv
    obtain ⟨cells, -, rfl⟩ := List.mem_map.mp hr
    simp only [Row.get, readRow, List.getElem?_map, Option.map_eq_some_iff] at hget
    obtain ⟨⟨c, cell⟩, hzip, rfl⟩ := hget
    refine ⟨column c, (rust c).columnType, ?_, Cell.columnType_read hv⟩
    rw [List.getElem?_map, (List.getElem?_zip_eq_some.mp hzip).1]
    rfl

end ReadRows

namespace ClientTable

variable {κ : Type} (column : κ → Column) (rust : κ → RustType)

/-- The values that a client reads in a result. -/
def values (t : ClientTable κ) : List (List Value) :=
  t.rows.map fun cells => (t.columns.zip cells).map fun (c, cell) => cell.read (rust c)

def typedColumns (t : ClientTable κ) : List (Column × LogicalTypeId) :=
  t.columns.map fun c => (column c, (rust c).columnType)

theorem transfers_readRows (t : ClientTable κ) (fmt : Display) :
    (bindRows (t.rows.map (readRow column rust t.columns))).Transfers fmt (t.typedColumns column rust)
      (t.values rust) := by
  have h := (typed_readRows column rust t.rect).transfers fmt
  rwa [List.map_map] at h

end ClientTable

/-- A result of PostgreSQL, whatever its columns and cells: `query` fails with the error of the first cell, row
by row, that cannot be converted, or DuckDB gets what the client read, in columns of its types, of which none is
declared where there are no rows. -/
theorem postgres_transfers (fmt : Display) (t : ClientTable PgColumn) :
    (∃ front c cell rest e, t.rows.flatMap t.columns.zip = front ++ (c, cell) :: rest ∧
      (∀ x ∈ front, ∃ v, pgColToValue x.2 x.1.type = .ok v) ∧ pgColToValue cell c.type = .error e ∧
      pgRows t.columns t.rows = .error e) ∨
    ∃ out, pgRows t.columns t.rows = .ok out ∧
      (bindRows out).Transfers fmt (t.typedColumns PgColumn.column fun c => c.type.readAs)
        (t.values fun c => c.type.readAs) := by
  unfold pgRows pgRowToRow
  cases hout : t.rows.mapM (rowToRow PgColumn.column (fun c cell => pgColToValue cell c.type) t.columns) with
  | error e =>
    obtain ⟨front, c, cell, rest, hsplit, hfront, hcell⟩ := mapM_rowToRow_eq_error_iff.mp hout
    exact .inl ⟨front, c, cell, rest, e, hsplit, hfront, hcell, rfl⟩
  | ok out =>
    have hread : out = t.rows.map (readRow PgColumn.column (fun c => c.type.readAs) t.columns) := by
      refine eq_map_of_mapM hout fun _ _ _ => rowToRow_eq_readRow ?_
      intro c cell v hv
      exact pgColToValue_eq_read hv
    rw [hread]
    exact .inr ⟨_, rfl, t.transfers_readRows _ _ fmt⟩

/-- The Rust type that a column of MySQL is read as. -/
def mysqlReadAs (toUppercase : String → String) : String × String → RustType :=
  fun (_, typeName) => mysqlRustType (toUppercase typeName)

/-- A cell that the client fails on is a NULL, and no error. -/
theorem mysqlRows_eq (toUppercase : String → String) (columns : List (String × String)) (rows : List (List Cell)) :
    mysqlRows toUppercase columns rows =
      .ok (rows.map (readRow mysqlColumn (mysqlReadAs toUppercase) columns)) := by
  unfold mysqlRows mysqlRowToRow
  cases hout : rows.mapM (rowToRow mysqlColumn
      (fun (_, typeName) cell => mysqlColToValue toUppercase cell typeName) columns) with
  | error e =>
    obtain ⟨front, ⟨name, typeName⟩, cell, rest, -, -, hcell⟩ := mapM_rowToRow_eq_error_iff.mp hout
    exact nomatch (cell.getOrNull_eq_read _).symm.trans hcell
  | ok out =>
    refine congrArg Except.ok (eq_map_of_mapM hout fun _ _ _ => rowToRow_eq_readRow ?_)
    rintro ⟨name, typeName⟩ cell v hv
    exact Except.ok.inj (hv.symm.trans (cell.getOrNull_eq_read _))

/-- A result of MySQL, whatever its columns and cells: DuckDB gets what the client read, in columns of its types,
and NULL where the client failed; where there are no rows it gets no column. -/
theorem mysql_transfers (fmt : Display) (toUppercase : String → String) (t : ClientTable (String × String)) :
    ∃ out, mysqlRows toUppercase t.columns t.rows = .ok out ∧
      (bindRows out).Transfers fmt (t.typedColumns mysqlColumn (mysqlReadAs toUppercase))
        (t.values (mysqlReadAs toUppercase)) :=
  ⟨_, mysqlRows_eq toUppercase t.columns t.rows, t.transfers_readRows _ _ fmt⟩

/-! ### Rows of SQL Server -/

/-- The column type of the values of a column. -/
def ColumnKind.columnType : ColumnKind → LogicalTypeId
  | .u8 => .utinyint
  | .i16 => .smallint
  | .i32 => .integer
  | .i64 => .bigint
  | .f32 => .float
  | .f64 => .double
  | .numeric => .double
  | .bit => .boolean
  | .binary => .blob
  | _ => .varchar

/-- The value that a cell stands for: nothing for NULL and for XML; a number, text, a UUID or bytes as they are,
where a decimal is its digits over a power of ten; a date or time as the client decodes it, and nothing where
the client fails. -/
inductive ColumnData.StandsFor (fromSql : FromSql) : ColumnData → Value → Prop where
  | null {data : ColumnData} : data.isNull = true → StandsFor fromSql data .null
  | xml {x : Option String} : StandsFor fromSql (.xml x) .null
  | u8 {n : UInt8} : StandsFor fromSql (.u8 (some n)) (.uint8 n)
  | i16 {n : Int16} : StandsFor fromSql (.i16 (some n)) (.int16 n)
  | i32 {n : Int32} : StandsFor fromSql (.i32 (some n)) (.int32 n)
  | i64 {n : Int64} : StandsFor fromSql (.i64 (some n)) (.int64 n)
  | f32 {x : Float32} : StandsFor fromSql (.f32 (some x)) (.float32 x)
  | f64 {x : Float} : StandsFor fromSql (.f64 (some x)) (.float64 x)
  | bit {b : Bool} : StandsFor fromSql (.bit (some b)) (.bool b)
  | string {s : String} : StandsFor fromSql (.string (some s)) (.text s)
  | guid {g : Uuid} : StandsFor fromSql (.guid (some g)) (.uuid g)
  | binary {b : List UInt8} : StandsFor fromSql (.binary (some b)) (.bytes b)
  | numeric {n : Numeric} :
    StandsFor fromSql (.numeric (some n)) (.float64 (i128AsF64 n.value / powi 10 n.scale))
  | dateTime {x : Int32 × UInt32} {dt : NaiveDateTime} :
    fromSql.naiveDateTime (.dateTime (some x)) = .ok (some dt) →
      StandsFor fromSql (.dateTime (some x)) (.dateTime dt)
  | smallDateTime {x : UInt16 × UInt16} {dt : NaiveDateTime} :
    fromSql.naiveDateTime (.smallDateTime (some x)) = .ok (some dt) →
      StandsFor fromSql (.smallDateTime (some x)) (.dateTime dt)
  | dateTime2 {x : UInt32 × TdsTime} {dt : NaiveDateTime} :
    fromSql.naiveDateTime (.dateTime2 (some x)) = .ok (some dt) →
      StandsFor fromSql (.dateTime2 (some x)) (.dateTime dt)
  | date {x : UInt32} {d : NaiveDate} :
    fromSql.naiveDate (.date (some x)) = .ok (some d) → StandsFor fromSql (.date (some x)) (.date d)
  | time {x : TdsTime} {t : NaiveTime} :
    fromSql.naiveTime (.time (some x)) = .ok (some t) → StandsFor fromSql (.time (some x)) (.time t)
  | dateTimeOffset {x : UInt32 × TdsTime × Int16} {dt : DateTimeUtc} :
    fromSql.dateTimeUtc (.dateTimeOffset (some x)) = .ok (some dt) →
      StandsFor fromSql (.dateTimeOffset (some x)) (.dateTimeUtc dt)
  | undecoded {data : ColumnData} : ¬ data.Converts fromSql → StandsFor fromSql data .null

theorem ColumnData.columnDataToValue_null (fromSql : FromSql) {data : ColumnData} (h : data.isNull = true) :
    columnDataToValue fromSql data = .null := by
  cases data with
  | xml x => rfl
  | u8 x | i16 x | i32 x | i64 x | f32 x | f64 x | bit x | string x | guid x | binary x | numeric x
  | dateTime x | smallDateTime x | date x | time x | dateTime2 x | dateTimeOffset x =>
    cases x with
    | none => rfl
    | some x => cases h

theorem eq_null_of_isNull {v : Value} (h : v.isNull = true) : v = .null := by
  cases v with
  | null => rfl
  | _ => cases h

theorem ColumnData.columnDataToValue_undecoded {fromSql : FromSql} {data : ColumnData}
    (h : ¬ data.Converts fromSql) : columnDataToValue fromSql data = .null := by
  cases hdata : data.isNull with
  | true => exact columnDataToValue_null fromSql hdata
  | false =>
    have hnull := mt (columnDataToValue_not_null_iff fromSql hdata).mp h
    exact eq_null_of_isNull (by simpa using hnull)

theorem ColumnData.standsFor_of_converts {fromSql : FromSql} {data : ColumnData} (hdata : data.isNull = false)
    (h : data.Converts fromSql) : data.StandsFor fromSql (columnDataToValue fromSql data) := by
  cases data with
  | xml x => exact .xml
  | u8 x | i16 x | i32 x | i64 x | f32 x | f64 x | bit x | string x | guid x | binary x | numeric x =>
    cases x with
    | none => cases hdata
    | some x => constructor
  | dateTime x | smallDateTime x | date x | time x | dateTime2 x | dateTimeOffset x =>
    cases x with
    | none => cases hdata
    | some x =>
      obtain ⟨y, hy⟩ := h
      simp only [columnDataToValue, okSomeOrNull, hy]
      constructor
      exact hy

/-- The conversion of a cell makes the value that the cell stands for, which is one only. -/
theorem ColumnData.standsFor_iff (fromSql : FromSql) {data : ColumnData} {v : Value} :
    data.StandsFor fromSql v ↔ v = columnDataToValue fromSql data := by
  constructor
  · intro h
    cases h with
    | null h => exact (columnDataToValue_null fromSql h).symm
    | undecoded h => exact (columnDataToValue_undecoded h).symm
    | dateTime h | smallDateTime h | dateTime2 h | date h | time h | dateTimeOffset h =>
      simp only [columnDataToValue, okSomeOrNull, h]
    | _ => rfl
  · rintro rfl
    by_cases h : data.Converts fromSql
    · cases hdata : data.isNull with
      | true => exact columnDataToValue_null fromSql hdata ▸ .null hdata
      | false => exact standsFor_of_converts hdata h
    · exact columnDataToValue_undecoded h ▸ .undecoded h

theorem columnType_columnDataToValue (fromSql : FromSql) {data : ColumnData}
    (h : (columnDataToValue fromSql data).isNull = false) :
    (columnDataToValue fromSql data).columnType = some data.kind.columnType := by
  cases data with
  | u8 x | i16 x | i32 x | i64 x | f32 x | f64 x | bit x | string x | guid x | binary x | numeric x =>
    cases x with
    | none => cases h
    | some x => rfl
  | xml x => cases h
  | dateTime x | smallDateTime x | date x | time x | dateTime2 x | dateTimeOffset x =>
    cases x with
    | none => cases h
    | some x => exact columnType_okSomeOrNull .varchar (fun _ => rfl) h

namespace ResultSet

def typedColumns (rs : ResultSet) : List (Column × LogicalTypeId) :=
  rs.columns.map fun c => (⟨c.name, c.typeName, true⟩, c.kind.columnType)

/-- A table of the values that the cells of a result set stand for. -/
def StandsFor (fromSql : FromSql) (rs : ResultSet) (table : List (List Value)) : Prop :=
  List.Forall₂ (List.Forall₂ (ColumnData.StandsFor fromSql)) rs.rows table

theorem standsFor_iff (fromSql : FromSql) (rs : ResultSet) {table : List (List Value)} :
    rs.StandsFor fromSql table ↔ table = rs.rows.map (List.map (columnDataToValue fromSql)) :=
  forall₂_iff_map fun _ _ => forall₂_iff_map fun _ _ => ColumnData.standsFor_iff fromSql

theorem typed_toRows (fromSql : FromSql) (rs : ResultSet) : TypedRows rs.typedColumns (rs.toRows fromSql) where
  columns_eq := by
    rintro r hr
    obtain ⟨cells, -, rfl⟩ := List.mem_map.mp hr
    simp [toRow, typedColumns]
  width := by
    rintro r hr
    obtain ⟨cells, hcells, rfl⟩ := List.mem_map.mp hr
    simpa [toRow, typedColumns] using congrArg List.length (rs.typed cells hcells)
  typed := by
    rintro r hr i v hget hv
    obtain ⟨cells, hcells, rfl⟩ := List.mem_map.mp hr
    simp only [Row.get, toRow, List.getElem?_map, Option.map_eq_some_iff] at hget
    obtain ⟨data, hdata, rfl⟩ := hget
    -- the cell is of the kind of its column
    have hkind := congrArg (·[i]?) (rs.typed cells hcells)
    simp only [List.getElem?_map, hdata, Option.map_some] at hkind
    obtain ⟨m, hm, hmk⟩ := Option.map_eq_some_iff.mp hkind.symm
    refine ⟨⟨m.name, m.typeName, true⟩, m.kind.columnType, ?_, ?_⟩
    · rw [typedColumns, List.getElem?_map, hm]
      rfl
    · rw [columnType_columnDataToValue fromSql hv, hmk]

end ResultSet

theorem foldlM_step_error (fromSql : FromSql) (items : List QueryItem) (e : DbError)
    (rest : List (Except DbError QueryItem)) (s : Reading) :
    (items.map Except.ok ++ Except.error e :: rest).foldlM (Reading.step fromSql) s = .error e := by
  induction items generalizing s with
  | nil => rfl
  | cons item items ih =>
    rw [List.map_cons, List.cons_append, List.foldlM_cons]
    cases item <;> exact ih _

/-- A result set of SQL Server, whatever its columns and cells: `run_query` fails with the error of the stream, if
it has one, however many rows came before it; otherwise DuckDB gets the values that the cells stand for, in
columns of their types, of which none is declared where there are no rows. -/
theorem mssql_transfers (fmt : Display) (fromSql : FromSql) (rs : ResultSet) :
    (∃ out table, runQuery fromSql (ResultSet.stream [rs]) = .ok out ∧ rs.StandsFor fromSql table ∧
      (bindRows out).Transfers fmt rs.typedColumns table) ∧
    ∀ (items : List QueryItem) (e : DbError) (rest : List (Except DbError QueryItem)),
      runQuery fromSql (items.map .ok ++ .error e :: rest) = .error e := by
  refine ⟨⟨_, _, ResultSet.runQuery_eq fromSql [rs], (ResultSet.standsFor_iff fromSql rs).mpr rfl, ?_⟩, ?_⟩
  · have h := (rs.typed_toRows fromSql).transfers fmt
    rw [List.flatMap_singleton]
    rwa [ResultSet.toRows, List.map_map] at h
  · intro items e rest
    rw [runQuery, foldlM_step_error]
    rfl

end RustDbDriver
