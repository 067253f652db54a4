import RustDbDriver.Row

/-!
# From database cells to values

The three conversions to the unified `Value`. What the client crates make of a cell is an input: for
PostgreSQL and MySQL a `Cell` answers what `try_get` returns for every Rust type that may be asked of
it, for SQL Server a `ColumnData` is decoded already and `FromSql` makes dates and times of it.

A conversion that swallows the client's error turns a cell that is not NULL into `Value::Null`;
`convert_not_null_iff` says exactly when that does not happen.
-/

namespace RustDbDriver

/-! ### Cells -/

inductive RustType where
  | bool
  | i16
  | i32
  | i64
  | u64
  | f32
  | f64
  | string
  | bytes
  | naiveDate
  | naiveTime
  | naiveDateTime
  | dateTimeUtc
  | uuid
  | json
deriving DecidableEq, Repr

namespace RustType

def Rep : RustType → Type
  | .bool => Bool
  | .i16 => Int16
  | .i32 => Int32
  | .i64 => Int64
  | .u64 => UInt64
  | .f32 => Float32
  | .f64 => Float
  | .string => String
  | .bytes => List UInt8
  | .naiveDate => NaiveDate
  | .naiveTime => NaiveTime
  | .naiveDateTime => NaiveDateTime
  | .dateTimeUtc => DateTimeUtc
  | .uuid => Uuid
  | .json => Json

def toValue : (t : RustType) → t.Rep → Value
  | .bool => .bool
  | .i16 => .int16
  | .i32 => .int32
  | .i64 => .int64
  | .u64 => .uint64
  | .f32 => .float32
  | .f64 => .float64
  | .string => .text
  | .bytes => .bytes
  | .naiveDate => .date
  | .naiveTime => .time
  | .naiveDateTime => .dateTime
  | .dateTimeUtc => .dateTimeUtc
  | .uuid => .uuid
  | .json => .json

theorem isNull_toValue (t : RustType) (v : t.Rep) : (t.toValue v).isNull = false := by
  cases t <;> rfl

end RustType

/-- A cell of a row: `tryGet t` is what `try_get::<Option<T>>` returns, with the client's error as the
`DbError` it becomes. The clients answer `Ok(None)` for NULL only. -/
structure Cell where
  isNull : Bool
  tryGet : (t : RustType) → Except DbError (Option t.Rep)
  isNull_of_none : ∀ t, tryGet t = .ok none → isNull = true

namespace Cell

/-- `let v: Option<T> = row.try_get(i)?; Ok(v.map(…).unwrap_or(Value::Null))` -/
def get (c : Cell) (t : RustType) : Except DbError Value :=
  (c.tryGet t).map fun v => (v.map t.toValue).getD .null

/-- `let v: Option<T> = row.try_get(i).unwrap_or(None); Ok(v.map(…).unwrap_or(Value::Null))` -/
def getOrNull (c : Cell) (t : RustType) : Except DbError Value :=
  let v := ((c.tryGet t).toOption).getD none
  .ok ((v.map t.toValue).getD .null)

variable {c : Cell} {t : RustType}

theorem tryGet_cases (hc : c.isNull = false) :
    (∃ v, c.tryGet t = .ok (some v)) ∨ ∃ e, c.tryGet t = .error e := by
  cases h : c.tryGet t with
  | error e => exact .inr ⟨e, rfl⟩
  | ok v =>
    cases v with
    | some v => exact .inl ⟨v, rfl⟩
    | none => rw [c.isNull_of_none t h] at hc; cases hc

theorem get_not_null (hc : c.isNull = false) {v : Value} (h : c.get t = .ok v) : v.isNull = false := by
  unfold get at h
  rcases tryGet_cases (t := t) hc with ⟨x, hx⟩ | ⟨e, he⟩
  · rw [hx] at h
    cases h
    exact t.isNull_toValue x
  · rw [he] at h
    cases h

/-- Swallowing the error is harmless exactly where there is none. -/
theorem getOrNull_not_null_iff (hc : c.isNull = false) :
    (∀ v, c.getOrNull t = .ok v → v.isNull = false) ↔ ∃ x, c.tryGet t = .ok (some x) := by
  unfold getOrNull
  rcases tryGet_cases (t := t) hc with ⟨x, hx⟩ | ⟨e, he⟩
  · rw [hx]
    refine iff_of_true ?_ ⟨x, rfl⟩
    rintro v ⟨⟩
    exact t.isNull_toValue x
  · rw [he]
    refine iff_of_false ?_ ?_
    · intro h
      have hnull := h .null rfl
      cases hnull
    · rintro ⟨x, hx⟩
      cases hx

end Cell

/-! ### PostgreSQL -/

/-- The column types that have an arm of their own, and all others by their OID. -/
inductive PgType where
  | bool
  | int2
  | int4
  | int8
  | float4
  | float8
  | text
  | varchar
  | bpchar
  | name
  | bytea
  | date
  | timestamp
  | timestamptz
  | uuid
  | json
  | jsonb
  | other (oid : Nat)
deriving DecidableEq, Repr

def pgColToValue (c : Cell) : PgType → Except DbError Value
  | .bool => c.get .bool
  | .int2 => c.get .i16
  | .int4 => c.get .i32
  | .int8 => c.get .i64
  | .float4 => c.get .f32
  | .float8 => c.get .f64
  | .text => c.get .string
  | .varchar => c.get .string
  | .bpchar => c.get .string
  | .name => c.get .string
  | .bytea => c.get .bytes
  | .date => c.get .naiveDate
  | .timestamp => c.get .naiveDateTime
  | .timestamptz => c.get .dateTimeUtc
  | .uuid => c.get .uuid
  | .json => c.get .json
  | .jsonb => c.get .json
  | .other _ => c.getOrNull .string

def PgType.HasArm : PgType → Prop
  | .other _ => False
  | _ => True

theorem pgColToValue_not_null_iff {c : Cell} (hc : c.isNull = false) (ty : PgType) :
    (∀ v, pgColToValue c ty = .ok v → v.isNull = false) ↔
      ty.HasArm ∨ ∃ s, c.tryGet .string = .ok (some s) := by
  cases ty with
  | other oid => simpa [PgType.HasArm, pgColToValue] using Cell.getOrNull_not_null_iff hc
  | _ => exact iff_of_true (fun v hv => Cell.get_not_null hc hv) (.inl trivial)

/-! ### MySQL -/

/-- `str::contains`. -/
def contains (s pattern : String) : Bool := decide (pattern.toList <:+: s.toList)

/-- The Rust type that is asked for, by the upper-cased name of the column's type. -/
def mysqlRustType (upper : String) : RustType :=
  if contains upper "INT" ∨ upper = "BIGINT" ∨ upper = "MEDIUMINT" then
    if contains upper "UNSIGNED" ∨ contains upper "TINY" then .u64 else .i64
  else if contains upper "FLOAT" then .f32
  else if contains upper "DOUBLE" ∨ contains upper "DECIMAL" ∨ contains upper "NUMERIC" then .f64
  else if contains upper "BOOL" ∨ contains upper "BIT" then .bool
  else if contains upper "DATETIME" ∨ contains upper "TIMESTAMP" then .naiveDateTime
  else if contains upper "DATE" then .naiveDate
  else if contains upper "TIME" then .naiveTime
  else if contains upper "BLOB" ∨ contains upper "BINARY" ∨ contains upper "VARBINARY" then .bytes
  else if contains upper "JSON" then .json
  else .string

/-- `toUppercase` is `str::to_uppercase`. -/
def mysqlColToValue (toUppercase : String → String) (c : Cell) (typeName : String) :
    Except DbError Value :=
  c.getOrNull (mysqlRustType (toUppercase typeName))

/-! #### By the column's type -/

inductive MySqlIntSize where
  | tiny
  | small
  | medium
  | int
  | big
deriving DecidableEq, Repr

namespace MySqlIntSize

def bits : MySqlIntSize → Nat
  | .tiny => 8
  | .small => 16
  | .medium => 24
  | .int => 32
  | .big => 64

def name : MySqlIntSize → String
  | .tiny => "TINYINT"
  | .small => "SMALLINT"
  | .medium => "MEDIUMINT"
  | .int => "INT"
  | .big => "BIGINT"

end MySqlIntSize

/-- An integer column; `widthOne` is the display width of `TINYINT(1)`. -/
structure MySqlIntType where
  size : MySqlIntSize
  unsigned : Bool
  widthOne : Bool
deriving DecidableEq, Repr

namespace MySqlIntType

/-- The type's name, as the client reports it: the width of `TINYINT(1)` comes before its signedness. -/
def name (ty : MySqlIntType) : String :=
  if ty.size = .tiny ∧ ty.widthOne then "BOOLEAN"
  else if ty.unsigned then ty.size.name ++ " UNSIGNED"
  else ty.size.name

end MySqlIntType

/-- The column types, as the client tells them apart; a `SET` is reported as a `CHAR`. -/
inductive MySqlType where
  | integer (ty : MySqlIntType)
  | float
  | double
  | decimal
  | bit
  | datetime
  | timestamp
  | date
  | time
  | year
  | char
  | varchar
  | enum
  | tinytext
  | text
  | mediumtext
  | longtext
  | binary
  | varbinary
  | tinyblob
  | blob
  | mediumblob
  | longblob
  | json
  | geometry
deriving DecidableEq, Repr

namespace MySqlType

/-- The type's name, as the client reports it. -/
def name : MySqlType → String
  | .integer ty => ty.name
  | .float => "FLOAT"
  | .double => "DOUBLE"
  | .decimal => "DECIMAL"
  | .bit => "BIT"
  | .datetime => "DATETIME"
  | .timestamp => "TIMESTAMP"
  | .date => "DATE"
  | .time => "TIME"
  | .year => "YEAR"
  | .char => "CHAR"
  | .varchar => "VARCHAR"
  | .enum => "ENUM"
  | .tinytext => "TINYTEXT"
  | .text => "TEXT"
  | .mediumtext => "MEDIUMTEXT"
  | .longtext => "LONGTEXT"
  | .binary => "BINARY"
  | .varbinary => "VARBINARY"
  | .tinyblob => "TINYBLOB"
  | .blob => "BLOB"
  | .mediumblob => "MEDIUMBLOB"
  | .longblob => "LONGBLOB"
  | .json => "JSON"
  | .geometry => "GEOMETRY"

/-- The Rust types that the client may decode a column of the type as. -/
def rustTypes : MySqlType → List RustType
  | .integer ty => if ty.unsigned then [.bool, .u64] else [.bool, .i16, .i32, .i64]
  | .float | .double => [.f32, .f64]
  | .decimal => []
  | .bit => [.bool, .u64]
  | .datetime | .timestamp => [.naiveDateTime, .dateTimeUtc]
  | .date => [.naiveDate]
  | .time => [.naiveTime]
  | .year => [.i16, .i32, .i64, .u64]
  | .char | .varchar | .enum | .tinytext | .text | .mediumtext | .longtext => [.string, .bytes, .uuid, .json]
  | .binary | .varbinary | .tinyblob | .blob | .mediumblob | .longblob => [.string, .bytes, .uuid, .json]
  | .json => [.string, .bytes, .json]
  | .geometry => [.bytes]

/-- The Rust type that is asked for. -/
def asked : MySqlType → RustType
  | .integer ty =>
    if ty.size = .tiny then (if ty.widthOne then .bool else .u64)
    else if ty.unsigned then .u64
    else .i64
  | .float => .f32
  | .double | .decimal => .f64
  | .bit => .bool
  | .datetime | .timestamp => .naiveDateTime
  | .date => .naiveDate
  | .time => .naiveTime
  | .binary | .varbinary | .tinyblob | .blob | .mediumblob | .longblob => .bytes
  | .json => .json
  | .year | .char | .varchar | .enum | .tinytext | .text | .mediumtext | .longtext | .geometry => .string

/-- The types whose columns the client decodes as what is asked for: not the signed `TINYINT`, which is
asked for as a `u64`, nor `DECIMAL`, `YEAR` and `GEOMETRY`. -/
def Served : MySqlType → Prop
  | .integer ty => ty.size = .tiny → ty.widthOne = true ∨ ty.unsigned = true
  | .decimal | .year | .geometry => False
  | _ => True

theorem served_of_mem {ty : MySqlType} (h : ty.asked ∈ ty.rustTypes) : ty.Served := by
  cases ty with
  | integer ty =>
    rcases ty with ⟨size, unsigned, widthOne⟩
    cases size <;> cases unsigned <;> cases widthOne <;> simp [asked, rustTypes, Served] at h ⊢
  | decimal | year | geometry => simp [asked, rustTypes] at h
  | _ => trivial

end MySqlType

/-- `str::to_uppercase` on the ASCII names that the client has for its types. -/
def toAsciiUppercase (s : String) : String := String.ofList (s.toList.map Char.toUpper)

/-- `str::to_uppercase` on the characters of ASCII. -/
def UppercasesAscii (toUppercase : String → String) : Prop :=
  ∀ s : String, (∀ c ∈ s.toList, c.toNat < 128) → toUppercase s = toAsciiUppercase s

/-- What the client documents of a cell in a column of type `ty`: it refuses every Rust type that is
not compatible with the column's. -/
def Cell.InColumn (c : Cell) (ty : MySqlType) : Prop :=
  ∀ t, t ∉ ty.rustTypes → ∃ e, c.tryGet t = .error e

section Column

variable {toUppercase : String → String} {ty : MySqlType} {c : Cell}

theorem mysqlRustType_name (hupper : UppercasesAscii toUppercase) :
    mysqlRustType (toUppercase ty.name) = ty.asked := by
  have hname : toUppercase ty.name = toAsciiUppercase ty.name := by
    apply hupper
    cases ty with
    | integer ty =>
      rcases ty with ⟨size, unsigned, widthOne⟩
      cases size <;> cases unsigned <;> cases widthOne <;>
        simp [MySqlType.name, MySqlIntType.name, MySqlIntSize.name]
    | _ => simp [MySqlType.name]
  rw [hname]
  cases ty with
  | integer ty =>
    rcases ty with ⟨size, unsigned, widthOne⟩
    cases size <;> cases unsigned <;> cases widthOne <;> decide
  | _ => decide

theorem mysqlColToValue_not_null_iff (hupper : UppercasesAscii toUppercase) (hcolumn : c.InColumn ty)
    (hc : c.isNull = false) :
    (∀ v, mysqlColToValue toUppercase c ty.name = .ok v → v.isNull = false) ↔
      ty.Served ∧ ∃ x, c.tryGet ty.asked = .ok (some x) := by
  unfold mysqlColToValue
  rw [mysqlRustType_name hupper, Cell.getOrNull_not_null_iff hc]
  refine ⟨fun h => ⟨?_, h⟩, fun h => h.2⟩
  obtain ⟨x, hx⟩ := h
  refine MySqlType.served_of_mem ?_
  by_contra hmem
  obtain ⟨e, he⟩ := hcolumn _ hmem
  rw [hx] at he
  cases he

end Column

/-! ### SQL Server -/

structure Numeric where
  value : Int
  scale : UInt8

/-- A time of day in increments of `10 ^ -scale` seconds. -/
structure TdsTime where
  increments : UInt64
  scale : UInt8

inductive ColumnData where
  | u8 (n : Option UInt8)
  | i16 (n : Option Int16)
  | i32 (n : Option Int32)
  | i64 (n : Option Int64)
  | f32 (x : Option Float32)
  | f64 (x : Option Float)
  | bit (b : Option Bool)
  | string (s : Option String)
  | guid (g : Option Uuid)
  | binary (b : Option (List UInt8))
  | numeric (n : Option Numeric)
  | xml (x : Option String)
  | dateTime (dt : Option (Int32 × UInt32))
  | smallDateTime (dt : Option (UInt16 × UInt16))
  | time (t : Option TdsTime)
  | date (d : Option UInt32)
  | dateTime2 (dt : Option (UInt32 × TdsTime))
  | dateTimeOffset (dt : Option (UInt32 × TdsTime × Int16))

structure FromSql where
  naiveDateTime : ColumnData → Except DbError (Option NaiveDateTime)
  naiveDate : ColumnData → Except DbError (Option NaiveDate)
  naiveTime : ColumnData → Except DbError (Option NaiveTime)
  dateTimeUtc : ColumnData → Except DbError (Option DateTimeUtc)

/-- `as f64` of an `i128`, to the nearest: the leading 64 bits, of which the last says whether a bit is
lost, are rounded once. -/
def i128AsF64 (n : Int) : Float :=
  let shift := n.natAbs.log2 - 63
  let lost := if n.natAbs % 2 ^ shift = 0 then 0 else 1
  let x := ((n.natAbs >>> shift) ||| lost).toUInt64.toFloat.scaleB shift
  if n < 0 then -x else x

/-- The loop of `f64::powi` for an exponent that is not negative: the square of `a` is multiplied in for
every bit of `b` that is set. -/
def powiLoop (a : Float) (b : Nat) (r : Float) : Float :=
  let r := if b % 2 = 1 then r * a else r
  if h : b / 2 = 0 then r else powiLoop (a * a) (b / 2) r
termination_by b
decreasing_by omega

/-- `f64::powi` of a decimal scale. -/
def powi (a : Float) (n : UInt8) : Float := powiLoop a n.toNat 1

/-- `match r { Ok(Some(x)) => wrap(x), _ => Value::Null }` -/
def okSomeOrNull {α : Type} (wrap : α → Value) : Except DbError (Option α) → Value
  | .ok (some x) => wrap x
  | _ => .null

def columnDataToValue (fromSql : FromSql) (data : ColumnData) : Value :=
  match data with
  | .u8 (some n) => .uint8 n
  | .i16 (some n) => .int16 n
  | .i32 (some n) => .int32 n
  | .i64 (some n) => .int64 n
  | .f32 (some x) => .float32 x
  | .f64 (some x) => .float64 x
  | .bit (some b) => .bool b
  | .string (some s) => .text s
  | .binary (some b) => .bytes b
  | .guid (some g) => .uuid g
  | .numeric (some n) => .float64 (i128AsF64 n.value / powi 10 n.scale)
  | .dateTime (some _) => okSomeOrNull .dateTime (fromSql.naiveDateTime data)
  | .smallDateTime (some _) => okSomeOrNull .dateTime (fromSql.naiveDateTime data)
  | .date (some _) => okSomeOrNull .date (fromSql.naiveDate data)
  | .time (some _) => okSomeOrNull .time (fromSql.naiveTime data)
  | .dateTime2 (some _) => okSomeOrNull .dateTime (fromSql.naiveDateTime data)
  | .dateTimeOffset (some _) => okSomeOrNull .dateTimeUtc (fromSql.dateTimeUtc data)
  | .u8 none | .i16 none | .i32 none | .i64 none | .f32 none | .f64 none | .bit none
  | .string none | .binary none | .guid none | .numeric none | .dateTime none
  | .smallDateTime none | .date none | .time none | .dateTime2 none | .dateTimeOffset none => .null
  | .xml _ => .null

namespace ColumnData

def isNull : ColumnData → Bool
  | .u8 n => n.isNone
  | .i16 n => n.isNone
  | .i32 n => n.isNone
  | .i64 n => n.isNone
  | .f32 x => x.isNone
  | .f64 x => x.isNone
  | .bit b => b.isNone
  | .string s => s.isNone
  | .guid g => g.isNone
  | .binary b => b.isNone
  | .numeric n => n.isNone
  | .xml x => x.isNone
  | .dateTime dt => dt.isNone
  | .smallDateTime dt => dt.isNone
  | .time t => t.isNone
  | .date d => d.isNone
  | .dateTime2 dt => dt.isNone
  | .dateTimeOffset dt => dt.isNone

/-- Whether the client makes a value of the cell: it makes none of XML, and the date and time types
go through its `FromSql`. -/
def Converts (fromSql : FromSql) (data : ColumnData) : Prop :=
  match data with
  | .xml _ => False
  | .dateTime _ | .smallDateTime _ | .dateTime2 _ => ∃ dt, fromSql.naiveDateTime data = .ok (some dt)
  | .date _ => ∃ d, fromSql.naiveDate data = .ok (some d)
  | .time _ => ∃ t, fromSql.naiveTime data = .ok (some t)
  | .dateTimeOffset _ => ∃ dt, fromSql.dateTimeUtc data = .ok (some dt)
  | _ => True

end ColumnData

theorem okSomeOrNull_not_null_iff {α : Type} {wrap : α → Value} (hwrap : ∀ x, (wrap x).isNull = false)
    (r : Except DbError (Option α)) :
    (okSomeOrNull wrap r).isNull = false ↔ ∃ x, r = .ok (some x) := by
  rcases r with e | _ | x
  · simp [okSomeOrNull, Value.isNull]
  · simp [okSomeOrNull, Value.isNull]
  · exact iff_of_true (hwrap x) ⟨x, rfl⟩

theorem columnDataToValue_not_null_iff (fromSql : FromSql) {data : ColumnData}
    (hdata : data.isNull = false) :
    (columnDataToValue fromSql data).isNull = false ↔ data.Converts fromSql := by
  cases data with
  | u8 x | i16 x | i32 x | i64 x | f32 x | f64 x | bit x | string x | guid x | binary x | numeric x =>
    cases x with
    | none => simp [ColumnData.isNull] at hdata
    | some x => exact iff_of_true rfl trivial
  | xml x => exact iff_of_false (by simp [columnDataToValue, Value.isNull]) id
  | dateTime x | smallDateTime x | date x | time x | dateTime2 x | dateTimeOffset x =>
    cases x with
    | none => simp [ColumnData.isNull] at hdata
    | some x => exact okSomeOrNull_not_null_iff (fun _ => rfl) _

/-- A cell that is not NULL becomes a value or an error, and not `Value::Null`, exactly if: on
PostgreSQL, its type has an arm of its own or the client decodes it as a string; on MySQL, the client
decodes it as the type that the column type's name asks for, which it does for no cell of a signed
`TINYINT`, `DECIMAL`, `YEAR` or `GEOMETRY` column; on SQL Server, the client makes a value of it. -/
theorem convert_not_null_iff (c : Cell) (ty : PgType) (toUppercase : String → String)
    (typeName : String) (column : MySqlType) (fromSql : FromSql) (data : ColumnData) :
    (c.isNull = false →
      ((∀ v, pgColToValue c ty = .ok v → v.isNull = false) ↔
        ty.HasArm ∨ ∃ s, c.tryGet .string = .ok (some s))) ∧
    (c.isNull = false →
      ((∀ v, mysqlColToValue toUppercase c typeName = .ok v → v.isNull = false) ↔
        ∃ x, c.tryGet (mysqlRustType (toUppercase typeName)) = .ok (some x))) ∧
    (UppercasesAscii toUppercase → c.InColumn column → c.isNull = false →
      ((∀ v, mysqlColToValue toUppercase c column.name = .ok v → v.isNull = false) ↔
        column.Served ∧ ∃ x, c.tryGet column.asked = .ok (some x))) ∧
    (data.isNull = false →
      ((columnDataToValue fromSql data).isNull = false ↔ data.Converts fromSql)) :=
  ⟨fun hc => pgColToValue_not_null_iff hc ty, fun hc => Cell.getOrNull_not_null_iff hc,
    mysqlColToValue_not_null_iff, columnDataToValue_not_null_iff fromSql⟩

/-- A `NUMERIC` of PostgreSQL: the client decodes it as no Rust type that is asked for. -/
def Cell.numeric : Cell where
  isNull := false
  tryGet _ := .error (.backend "error deserializing column 0")
  isNull_of_none _ h := by cases h

/-- The signed `TINYINT` -1 of MySQL: the client decodes it as an `i64`, not as a `u64`. -/
def Cell.tinyint : Cell where
  isNull := false
  tryGet
    | .i64 => .ok (some (-1 : Int64))
    | _ => .error (.backend "mismatched types")
  isNull_of_none t h := by cases t <;> cases h

def FromSql.failing : FromSql where
  naiveDateTime _ := .error (.backend "conversion error")
  naiveDate _ := .error (.backend "conversion error")
  naiveTime _ := .error (.backend "conversion error")
  dateTimeUtc _ := .error (.backend "conversion error")

/-- The `TINYINT` is read as a `BIGINT` of PostgreSQL, as no cell of its own column, and beside the bit
of an SQL Server. -/
theorem convert_not_null_tinyint :
    ((∀ v, pgColToValue .tinyint .int8 = .ok v → v.isNull = false) ↔
      PgType.int8.HasArm ∨ ∃ s, Cell.tinyint.tryGet .string = .ok (some s)) ∧
    ((∀ v, mysqlColToValue toAsciiUppercase .tinyint "TINYINT" = .ok v → v.isNull = false) ↔
      MySqlType.Served (.integer ⟨.tiny, false, false⟩) ∧
        ∃ x, Cell.tinyint.tryGet .u64 = .ok (some x)) ∧
    ((columnDataToValue .failing (.bit (some true))).isNull = false ↔
      ColumnData.Converts .failing (.bit (some true))) := by
  obtain ⟨hpg, -, hmysql, hmssql⟩ := convert_not_null_iff .tinyint .int8 toAsciiUppercase "TINYINT"
    (.integer ⟨.tiny, false, false⟩) .failing (.bit (some true))
  refine ⟨hpg rfl, hmysql (fun _ _ => rfl) ?_ rfl, hmssql rfl⟩
  intro t ht
  cases t with
  | i64 => exact absurd (by decide) ht
  | _ => exact ⟨_, rfl⟩

/-- None of the three cells is NULL, and all of them become `Value::Null`. -/
theorem convert_null_of_not_null :
    Cell.numeric.isNull = false ∧ pgColToValue .numeric (.other 1700) = .ok .null ∧
      Cell.tinyint.isNull = false ∧
      mysqlColToValue toAsciiUppercase .tinyint "TINYINT" = .ok .null ∧
      (ColumnData.xml (some "<a/>")).isNull = false ∧
      columnDataToValue .failing (.xml (some "<a/>")) = .null := by
  have htiny : mysqlRustType (toAsciiUppercase "TINYINT") = .u64 := by decide
  refine ⟨rfl, rfl, rfl, ?_, rfl, rfl⟩
  rw [mysqlColToValue, htiny]
  rfl

end RustDbDriver
