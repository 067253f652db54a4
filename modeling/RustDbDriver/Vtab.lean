import RustDbDriver.Partition

/-!
# The table functions

`RemoteVTab`: `bind` turns the named parameters into partitions, runs them through a connector and
declares a column type for every column, and `func` writes the rows into DuckDB's vectors, batch by
batch. What a parameter's text parses to as a UUID is left to the `uuid` crate.
-/

namespace RustDbDriver

/-! ### Partitions -/

/-- The parameters of a call; `none` is a named parameter that is not given. -/
structure BindInfo where
  connStr : String
  query : String
  partitions : Option Int64 := none
  partitionKey : Option String := none
  partitionMin : Option Int64 := none
  partitionMax : Option Int64 := none
  partitionUuidMin : Option String := none
  partitionUuidMax : Option String := none
  orderBy : Option String := none
  totalRows : Option Int64 := none

/-- `i64 as u32`. -/
def asU32 (n : Int64) : UInt32 := n.toUInt64.toUInt32

section BuildPartitions

variable (parseUuid : String → Option Uuid)

/-- UUID range strategy; an empty list leaves the choice to the next one. -/
def uuidStrategy (query : String) (bind : BindInfo) : Option (List Partition) :=
  match bind.partitionKey, bind.partitions, bind.partitionUuidMin.bind parseUuid,
    bind.partitionUuidMax.bind parseUuid with
  | some key, some n, some min, some max =>
    if n > 0 then Partition.byUuidRange query key min max (asU32 n) else some []
  | _, _, _, _ => some []

def intStrategy (query : String) (bind : BindInfo) : Option (List Partition) :=
  match bind.partitionKey, bind.partitions, bind.partitionMin, bind.partitionMax with
  | some key, some n, some min, some max =>
    if n > 0 then Partition.byIntRange query key min max (asU32 n) else some []
  | _, _, _, _ => some []

def offsetStrategy (fuel : Nat) (query : String) (bind : BindInfo) : Option (List Partition) :=
  match bind.orderBy, bind.partitions, bind.totalRows with
  | some orderBy, some n, some total =>
    if n > 0 ∧ total > 0 then Partition.byOffset fuel query orderBy total.toUInt64 (asU32 n)
    else some []
  | _, _, _ => some []

/-- Build the partition list from the named parameters; `fuel` is for the paging loop. -/
def buildPartitions (fuel : Nat) (query : String) (bind : BindInfo) : Option (List Partition) := do
  let parts ← uuidStrategy parseUuid query bind
  if !parts.isEmpty then return parts
  let parts ← intStrategy query bind
  if !parts.isEmpty then return parts
  let parts ← offsetStrategy fuel query bind
  if !parts.isEmpty then return parts
  return [.new query]

end BuildPartitions

/-! ### Column types -/

inductive LogicalTypeId where
  | boolean
  | tinyint
  | smallint
  | integer
  | bigint
  | utinyint
  | usmallint
  | uinteger
  | ubigint
  | float
  | double
  | blob
  | varchar
deriving DecidableEq, Repr

/-- The type of a value's column, if the value says anything about it. -/
def Value.columnType : Value → Option LogicalTypeId
  | .null => none
  | .bool _ => some .boolean
  | .int8 _ => some .tinyint
  | .int16 _ => some .smallint
  | .int32 _ => some .integer
  | .int64 _ => some .bigint
  | .uint8 _ => some .utinyint
  | .uint16 _ => some .usmallint
  | .uint32 _ => some .uinteger
  | .uint64 _ => some .ubigint
  | .float32 _ => some .float
  | .float64 _ => some .double
  | .bytes _ => some .blob
  | _ => some .varchar

def inferColType : List Row → Nat → LogicalTypeId
  | [], _ => .varchar
  | row :: rows, colIdx =>
    match (row.get colIdx).bind Value.columnType with
    | some ltype => ltype
    | none => inferColType rows colIdx

/-! ### Writing -/

/-- How a vector lays its entries out: as numbers of one width and kind, or as strings. -/
inductive Physical where
  | bool
  | int8
  | int16
  | int32
  | int64
  | uint8
  | uint16
  | uint32
  | uint64
  | float
  | double
  | string
deriving DecidableEq, Repr

/-- The layout of the vector DuckDB allocates for a declared column. -/
def LogicalTypeId.physical : LogicalTypeId → Physical
  | .boolean => .bool
  | .tinyint => .int8
  | .smallint => .int16
  | .integer => .int32
  | .bigint => .int64
  | .utinyint => .uint8
  | .usmallint => .uint16
  | .uinteger => .uint32
  | .ubigint => .uint64
  | .float => .float
  | .double => .double
  | .blob => .string
  | .varchar => .string

/-- What is written for one value: nothing but the validity bit, an entry through a typed pointer, or
a string. -/
inductive Written where
  | null
  | bool (b : UInt8)
  | int8 (n : Int8)
  | int16 (n : Int16)
  | int32 (n : Int32)
  | int64 (n : Int64)
  | uint8 (n : UInt8)
  | uint16 (n : UInt16)
  | uint32 (n : UInt32)
  | uint64 (n : UInt64)
  | float (x : Float32)
  | double (x : Float)
  | blob (b : List UInt8)
  | str (s : String)

/-- The layout a write assumes of the vector; setting the validity bit assumes none. -/
def Written.physical : Written → Option Physical
  | .null => none
  | .bool _ => some .bool
  | .int8 _ => some .int8
  | .int16 _ => some .int16
  | .int32 _ => some .int32
  | .int64 _ => some .int64
  | .uint8 _ => some .uint8
  | .uint16 _ => some .uint16
  | .uint32 _ => some .uint32
  | .uint64 _ => some .uint64
  | .float _ => some .float
  | .double _ => some .double
  | .blob _ => some .string
  | .str _ => some .string

def writeValue (fmt : Display) : Value → Written
  | .null => .null
  | .bool b => .bool b.toUInt8
  | .int8 n => .int8 n
  | .int16 n => .int16 n
  | .int32 n => .int32 n
  | .int64 n => .int64 n
  | .uint8 n => .uint8 n
  | .uint16 n => .uint16 n
  | .uint32 n => .uint32 n
  | .uint64 n => .uint64 n
  | .float32 x => .float x
  | .float64 x => .double x
  | .bytes b => .blob b
  | v => .str (v.display fmt)

/-! ### Reading -/

/-- The value that DuckDB reads where `w` was written. -/
def Written.toValue : Written → Value
  | .null => .null
  | .bool b => .bool (b != 0)
  | .int8 n => .int8 n
  | .int16 n => .int16 n
  | .int32 n => .int32 n
  | .int64 n => .int64 n
  | .uint8 n => .uint8 n
  | .uint16 n => .uint16 n
  | .uint32 n => .uint32 n
  | .uint64 n => .uint64 n
  | .float x => .float32 x
  | .double x => .float64 x
  | .blob b => .bytes b
  | .str s => .text s

/-- What a value is for DuckDB: itself, or the text of a value it has no vector for. -/
def Value.shown (fmt : Display) (v : Value) : Value :=
  match v with
  | .date _ => .text (v.display fmt)
  | .time _ => .text (v.display fmt)
  | .dateTime _ => .text (v.display fmt)
  | .dateTimeUtc _ => .text (v.display fmt)
  | .uuid _ => .text (v.display fmt)
  | .json _ => .text (v.display fmt)
  | v => v

@[simp] theorem toValue_writeValue (fmt : Display) (v : Value) : (writeValue fmt v).toValue = v.shown fmt := by
  cases v with
  | bool b => cases b <;> rfl
  | _ => rfl

/-! ### `bind` and `func` -/

structure RemoteQueryBindData where
  rows : List Row
  colCount : Nat

/-- The result of `bind`: its data and the columns it declared. -/
structure Bound where
  data : RemoteQueryBindData
  columns : List (String × LogicalTypeId)

def BackendConnector : Type := String → List Partition → UInt32 → Except String (List Row)

namespace RemoteVTab

/-- The part of `bind` behind the connector. -/
def bindRows (rows : List Row) : Bound :=
  let colCount := (rows.head?.map Row.columnCount).getD 0
  let column colIdx :=
    (((rows.head?.bind fun r => r.columns[colIdx]?).map Column.name).getD "col",
      inferColType rows colIdx)
  { data := { rows, colCount }, columns := (List.range colCount).map column }

def bind (parseUuid : String → Option Uuid) (fuel : Nat) (connect : BackendConnector)
    (bind : BindInfo) : Option (Except String Bound) := do
  let partitions ← buildPartitions parseUuid fuel bind.query bind
  let maxConnections := UInt32.ofNat (min (max partitions.length 1) 32)
  return (connect bind.connStr partitions maxConnections).map bindRows

def VECTOR_SIZE : Nat := 2048

/-- One call of `func` at cursor position `pos`: what it writes, column by column, and the position
it leaves. -/
def func (fmt : Display) (data : RemoteQueryBindData) (pos : Nat) : List (List Written) × Nat :=
  if pos ≥ data.rows.length then ([], pos)
  else
    let batch := min (data.rows.length - pos) VECTOR_SIZE
    let write colIdx rowOffset :=
      writeValue fmt (((data.rows[pos + rowOffset]?).bind fun r => r.get colIdx).getD .null)
    ((List.range data.colCount).map fun colIdx => (List.range batch).map (write colIdx),
      pos + batch)

end RemoteVTab
end RustDbDriver
