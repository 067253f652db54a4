import RustDbDriver.Chrono
import RustDbDriver.Uuid

/-!
# Values, rows and errors

The unified row the backends convert to. A JSON document is carried as the text `serde_json` prints
for it, which is all the driver ever asks of it.
-/

namespace RustDbDriver

structure Json where
  text : String
deriving DecidableEq, Repr

inductive Value where
  | null
  | bool (b : Bool)
  | int8 (n : Int8)
  | int16 (n : Int16)
  | int32 (n : Int32)
  | int64 (n : Int64)
  | uint8 (n : UInt8)
  | uint16 (n : UInt16)
  | uint32 (n : UInt32)
  | uint64 (n : UInt64)
  | float32 (x : Float32)
  | float64 (x : Float)
  | text (s : String)
  | bytes (b : List UInt8)
  | date (d : NaiveDate)
  | time (t : NaiveTime)
  | dateTime (dt : NaiveDateTime)
  | dateTimeUtc (dt : DateTimeUtc)
  | uuid (u : Uuid)
  | json (j : Json)

def Value.isNull : Value → Bool
  | .null => true
  | _ => false

/-- What `Display` prints for the types that are not the driver's own. -/
structure Display where
  chrono : Chrono
  float32 : Float32 → String
  float64 : Float → String

def Value.display (fmt : Display) : Value → String
  | .null => "NULL"
  | .bool b => toString b
  | .int8 n => toString n
  | .int16 n => toString n
  | .int32 n => toString n
  | .int64 n => toString n
  | .uint8 n => toString n
  | .uint16 n => toString n
  | .uint32 n => toString n
  | .uint64 n => toString n
  | .float32 x => fmt.float32 x
  | .float64 x => fmt.float64 x
  | .text s => s
  | .bytes b => s!"<bytes:{b.length}>"
  | .date d => fmt.chrono.displayDate d
  | .time t => fmt.chrono.displayTime t
  | .dateTime dt => fmt.chrono.displayDateTime dt
  | .dateTimeUtc dt => fmt.chrono.displayDateTimeUtc dt
  | .uuid u => toString u
  | .json j => j.text

structure Column where
  name : String
  typeName : String
  nullable : Bool := true
deriving DecidableEq, Repr

structure Row where
  columns : List Column
  values : List Value

namespace Row

def get (r : Row) (index : Nat) : Option Value := r.values[index]?

def columnCount (r : Row) : Nat := r.columns.length

end Row

inductive DbError where
  | connection (msg : String)
  | query (msg : String)
  | auth (msg : String)
  | config (msg : String)
  | pool (msg : String)
  | typeConversion (msg : String)
  | notSupported (msg : String)
  | backend (msg : String)
  | timeout
  | unknown (msg : String)
deriving DecidableEq, Repr

instance : ToString DbError where
  toString
    | .connection msg => s!"connection error: {msg}"
    | .query msg => s!"query error: {msg}"
    | .auth msg => s!"authentication error: {msg}"
    | .config msg => s!"configuration error: {msg}"
    | .pool msg => s!"pool error: {msg}"
    | .typeConversion msg => s!"type conversion error: {msg}"
    | .notSupported msg => s!"not supported: {msg}"
    | .backend msg => s!"backend error: {msg}"
    | .timeout => "timeout"
    | .unknown msg => s!"unknown error: {msg}"

end RustDbDriver
