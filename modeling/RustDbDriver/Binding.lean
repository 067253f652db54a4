import RustDbDriver.Convert

/-!
# Binding parameters

Each backend binds a `Value` as a value of some Rust type, through a table of its own: `pgParam`,
`mysqlArg` and `mssqlParam`. All of them hand an unsigned 64-bit number on as an `i64`, which keeps its
number only below `2 ^ 63`; every other integer keeps it (`integer_pgParam` and the two like it).
NULL loses its type on the way and is bound as the NULL of a string.
-/

namespace RustDbDriver

/-! ### Integers -/

/-- The number of an integer-valued value. -/
def Value.integer : Value → Option Int
  | .int8 n => some n.toInt
  | .int16 n => some n.toInt
  | .int32 n => some n.toInt
  | .int64 n => some n.toInt
  | .uint8 n => some n.toNat
  | .uint16 n => some n.toNat
  | .uint32 n => some n.toNat
  | .uint64 n => some n.toNat
  | _ => none

/-- What a client is handed for one parameter: a value of a Rust type, or the `None` of an
`Option` of that type. The types no column is read as come last. -/
inductive Param where
  | of (t : RustType) (x : t.Rep)
  | null (t : RustType)
  | i8 (n : Int8)
  | u8 (n : UInt8)

def Param.integer : Param → Option Int
  | .of .i16 n => some (Int16.toInt n)
  | .of .i32 n => some (Int32.toInt n)
  | .of .i64 n => some (Int64.toInt n)
  | .of .u64 n => some (UInt64.toNat n)
  | .i8 n => some n.toInt
  | .u8 n => some n.toNat
  | _ => none

/-! ### The binders -/

section Binders

variable (chrono : Chrono)

def pgParam : Value → Param
  | .null => .null .string
  | .bool b => .of .bool b
  | .int8 n => .of .i16 n.toInt16
  | .int16 n => .of .i16 n
  | .int32 n => .of .i32 n
  | .int64 n => .of .i64 n
  | .uint8 n => .of .i16 n.toUInt16.toInt16
  | .uint16 n => .of .i32 n.toUInt32.toInt32
  | .uint32 n => .of .i64 n.toUInt64.toInt64
  | .uint64 n => .of .i64 n.toInt64
  | .float32 x => .of .f32 x
  | .float64 x => .of .f64 x
  | .text s => .of .string s
  | .bytes b => .of .bytes b
  | .date d => .of .naiveDate d
  | .time t => .of .string (chrono.displayTime t)
  | .dateTime dt => .of .naiveDateTime dt
  | .dateTimeUtc dt => .of .dateTimeUtc dt
  | .uuid u => .of .uuid u
  | .json j => .of .json j

def toPgParams (params : List Value) : List Param := params.map (pgParam chrono)

def mysqlArg : Value → Param
  | .null => .null .string
  | .bool b => .of .bool b
  | .int8 n => .i8 n
  | .int16 n => .of .i16 n
  | .int32 n => .of .i32 n
  | .int64 n => .of .i64 n
  | .uint8 n => .u8 n
  | .uint16 n => .of .i32 n.toUInt32.toInt32
  | .uint32 n => .of .i64 n.toUInt64.toInt64
  | .uint64 n => .of .i64 n.toInt64
  | .float32 x => .of .f32 x
  | .float64 x => .of .f64 x
  | .text s => .of .string s
  | .bytes b => .of .bytes b
  | .date d => .of .naiveDate d
  | .time t => .of .naiveTime t
  | .dateTime dt => .of .naiveDateTime dt
  | .dateTimeUtc dt => .of .dateTimeUtc dt
  | .uuid u => .of .string (toString u)
  | .json j => .of .string j.text

/-- One round of the loop; `add` is the client's `MySqlArguments::add`, which may refuse an argument. -/
def addMysqlArg (add : Param → Except String Unit) (p : Value) : Except DbError Param :=
  match add (mysqlArg p) with
  | .error e => .error (.query e)
  | .ok () => .ok (mysqlArg p)

def buildMysqlArgs (add : Param → Except String Unit) (params : List Value) :
    Except DbError (List Param) :=
  params.mapM (addMysqlArg add)

def mssqlParam : Value → Param
  | .null => .null .string
  | .bool b => .of .bool b
  | .int8 n => .of .i16 n.toInt16
  | .int16 n => .of .i16 n
  | .int32 n => .of .i32 n
  | .int64 n => .of .i64 n
  | .uint8 n => .of .i16 n.toUInt16.toInt16
  | .uint16 n => .of .i32 n.toUInt32.toInt32
  | .uint32 n => .of .i64 n.toUInt64.toInt64
  | .uint64 n => .of .i64 n.toInt64
  | .float32 x => .of .f32 x
  | .float64 x => .of .f64 x
  | .text s => .of .string s
  | .bytes b => .of .bytes b
  | .date d => .of .string (chrono.displayDate d)
  | .time t => .of .string (chrono.displayTime t)
  | .dateTime dt => .of .string (chrono.displayDateTime dt)
  | .dateTimeUtc dt => .of .string (chrono.displayDateTimeUtc dt)
  | .uuid u => .of .uuid u
  | .json j => .of .string j.text

/-- What the query holds after `bind_params`, in the order of the placeholders. -/
def bindParams (params : List Value) : List Param := params.map (mssqlParam chrono)

end Binders

/-! ### What the casts keep -/

section Casts

theorem toInt_toInt16 (n : UInt16) : n.toInt16.toInt = (n.toNat : Int).bmod (2 ^ 16) :=
  BitVec.toInt_eq_toNat_bmod n.toBitVec

theorem toInt_toInt32 (n : UInt32) : n.toInt32.toInt = (n.toNat : Int).bmod (2 ^ 32) :=
  BitVec.toInt_eq_toNat_bmod n.toBitVec

theorem toInt_toInt64 (n : UInt64) : n.toInt64.toInt = (n.toNat : Int).bmod (2 ^ 64) :=
  BitVec.toInt_eq_toNat_bmod n.toBitVec

theorem widen_uint8 (n : UInt8) : n.toUInt16.toInt16.toInt = n.toNat := by
  have hlt := n.toNat_lt
  rw [toInt_toInt16, UInt8.toNat_toUInt16, Int.bmod_eq_of_le (by omega) (by omega)]

theorem widen_uint16 (n : UInt16) : n.toUInt32.toInt32.toInt = n.toNat := by
  have hlt := n.toNat_lt
  rw [toInt_toInt32, UInt16.toNat_toUInt32, Int.bmod_eq_of_le (by omega) (by omega)]

theorem widen_uint32 (n : UInt32) : n.toUInt64.toInt64.toInt = n.toNat := by
  have hlt := n.toNat_lt
  rw [toInt_toInt64, UInt32.toNat_toUInt64, Int.bmod_eq_of_le (by omega) (by omega)]

/-- The cast to `i64` has no room for the upper half. -/
theorem uint64_toInt64_iff (n : UInt64) : n.toInt64.toInt = n.toNat ↔ n.toNat < 2 ^ 63 := by
  have hlt := n.toNat_lt
  rw [toInt_toInt64]
  constructor
  · intro h
    have hupper := @Int.bmod_lt n.toNat (2 ^ 64) (by decide)
    omega
  · intro h
    exact Int.bmod_eq_of_le (by omega) (by omega)

end Casts

/-! ### Integers through the binders -/

/-- A number that is not an `i64`. -/
def Value.Wraps : Value → Prop
  | .uint64 n => 2 ^ 63 ≤ n.toNat
  | _ => False

section Integers

variable {chrono : Chrono} {v : Value} {n : Int}

theorem integer_pgParam (h : v.integer = some n) : (pgParam chrono v).integer = some n ↔ ¬ v.Wraps := by
  cases v with
  | uint64 m =>
    cases h
    rw [show (pgParam chrono (.uint64 m)).integer = some m.toInt64.toInt from rfl, Option.some_inj,
      uint64_toInt64_iff, show (Value.uint64 m).Wraps ↔ 2 ^ 63 ≤ m.toNat from Iff.rfl, not_le]
  | int8 m => cases h; simp [pgParam, Param.integer, Value.Wraps]
  | int16 m => cases h; simp [pgParam, Param.integer, Value.Wraps]
  | int32 m => cases h; simp [pgParam, Param.integer, Value.Wraps]
  | int64 m => cases h; simp [pgParam, Param.integer, Value.Wraps]
  | uint8 m => cases h; simp [pgParam, Param.integer, Value.Wraps, widen_uint8]
  | uint16 m => cases h; simp [pgParam, Param.integer, Value.Wraps, widen_uint16]
  | uint32 m => cases h; simp [pgParam, Param.integer, Value.Wraps, widen_uint32]
  | _ => cases h

/-- SQL Server binds an integer as PostgreSQL does. -/
theorem integer_mssqlParam (h : v.integer = some n) :
    (mssqlParam chrono v).integer = some n ↔ ¬ v.Wraps := by
  have hsame : mssqlParam chrono v = pgParam chrono v := by
    cases v with
    | int8 m | int16 m | int32 m | int64 m | uint8 m | uint16 m | uint32 m | uint64 m => rfl
    | _ => cases h
  rw [hsame, integer_pgParam h]

/-- MySQL keeps the 8-bit integers as they are and binds the others as PostgreSQL does. -/
theorem integer_mysqlArg (chrono : Chrono) (h : v.integer = some n) :
    (mysqlArg v).integer = some n ↔ ¬ v.Wraps := by
  cases v with
  | int8 m => cases h; simp [mysqlArg, Param.integer, Value.Wraps]
  | uint8 m => cases h; simp [mysqlArg, Param.integer, Value.Wraps]
  | int16 m | int32 m | int64 m | uint16 m | uint32 m | uint64 m => exact @integer_pgParam chrono _ _ h
  | _ => cases h

/-- Every integer-valued parameter is bound, at its position, as an integer of the same number. -/
def BoundExactly (params : List Value) (bound : List Param) : Prop :=
  ∀ (i : Nat) (n : Int), (params[i]?).bind Value.integer = some n → (bound[i]?).bind Param.integer = some n

theorem Value.Wraps.integer (h : v.Wraps) : ∃ n, v.integer = some n := by
  cases v with
  | uint64 m => exact ⟨_, rfl⟩
  | _ => exact h.elim

theorem boundExactly_map_iff {bind : Value → Param} {params : List Value}
    (h : ∀ v n, v.integer = some n → ((bind v).integer = some n ↔ ¬ v.Wraps)) :
    BoundExactly params (params.map bind) ↔ ∀ v ∈ params, ¬ v.Wraps := by
  constructor
  · intro hbound v hv hwraps
    obtain ⟨i, hi, rfl⟩ := List.mem_iff_getElem.mp hv
    obtain ⟨n, hn⟩ := hwraps.integer
    have hget := hbound i n (by rw [List.getElem?_eq_getElem hi]; exact hn)
    rw [List.getElem?_map, List.getElem?_eq_getElem hi] at hget
    exact (h _ n hn).mp hget hwraps
  · intro hall i n hn
    obtain ⟨v, hv, hinteger⟩ := Option.bind_eq_some_iff.mp hn
    rw [List.getElem?_map, hv]
    exact (h v n hinteger).mpr (hall v (List.mem_of_getElem? hv))

/-- The client refuses what a value is bound as. -/
def Refuses (add : Param → Except String Unit) (v : Value) : Prop :=
  ∃ e, add (mysqlArg v) = .error e

theorem exists_of_bind_eq_ok {ε α β : Type} {x : Except ε α} {f : α → Except ε β} {b : β}
    (h : x.bind f = .ok b) : ∃ a, x = .ok a ∧ f a = .ok b := by
  cases x with
  | error e => cases h
  | ok a => exact ⟨a, rfl, h⟩

theorem addMysqlArg_eq_ok_iff {add : Param → Except String Unit} {v : Value} {arg : Param} :
    addMysqlArg add v = .ok arg ↔ arg = mysqlArg v ∧ ¬ Refuses add v := by
  unfold addMysqlArg Refuses
  cases hadd : add (mysqlArg v) with
  | error e => simp
  | ok u => simp [eq_comm]

theorem buildMysqlArgs_eq_ok_iff {add : Param → Except String Unit} {params : List Value}
    {args : List Param} :
    buildMysqlArgs add params = .ok args ↔
      args = params.map mysqlArg ∧ ∀ v ∈ params, ¬ Refuses add v := by
  induction params generalizing args with
  | nil => simp [buildMysqlArgs, pure, Except.pure, eq_comm]
  | cons v params ih =>
    have hcons : buildMysqlArgs add (v :: params) = (addMysqlArg add v).bind fun arg =>
        (buildMysqlArgs add params).bind fun args => .ok (arg :: args) := List.mapM_cons
    rw [hcons, List.map_cons, List.forall_mem_cons]
    constructor
    · intro h
      obtain ⟨arg, harg, hrest⟩ := exists_of_bind_eq_ok h
      obtain ⟨rest, hok, heq⟩ := exists_of_bind_eq_ok hrest
      obtain ⟨rfl, hv⟩ := addMysqlArg_eq_ok_iff.mp harg
      obtain ⟨rfl, hall⟩ := ih.mp hok
      cases heq
      exact ⟨rfl, hv, hall⟩
    · rintro ⟨rfl, hv, hall⟩
      rw [addMysqlArg_eq_ok_iff.mpr ⟨rfl, hv⟩, ih.mpr ⟨rfl, hall⟩]
      rfl

theorem buildMysqlArgs_boundExactly_iff (chrono : Chrono) (add : Param → Except String Unit)
    (params : List Value) :
    (∀ args, buildMysqlArgs add params = .ok args → BoundExactly params args) ↔
      (∃ v ∈ params, Refuses add v) ∨ ∀ v ∈ params, ¬ v.Wraps := by
  by_cases hrefuses : ∃ v ∈ params, Refuses add v
  · refine iff_of_true ?_ (.inl hrefuses)
    intro args hargs
    obtain ⟨v, hv, hrefuse⟩ := hrefuses
    exact absurd hrefuse ((buildMysqlArgs_eq_ok_iff.mp hargs).2 v hv)
  · have hall : ∀ v ∈ params, ¬ Refuses add v := fun v hv h => hrefuses ⟨v, hv, h⟩
    rw [or_iff_right hrefuses, ← boundExactly_map_iff fun v n => integer_mysqlArg chrono]
    constructor
    · intro h
      exact h _ (buildMysqlArgs_eq_ok_iff.mpr ⟨rfl, hall⟩)
    · intro h args hargs
      rw [(buildMysqlArgs_eq_ok_iff.mp hargs).1]
      exact h

end Integers

end RustDbDriver
