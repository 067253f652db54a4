import RustDbDriver.Binding

/-!
# Read and sent back

A value that was read from a column is bound to a placeholder of the column's type. MySQL loses every
signed `TINYINT` and every `TINYINT(1)` where it is read (`mysqlColToValue_integer_iff`), and the upper half of
`BIGINT UNSIGNED` where it is bound (`bind_integers_iff`). PostgreSQL loses the NULLs of all columns that
are not text (`pg_passes_back_iff`).
-/

namespace RustDbDriver

/-! ### Integer columns of MySQL -/

namespace MySqlIntType

def InRange (ty : MySqlIntType) (n : Int) : Prop :=
  if ty.unsigned then 0 ≤ n ∧ n < 2 ^ ty.size.bits
  else -2 ^ (ty.size.bits - 1) ≤ n ∧ n < 2 ^ (ty.size.bits - 1)

end MySqlIntType

/-- A cell of an integer column that holds `n`. The client decodes the stored number as a 64-bit
integer of the column's signedness, and as none of the other. -/
structure Cell.HoldsInt (c : Cell) (ty : MySqlIntType) (n : Int) : Prop where
  inRange : ty.InRange n
  u64 : if ty.unsigned then ∃ x : UInt64, c.tryGet .u64 = .ok (some x) ∧ (x.toNat : Int) = n
    else ∃ e, c.tryGet .u64 = .error e
  i64 : if ty.unsigned then ∃ e, c.tryGet .i64 = .error e
    else ∃ x : Int64, c.tryGet .i64 = .ok (some x) ∧ x.toInt = n

section MySqlInts

variable {toUppercase : String → String} {c : Cell} {ty : MySqlIntType} {n : Int}

theorem getOrNull_of_error {t : RustType} {e : DbError} (h : c.tryGet t = .error e) :
    c.getOrNull t = .ok .null := by
  simp [Cell.getOrNull, h, Except.toOption]

theorem getOrNull_of_ok {t : RustType} {x : t.Rep} (h : c.tryGet t = .ok (some x)) :
    c.getOrNull t = .ok (t.toValue x) := by
  simp [Cell.getOrNull, h, Except.toOption]

theorem integer_getOrNull_bool {v : Value} (h : c.getOrNull .bool = .ok v) : v.integer = none := by
  unfold Cell.getOrNull at h
  cases h
  cases ((c.tryGet .bool).toOption).getD none <;> rfl

end MySqlInts

/-- An integer column is read as the number it holds unless it is a `TINYINT(1)` or a signed `TINYINT`, of
which every number is lost. -/
theorem mysqlColToValue_integer_iff (toUppercase : String → String)
    (hupper : UppercasesAscii toUppercase) (c : Cell) (ty : MySqlIntType) (n : Int)
    (hc : c.HoldsInt ty n) :
    (∃ v, mysqlColToValue toUppercase c ty.name = .ok v ∧ v.integer = some n) ↔
      ty.size ≠ .tiny ∨ (ty.unsigned = true ∧ ty.widthOne = false) := by
  have hu := hc.u64
  have hi := hc.i64
  unfold mysqlColToValue
  rw [show ty.name = (MySqlType.integer ty).name from rfl, mysqlRustType_name hupper, MySqlType.asked]
  by_cases htiny : ty.size = .tiny
  · rw [if_pos htiny, or_iff_right (not_not.mpr htiny)]
    by_cases hone : ty.widthOne = true
    · -- asked for as a Boolean
      refine iff_of_false ?_ (by simp [hone])
      rw [if_pos hone]
      rintro ⟨v, hv, hn⟩
      rw [integer_getOrNull_bool hv] at hn
      cases hn
    · rw [if_neg hone, and_iff_left (Bool.eq_false_iff.mpr hone)]
      by_cases hunsigned : ty.unsigned = true
      · rw [if_pos hunsigned] at hu
        obtain ⟨x, hx, hn⟩ := hu
        exact iff_of_true ⟨.uint64 x, getOrNull_of_ok hx, congrArg some hn⟩ hunsigned
      · rw [if_neg hunsigned] at hu
        obtain ⟨e, he⟩ := hu
        refine iff_of_false ?_ hunsigned
        rintro ⟨v, hv, hn⟩
        rw [getOrNull_of_error he] at hv
        cases hv
        cases hn
  · refine iff_of_true ?_ (.inl htiny)
    rw [if_neg htiny]
    by_cases hunsigned : ty.unsigned = true
    · rw [if_pos hunsigned] at hu ⊢
      obtain ⟨x, hx, hn⟩ := hu
      exact ⟨.uint64 x, getOrNull_of_ok hx, congrArg some hn⟩
    · rw [if_neg hunsigned] at hi ⊢
      obtain ⟨x, hx, hn⟩ := hi
      exact ⟨.int64 x, getOrNull_of_ok hx, congrArg some hn⟩

/-- A cell that the client decodes as one type only. -/
def Cell.of (t : RustType) (x : t.Rep) : Cell where
  isNull := false
  tryGet s := if h : t = s then .ok (some (h ▸ x)) else .error (.backend "mismatched types")
  isNull_of_none s h := by
    split at h <;> cases h

theorem Cell.of_holdsInt (x : UInt64) : (Cell.of .u64 x).HoldsInt ⟨.big, true, false⟩ x.toNat where
  inRange := ⟨by omega, by have := x.toNat_lt; simpa [MySqlIntSize.bits] using by omega⟩
  u64 := ⟨x, rfl, rfl⟩
  i64 := ⟨_, rfl⟩

theorem mysqlColToValue_bigint :
    (∃ v, mysqlColToValue toAsciiUppercase (.of .u64 (18446744073709551615 : UInt64)) "BIGINT UNSIGNED" =
        .ok v ∧ v.integer = some 18446744073709551615) ↔
      MySqlIntSize.big ≠ .tiny ∨ (true = true ∧ false = false) :=
  mysqlColToValue_integer_iff toAsciiUppercase (fun _ _ => rfl) _ ⟨.big, true, false⟩ _ (Cell.of_holdsInt _)

/-- The `TINYINT` -1 is read as NULL. -/
theorem mysqlColToValue_tinyint :
    Cell.tinyint.HoldsInt ⟨.tiny, false, false⟩ (-1) ∧
      ¬ ∃ v, mysqlColToValue toAsciiUppercase .tinyint "TINYINT" = .ok v ∧ v.integer = some (-1) := by
  have htiny : mysqlRustType (toAsciiUppercase "TINYINT") = .u64 := by decide
  refine ⟨⟨⟨by decide, by decide⟩, ⟨_, rfl⟩, ⟨(-1 : Int64), rfl, rfl⟩⟩, ?_⟩
  rintro ⟨v, hv, hn⟩
  rw [mysqlColToValue, htiny] at hv
  cases hv
  cases hn

/-! ### Integers, bound -/

section Bound

variable {toUppercase : String → String}

/-- What is read from a `BIGINT UNSIGNED` column goes back as the same number only below `2 ^ 63`. -/
theorem bigint_sent_back_iff (hupper : UppercasesAscii toUppercase) (add : Param → Except String Unit)
    {c : Cell} {n : Int} (hc : c.HoldsInt ⟨.big, true, false⟩ n) :
    ∃ v, mysqlColToValue toUppercase c "BIGINT UNSIGNED" = .ok v ∧
      ((∀ args, buildMysqlArgs add [v] = .ok args → args.map Param.integer = [some n]) ↔
        Refuses add v ∨ n < 2 ^ 63) := by
  obtain ⟨x, hx, rfl⟩ := hc.u64
  refine ⟨.uint64 x, ?_, ?_⟩
  · rw [mysqlColToValue, show "BIGINT UNSIGNED" = (MySqlType.integer ⟨.big, true, false⟩).name from rfl,
      mysqlRustType_name hupper]
    exact getOrNull_of_ok hx
  · have hcast := uint64_toInt64_iff x
    by_cases hrefuses : Refuses add (.uint64 x)
    · refine iff_of_true ?_ (.inl hrefuses)
      intro args hargs
      exact absurd hrefuses ((buildMysqlArgs_eq_ok_iff.mp hargs).2 _ List.mem_cons_self)
    · rw [or_iff_right hrefuses]
      have hargs : buildMysqlArgs add [.uint64 x] = .ok [.of .i64 x.toInt64] :=
        buildMysqlArgs_eq_ok_iff.mpr ⟨rfl, by simpa using hrefuses⟩
      simp only [hargs, Except.ok.injEq, forall_eq', List.map_cons, List.map_nil, Param.integer,
        List.cons.injEq, and_true, Option.some_inj]
      omega

end Bound

/-- Every integer is bound as the same number exactly where no parameter is an unsigned number from
`2 ^ 63` on, or the client of MySQL refuses a parameter. -/
theorem bind_integers_iff (chrono : Chrono) (add : Param → Except String Unit)
    (toUppercase : String → String) (hupper : UppercasesAscii toUppercase) (params : List Value) :
    (BoundExactly params (toPgParams chrono params) ↔ ∀ v ∈ params, ¬ v.Wraps) ∧
    ((∀ args, buildMysqlArgs add params = .ok args → BoundExactly params args) ↔
      (∃ v ∈ params, Refuses add v) ∨ ∀ v ∈ params, ¬ v.Wraps) ∧
    (BoundExactly params (bindParams chrono params) ↔ ∀ v ∈ params, ¬ v.Wraps) ∧
    ∀ (c : Cell) (n : Int), c.HoldsInt ⟨.big, true, false⟩ n →
      ∃ v, mysqlColToValue toUppercase c "BIGINT UNSIGNED" = .ok v ∧
        ((∀ args, buildMysqlArgs add [v] = .ok args → args.map Param.integer = [some n]) ↔
          Refuses add v ∨ n < 2 ^ 63) :=
  ⟨boundExactly_map_iff fun _ _ => integer_pgParam,
    buildMysqlArgs_boundExactly_iff chrono add params,
    boundExactly_map_iff fun _ _ => integer_mssqlParam,
    fun _ _ hc => bigint_sent_back_iff hupper add hc⟩

theorem bind_integers_small :
    ∃ v, mysqlColToValue toAsciiUppercase (.of .u64 (7 : UInt64)) "BIGINT UNSIGNED" = .ok v ∧
      ((∀ args, buildMysqlArgs (fun _ => .ok ()) [v] = .ok args →
        args.map Param.integer = [some 7]) ↔ Refuses (fun _ => .ok ()) v ∨ (7 : Int) < 2 ^ 63) :=
  (bind_integers_iff .gregorian (fun _ => .ok ()) toAsciiUppercase (fun _ _ => rfl) []).2.2.2 _ 7
    (Cell.of_holdsInt 7)

/-- The largest `BIGINT UNSIGNED` is bound as -1, by all three. -/
theorem bind_integers_wrap :
    ¬ BoundExactly [.uint64 18446744073709551615] (toPgParams .gregorian [.uint64 18446744073709551615]) ∧
    (buildMysqlArgs (fun _ => .ok ()) [.uint64 18446744073709551615] = .ok [.of .i64 (-1 : Int64)] ∧
      ¬ BoundExactly [.uint64 18446744073709551615] [.of .i64 (-1 : Int64)]) ∧
    ¬ BoundExactly [.uint64 18446744073709551615] (bindParams .gregorian [.uint64 18446744073709551615]) ∧
    mysqlColToValue toAsciiUppercase (.of .u64 (18446744073709551615 : UInt64)) "BIGINT UNSIGNED" =
      .ok (.uint64 18446744073709551615) := by
  have hwrap : ¬ BoundExactly [.uint64 18446744073709551615] [.of .i64 (-1 : Int64)] := by
    intro h
    have hget := h 0 18446744073709551615 rfl
    exact absurd (Option.some.inj hget) (by decide)
  have htype : mysqlRustType (toAsciiUppercase "BIGINT UNSIGNED") = .u64 := by decide
  refine ⟨hwrap, ⟨rfl, hwrap⟩, hwrap, ?_⟩
  rw [mysqlColToValue, htype]
  rfl

/-! ### PostgreSQL, there and back -/

/-- The type that a column type with an arm of its own is read as. -/
def PgType.rustType : PgType → Option RustType
  | .bool => some .bool
  | .int2 => some .i16
  | .int4 => some .i32
  | .int8 => some .i64
  | .float4 => some .f32
  | .float8 => some .f64
  | .text | .varchar | .bpchar | .name => some .string
  | .bytea => some .bytes
  | .date => some .naiveDate
  | .timestamp => some .naiveDateTime
  | .timestamptz => some .dateTimeUtc
  | .uuid => some .uuid
  | .json | .jsonb => some .json
  | .other _ => none

/-- The column types with an arm of their own that the client accepts a Rust type for. -/
def RustType.pgTypes : RustType → List PgType
  | .bool => [.bool]
  | .i16 => [.int2]
  | .i32 => [.int4]
  | .i64 => [.int8]
  | .u64 => []
  | .f32 => [.float4]
  | .f64 => [.float8]
  | .string => [.text, .varchar, .bpchar, .name]
  | .bytes => [.bytea]
  | .naiveDate => [.date]
  | .naiveTime => []
  | .naiveDateTime => [.timestamp]
  | .dateTimeUtc => [.timestamptz]
  | .uuid => [.uuid]
  | .json => [.json, .jsonb]

/-- `ToSql::accepts` of the client, for every Rust type and placeholder type. -/
structure PgClient where
  accepts : RustType → PgType → Bool

/-- What is documented of `accepts`. -/
def PgClient.Documented (client : PgClient) : Prop :=
  ∀ t ty, ty.HasArm → (client.accepts t ty = true ↔ ty ∈ t.pgTypes)

/-- An `Option` is accepted where its content would be. -/
def PgClient.AcceptsParam (client : PgClient) (ty : PgType) : Param → Prop
  | .of t _ => client.accepts t ty = true
  | .null t => client.accepts t ty = true
  | .i8 _ => False
  | .u8 _ => False

def Param.Denotes (t : RustType) : Option t.Rep → Param → Prop
  | some x, p => p = .of t x
  | none, p => ∃ s, p = .null s

def PgType.IsText (ty : PgType) : Prop := ty ∈ RustType.string.pgTypes

section PassBack

variable {c : Cell} {ty : PgType} {t : RustType}

theorem pgColToValue_eq (hty : ty.rustType = some t) : pgColToValue c ty = c.get t := by
  cases ty <;> cases hty <;> rfl

theorem hasArm_of_rustType (hty : ty.rustType = some t) : ty.HasArm := by
  cases ty with
  | other oid => cases hty
  | _ => trivial

theorem mem_pgTypes (hty : ty.rustType = some t) : ty ∈ t.pgTypes := by
  cases ty <;> cases hty <;> simp [RustType.pgTypes]

/-- A value that was read keeps the type it was read as. -/
theorem pgParam_toValue (chrono : Chrono) (hty : ty.rustType = some t) (x : t.Rep) :
    pgParam chrono (t.toValue x) = .of t x := by
  cases ty <;> cases hty <;> rfl

end PassBack

/-- What `query` reads from a column goes back as a parameter of the column's type unless it is NULL;
NULL does so for the text types. -/
theorem pg_passes_back_iff (client : PgClient) (hclient : client.Documented) (chrono : Chrono) (c : Cell)
    (ty : PgType) (t : RustType) (hty : ty.rustType = some t) (x : Option t.Rep)
    (hx : c.tryGet t = .ok x) :
    (∃ v, pgColToValue c ty = .ok v ∧ ∀ (params : List Value) (i : Nat), params[i]? = some v →
      ∃ p, (toPgParams chrono params)[i]? = some p ∧ client.AcceptsParam ty p ∧ p.Denotes t x) ↔
    x ≠ none ∨ ty.IsText := by
  have harm := hasArm_of_rustType hty
  have hread : pgColToValue c ty = .ok ((x.map t.toValue).getD .null) := by
    rw [pgColToValue_eq hty, Cell.get, hx]
    rfl
  cases x with
  | some x =>
    refine iff_of_true ⟨_, hread, ?_⟩ (.inl (Option.some_ne_none x))
    intro params i hi
    refine ⟨.of t x, ?_, (hclient t ty harm).mpr (mem_pgTypes hty), rfl⟩
    rw [toPgParams, List.getElem?_map, hi]
    exact congrArg some (pgParam_toValue chrono hty x)
  | none =>
    rw [or_iff_right (not_not.mpr rfl)]
    constructor
    · rintro ⟨v, hv, hback⟩
      rw [hread] at hv
      cases hv
      obtain ⟨p, hp, haccepts, -⟩ := hback [.null] 0 rfl
      cases hp
      exact (hclient .string ty harm).mp haccepts
    · intro htext
      refine ⟨_, hread, ?_⟩
      intro params i hi
      refine ⟨.null .string, ?_, (hclient .string ty harm).mpr htext, .string, rfl⟩
      rw [toPgParams, List.getElem?_map, hi]
      rfl

def PgClient.postgresTypes : PgClient where
  accepts t ty := decide (ty ∈ t.pgTypes)

theorem PgClient.postgresTypes_documented : PgClient.postgresTypes.Documented :=
  fun _ _ _ => decide_eq_true_iff

theorem pg_passes_back_int4 :
    (∃ v, pgColToValue (.of .i32 (42 : Int32)) .int4 = .ok v ∧
      ∀ (params : List Value) (i : Nat), params[i]? = some v →
        ∃ p, (toPgParams .gregorian params)[i]? = some p ∧ PgClient.postgresTypes.AcceptsParam .int4 p ∧
          Param.Denotes .i32 (some (42 : Int32)) p) ↔
      (some (42 : Int32) : Option Int32) ≠ none ∨ PgType.int4.IsText :=
  pg_passes_back_iff .postgresTypes PgClient.postgresTypes_documented .gregorian _ .int4 .i32 rfl
    (some (42 : Int32)) rfl

/-- A NULL of any column. -/
def Cell.null : Cell where
  isNull := true
  tryGet _ := .ok none
  isNull_of_none _ _ := rfl

/-- The NULL of an `INT4` column is bound as the NULL of a string, which the client refuses for `INT4`. -/
theorem pg_null_int4_refused :
    ¬ ∃ v, pgColToValue .null .int4 = .ok v ∧ ∀ (params : List Value) (i : Nat), params[i]? = some v →
      ∃ p, (toPgParams .gregorian params)[i]? = some p ∧ PgClient.postgresTypes.AcceptsParam .int4 p ∧
        Param.Denotes .i32 none p := by
  rintro ⟨v, hv, hback⟩
  cases hv
  obtain ⟨p, hp, haccepts, -⟩ := hback [.null] 0 rfl
  cases hp
  have hrefused : PgClient.postgresTypes.accepts .string .int4 = false := by decide
  exact Bool.eq_false_iff.mp hrefused haccepts

end RustDbDriver
