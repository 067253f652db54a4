import RustDbDriver.Convert
import RustDbDriver.Vtab

/-!
# Result sets of SQL Server in a table function

`run_query` appends the rows of all result sets of a statement to one list, `bind` declares a column
by the first value of it that is not NULL, and `func` writes every value by its own variant. The
declared and the written layout of a column agree exactly if the result sets that put a value into it
have columns of one layout there (`runQuery_writesDeclared_iff`).
-/

namespace RustDbDriver

/-! ### `run_query` -/

/-- The variant of `ColumnData` that the cells of a column are decoded to. -/
inductive ColumnKind where
  | u8
  | i16
  | i32
  | i64
  | f32
  | f64
  | bit
  | string
  | guid
  | binary
  | numeric
  | xml
  | dateTime
  | smallDateTime
  | time
  | date
  | dateTime2
  | dateTimeOffset
deriving DecidableEq, Repr

def ColumnData.kind : ColumnData → ColumnKind
  | .u8 _ => .u8
  | .i16 _ => .i16
  | .i32 _ => .i32
  | .i64 _ => .i64
  | .f32 _ => .f32
  | .f64 _ => .f64
  | .bit _ => .bit
  | .string _ => .string
  | .guid _ => .guid
  | .binary _ => .binary
  | .numeric _ => .numeric
  | .xml _ => .xml
  | .dateTime _ => .dateTime
  | .smallDateTime _ => .smallDateTime
  | .time _ => .time
  | .date _ => .date
  | .dateTime2 _ => .dateTime2
  | .dateTimeOffset _ => .dateTimeOffset

structure ColumnMeta where
  name : String
  typeName : String
  kind : ColumnKind

inductive QueryItem where
  | metadata (columns : List ColumnMeta)
  | row (cells : List ColumnData)

structure Reading where
  colMeta : List (String × String) := []
  rows : List Row := []

def Reading.step (fromSql : FromSql) (s : Reading) : Except DbError QueryItem → Except DbError Reading
  | .error e => .error e
  | .ok (.metadata columns) => .ok { s with colMeta := columns.map fun c => (c.name, c.typeName) }
  | .ok (.row cells) =>
    let columns := s.colMeta.map fun (name, typeName) => ({ name, typeName } : Column)
    .ok { s with rows := s.rows ++ [⟨columns, cells.map (columnDataToValue fromSql)⟩] }

def runQuery (fromSql : FromSql) (stream : List (Except DbError QueryItem)) :
    Except DbError (List Row) :=
  (stream.foldlM (Reading.step fromSql) {}).map (·.rows)

/-- A result set: every row has a cell of the column's kind for every column. -/
structure ResultSet where
  columns : List ColumnMeta
  rows : List (List ColumnData)
  typed : ∀ cells ∈ rows, cells.map ColumnData.kind = columns.map ColumnMeta.kind

namespace ResultSet

def items (rs : ResultSet) : List QueryItem := .metadata rs.columns :: rs.rows.map .row

def stream (sets : List ResultSet) : List (Except DbError QueryItem) :=
  (sets.flatMap items).map .ok

def toRow (fromSql : FromSql) (columns : List ColumnMeta) (cells : List ColumnData) : Row :=
  ⟨columns.map fun c => ⟨c.name, c.typeName, true⟩, cells.map (columnDataToValue fromSql)⟩

def toRows (fromSql : FromSql) (rs : ResultSet) : List Row := rs.rows.map (toRow fromSql rs.columns)

variable (fromSql : FromSql)

theorem step_row (columns : List ColumnMeta) (rows : List Row) (cells : List ColumnData) :
    Reading.step fromSql ⟨columns.map fun c => (c.name, c.typeName), rows⟩ (.ok (.row cells)) =
      .ok ⟨columns.map fun c => (c.name, c.typeName), rows ++ [toRow fromSql columns cells]⟩ := by
  simp [Reading.step, toRow]

theorem foldlM_rows (columns : List ColumnMeta) (cellss : List (List ColumnData)) (rows : List Row) :
    (cellss.map fun cells => Except.ok (QueryItem.row cells)).foldlM (Reading.step fromSql)
        ⟨columns.map fun c => (c.name, c.typeName), rows⟩ =
      .ok ⟨columns.map fun c => (c.name, c.typeName), rows ++ cellss.map (toRow fromSql columns)⟩ := by
  induction cellss generalizing rows with
  | nil => rw [List.map_nil, List.map_nil, List.append_nil]; rfl
  | cons cells cellss ih =>
    rw [List.map_cons, List.foldlM_cons, step_row]
    refine (ih _).trans ?_
    rw [List.map_cons, List.append_assoc, List.singleton_append]

theorem foldlM_sets (sets : List ResultSet) (s : Reading) :
    ∃ colMeta, (stream sets).foldlM (Reading.step fromSql) s =
      .ok ⟨colMeta, s.rows ++ sets.flatMap (toRows fromSql)⟩ := by
  induction sets generalizing s with
  | nil => exact ⟨s.colMeta, by rw [List.flatMap_nil, List.append_nil]; rfl⟩
  | cons rs sets ih =>
    have hitems : stream (rs :: sets) = (.ok (.metadata rs.columns)) ::
        ((rs.rows.map fun cells => Except.ok (QueryItem.row cells)) ++ stream sets) := by
      simp [stream, items]
    have hrows := foldlM_rows fromSql rs.columns rs.rows s.rows
    obtain ⟨colMeta, hsets⟩ := ih ⟨rs.columns.map fun c => (c.name, c.typeName),
      s.rows ++ rs.rows.map (toRow fromSql rs.columns)⟩
    refine ⟨colMeta, ?_⟩
    rw [hitems, List.foldlM_cons]
    show List.foldlM _ (⟨rs.columns.map fun c => (c.name, c.typeName), s.rows⟩ : Reading) _ = _
    rw [List.foldlM_append, hrows]
    refine hsets.trans ?_
    rw [List.flatMap_cons, ← List.append_assoc]
    rfl

theorem runQuery_eq (sets : List ResultSet) :
    runQuery fromSql (stream sets) = .ok (sets.flatMap (toRows fromSql)) := by
  obtain ⟨colMeta, h⟩ := foldlM_sets fromSql sets {}
  rw [runQuery, h]
  simp [Except.map]

end ResultSet

/-! ### Layouts -/

def ColumnKind.physical : ColumnKind → Physical
  | .u8 => .uint8
  | .i16 => .int16
  | .i32 => .int32
  | .i64 => .int64
  | .f32 => .float
  | .f64 => .double
  | .numeric => .double
  | .bit => .bool
  | _ => .string

/-- `write_value` assumes the layout of the type that the value alone would declare. -/
theorem physical_writeValue (fmt : Display) (v : Value) :
    (writeValue fmt v).physical = v.columnType.map LogicalTypeId.physical := by
  cases v <;> rfl

theorem columnType_okSomeOrNull {α : Type} {wrap : α → Value} (ltype : LogicalTypeId)
    (hwrap : ∀ x, (wrap x).columnType = some ltype) {r : Except DbError (Option α)}
    (h : (okSomeOrNull wrap r).isNull = false) : (okSomeOrNull wrap r).columnType = some ltype := by
  match r with
  | .ok (some x) => exact hwrap x
  | .ok none => cases h
  | .error e => cases h

/-- Where a cell becomes a value, its column's kind says how it is written. -/
theorem physical_columnDataToValue (fromSql : FromSql) {data : ColumnData}
    (h : (columnDataToValue fromSql data).isNull = false) :
    (columnDataToValue fromSql data).columnType.map LogicalTypeId.physical =
      some data.kind.physical := by
  cases data with
  | u8 x | i16 x | i32 x | i64 x | f32 x | f64 x | bit x | string x | guid x | binary x | numeric x =>
    cases x with
    | none => cases h
    | some x => rfl
  | xml x => cases h
  | dateTime x | smallDateTime x | date x | time x | dateTime2 x | dateTimeOffset x =>
    cases x with
    | none => cases h
    | some x =>
      exact congrArg (Option.map LogicalTypeId.physical)
        (columnType_okSomeOrNull .varchar (fun _ => rfl) h)

theorem inferColType_cases (rows : List Row) (c : Nat) :
    (∀ row ∈ rows, (row.get c).bind Value.columnType = none) ∨
      ∃ row ∈ rows, (row.get c).bind Value.columnType = some (inferColType rows c) := by
  induction rows with
  | nil => exact .inl fun row hrow => (by cases hrow)
  | cons row rows ih =>
    unfold inferColType
    cases h : (row.get c).bind Value.columnType with
    | some ltype => exact .inr ⟨row, List.mem_cons_self, h⟩
    | none =>
      rcases ih with ih | ⟨row', hrow', ih⟩
      · refine .inl ?_
        intro row' hrow'
        rcases List.mem_cons.mp hrow' with rfl | hrow'
        · exact h
        · exact ih row' hrow'
      · exact .inr ⟨row', List.mem_cons_of_mem _ hrow', ih⟩

/-! ### Declared and written -/

/-- Every value that is not NULL is written in the layout that was declared for its column. -/
def Bound.WritesDeclared (fmt : Display) (b : Bound) : Prop :=
  ∀ (c : Nat) (name : String) (ltype : LogicalTypeId), b.columns[c]? = some (name, ltype) →
    ∀ row ∈ b.data.rows, ∀ v, row.get c = some v → v.isNull = false →
      (writeValue fmt v).physical = some ltype.physical

/-- A result set puts a value that is not NULL into column `c`. -/
def ResultSet.Fills (fromSql : FromSql) (c : Nat) (rs : ResultSet) : Prop :=
  ∃ cells ∈ rs.rows, ∃ data, cells[c]? = some data ∧ (columnDataToValue fromSql data).isNull = false

/-- The columns that `bind` declares: those of the first result set that has a row. -/
def declaredCount (sets : List ResultSet) : Nat :=
  ((sets.find? fun rs => !rs.rows.isEmpty).map fun rs => rs.columns.length).getD 0

/-- Result sets that fill the same declared column have the same layout there. -/
def Agree (fromSql : FromSql) (sets : List ResultSet) : Prop :=
  ∀ c < declaredCount sets, ∀ rs ∈ sets, ∀ rs' ∈ sets, rs.Fills fromSql c → rs'.Fills fromSql c →
    ∀ m m', rs.columns[c]? = some m → rs'.columns[c]? = some m' → m.kind.physical = m'.kind.physical

section Agree

variable {fromSql : FromSql} {fmt : Display} {sets : List ResultSet} {c : Nat}

theorem Value.columnType_eq_none_iff {v : Value} : v.columnType = none ↔ v.isNull = true := by
  cases v <;> simp [Value.columnType, Value.isNull]

/-- A value of column `c` comes from a result set that fills the column and has a column there, and
is written in its layout. -/
theorem fills_of_mem {row : Row} (hrow : row ∈ sets.flatMap (ResultSet.toRows fromSql)) {v : Value}
    (hget : row.get c = some v) (hv : v.isNull = false) :
    ∃ rs ∈ sets, rs.Fills fromSql c ∧ ∃ m, rs.columns[c]? = some m ∧
      v.columnType.map LogicalTypeId.physical = some m.kind.physical := by
  obtain ⟨rs, hrs, hrow⟩ := List.mem_flatMap.mp hrow
  obtain ⟨cells, hcells, rfl⟩ := List.mem_map.mp hrow
  simp only [Row.get, ResultSet.toRow, List.getElem?_map, Option.map_eq_some_iff] at hget
  obtain ⟨data, hdata, rfl⟩ := hget
  have hkind := congrArg (·[c]?) (rs.typed cells hcells)
  simp only [List.getElem?_map, hdata, Option.map_some] at hkind
  obtain ⟨m, hm, hmk⟩ := Option.map_eq_some_iff.mp hkind.symm
  exact ⟨rs, hrs, ⟨cells, hcells, data, hdata, hv⟩, m, hm, by
    rw [physical_columnDataToValue fromSql hv, hmk]⟩

theorem mem_of_fills {rs : ResultSet} (hrs : rs ∈ sets) (h : rs.Fills fromSql c) {m : ColumnMeta}
    (hm : rs.columns[c]? = some m) :
    ∃ row ∈ sets.flatMap (ResultSet.toRows fromSql), ∃ v, row.get c = some v ∧ v.isNull = false ∧
      v.columnType.map LogicalTypeId.physical = some m.kind.physical := by
  obtain ⟨cells, hcells, data, hdata, hv⟩ := h
  refine ⟨ResultSet.toRow fromSql rs.columns cells,
    List.mem_flatMap.mpr ⟨rs, hrs, List.mem_map_of_mem hcells⟩, columnDataToValue fromSql data,
    by simp [Row.get, ResultSet.toRow, hdata], hv, ?_⟩
  have hkind := congrArg (·[c]?) (rs.typed cells hcells)
  simp only [List.getElem?_map, hdata, hm, Option.map_some, Option.some.injEq] at hkind
  rw [physical_columnDataToValue fromSql hv, hkind]

theorem columns_bindRows {rows : List Row} {name : String} {ltype : LogicalTypeId}
    (h : (RemoteVTab.bindRows rows).columns[c]? = some (name, ltype)) :
    c < (RemoteVTab.bindRows rows).data.colCount ∧ ltype = inferColType rows c := by
  simp only [RemoteVTab.bindRows, List.getElem?_map, Option.map_eq_some_iff] at h
  obtain ⟨i, hi, heq⟩ := h
  obtain ⟨hlt, rfl⟩ := List.getElem?_eq_some_iff.mp hi
  simp only [List.length_range, List.getElem_range, Prod.mk.injEq] at hlt heq ⊢
  exact ⟨hlt, heq.2.symm⟩

theorem exists_columns_bindRows {rows : List Row}
    (h : c < (RemoteVTab.bindRows rows).data.colCount) :
    ∃ name, (RemoteVTab.bindRows rows).columns[c]? = some (name, inferColType rows c) := by
  simp only [RemoteVTab.bindRows] at h ⊢
  simp [List.getElem?_range h]

theorem colCount_bindRows (fromSql : FromSql) (sets : List ResultSet) :
    (RemoteVTab.bindRows (sets.flatMap (ResultSet.toRows fromSql))).data.colCount =
      declaredCount sets := by
  induction sets with
  | nil => rfl
  | cons rs sets ih =>
    simp only [RemoteVTab.bindRows, declaredCount] at ih ⊢
    rw [List.flatMap_cons, List.find?_cons]
    cases hrows : rs.rows with
    | nil => simpa [ResultSet.toRows, hrows] using ih
    | cons cells cellss => simp [ResultSet.toRows, hrows, ResultSet.toRow, Row.columnCount]

theorem WritesDeclared.agree
    (h : (RemoteVTab.bindRows (sets.flatMap (ResultSet.toRows fromSql))).WritesDeclared fmt) :
    Agree fromSql sets := by
  intro c hc rs hrs rs' hrs' hfill hfill' m m' hm hm'
  rw [← colCount_bindRows fromSql] at hc
  obtain ⟨name, hcol⟩ := exists_columns_bindRows hc
  obtain ⟨row, hrow, v, hget, hv, hphys⟩ := mem_of_fills hrs hfill hm
  obtain ⟨row', hrow', v', hget', hv', hphys'⟩ := mem_of_fills hrs' hfill' hm'
  have hw := h c name _ hcol row hrow v hget hv
  have hw' := h c name _ hcol row' hrow' v' hget' hv'
  rw [physical_writeValue, hphys] at hw
  rw [physical_writeValue, hphys', ← hw] at hw'
  exact (Option.some.inj hw').symm

theorem Agree.writesDeclared (h : Agree fromSql sets) :
    (RemoteVTab.bindRows (sets.flatMap (ResultSet.toRows fromSql))).WritesDeclared fmt := by
  intro c name ltype hcol row hrow v hget hv
  obtain ⟨hc, rfl⟩ := columns_bindRows hcol
  rw [colCount_bindRows] at hc
  obtain ⟨rs, hrs, hfill, m, hm, hphys⟩ := fills_of_mem hrow hget hv
  rcases inferColType_cases (sets.flatMap (ResultSet.toRows fromSql)) c with hnone | ⟨row₀, hrow₀, h₀⟩
  · -- the value itself would have declared the column
    have := hnone row hrow
    rw [hget, Option.bind_some, Value.columnType_eq_none_iff, hv] at this
    cases this
  · obtain ⟨v₀, hget₀, hv₀⟩ := Option.bind_eq_some_iff.mp h₀
    have hnull₀ : v₀.isNull = false := by
      rw [← Bool.not_eq_true, ← Value.columnType_eq_none_iff, hv₀]
      exact Option.some_ne_none _
    obtain ⟨rs₀, hrs₀, hfill₀, m₀, hm₀, hphys₀⟩ := fills_of_mem hrow₀ hget₀ hnull₀
    rw [hv₀, Option.map_some] at hphys₀
    rw [physical_writeValue, hphys, hphys₀, h c hc rs hrs rs₀ hrs₀ hfill hfill₀ m m₀ hm hm₀]

end Agree

/-- The values of the rows that `run_query` returns are written in the layouts that are declared for
their columns exactly if the result sets that fill a declared column have the same layout there. -/
theorem runQuery_writesDeclared_iff (fromSql : FromSql) (fmt : Display) (sets : List ResultSet) :
    ∃ rows, runQuery fromSql (ResultSet.stream sets) = .ok rows ∧
      ((RemoteVTab.bindRows rows).WritesDeclared fmt ↔ Agree fromSql sets) :=
  ⟨_, ResultSet.runQuery_eq fromSql sets, WritesDeclared.agree, Agree.writesDeclared⟩

/-- `func` then leaves in a vector only what the vector is laid out for, at every cursor position. -/
theorem Bound.WritesDeclared.func {fmt : Display} {b : Bound} (h : b.WritesDeclared fmt) (pos : Nat)
    {c : Nat} {name : String} {ltype : LogicalTypeId} (hcol : b.columns[c]? = some (name, ltype))
    {written : List Written} (hwritten : (RemoteVTab.func fmt b.data pos).1[c]? = some written) :
    ∀ w ∈ written, w.physical = none ∨ w.physical = some ltype.physical := by
  intro w hw
  unfold RemoteVTab.func at hwritten
  split at hwritten
  · simp at hwritten
  · simp only [List.getElem?_map, Option.map_eq_some_iff] at hwritten
    obtain ⟨i, hi, rfl⟩ := hwritten
    obtain ⟨hlt, rfl⟩ := List.getElem?_eq_some_iff.mp hi
    obtain ⟨offset, -, rfl⟩ := List.mem_map.mp hw
    rw [List.getElem_range]
    cases hv : (b.data.rows[pos + offset]?).bind fun r => r.get c with
    | none => exact .inl rfl
    | some v =>
      obtain ⟨row, hrow, hget⟩ := Option.bind_eq_some_iff.mp hv
      cases hnull : v.isNull with
      | true =>
        rw [Option.getD_some, physical_writeValue, Value.columnType_eq_none_iff.mpr hnull]
        exact .inl rfl
      | false => exact .inr (h c name ltype hcol row (List.mem_of_getElem? hrow) v hget hnull)

/-- `SELECT 1 AS a; SELECT 'x' AS a`. -/
def ResultSet.twoKinds : List ResultSet :=
  [{ columns := [⟨"a", "Int4", .i32⟩], rows := [[.i32 (some 1)]], typed := by decide },
    { columns := [⟨"a", "BigVarChar", .string⟩], rows := [[.string (some "x")]], typed := by decide }]

def Display.blank : Display where
  chrono := ⟨fun _ _ => "", fun _ _ => "", fun _ _ => "", fun _ => "", fun _ => "", fun _ => "",
    fun _ => ""⟩
  float32 _ := ""
  float64 _ := ""

/-- The column is declared as an integer, and a string is written into it. -/
theorem runQuery_writes_undeclared :
    ∃ rows, runQuery .failing (ResultSet.stream ResultSet.twoKinds) = .ok rows ∧
      (RemoteVTab.bindRows rows).columns = [("a", .integer)] ∧
      ¬ (RemoteVTab.bindRows rows).WritesDeclared .blank := by
  have hcol : (RemoteVTab.bindRows
      (ResultSet.twoKinds.flatMap (ResultSet.toRows .failing))).columns = [("a", .integer)] := rfl
  refine ⟨_, ResultSet.runQuery_eq .failing ResultSet.twoKinds, hcol, fun h => ?_⟩
  have hmem : (⟨[⟨"a", "BigVarChar", true⟩], [.text "x"]⟩ : Row) ∈
      ResultSet.twoKinds.flatMap (ResultSet.toRows .failing) :=
    List.mem_cons_of_mem _ List.mem_cons_self
  have hwritten := h 0 "a" .integer (by rw [hcol]; rfl) _ hmem (.text "x") rfl rfl
  cases hwritten

end RustDbDriver
