import RustDbDriver.Chunks
import RustDbDriver.Plan
import RustDbDriver.Strategy

/-!
# A call of a table function

From the named parameters to the last chunk. `bind_plans` says which partitions every call gets, and the size of
its pool. A connector runs them over a driver, and `delivers_of_answers` is what the three table functions
share: a call fails as its driver does, or DuckDB reads the rows the call is about, if every statement that comes
to a result returns what it selects.
-/

namespace RustDbDriver
open Lib RustDbDriver.Partition

/-! ### What the parameters ask for -/

namespace Window

variable {n : Nat}

theorem length_plan_le (w : Window) (hn : 0 < n) : (w.plan n).length ≤ n := by
  cases w with
  | uuids min max le => exact (List.length_filterMap_le _ _).trans_eq List.length_range
  | ints min max le => exact (List.length_filterMap_le _ _).trans_eq List.length_range
  | first total pos =>
    rw [plan, length_offsetPlan]
    exact pageCount_le (pageSize_pos hn (toNat_total pos).1) (le_pageSize_mul _ hn)

theorem rows_subset (w : Window) (order : UuidOrder) (base : BaseResult) : w.rows order base ⊆ base.rows := by
  cases w with
  | uuids min max le => exact List.filter_subset_self _
  | ints min max le => exact List.filter_subset_self _
  | first total pos => exact List.take_subset _ _

end Window

namespace BindInfo

variable (bind : BindInfo) (parseUuid : String → Option Uuid)

/-- How many partitions are asked for; `0` where no strategy applies for want of a count. -/
def count : Nat :=
  match bind.partitions with
  | some n => if n > 0 then (asU32 n).toNat else 0
  | none => 0

/-- The partitions of a call. -/
def planned : List Partition :=
  if bind.count = 0 ∨ bind.window parseUuid = none then [.new bind.query]
  else bind.slices bind.query bind.count (bind.window parseUuid)

/-- The rows a call is about, where UUIDs compare in `order`: those of its window, if it is partitioned, else
all. -/
def wanted (order : UuidOrder) (base : BaseResult) : List Row :=
  if bind.count = 0 then base.rows else (bind.window parseUuid).elim base.rows fun w => w.rows order base

variable {bind parseUuid} {n : Int64} {query : String}

theorem count_eq (hbind : bind.partitions = some n) (hn : n > 0) : bind.count = (asU32 n).toNat := by
  rw [count, hbind]
  exact if_pos hn

theorem count_eq_zero (h : ∀ n, bind.partitions = some n → ¬ n > 0) : bind.count = 0 := by
  unfold count
  split
  · next n hbind => exact if_neg (h n hbind)
  · rfl

/-- Without a positive count no strategy has partitions. -/
theorem buildPartitions_of_not {fuel : Nat} (h : ∀ n, bind.partitions = some n → ¬ n > 0) :
    buildPartitions parseUuid fuel query bind = some [.new query] := by
  have huuid : uuidStrategy parseUuid query bind = some [] := by
    unfold uuidStrategy
    split
    · next hn _ _ => exact if_neg (h _ hn)
    · rfl
  have hint : intStrategy query bind = some [] := by
    unfold intStrategy
    split
    · next hn _ _ => exact if_neg (h _ hn)
    · rfl
  have hoffset : offsetStrategy fuel query bind = some [] := by
    unfold offsetStrategy
    split
    · next hn _ => exact if_neg fun hpos => h _ hn hpos.1
    · rfl
  unfold buildPartitions
  rw [huuid, hint, hoffset]
  rfl

/-- `build_partitions` comes to an end on all parameters, without an overflow. -/
theorem buildPartitions_planned {fuel : Nat} (hfuel : 2 ^ 32 ≤ fuel) (bind : BindInfo) :
    buildPartitions parseUuid fuel bind.query bind = some (bind.planned parseUuid) := by
  by_cases h : ∃ n, bind.partitions = some n ∧ n > 0
  · obtain ⟨n, hbind, hn⟩ := h
    rw [buildPartitions_eq hfuel hbind hn, planned, count_eq hbind hn]
  · have hnot : ∀ n, bind.partitions = some n → ¬ n > 0 := fun n hbind hn => h ⟨n, hbind, hn⟩
    rw [buildPartitions_of_not hnot, planned, if_pos (.inl (count_eq_zero hnot))]

theorem planned_ne_nil : bind.planned parseUuid ≠ [] := by
  unfold planned
  split
  · exact List.cons_ne_nil _ _
  · next h =>
    obtain ⟨hcount, hwindow⟩ := not_or.mp h
    obtain ⟨w, hw⟩ := Option.ne_none_iff_exists'.mp hwindow
    intro hnil
    have hempty : (bind.slices bind.query bind.count (bind.window parseUuid)).isEmpty =
        (bind.window parseUuid).isNone := isEmpty_slices (Nat.pos_of_ne_zero hcount) _
    rw [hnil, hw] at hempty
    cases hempty

theorem length_planned_le : (bind.planned parseUuid).length ≤ max 1 bind.count := by
  unfold planned
  split
  · exact le_max_left 1 _
  · next h =>
    obtain ⟨hcount, hwindow⟩ := not_or.mp h
    obtain ⟨w, hw⟩ := Option.ne_none_iff_exists'.mp hwindow
    rw [slices, List.length_map, hw]
    exact (w.length_plan_le (Nat.pos_of_ne_zero hcount)).trans (le_max_right 1 _)

/-- No key of the base result is stepped back over by the cut points of the call's window. -/
def NoStepsBack (bind : BindInfo) (parseUuid : String → Option Uuid) (backend : Backend) (base : BaseResult) :
    Prop :=
  ∀ w, bind.window parseUuid = some w → ∀ r ∈ base.rows, ∀ u, base.uuidKey r = some u →
    w.stepsBack backend bind.count u = 0

theorem noStepsBack_of_ne_mssql (backend : Backend) (h : backend ≠ .mssql) (base : BaseResult) :
    bind.NoStepsBack parseUuid backend base :=
  fun _ _ _ _ u _ => Window.stepsBack_eq_zero (.inl h) u

/-- The partitions select the rows the call is about, unless its UUIDs are stepped back over. -/
theorem answers_planned {backend : Backend} {base : BaseResult} (hsteps : bind.NoStepsBack parseUuid backend base) :
    (bind.answers backend bind.query base (bind.planned parseUuid)).Perm
      (bind.wanted parseUuid backend.uuidOrder base) := by
  unfold planned wanted
  rcases Nat.eq_zero_or_pos bind.count with hzero | hpos
  · rw [if_pos (.inl hzero), if_pos hzero, answers_query]
  · rw [if_neg hpos.ne']
    cases hw : bind.window parseUuid with
    | none =>
      rw [if_pos (.inr rfl), answers_query]
      rfl
    | some w =>
      rw [if_neg (by simp [hpos.ne']), answers_slices bind.query base w hpos]
      exact w.flatMap_select_plan hpos (hsteps w hw)

theorem wanted_subset (order : UuidOrder) (base : BaseResult) : bind.wanted parseUuid order base ⊆ base.rows := by
  unfold wanted
  split
  · exact List.Subset.refl _
  · cases bind.window parseUuid with
    | none => exact List.Subset.refl _
    | some w => exact w.rows_subset order base

end BindInfo

/-! ### The columns and rows of a call -/

namespace RemoteVTab

/-- One connection for every partition, capped. -/
def maxConnections (partitions : List Partition) : UInt32 :=
  UInt32.ofNat (min (max partitions.length 1) 32)

theorem toNat_maxConnections (partitions : List Partition) :
    (maxConnections partitions).toNat = min (max partitions.length 1) 32 := by
  rw [maxConnections, UInt32.toNat_ofNat']
  omega

variable {parseUuid : String → Option Uuid} {fuel : Nat}

theorem bind_eq (hfuel : 2 ^ 32 ≤ fuel) (connect : BackendConnector) (bind : BindInfo) :
    RemoteVTab.bind parseUuid fuel connect bind = some ((connect bind.connStr (bind.planned parseUuid)
      (maxConnections (bind.planned parseUuid))).map bindRows) := by
  unfold RemoteVTab.bind
  rw [BindInfo.buildPartitions_planned hfuel]
  rfl

/-- On all parameters `bind` comes to an end, with a partition to run at least and no more than it was asked for;
and its pool has a connection for each of them, up to 32. -/
theorem bind_plans (parseUuid : String → Option Uuid) (fuel : Nat) (hfuel : 2 ^ 32 ≤ fuel)
    (connect : BackendConnector) (bind : BindInfo) :
    ∃ (parts : List Partition) (k : UInt32),
      RemoteVTab.bind parseUuid fuel connect bind = some ((connect bind.connStr parts k).map bindRows) ∧
      parts ≠ [] ∧ parts.length ≤ max 1 bind.count ∧ k.toNat = min parts.length 32 := by
  refine ⟨_, _, bind_eq hfuel connect bind, BindInfo.planned_ne_nil, BindInfo.length_planned_le, ?_⟩
  have hpos : 0 < (bind.planned parseUuid).length := List.length_pos_iff.mpr BindInfo.planned_ne_nil
  rw [toNat_maxConnections]
  omega

theorem bind_plans_oneOfTwo :
    ∃ (parts : List Partition) (k : UInt32),
      RemoteVTab.bind Uuid.read (2 ^ 32) (fun _ _ _ => .ok []) BindInfo.oneOfTwo =
        some ((Except.ok []).map bindRows) ∧
      parts ≠ [] ∧ parts.length ≤ max 1 BindInfo.oneOfTwo.count ∧ k.toNat = min parts.length 32 :=
  bind_plans Uuid.read (2 ^ 32) le_rfl (fun _ _ _ => .ok []) BindInfo.oneOfTwo

/-- Calls enough for all rows deliver them, in their order. -/
theorem calls_all (fmt : Display) (data : RemoteQueryBindData) {n : Nat}
    (hn : data.rows.length ≤ VECTOR_SIZE * n) :
    ∃ chunks, calls fmt data n init = some (chunks, data.rows.length) ∧
      chunks.flatMap DataChunk.rows = data.rows.map (project fmt data.colCount) := by
  refine ⟨(List.range n).map (chunkAt fmt data), ?_, ?_⟩
  · rw [calls_init, min_eq_right hn]
  · have hrows : ((List.range n).map (chunkAt fmt data)).flatMap DataChunk.rows =
        ((List.range n).flatMap (block VECTOR_SIZE data.rows)).map (project fmt data.colCount) := by
      rw [List.flatMap_map, List.map_flatMap]
      exact List.flatMap_congr fun k _ => rows_chunkAt k
    rw [hrows, flatMap_block_eq hn]

/-- Rows of the same columns keep them, in the order of the rows. -/
theorem exists_chunks {rows : List Row} {cols : List Column} (hcols : ∀ r ∈ rows, r.columns = cols)
    (fmt : Display) {n : Nat} (hn : (rows.length + 2047) / 2048 ≤ n) :
    ∃ chunks, calls fmt (bindRows rows).data n init = some (chunks, rows.length) ∧
      chunks.flatMap DataChunk.rows = rows.map (project fmt cols.length) := by
  have hlen : rows.length ≤ VECTOR_SIZE * n := by
    unfold VECTOR_SIZE
    omega
  obtain ⟨chunks, hcalls, hchunks⟩ := calls_all fmt (bindRows rows).data hlen
  refine ⟨chunks, hcalls, hchunks.trans ?_⟩
  show rows.map (project fmt (bindRows rows).data.colCount) = _
  cases rows with
  | nil => rfl
  | cons r rows =>
    have hcount : (bindRows (r :: rows)).data.colCount = cols.length := by
      rw [← hcols r List.mem_cons_self]
      rfl
    rw [hcount]

theorem names_bindRows {rows : List Row} {cols : List Column} (hcols : ∀ r ∈ rows, r.columns = cols)
    (hne : rows ≠ []) : (bindRows rows).columns.map Prod.fst = cols.map Column.name := by
  obtain ⟨r, rows, rfl⟩ := List.exists_cons_of_ne_nil hne
  have hr := hcols r List.mem_cons_self
  refine List.ext_getElem (by simp [bindRows, Row.columnCount, hr]) ?_
  intro i h₁ h₂
  have hi : i < cols.length := by simpa using h₂
  simp [bindRows, hr, hi]

/-- DuckDB gets `rows` of the columns `cols`, in some order, when it scans all there is. Where there are no rows
it gets no column either, whatever the columns of the query. -/
def Delivers (bound : Bound) (cols : List Column) (rows : List Row) : Prop :=
  bound.columns.map Prod.fst = (if rows.isEmpty then [] else cols.map Column.name) ∧
  ∀ (fmt : Display) (n : Nat), (rows.length + 2047) / 2048 ≤ n →
    ∃ chunks pos, calls fmt bound.data n init = some (chunks, pos) ∧
      (chunks.flatMap DataChunk.rows).Perm (rows.map (project fmt cols.length))

theorem delivers_bindRows {out rows : List Row} {cols : List Column} (hcols : ∀ r ∈ rows, r.columns = cols)
    (hperm : out.Perm rows) : Delivers (bindRows out) cols rows := by
  have hcolumns : ∀ r ∈ out, r.columns = cols := fun r hr => hcols r (hperm.mem_iff.mp hr)
  refine ⟨?_, ?_⟩
  · split
    · next hempty =>
      rw [List.isEmpty_iff.mp hempty, List.perm_nil] at hperm
      rw [hperm]
      rfl
    · next hne =>
      refine names_bindRows hcolumns ?_
      rintro rfl
      rw [List.nil_perm.mp hperm] at hne
      exact hne rfl
  · intro fmt n hn
    rw [← hperm.length_eq] at hn
    obtain ⟨chunks, hcalls, hchunks⟩ := exists_chunks hcolumns fmt hn
    exact ⟨chunks, _, hcalls, hchunks ▸ hperm.map _⟩

end RemoteVTab

/-- What the partitions of a call return together, where each returns what it selects. -/
theorem BindInfo.perm_planned {parseUuid : String → Option Uuid} {bind : BindInfo} {base : BaseResult}
    {backend : Backend} (hsteps : bind.NoStepsBack parseUuid backend base)
    {outs : Fin (bind.planned parseUuid).length → List Row}
    (houts : ∀ i, (outs i).Perm (base.answer backend.uuidOrder bind.query (bind.partitionKey.getD "")
      (bind.orderBy.getD "") (bind.planned parseUuid)[i])) :
    (List.ofFn outs).flatten.Perm (bind.wanted parseUuid backend.uuidOrder base) := by
  refine List.Perm.trans ?_ (BindInfo.answers_planned hsteps)
  rw [BindInfo.answers, List.flatMap_def]
  refine List.Perm.flatten_congr (List.forall₂_iff_get.mpr ⟨by simp, ?_⟩)
  intro i h₁ h₂
  simpa using houts ⟨i, by simpa using h₁⟩

/-! ### Connectors -/

section Connectors

variable {Driver : Type} (query : Driver → DbDriver)

/-- `BackendConnector::connect_and_query`: the driver connects, and `query_partitioned` runs the partitions. An
error is told by its text; `none` as long as the call has not returned. -/
def connectAndQuery (connected : Except String Driver) (partitions : List Partition) (σ : Futures.Schedule) :
    Option (Except String (List Row)) :=
  match connected with
  | .error text => some (.error text)
  | .ok driver =>
    ((query driver).queryPartitioned partitions σ).map fun result => result.mapError toString

/-- The connector of a driver: it returns what its call comes to in some order of events. -/
def BackendConnector.Runs (connect : BackendConnector) (connected : String → UInt32 → Except String Driver) :
    Prop :=
  ∀ connStr partitions k, ∃ σ,
    connectAndQuery query (connected connStr k) partitions σ = some (connect connStr partitions k)

/-- The connector of a driver whose queries complete one after the other. -/
def promptConnector (connected : String → UInt32 → Except String Driver) : BackendConnector :=
  fun connStr partitions k => (connectAndQuery query (connected connStr k) partitions
    (.prompt (List.range (partitions.length + 1)))).getD (.ok [])

theorem promptConnector_runs (connected : String → UInt32 → Except String Driver) :
    (promptConnector query connected).Runs query connected := by
  intro connStr partitions k
  refine ⟨.prompt (List.range (partitions.length + 1)), ?_⟩
  have hsettles : Futures.Schedule.Settles partitions.length 1 (.prompt (List.range (partitions.length + 1))) :=
    Futures.Schedule.settles_prompt (by simp) fun i hi => List.mem_range.mpr (by omega)
  have hsome : (connectAndQuery query (connected connStr k) partitions
      (.prompt (List.range (partitions.length + 1)))).isSome := by
    unfold connectAndQuery
    split
    · rfl
    · rw [Option.isSome_map]
      exact DbDriver.queryPartitioned_isSome hsettles
  obtain ⟨r, hr⟩ := Option.isSome_iff_exists.mp hsome
  rw [promptConnector, hr, Option.getD_some]

/-- Why a connector fails: the driver does not connect, or one of its queries fails. -/
inductive ConnectorFails (connected : Except String Driver) (Fails : Driver → Nat → Partition → DbError → Prop)
    (partitions : List Partition) : String → Prop where
  | connect {text : String} : connected = .error text → ConnectorFails connected Fails partitions text
  | query {driver : Driver} {i : Nat} {p : Partition} {err : DbError} : connected = .ok driver →
    partitions[i]? = some p → Fails driver i p err → ConnectorFails connected Fails partitions (toString err)

/-- Whether every statement of a call that comes to a result returns the rows it selects, in any order. -/
def BindInfo.Answered (bind : BindInfo) (parseUuid : String → Option Uuid) (order : UuidOrder) (base : BaseResult)
    (d : DbDriver) : Prop :=
  ∀ i p out, (bind.planned parseUuid)[i]? = some p → d.query i p.sql p.params = .ok out →
    out.Perm (base.answer order bind.query (bind.partitionKey.getD "") (bind.orderBy.getD "") p)

open RemoteVTab

variable {parseUuid : String → Option Uuid} {fuel : Nat} {bind : BindInfo} {base : BaseResult} {backend : Backend}

/-- A call returns the rows it is about if no query fails, and the error of a query otherwise. -/
theorem result_planned (hsteps : bind.NoStepsBack parseUuid backend base) {d : DbDriver}
    (hanswers : bind.Answered parseUuid backend.uuidOrder base d) {σ : Futures.Schedule}
    {result : Except DbError (List Row)} (hresult : d.queryPartitioned (bind.planned parseUuid) σ = some result) :
    (∃ out, result = .ok out ∧ out.Perm (bind.wanted parseUuid backend.uuidOrder base) ∧
      ∀ i p err, (bind.planned parseUuid)[i]? = some p → d.query i p.sql p.params ≠ .error err) ∨
    ∃ err, result = .error err ∧
      ∃ i p, (bind.planned parseUuid)[i]? = some p ∧ d.query i p.sql p.params = .error err := by
  rcases DbDriver.queryPartitioned_results hresult with ⟨outs, rfl, houts⟩ | ⟨err, rfl, i, herr⟩
  · refine .inl ⟨_, rfl, BindInfo.perm_planned hsteps fun i => ?_, ?_⟩
    · exact hanswers i _ _ (List.getElem?_eq_getElem i.isLt) (houts i)
    · intro i p err hp hquery
      obtain ⟨hi, rfl⟩ := List.getElem?_eq_some_iff.mp hp
      have hok := houts ⟨i, hi⟩
      exact nomatch hok.symm.trans hquery
  · exact .inr ⟨err, rfl, i, _, List.getElem?_eq_getElem i.isLt, herr⟩

variable {Fails : Driver → Nat → Partition → DbError → Prop} {query}

theorem delivers_of_answers (hfuel : 2 ^ 32 ≤ fuel) (hsteps : bind.NoStepsBack parseUuid backend base)
    {cols : List Column}
    (hcols : ∀ r ∈ base.rows, r.columns = cols)
    (hfails : ∀ driver i p err, (query driver).query i p.sql p.params = .error err ↔ Fails driver i p err)
    {connected : String → UInt32 → Except String Driver}
    (hanswers : ∀ driver, connected bind.connStr (maxConnections (bind.planned parseUuid)) = .ok driver →
      bind.Answered parseUuid backend.uuidOrder base (query driver))
    {connect : BackendConnector} (hconnect : connect.Runs query connected) :
    let connection := connected bind.connStr (maxConnections (bind.planned parseUuid))
    (∃ text, RemoteVTab.bind parseUuid fuel connect bind = some (.error text) ∧
      ConnectorFails connection Fails (bind.planned parseUuid) text) ∨
    ∃ bound, RemoteVTab.bind parseUuid fuel connect bind = some (.ok bound) ∧
      (∀ text, ¬ ConnectorFails connection Fails (bind.planned parseUuid) text) ∧
      Delivers bound cols (bind.wanted parseUuid backend.uuidOrder base) := by
  intro connection
  obtain ⟨σ, hσ⟩ := hconnect bind.connStr (bind.planned parseUuid) (maxConnections (bind.planned parseUuid))
  rw [bind_eq hfuel]
  cases hconnection : connection with
  | error text =>
    rw [show connected _ _ = _ from hconnection] at hσ
    rw [← Option.some.inj hσ]
    exact .inl ⟨text, rfl, .connect rfl⟩
  | ok driver =>
    rw [show connected _ _ = _ from hconnection] at hσ
    obtain ⟨result, hresult, htext⟩ := Option.map_eq_some_iff.mp hσ
    rw [← htext]
    rcases result_planned hsteps (hanswers driver hconnection) hresult with
      ⟨out, rfl, hperm, hnone⟩ | ⟨err, rfl, i, p, hp, herr⟩
    · have hwanted : ∀ r ∈ bind.wanted parseUuid backend.uuidOrder base, r.columns = cols := fun r hr =>
        hcols r (BindInfo.wanted_subset _ base hr)
      refine .inr ⟨bindRows out, rfl, ?_, delivers_bindRows hwanted hperm⟩
      rintro text (h | ⟨⟨⟩, hp, hfail⟩)
      · cases h
      · exact hnone _ _ _ hp ((hfails _ _ _ _).mpr hfail)
    · exact .inl ⟨_, rfl, .query rfl hp ((hfails _ _ _ _).mp herr)⟩

end Connectors

end RustDbDriver
