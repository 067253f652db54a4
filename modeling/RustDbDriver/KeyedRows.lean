import RustDbDriver.TimeTiling
import RustDbDriver.UuidRange

/-!
# Rows of the range helpers

The helpers for UUIDs, dates and instants emit plans that hold each key of their window once. Running such a
plan returns the rows of the window, each as often as the base query does, or the error of one of the queries:
`queryPartitioned_keyed`. Nothing is asked of a query that fails.
-/

namespace RustDbDriver
open Lib

/-- The result of a base query, and what its key column holds in a row (`none` for NULL). -/
structure KeyedResult (κ : Type) where
  rows : List Row
  key : Row → Option κ

section Keyed

variable {κ : Type} [LinearOrder κ]

/-- The rows whose key passes a range predicate. -/
def KeyedResult.select (base : KeyedResult κ) (readLit : String → Option κ) (st : Statement) : List Row :=
  base.rows.filter fun r => (base.key r).any (st.hasKey readLit)

/-- Whatever a query for a range returns are the rows whose key is in it, in some order. -/
def DbDriver.ReturnsKeyed (d : DbDriver) (base : KeyedResult κ) (readLit : String → Option κ)
    (sql keyColumn : String) : Prop :=
  ∀ i text lo closed hi out, Statement.read sql keyColumn "" text = some (.range lo closed hi) →
    d.query i text [] = .ok out → out.Perm (base.select readLit (.range lo closed hi))

/-- The driver that answers every range predicate, and fails on all else. -/
def KeyedResult.driver (base : KeyedResult κ) (readLit : String → Option κ) (sql keyColumn : String) :
    DbDriver where
  query _ text _ :=
    match Statement.read sql keyColumn "" text with
    | some (.range lo closed hi) => .ok (base.select readLit (.range lo closed hi))
    | _ => .error (.query text)

theorem KeyedResult.driver_returns (base : KeyedResult κ) (readLit : String → Option κ)
    (sql keyColumn : String) : (base.driver readLit sql keyColumn).ReturnsKeyed base readLit sql keyColumn := by
  intro i text lo closed hi out hread hout
  simp only [driver, hread, Except.ok.injEq] at hout
  exact .of_eq hout.symm

/-- Ranges with literals that can be quoted. -/
def QuotableRanges (plan : List Statement) : Prop :=
  ∀ st ∈ plan, st.Quotable ∧ ∃ lo closed hi, st = .range lo closed hi

variable {d : DbDriver} {base : KeyedResult κ} {readLit : String → Option κ} {sql keyColumn : String}
  {plan : List Statement}

/-- What a plan comes to: the rows with a key of `keep`, or the error of one of its queries. -/
def DbDriver.AllOrError (d : DbDriver) (sql keyColumn : String) (plan : List Statement) (rows : List Row) : Prop :=
  ∀ σ : Futures.Schedule, σ.Settles plan.length 1 →
    (∃ out, d.queryPartitioned (plan.map (Statement.toPartition sql keyColumn "")) σ = some (.ok out) ∧
      out.Perm rows) ∨
    ∃ i st err, plan[i]? = some st ∧ d.query i (st.toPartition sql keyColumn "").sql [] = .error err ∧
      d.queryPartitioned (plan.map (Statement.toPartition sql keyColumn "")) σ = some (.error err)

/-- A plan whose ranges hold each key of `keep` once, and no other, returns the rows with such a key. -/
theorem DbDriver.queryPartitioned_keyed (keep : κ → Bool) (hq : QuotableRanges plan)
    (hd : d.ReturnsKeyed base readLit sql keyColumn)
    (hone : ∀ x, plan.countP (·.hasKey readLit x) = if keep x then 1 else 0) :
    d.AllOrError sql keyColumn plan (base.rows.filter fun r => (base.key r).any keep) := by
  intro σ hσ
  have hsome : (d.queryPartitioned (plan.map (Statement.toPartition sql keyColumn "")) σ).isSome :=
    queryPartitioned_isSome (by rwa [List.length_map])
  obtain ⟨r, hr⟩ := Option.isSome_iff_exists.mp hsome
  rcases queryPartitioned_results hr with ⟨outs, rfl, houts⟩ | ⟨err, rfl, i, hquery⟩
  · have hselect : (List.ofFn outs).flatten.Perm (plan.flatMap (base.select readLit)) := by
      rw [List.flatMap_def]
      refine List.Perm.flatten_congr (List.forall₂_iff_get.mpr ⟨by simp, ?_⟩)
      intro i h₁ h₂
      have hi : i < plan.length := by simpa using h₂
      obtain ⟨hquotable, lo, closed, hi', hst⟩ := hq plan[i] (List.getElem_mem hi)
      have hread : Statement.read sql keyColumn "" (plan[i].toPartition sql keyColumn "").sql = some plan[i] :=
        read_toPartition hquotable
      have hout := houts ⟨i, by simpa using hi⟩
      simp only [Fin.getElem_fin, List.getElem_map] at hout
      have hperm := hd i _ lo closed hi' _ (hst ▸ hread) hout
      simpa [hst] using hperm
    refine .inl ⟨_, hr, hselect.trans (flatMap_filter_perm_filter ?_)⟩
    intro r _
    cases base.key r with
    | none => simp
    | some x => exact hone x
  · have hi : i.val < plan.length := by simpa using i.isLt
    simp only [Fin.getElem_fin, List.getElem_map] at hquery
    exact .inr ⟨i, _, err, List.getElem?_eq_getElem hi, hquery, hr⟩

end Keyed

namespace Partition

/-! ### UUIDs -/

theorem ranges_uuidPlan {min max : Uuid} {order : UuidOrder} {n : Nat} :
    QuotableRanges (uuidPlan min max order n) := by
  intro st hst
  obtain ⟨lo, closed, hi, heq⟩ := mem_uuidPlan hst
  exact ⟨quotable_uuidPlan st hst, _, closed, _, heq⟩

/-- Running the ranges of `by_uuid_range_ordered` on a backend that compares UUIDs in the order they were cut in
returns the rows between `min` and `max` in that order. -/
theorem byUuidRangeOrdered_runs (d : DbDriver) (rows : List Row) (uuid : Row → Option Uuid) (order : UuidOrder)
    (baseSql keyColumn : String) (min max : Uuid) (partitions : UInt32) (hn : 1 ≤ partitions)
    (hle : uuidToKey min order ≤ uuidToKey max order)
    (hd : d.ReturnsKeyed ⟨rows, fun r => (uuid r).map (uuidToKey · order)⟩
      (fun s => (Uuid.read s).map (uuidToKey · order)) (clean baseSql) keyColumn) :
    ∃ plan : List Statement,
      byUuidRangeOrdered baseSql keyColumn min max partitions order =
        some (plan.map (Statement.toPartition (clean baseSql) keyColumn "")) ∧
      d.AllOrError (clean baseSql) keyColumn plan (rows.filter fun r => (uuid r).any fun u =>
        uuidToKey min order ≤ uuidToKey u order ∧ uuidToKey u order ≤ uuidToKey max order) := by
  have hn₀ : 0 < partitions.toNat := UInt32.le_iff_toNat_le.mp hn
  refine ⟨_, byUuidRangeOrdered_eq baseSql keyColumn "" hn₀ hle, ?_⟩
  have hone (x : Nat) := countP_uuidPlan_of_mono (fun s => (Uuid.read s).map (uuidToKey · order))
    (uuidToKey · order) (readKey_toString order) (fun _ _ h => h) hn₀ hle x
  have hall := DbDriver.queryPartitioned_keyed
    (fun x => decide (uuidToKey min order ≤ x ∧ x ≤ uuidToKey max order)) ranges_uuidPlan hd
    (by simpa using hone)
  simpa [Option.any_map, Function.comp_def] using hall

/-- The whole space in `uniqueidentifier` order: the row without a key stays away. -/
theorem byUuidRangeOrdered_runs_all :
    let base := BaseResult.ofIds [.uuid Uuid.max, .null, .uuid Uuid.nil]
    let read := fun s => (Uuid.read s).map (uuidToKey · .sqlServer)
    let d := KeyedResult.driver ⟨base.rows, fun r => (base.uuidKey r).map (uuidToKey · .sqlServer)⟩ read
      (clean "SELECT id FROM t") "id"
    ∃ plan : List Statement,
      byUuidRangeOrdered "SELECT id FROM t" "id" Uuid.nil Uuid.max 4 .sqlServer =
        some (plan.map (Statement.toPartition (clean "SELECT id FROM t") "id" "")) ∧
      d.AllOrError (clean "SELECT id FROM t") "id" plan (base.rows.filter fun r => (base.uuidKey r).any fun u =>
        uuidToKey Uuid.nil .sqlServer ≤ uuidToKey u .sqlServer ∧
          uuidToKey u .sqlServer ≤ uuidToKey Uuid.max .sqlServer) := by
  intro base read d
  exact byUuidRangeOrdered_runs d base.rows base.uuidKey .sqlServer "SELECT id FROM t" "id" Uuid.nil Uuid.max 4
    (by decide) (by decide) (KeyedResult.driver_returns _ _ _ _)

/-! ### Dates and instants -/

theorem ranges_timePlan {bounds : Nat → String} {n : Nat} (hquote : ∀ i, '\'' ∉ (bounds i).toList) :
    QuotableRanges (timePlan bounds n) := by
  intro st hst
  refine ⟨quotable_timePlan (fun i _ => hquote i) st hst, ?_⟩
  obtain ⟨i, -, hslice⟩ := List.mem_filterMap.mp hst
  unfold timeSlice at hslice
  split at hslice
  · cases hslice
    exact ⟨_, _, _, rfl⟩
  · split at hslice
    · cases hslice
    · cases hslice
      exact ⟨_, _, _, rfl⟩

/-- Running the ranges of `by_date_range` returns the rows of the days from `min` to `max`. -/
theorem byDateRange_runs (chrono : Chrono) (read : String → Option Int)
    (hprints : PrintsDays (chrono.formatDate "%Y-%m-%d") read) (d : DbDriver) (rows : List Row)
    (date : Row → Option NaiveDate) (baseSql keyColumn : String) (min max : NaiveDate)
    (hle : min.days ≤ max.days) (partitions : UInt32) (hn : 1 ≤ partitions)
    (hd : d.ReturnsKeyed ⟨rows, fun r => (date r).map NaiveDate.days⟩ read (clean baseSql) keyColumn) :
    ∃ plan : List Statement,
      byDateRange chrono baseSql keyColumn min max partitions =
        some (plan.map (Statement.toPartition (clean baseSql) keyColumn "")) ∧
      d.AllOrError (clean baseSql) keyColumn plan (rows.filter fun r => (date r).any fun day =>
        min.days ≤ day.days ∧ day.days ≤ max.days) := by
  have hn₀ : 0 < partitions.toNat := UInt32.le_iff_toNat_le.mp hn
  refine ⟨_, byDateRange_eq chrono baseSql keyColumn "" hle hn₀, ?_⟩
  have hall := DbDriver.queryPartitioned_keyed (fun x => decide (min.days ≤ x ∧ x ≤ max.days))
    (ranges_timePlan fun i => hprints.quote_notMem _) hd
    (by simpa using countP_dates hprints hle hn₀ partitions.toNat_lt)
  simpa [Option.any_map, Function.comp_def] using hall

/-- The first column of a row, where it is a date. -/
def dateKey (r : Row) : Option NaiveDate :=
  match r.get 0 with
  | some (.date d) => some d
  | _ => none

/-- Eight days in three. -/
theorem byDateRange_runs_day :
    let rows := (BaseResult.ofIds [.date eighthDay, .null, .date firstDay]).rows
    let d := KeyedResult.driver ⟨rows, fun r => (dateKey r).map NaiveDate.days⟩ Calendar.readDays
      (clean "SELECT * FROM t") "day"
    ∃ plan : List Statement,
      byDateRange Chrono.gregorian "SELECT * FROM t" "day" firstDay eighthDay 3 =
        some (plan.map (Statement.toPartition (clean "SELECT * FROM t") "day" "")) ∧
      d.AllOrError (clean "SELECT * FROM t") "day" plan (rows.filter fun r => (dateKey r).any fun day =>
        0 ≤ day.days ∧ day.days ≤ 7) := by
  intro rows d
  exact byDateRange_runs Chrono.gregorian _ gregorian_prints_date d rows dateKey "SELECT * FROM t" "day" firstDay
    eighthDay (by decide) 3 (by decide) (KeyedResult.driver_returns _ _ _ _)

theorem instantRange_runs {format : NaiveDateTime → String} {read : String → Option Int}
    (hprints : PrintsMicros format read) {min max : NaiveDateTime} (hle : min.ns ≤ max.ns) {n : Nat} (hn : 0 < n)
    {d : DbDriver} {rows : List Row} {instant : Row → Option Int} {sql keyColumn : String}
    (hd : d.ReturnsKeyed ⟨rows, instant⟩ read sql keyColumn) :
    d.AllOrError sql keyColumn (timePlan (fun i => format (boundAt min max n i)) n)
      (rows.filter fun r => (instant r).any fun t =>
        truncateMicros min.ns ≤ t ∧ t ≤ truncateMicros (min.ns + coveredSpan (max.ns - min.ns))) :=
  DbDriver.queryPartitioned_keyed _ (ranges_timePlan fun i => hprints.quote_notMem _) hd
    (by simpa using (tilesInstants_timePlan hprints hle hn).count)

/-- Running the ranges of `by_datetime_range` and of `by_timestamp_range` returns the rows between the
microseconds of `min` and those of the last boundary, at the resolution of the column. -/
theorem instantRanges_run (chrono : Chrono) (readDatetime readTimestamp : String → Option Int)
    (hdatetime : PrintsMicros (chrono.formatDateTime "%Y-%m-%d %H:%M:%S%.6f") readDatetime)
    (htimestamp : PrintsMicros
      (fun t => chrono.formatDateTimeUtc "%Y-%m-%d %H:%M:%S%.6f%:z" ⟨t⟩) readTimestamp)
    (datetimes timestamps : DbDriver) (rows : List Row) (instant : Row → Option Int) (baseSql keyColumn : String)
    (min max : NaiveDateTime) (hle : min.ns ≤ max.ns) (partitions : UInt32) (hn : 1 ≤ partitions)
    (hdatetimes : datetimes.ReturnsKeyed ⟨rows, instant⟩ readDatetime (clean baseSql) keyColumn)
    (htimestamps : timestamps.ReturnsKeyed ⟨rows, instant⟩ readTimestamp (clean baseSql) keyColumn) :
    let window := rows.filter fun r => (instant r).any fun t =>
      truncateMicros min.ns ≤ t ∧ t ≤ truncateMicros (min.ns + coveredSpan (max.ns - min.ns))
    (∃ plan : List Statement, byDatetimeRange chrono baseSql keyColumn min max partitions =
        some (plan.map (Statement.toPartition (clean baseSql) keyColumn "")) ∧
      datetimes.AllOrError (clean baseSql) keyColumn plan window) ∧
    ∃ plan : List Statement, byTimestampRange chrono baseSql keyColumn ⟨min⟩ ⟨max⟩ partitions =
        some (plan.map (Statement.toPartition (clean baseSql) keyColumn "")) ∧
      timestamps.AllOrError (clean baseSql) keyColumn plan window := by
  have hn₀ : 0 < partitions.toNat := UInt32.le_iff_toNat_le.mp hn
  exact ⟨⟨_, byDatetimeRange_eq chrono baseSql keyColumn "" hle hn₀, instantRange_runs hdatetime hle hn₀ hdatetimes⟩,
    ⟨_, byTimestampRange_eq chrono baseSql keyColumn "" hle hn₀, instantRange_runs htimestamp hle hn₀ htimestamps⟩⟩

/-- The first column of a row, where it is a `DATETIME`, in nanoseconds. -/
def instantKey (r : Row) : Option Int :=
  match r.get 0 with
  | some (.dateTime dt) => some dt.ns
  | _ => none

theorem instantRanges_run_day :
    let rows := (BaseResult.ofIds [.dateTime epoch, .null, .dateTime nextDay]).rows
    let driver := fun read => KeyedResult.driver ⟨rows, instantKey⟩ read (clean "SELECT * FROM t") "at"
    let window := rows.filter fun r => (instantKey r).any fun t =>
      truncateMicros epoch.ns ≤ t ∧ t ≤ truncateMicros (epoch.ns + coveredSpan (nextDay.ns - epoch.ns))
    (∃ plan : List Statement, byDatetimeRange Chrono.gregorian "SELECT * FROM t" "at" epoch nextDay 7 =
        some (plan.map (Statement.toPartition (clean "SELECT * FROM t") "at" "")) ∧
      (driver (Calendar.readNs "")).AllOrError (clean "SELECT * FROM t") "at" plan window) ∧
    ∃ plan : List Statement, byTimestampRange Chrono.gregorian "SELECT * FROM t" "at" ⟨epoch⟩ ⟨nextDay⟩ 7 =
        some (plan.map (Statement.toPartition (clean "SELECT * FROM t") "at" "")) ∧
      (driver (Calendar.readNs "+00:00")).AllOrError (clean "SELECT * FROM t") "at" plan window := by
  intro rows driver
  exact instantRanges_run Chrono.gregorian _ _ gregorian_prints_datetime gregorian_prints_timestamp
    (driver (Calendar.readNs "")) (driver (Calendar.readNs "+00:00")) rows instantKey "SELECT * FROM t" "at" epoch
    nextDay (by decide) 7 (by decide) (KeyedResult.driver_returns _ _ _ _) (KeyedResult.driver_returns _ _ _ _)

end Partition
end RustDbDriver
