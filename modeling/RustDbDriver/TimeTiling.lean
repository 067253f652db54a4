import RustDbDriver.TimeRange

/-!
# Dates and instants tile

`RangeChain` is the shape of every plan of `time_partitions`: half-open ranges, each of which starts at
the literal that the one before it ends at, and a closed range at the end. A slice is only skipped where
its two literals are the same, so skipping opens no gap (`rangeChain_timePlan`). For dates the chain goes
from `min` to `max`; for instants it goes from what is printed of `min` to what is printed of the last
boundary.
-/

namespace RustDbDriver
open Lib
namespace Partition

/-! ### Chains of ranges -/

/-- Ranges from one literal to another, in which every literal is related to the next. -/
inductive RangeChain (R : String → String → Prop) : String → List Statement → String → Prop where
  | last {lo hi : String} : R lo hi → RangeChain R lo [.range lo true hi] hi
  | cons {lo mid hi : String} {plan : List Statement} : R lo mid → RangeChain R mid plan hi →
      RangeChain R lo (.range lo false mid :: plan) hi

/-- A backend reads the first literal no later than the second. -/
def Ascends (read : String → Option Int) (lo hi : String) : Prop :=
  ∃ x y, read lo = some x ∧ read hi = some y ∧ x ≤ y

theorem timePlan_succ (bounds : Nat → String) (n : Nat) :
    timePlan bounds (n + 2) = (timeSlice bounds (n + 2) 0).toList ++
      timePlan (fun i => bounds (i + 1)) (n + 1) := by
  have hshift : ∀ i, timeSlice bounds (n + 2) (i + 1) = timeSlice (fun i => bounds (i + 1)) (n + 1) i := by
    intro i
    simp only [timeSlice, Nat.add_right_cancel_iff]
  have hrest : (List.map Nat.succ (List.range (n + 1))).filterMap (timeSlice bounds (n + 2)) =
      (List.range (n + 1)).filterMap (timeSlice (fun i => bounds (i + 1)) (n + 1)) := by
    rw [List.filterMap_map]
    refine List.filterMap_congr ?_
    intro i _
    exact hshift i
  rw [timePlan, timePlan, List.range_succ_eq_map, List.filterMap_cons, hrest]
  cases timeSlice bounds (n + 2) 0 <;> rfl

/-- The plan leads from the first to the last boundary, whichever slices it skips. -/
theorem rangeChain_timePlan {R : String → String → Prop} {bounds : Nat → String} {n : Nat}
    (hR : ∀ i ≤ n, R (bounds i) (bounds (i + 1))) :
    RangeChain R (bounds 0) (timePlan bounds (n + 1)) (bounds (n + 1)) := by
  induction n generalizing bounds with
  | zero => exact .last (hR 0 le_rfl)
  | succ n ih =>
    have hrest := @ih (fun i => bounds (i + 1)) fun i hi => hR (i + 1) (Nat.succ_le_succ hi)
    rw [timePlan_succ]
    by_cases hskip : bounds 0 = bounds 1
    · have hslice : timeSlice bounds (n + 2) 0 = none := by simp [timeSlice, hskip]
      rw [hslice, hskip]
      exact hrest
    · have hslice : timeSlice bounds (n + 2) 0 = some (.range (bounds 0) false (bounds 1)) := by
        simp [timeSlice, hskip]
      rw [hslice]
      exact .cons (hR 0 (Nat.zero_le _)) hrest

/-! ### Instants -/

/-- What the boundaries cover of a span: its whole microseconds, or its whole seconds where it has too
many microseconds. -/
def coveredSpan (span : Int) : Int :=
  if span / 1000 ≤ 2 ^ 63 - 1 then span / 1000 * 1000 else span / 1000000000 * 1000000000

def truncateMicros (ns : Int) : Int := ns - ns % 1000

/-- A plan leads from the text of `min`, truncated to microseconds, to the text of the last boundary,
and holds each instant between them once and no other. -/
structure TilesInstants (read : String → Option Int) (min max : NaiveDateTime) (plan : List Statement) :
    Prop where
  chain : ∃ lo hi, RangeChain (Ascends read) lo plan hi ∧ read lo = some (truncateMicros min.ns) ∧
    read hi = some (truncateMicros (min.ns + coveredSpan (max.ns - min.ns)))
  count : ∀ t, plan.countP (·.hasKey read t) =
    if truncateMicros min.ns ≤ t ∧ t ≤ truncateMicros (min.ns + coveredSpan (max.ns - min.ns)) then 1 else 0

section Instants

variable {format : NaiveDateTime → String} {read : String → Option Int} {min max : NaiveDateTime}

theorem instantPoint_last {n : Nat} (hle : min.ns ≤ max.ns) (hn : 0 < n) :
    instantPoint min max n n = truncateMicros (min.ns + coveredSpan (max.ns - min.ns)) := by
  have hfits : (max.ns - min.ns).toNat / 1000 ≤ 2 ^ 63 - 1 ↔ (max.ns - min.ns) / 1000 ≤ 2 ^ 63 - 1 := by
    omega
  unfold instantPoint boundNs truncateMicros coveredSpan
  rw [splitOffset_last hn]
  by_cases h : (max.ns - min.ns) / 1000 ≤ 2 ^ 63 - 1
  · rw [if_pos (hfits.mpr h), if_pos h]
    omega
  · rw [if_neg (mt hfits.mp h), if_neg h]
    omega

theorem tilesInstants_timePlan (hprints : PrintsMicros format read) (hle : min.ns ≤ max.ns) {n : Nat}
    (hn : 0 < n) : TilesInstants read min max (timePlan (fun i => format (boundAt min max n i)) n) := by
  have hread : ∀ i ≤ n, read (format (boundAt min max n i)) = some (instantPoint min max n i) := by
    intro i hi
    rw [hprints.read_format, (add_splitOffset hle hn hi).2]
    rfl
  obtain ⟨m, rfl⟩ : ∃ m, n = m + 1 := ⟨n - 1, by omega⟩
  constructor
  · refine ⟨_, _, rangeChain_timePlan ?_, ?_, ?_⟩
    · intro i hi
      exact ⟨_, _, hread i (by omega), hread (i + 1) (by omega), instantPoint_mono (Nat.le_succ i)⟩
    · rw [hread 0 (Nat.zero_le _), instantPoint_zero]
      rfl
    · rw [hread (m + 1) le_rfl, instantPoint_last hle hn]
  · intro t
    rw [countP_timePlan hn hread (fun i _ => instantPoint_mono (Nat.le_succ i)), instantPoint_zero,
      instantPoint_last hle hn]
    rfl

/-- For both helpers, on all instants and partition counts: no step goes out of its range, and the
emitted predicates are a chain of ranges that holds each instant between its ends once. -/
theorem instantRanges_tile (chrono : Chrono) (readDatetime readTimestamp : String → Option Int)
    (hdatetime : PrintsMicros (chrono.formatDateTime "%Y-%m-%d %H:%M:%S%.6f") readDatetime)
    (htimestamp : PrintsMicros
      (fun t => chrono.formatDateTimeUtc "%Y-%m-%d %H:%M:%S%.6f%:z" ⟨t⟩) readTimestamp)
    (baseSql keyColumn : String) (min max : NaiveDateTime) (hle : min.ns ≤ max.ns)
    (partitions : UInt32) (hn : 1 ≤ partitions) :
    (∃ plan : List Statement, byDatetimeRange chrono baseSql keyColumn min max partitions =
        some (plan.map (Statement.toPartition (clean baseSql) keyColumn "")) ∧
      (∀ st ∈ plan, Statement.read (clean baseSql) keyColumn ""
        (st.toPartition (clean baseSql) keyColumn "").sql = some st) ∧
      TilesInstants readDatetime min max plan) ∧
    ∃ plan : List Statement, byTimestampRange chrono baseSql keyColumn ⟨min⟩ ⟨max⟩ partitions =
        some (plan.map (Statement.toPartition (clean baseSql) keyColumn "")) ∧
      (∀ st ∈ plan, Statement.read (clean baseSql) keyColumn ""
        (st.toPartition (clean baseSql) keyColumn "").sql = some st) ∧
      TilesInstants readTimestamp min max plan := by
  have hn₀ : 0 < partitions.toNat := UInt32.le_iff_toNat_le.mp hn
  constructor
  · refine ⟨_, byDatetimeRange_eq chrono baseSql keyColumn "" hle hn₀, ?_,
      tilesInstants_timePlan hdatetime hle hn₀⟩
    intro st hst
    exact read_toPartition (quotable_timePlan (fun i _ => hdatetime.quote_notMem _) st hst)
  · refine ⟨_, byTimestampRange_eq chrono baseSql keyColumn "" hle hn₀, ?_,
      tilesInstants_timePlan htimestamp hle hn₀⟩
    intro st hst
    exact read_toPartition (quotable_timePlan (fun i _ => htimestamp.quote_notMem _) st hst)

end Instants

/-! ### Dates -/

/-- A backend reads the printed text of a date as that date. -/
structure PrintsDays (format : NaiveDate → String) (read : String → Option Int) : Prop where
  read_format : ∀ d, read (format d) = some d.days
  quote_notMem : ∀ d, '\'' ∉ (format d).toList

theorem gregorian_prints_date : PrintsDays (Chrono.gregorian.formatDate "%Y-%m-%d") Calendar.readDays where
  read_format d := Calendar.readDays_print d.days
  quote_notMem d := Calendar.quote_notMem_print _ (by decide)

/-- Days from `min` to boundary `i` of `n`. -/
def dayOffset (min max : NaiveDate) (n i : Nat) : Nat := (max.days - min.days).toNat * i / n

def dayAt (min max : NaiveDate) (n i : Nat) : NaiveDate :=
  (min.add ⟨dayOffset min max n i * 86400000000000⟩).getD min

section Dates

variable {min max : NaiveDate} {n i : Nat}

theorem dayOffset_zero : dayOffset min max n 0 = 0 := by simp [dayOffset]

theorem dayOffset_last (hn : 0 < n) : dayOffset min max n n = (max.days - min.days).toNat :=
  Nat.mul_div_cancel _ hn

theorem dayOffset_mono {j : Nat} (hij : i ≤ j) : dayOffset min max n i ≤ dayOffset min max n j :=
  Nat.div_le_div_right (Nat.mul_le_mul_left _ hij)

theorem dayOffset_le (hn : 0 < n) (hi : i ≤ n) : dayOffset min max n i ≤ (max.days - min.days).toNat :=
  (dayOffset_mono hi).trans_eq (dayOffset_last hn)

theorem numDays_eq (days : Int) : Duration.numDays ⟨days * 86400000000000⟩ = days := by
  show Int.tdiv (days * 86400000000000) 86400000000000 = days
  exact Int.mul_tdiv_cancel _ (by decide)

/-- No step of the computation of a boundary leaves its range, and the narrowing loses nothing. -/
theorem dayAt_spec (hle : min.days ≤ max.days) (hn : 0 < n) (hn' : n < 2 ^ 32) (hi : i ≤ n) :
    mulDiv (i64AsU128 (Max.max (max.sub min).numDays 0)) i n = some (dayOffset min max n i) ∧
      u128AsI64 (dayOffset min max n i) = dayOffset min max n i ∧
      (Duration.days (dayOffset min max n i)).bind min.add = some (dayAt min max n i) ∧
      (dayAt min max n i).days = min.days + dayOffset min max n i := by
  have hmin := min.inRange
  have hmax := max.inRange
  have hoffset : dayOffset min max n i ≤ (max.days - min.days).toNat := dayOffset_le hn hi
  have hspan : i64AsU128 (Max.max (max.sub min).numDays 0) = (max.days - min.days).toNat := by
    rw [NaiveDate.sub, numDays_eq, max_eq_left (by omega)]
    unfold i64AsU128
    omega
  have hdays : Duration.days (dayOffset min max n i) = some ⟨dayOffset min max n i * 86400000000000⟩ := by
    unfold Duration.days Duration.ofNs
    rw [if_pos (by simp only [Duration.I64_MAX]; omega)]
  have hadd : min.add ⟨dayOffset min max n i * 86400000000000⟩ =
      some ⟨min.days + (Duration.numDays ⟨dayOffset min max n i * 86400000000000⟩),
        by rw [numDays_eq]; omega⟩ := dif_pos _
  refine ⟨?_, u128AsI64_eq (by omega), ?_, ?_⟩
  · rw [hspan]
    exact mulDiv_eq (by simp only [U128.MAX]; omega) hi hn hn'
  · rw [hdays, Option.bind_some, dayAt, hadd]
    rfl
  · rw [dayAt, hadd]
    show min.days + Duration.numDays _ = _
    rw [numDays_eq]

theorem eq_of_days {d d' : NaiveDate} (h : d.days = d'.days) : d = d' := by
  cases d
  cases d'
  cases h
  rfl

variable {format : NaiveDate → String} {read : String → Option Int}

theorem read_dayAt (hprints : PrintsDays format read) (hle : min.days ≤ max.days) (hn : 0 < n)
    (hn' : n < 2 ^ 32) (hi : i ≤ n) :
    read (format (dayAt min max n i)) = some (min.days + dayOffset min max n i) := by
  rw [hprints.read_format, (dayAt_spec hle hn hn' hi).2.2.2]

theorem rangeChain_dates (hprints : PrintsDays format read) (hle : min.days ≤ max.days) (hn : 0 < n)
    (hn' : n < 2 ^ 32) :
    RangeChain (Ascends read) (format min) (timePlan (fun i => format (dayAt min max n i)) n)
      (format max) := by
  have hfirst : dayAt min max n 0 = min := by
    apply eq_of_days
    rw [(dayAt_spec hle hn hn' (Nat.zero_le n)).2.2.2, dayOffset_zero]
    simp
  have hlast : dayAt min max n n = max := by
    apply eq_of_days
    rw [(dayAt_spec hle hn hn' le_rfl).2.2.2, dayOffset_last hn]
    omega
  have hread : ∀ i ≤ n, read (format (dayAt min max n i)) = some (min.days + dayOffset min max n i) :=
    fun i hi => read_dayAt hprints hle hn hn' hi
  obtain ⟨m, rfl⟩ : ∃ m, n = m + 1 := ⟨n - 1, by omega⟩
  have hchain : RangeChain (Ascends read) (format (dayAt min max (m + 1) 0))
      (timePlan (fun i => format (dayAt min max (m + 1) i)) (m + 1))
      (format (dayAt min max (m + 1) (m + 1))) := by
    refine @rangeChain_timePlan (Ascends read) (fun i => format (dayAt min max (m + 1) i)) m ?_
    intro i hi
    have hmono : dayOffset min max (m + 1) i ≤ dayOffset min max (m + 1) (i + 1) :=
      dayOffset_mono (Nat.le_succ i)
    exact ⟨_, _, hread i (by omega), hread (i + 1) (by omega), by omega⟩
  rwa [hfirst, hlast] at hchain

theorem countP_dates (hprints : PrintsDays format read) (hle : min.days ≤ max.days) (hn : 0 < n)
    (hn' : n < 2 ^ 32) (t : Int) :
    (timePlan (fun i => format (dayAt min max n i)) n).countP (·.hasKey read t) =
      if min.days ≤ t ∧ t ≤ max.days then 1 else 0 := by
  have hmono : ∀ i < n, min.days + (dayOffset min max n i : Int) ≤ min.days + dayOffset min max n (i + 1) := by
    intro i _
    have h : dayOffset min max n i ≤ dayOffset min max n (i + 1) := dayOffset_mono (Nat.le_succ i)
    omega
  have hlast : min.days + ((max.days - min.days).toNat : Int) = max.days := by omega
  rw [countP_timePlan hn (fun i hi => read_dayAt hprints hle hn hn' hi) hmono, dayOffset_zero,
    dayOffset_last hn, hlast]
  simp

end Dates

section DateRange

variable {min max : NaiveDate} {partitions : UInt32}

theorem byDateRange_eq (chrono : Chrono) (baseSql keyColumn orderBy : String) (hle : min.days ≤ max.days)
    (hn : 0 < partitions.toNat) :
    byDateRange chrono baseSql keyColumn min max partitions =
      some ((timePlan (fun i => chrono.formatDate "%Y-%m-%d" (dayAt min max partitions.toNat i))
        partitions.toNat).map (Statement.toPartition (clean baseSql) keyColumn orderBy)) := by
  have hguard : ¬ (partitions = 0 ∨ min.days > max.days) := not_guard_iff.mpr ⟨hn, hle.not_gt⟩
  rw [byDateRange, if_neg hguard]
  have hbounds : (List.range (partitions.toNat + 1)).mapM (fun i => do
        let days := u128AsI64 (← mulDiv (i64AsU128 (Max.max (max.sub min).numDays 0)) i partitions.toNat)
        return chrono.formatDate "%Y-%m-%d" (← min.add (← Duration.days days))) =
      some ((List.range (partitions.toNat + 1)).map
        fun i => chrono.formatDate "%Y-%m-%d" (dayAt min max partitions.toNat i)) := by
    refine mapM_eq_some ?_
    intro i hi
    obtain ⟨hmul, hcast, hadd, -⟩ :=
      dayAt_spec hle hn partitions.toNat_lt (Nat.lt_succ_iff.mp (List.mem_range.mp hi))
    obtain ⟨days, hdays, hdate⟩ := Option.bind_eq_some_iff.mp hadd
    simp only [Option.bind_eq_bind]
    rw [hmul, Option.bind_some, hcast, hdays, Option.bind_some, hdate, Option.bind_some]
    rfl
  simp only [Option.bind_eq_bind] at hbounds ⊢
  rw [hbounds, Option.bind_some]
  exact timePartitions_eq _ keyColumn orderBy _ _

/-- The predicates of `by_date_range` are a chain of ranges from `min` to `max`, the last one closed,
that holds every date from `min` to `max` once and no other; no step of the computation leaves its
range. -/
theorem byDateRange_tiles (chrono : Chrono) (read : String → Option Int)
    (hprints : PrintsDays (chrono.formatDate "%Y-%m-%d") read) (baseSql keyColumn : String)
    (min max : NaiveDate) (hle : min.days ≤ max.days) (partitions : UInt32) (hn : 1 ≤ partitions) :
    (∃ plan : List Statement, byDateRange chrono baseSql keyColumn min max partitions =
        some (plan.map (Statement.toPartition (clean baseSql) keyColumn "")) ∧
      (∀ st ∈ plan, Statement.read (clean baseSql) keyColumn ""
        (st.toPartition (clean baseSql) keyColumn "").sql = some st) ∧
      RangeChain (Ascends read) (chrono.formatDate "%Y-%m-%d" min) plan
        (chrono.formatDate "%Y-%m-%d" max) ∧
      ∀ d : NaiveDate, plan.countP (·.hasKey read d.days) =
        if min.days ≤ d.days ∧ d.days ≤ max.days then 1 else 0) ∧
    ∀ i ≤ partitions.toNat, ∃ days : Nat, ∃ bound : NaiveDate,
      mulDiv (i64AsU128 (Max.max (max.sub min).numDays 0)) i partitions.toNat = some days ∧
        u128AsI64 days = days ∧ (Duration.days days).bind min.add = some bound ∧
        bound.days = min.days + days := by
  have hn₀ : 0 < partitions.toNat := UInt32.le_iff_toNat_le.mp hn
  have hn' := partitions.toNat_lt
  constructor
  · refine ⟨_, byDateRange_eq chrono baseSql keyColumn "" hle hn₀, ?_,
      rangeChain_dates hprints hle hn₀ hn', fun d => countP_dates hprints hle hn₀ hn' d.days⟩
    intro st hst
    exact read_toPartition (quotable_timePlan (fun i _ => hprints.quote_notMem _) st hst)
  · intro i hi
    exact ⟨_, _, dayAt_spec hle hn₀ hn' hi⟩

end DateRange

/-! ### On the calendar -/

theorem instantRanges_tile_day :
    (∃ plan : List Statement, byDatetimeRange Chrono.gregorian "SELECT * FROM t" "at" epoch nextDay 7 =
        some (plan.map (Statement.toPartition (clean "SELECT * FROM t") "at" "")) ∧
      (∀ st ∈ plan, Statement.read (clean "SELECT * FROM t") "at" ""
        (st.toPartition (clean "SELECT * FROM t") "at" "").sql = some st) ∧
      TilesInstants (Calendar.readNs "") epoch nextDay plan) ∧
    ∃ plan : List Statement, byTimestampRange Chrono.gregorian "SELECT * FROM t" "at" ⟨epoch⟩ ⟨nextDay⟩ 7 =
        some (plan.map (Statement.toPartition (clean "SELECT * FROM t") "at" "")) ∧
      (∀ st ∈ plan, Statement.read (clean "SELECT * FROM t") "at" ""
        (st.toPartition (clean "SELECT * FROM t") "at" "").sql = some st) ∧
      TilesInstants (Calendar.readNs "+00:00") epoch nextDay plan :=
  instantRanges_tile Chrono.gregorian _ _ gregorian_prints_datetime gregorian_prints_timestamp
    "SELECT * FROM t" "at" epoch nextDay (by decide) 7 (by decide)

def firstDay : NaiveDate := ⟨0, by decide⟩

def eighthDay : NaiveDate := ⟨7, by decide⟩

/-- Eight days in three. -/
theorem byDateRange_tiles_day :
    (∃ plan : List Statement, byDateRange Chrono.gregorian "SELECT * FROM t" "day" firstDay eighthDay 3 =
        some (plan.map (Statement.toPartition (clean "SELECT * FROM t") "day" "")) ∧
      (∀ st ∈ plan, Statement.read (clean "SELECT * FROM t") "day" ""
        (st.toPartition (clean "SELECT * FROM t") "day" "").sql = some st) ∧
      RangeChain (Ascends Calendar.readDays) (Chrono.gregorian.formatDate "%Y-%m-%d" firstDay) plan
        (Chrono.gregorian.formatDate "%Y-%m-%d" eighthDay) ∧
      ∀ d : NaiveDate, plan.countP (·.hasKey Calendar.readDays d.days) =
        if 0 ≤ d.days ∧ d.days ≤ 7 then 1 else 0) ∧
    ∀ i ≤ 3, ∃ days : Nat, ∃ bound : NaiveDate,
      mulDiv (i64AsU128 (Max.max (eighthDay.sub firstDay).numDays 0)) i 3 = some days ∧
        u128AsI64 days = days ∧ (Duration.days days).bind firstDay.add = some bound ∧
        bound.days = 0 + days :=
  byDateRange_tiles Chrono.gregorian _ gregorian_prints_date "SELECT * FROM t" "day" firstDay eighthDay
    (by decide) 3 (by decide)

end Partition
end RustDbDriver
