import RustDbDriver.Partition
import RustDbDriver.Plan

/-!
# Instant key ranges

`by_datetime_range` and `by_timestamp_range` interpolate in whole microseconds, or in whole seconds
where the span has too many microseconds, and print six digits of the fraction. The slices tile what
lies between the first and the last *printed* boundary; `window_eq_iff` says when that is what lies
between `min` and `max`.
-/

namespace RustDbDriver
open Lib
namespace Partition

/-! ### Interpolation -/

/-- Boundary offset `i` of `n` across a span, all in nanoseconds. -/
def splitOffset (span n i : Nat) : Nat :=
  if span / 1000 ≤ 2 ^ 63 - 1 then 1000 * (span / 1000 * i / n)
  else 1000000000 * (span / 1000000000 * i / n)

section Split

variable {span n i : Nat}

theorem splitOffset_zero : splitOffset span n 0 = 0 := by simp [splitOffset]

theorem splitOffset_last (hn : 0 < n) :
    splitOffset span n n =
      if span / 1000 ≤ 2 ^ 63 - 1 then 1000 * (span / 1000)
      else 1000000000 * (span / 1000000000) := by
  unfold splitOffset
  rw [Nat.mul_div_cancel _ hn, Nat.mul_div_cancel _ hn]

theorem splitOffset_mono (span n : Nat) {j : Nat} (hij : i ≤ j) : splitOffset span n i ≤ splitOffset span n j := by
  unfold splitOffset
  split <;> exact Nat.mul_le_mul_left _ (Nat.div_le_div_right (Nat.mul_le_mul_left _ hij))

theorem splitOffset_le (span : Nat) (hn : 0 < n) (hi : i ≤ n) : splitOffset span n i ≤ span := by
  refine (splitOffset_mono span n hi).trans ?_
  rw [splitOffset_last hn]
  split <;> omega

theorem u128AsI64_eq {x : Nat} (h : x ≤ 2 ^ 63 - 1) : u128AsI64 x = x :=
  Int.bmod_eq_of_le (by omega) (by omega)

theorem i64AsU128_eq {x : Nat} (h : x < 2 ^ 128) : i64AsU128 x = x := by
  unfold i64AsU128
  omega

theorem interpolate_eq (count : Nat) (hcount : count ≤ 2 ^ 63 - 1) (hi : i ≤ n) (hn : 0 < n)
    (hn' : n < 2 ^ 32) :
    mulDiv (i64AsU128 count) i n = some (count * i / n) ∧
      u128AsI64 (count * i / n) = (count * i / n : Nat) ∧ count * i / n ≤ count := by
  have hle : count * i / n ≤ count := by
    calc count * i / n ≤ count * n / n := Nat.div_le_div_right (Nat.mul_le_mul_left _ hi)
      _ = count := Nat.mul_div_cancel _ hn
  rw [i64AsU128_eq (by omega)]
  exact ⟨mulDiv_eq (by simp only [U128.MAX]; omega) hi hn hn', u128AsI64_eq (hle.trans hcount), hle⟩

theorem microseconds_eq {x : Nat} (h : x ≤ 2 ^ 63 - 1) :
    Duration.microseconds x = some ⟨(1000 * x : Nat)⟩ := by
  unfold Duration.microseconds Duration.ofNs
  rw [if_pos (by simp only [Duration.I64_MAX]; omega)]
  congr 2
  omega

theorem seconds_eq {x : Nat} (h : x ≤ (2 ^ 63 - 1) / 1000) :
    Duration.seconds x = some ⟨(1000000000 * x : Nat)⟩ := by
  unfold Duration.seconds Duration.ofNs
  rw [if_pos (by simp only [Duration.I64_MAX]; omega)]
  congr 2
  omega

theorem numMicroseconds_eq : Duration.numMicroseconds ⟨span⟩ =
    if span / 1000 ≤ 2 ^ 63 - 1 then some ((span / 1000 : Nat) : Int) else none := by
  have htdiv : Int.tdiv span 1000 = (span / 1000 : Nat) := by
    rw [Int.tdiv_eq_ediv_of_nonneg (Int.natCast_nonneg span)]
    omega
  have hfits : Duration.FitsI64 (span / 1000 : Nat) ↔ span / 1000 ≤ 2 ^ 63 - 1 := by
    simp only [Duration.FitsI64, Duration.I64_MAX]
    omega
  unfold Duration.numMicroseconds
  simp only [htdiv, hfits]

theorem numSeconds_eq : Duration.numSeconds ⟨span⟩ = (span / 1000000000 : Nat) := by
  show Int.tdiv span 1000000000 = _
  rw [Int.tdiv_eq_ediv_of_nonneg (Int.natCast_nonneg span)]
  omega

/-- The computation of an offset overflows nowhere, on any span between two instants. -/
theorem splitDuration_eq (hspan : span ≤ 200000000 * 86400000000000) (hi : i ≤ n) (hn : 0 < n)
    (hn' : n < 2 ^ 32) : splitDuration ⟨span⟩ i n = some ⟨splitOffset span n i⟩ := by
  unfold splitDuration splitOffset
  rw [numMicroseconds_eq, numSeconds_eq]
  by_cases hfits : span / 1000 ≤ 2 ^ 63 - 1
  · obtain ⟨hmul, hcast, hle⟩ := interpolate_eq _ hfits hi hn hn'
    rw [if_pos hfits, if_pos hfits]
    show (mulDiv (i64AsU128 (span / 1000 : Nat)) i n).bind _ = _
    rw [hmul, Option.bind_some, hcast]
    exact microseconds_eq (hle.trans hfits)
  · obtain ⟨hmul, hcast, hle⟩ := interpolate_eq (span / 1000000000) (by omega) hi hn hn'
    rw [if_neg hfits, if_neg hfits]
    show (mulDiv (i64AsU128 (span / 1000000000 : Nat)) i n).bind _ = _
    rw [hmul, Option.bind_some, hcast]
    exact seconds_eq (hle.trans (by omega))

end Split

/-! ### Boundaries -/

def boundNs (min max : NaiveDateTime) (n i : Nat) : Int :=
  min.ns + splitOffset (max.ns - min.ns).toNat n i

def boundAt (min max : NaiveDateTime) (n i : Nat) : NaiveDateTime :=
  (min.add ⟨splitOffset (max.ns - min.ns).toNat n i⟩).getD min

section Bounds

variable {min max : NaiveDateTime} {n i : Nat}

theorem boundNs_mem (hle : min.ns ≤ max.ns) (hn : 0 < n) (hi : i ≤ n) :
    min.ns ≤ boundNs min max n i ∧ boundNs min max n i ≤ max.ns := by
  have hle' := splitOffset_le (max.ns - min.ns).toNat hn hi
  unfold boundNs
  omega

theorem add_splitOffset (hle : min.ns ≤ max.ns) (hn : 0 < n) (hi : i ≤ n) :
    min.add ⟨splitOffset (max.ns - min.ns).toNat n i⟩ = some (boundAt min max n i) ∧
      (boundAt min max n i).ns = boundNs min max n i := by
  have hmem := boundNs_mem hle hn hi
  have hmin := min.inRange
  have hmax := max.inRange
  have hadd : min.add ⟨splitOffset (max.ns - min.ns).toNat n i⟩ =
      some ⟨boundNs min max n i, by omega, by omega⟩ := dif_pos _
  unfold boundAt
  rw [hadd]
  exact ⟨rfl, rfl⟩

/-- The boundaries of a range of instants never panic. -/
theorem bound_eq (hle : min.ns ≤ max.ns) (hn : 0 < n) (hn' : n < 2 ^ 32) (hi : i ≤ n) :
    (splitDuration (max.sub min) i n).bind min.add = some (boundAt min max n i) := by
  have hspan : max.sub min = ⟨((max.ns - min.ns).toNat : Int)⟩ := by
    unfold NaiveDateTime.sub
    congr 1
    omega
  have hmin := min.inRange
  have hmax := max.inRange
  rw [hspan, splitDuration_eq (by omega) hi hn hn', Option.bind_some]
  exact (add_splitOffset hle hn hi).1

end Bounds

/-! ### The plan -/

/-- The slice between two boundary literals, unless they are the same; the last one is closed. -/
def timeSlice (bounds : Nat → String) (n i : Nat) : Option Statement :=
  if i + 1 = n then some (.range (bounds i) true (bounds (i + 1)))
  else if bounds i = bounds (i + 1) then none
  else some (.range (bounds i) false (bounds (i + 1)))

def timePlan (bounds : Nat → String) (n : Nat) : List Statement :=
  (List.range n).filterMap (timeSlice bounds n)

theorem wrap_range (base keyColumn orderBy lo hi : String) (closed : Bool) :
    (let pred :=
      if closed then s!"{keyColumn} >= '{lo}' AND {keyColumn} <= '{hi}'"
      else s!"{keyColumn} >= '{lo}' AND {keyColumn} < '{hi}'"
    Partition.new s!"SELECT * FROM ({base}) AS _part WHERE {pred}") =
      (Statement.range lo closed hi).toPartition base keyColumn orderBy := by
  cases closed <;> simp [Statement.toPartition, String.append_assoc]

theorem timePartitions_eq (base keyColumn orderBy : String) (bounds : Nat → String) (n : Nat) :
    timePartitions base keyColumn ((List.range (n + 1)).map bounds) =
      some ((timePlan bounds n).map (Statement.toPartition base keyColumn orderBy)) := by
  have hn : ((List.range (n + 1)).map bounds).length - 1 = n := by simp
  unfold timePartitions
  simp only [hn]
  rw [timePlan, List.map_filterMap]
  refine forPush_eq ?_
  intro i hi
  have hi' : i < n := List.mem_range.mp hi
  have hlo : ((List.range (n + 1)).map bounds)[i]? = some (bounds i) := by
    simp [List.getElem?_range (Nat.lt_succ_of_lt hi')]
  have hhi : ((List.range (n + 1)).map bounds)[i + 1]? = some (bounds (i + 1)) := by
    simp [List.getElem?_range (Nat.succ_lt_succ hi')]
  have hwrap := wrap_range base keyColumn orderBy (bounds i) (bounds (i + 1)) (decide (i + 1 = n))
  simp only [hlo, hhi, Option.bind_eq_bind, Option.bind_some, hwrap]
  unfold timeSlice
  by_cases hlast : i + 1 = n
  · simp only [decide_eq_true hlast, if_pos hlast]
    rfl
  · simp only [decide_eq_false hlast, if_neg hlast]
    by_cases heq : bounds i = bounds (i + 1)
    · simp [heq]
    · simp [heq]

/-! ### Evaluating the plan -/

section Evaluate

variable {read : String → Option Int} {bounds : Nat → String} {points : Nat → Int} {n : Nat}

theorem any_timeSlice (hread : ∀ i ≤ n, read (bounds i) = some (points i)) (t : Int) {i : Nat}
    (hi : i < n) :
    (timeSlice bounds n i).any (·.hasKey read t) = decide (SliceHas points n i t) := by
  have hlo := hread i hi.le
  have hhi := hread (i + 1) hi
  unfold timeSlice
  split
  · next hlast =>
    rw [hlast] at hhi
    simp only [Option.any_some, Statement.hasKey, hlo, hhi, SliceHas, if_true, hlast]
  · next hlast =>
    split
    · next hskip =>
      have heq : points i = points (i + 1) := by
        rw [hskip, hhi] at hlo
        exact (Option.some.inj hlo).symm
      simp only [Option.any_none, SliceHas, if_neg hlast, heq, Bool.false_eq,
        decide_eq_false_iff_not]
      omega
    · simp only [Option.any_some, Statement.hasKey, hlo, hhi, SliceHas, if_neg hlast,
        Bool.false_eq_true, if_false]

/-- The plan tiles what lies between the first and the last boundary, as they are read. -/
theorem countP_timePlan (hn : 0 < n) (hread : ∀ i ≤ n, read (bounds i) = some (points i))
    (hpoints : ∀ i < n, points i ≤ points (i + 1)) (t : Int) :
    (timePlan bounds n).countP (·.hasKey read t) =
      if points 0 ≤ t ∧ t ≤ points n then 1 else 0 := by
  obtain ⟨m, rfl⟩ : ∃ m, n = m + 1 := ⟨n - 1, by omega⟩
  rw [timePlan, countP_filterMap_any, ← holders_eq_of_ascending hpoints]
  exact List.countP_congr fun i hi => by rw [any_timeSlice hread t (List.mem_range.mp hi)]

theorem quotable_timePlan (hquote : ∀ i ≤ n, '\'' ∉ (bounds i).toList) :
    ∀ st ∈ timePlan bounds n, st.Quotable := by
  intro st hst
  obtain ⟨i, hi, hsome⟩ := List.mem_filterMap.mp hst
  have hi' := List.mem_range.mp hi
  unfold timeSlice at hsome
  split at hsome
  · cases hsome
    exact ⟨hquote i hi'.le, hquote (i + 1) hi'⟩
  · split at hsome <;> cases hsome
    exact ⟨hquote i hi'.le, hquote (i + 1) hi'⟩

end Evaluate

/-! ### First and last boundary -/

/-- A backend reads the printed text of an instant as that instant, truncated to microseconds. -/
structure PrintsMicros (format : NaiveDateTime → String) (read : String → Option Int) : Prop where
  read_format : ∀ t, read (format t) = some (t.ns - t.ns % 1000)
  quote_notMem : ∀ t, '\'' ∉ (format t).toList

/-- `min` and `max` are what the first and the last boundary print: `min` is a whole microsecond, and
the last boundary reaches `max`, in microseconds or in seconds from `min`. -/
def BoundsPrintable (min max : NaiveDateTime) : Prop :=
  1000 ∣ min.ns ∧
    if (max.ns - min.ns) / 1000 ≤ 2 ^ 63 - 1 then 1000 ∣ max.ns else 1000000000 ∣ max.ns - min.ns

instance (min max : NaiveDateTime) : Decidable (BoundsPrintable min max) := by
  unfold BoundsPrintable; infer_instance

/-- Boundary `i` as it is read back. -/
def instantPoint (min max : NaiveDateTime) (n i : Nat) : Int :=
  boundNs min max n i - boundNs min max n i % 1000

section Points

variable {min max : NaiveDateTime} {n i : Nat}

theorem instantPoint_mono {j : Nat} (hij : i ≤ j) :
    instantPoint min max n i ≤ instantPoint min max n j := by
  have hmono := splitOffset_mono (max.ns - min.ns).toNat n hij
  unfold instantPoint boundNs
  omega

theorem instantPoint_zero : instantPoint min max n 0 = min.ns - min.ns % 1000 := by
  unfold instantPoint boundNs
  rw [splitOffset_zero]
  simp

theorem instantPoint_last_iff (hle : min.ns ≤ max.ns) (hn : 0 < n) (hmin : 1000 ∣ min.ns) :
    instantPoint min max n n = max.ns ↔
      if (max.ns - min.ns) / 1000 ≤ 2 ^ 63 - 1 then 1000 ∣ max.ns
      else 1000000000 ∣ max.ns - min.ns := by
  have hfits : (max.ns - min.ns).toNat / 1000 ≤ 2 ^ 63 - 1 ↔ (max.ns - min.ns) / 1000 ≤ 2 ^ 63 - 1 := by
    omega
  unfold instantPoint boundNs
  rw [splitOffset_last hn]
  by_cases h : (max.ns - min.ns) / 1000 ≤ 2 ^ 63 - 1
  · rw [if_pos (hfits.mpr h), if_pos h]
    omega
  · rw [if_neg (mt hfits.mp h), if_neg h]
    omega

/-- The window between the printed boundaries is `[min, max]` exactly if `min` and `max` are what is
printed. -/
theorem window_eq_iff (hle : min.ns ≤ max.ns) (hn : 0 < n) :
    (∀ t : Int, (instantPoint min max n 0 ≤ t ∧ t ≤ instantPoint min max n n) ↔
      (min.ns ≤ t ∧ t ≤ max.ns)) ↔ BoundsPrintable min max := by
  have hfirst : instantPoint min max n 0 = min.ns ↔ 1000 ∣ min.ns := by
    rw [instantPoint_zero]
    omega
  have horder : instantPoint min max n 0 ≤ instantPoint min max n n := instantPoint_mono hn.le
  unfold BoundsPrintable
  constructor
  · intro h
    have h₀ := (h (instantPoint min max n 0)).mp ⟨le_rfl, horder⟩
    have h₁ := (h (instantPoint min max n n)).mp ⟨horder, le_rfl⟩
    have h₂ := (h min.ns).mpr ⟨le_rfl, hle⟩
    have h₃ := (h max.ns).mpr ⟨hle, le_rfl⟩
    have hmin := hfirst.mp (le_antisymm h₂.1 h₀.1)
    exact ⟨hmin, (instantPoint_last_iff hle hn hmin).mp (le_antisymm h₁.2 h₃.2)⟩
  · rintro ⟨hmin, hmax⟩ t
    rw [hfirst.mpr hmin, (instantPoint_last_iff hle hn hmin).mpr hmax]

end Points

section Range

variable {format : NaiveDateTime → String} {read : String → Option Int} {min max : NaiveDateTime}
  {partitions : UInt32}

theorem instantRange_eq (base keyColumn orderBy : String) (hle : min.ns ≤ max.ns)
    (hn : 0 < partitions.toNat) :
    (do
      let bounds ← (List.range (partitions.toNat + 1)).mapM fun i => do
        return format (← min.add (← splitDuration (max.sub min) i partitions.toNat))
      timePartitions base keyColumn bounds) =
    some ((timePlan (fun i => format (boundAt min max partitions.toNat i)) partitions.toNat).map
      (Statement.toPartition base keyColumn orderBy)) := by
  have hbounds : (List.range (partitions.toNat + 1)).mapM (fun i => do
        return format (← min.add (← splitDuration (max.sub min) i partitions.toNat))) =
      some ((List.range (partitions.toNat + 1)).map
        fun i => format (boundAt min max partitions.toNat i)) := by
    refine mapM_eq_some ?_
    intro i hi
    have hbound := bound_eq hle hn partitions.toNat_lt (Nat.lt_succ_iff.mp (List.mem_range.mp hi))
    obtain ⟨offset, hoffset, hadd⟩ := Option.bind_eq_some_iff.mp hbound
    simp [hoffset, hadd]
  rw [hbounds]
  exact timePartitions_eq base keyColumn orderBy _ _

theorem countP_instantRange (base keyColumn orderBy : String) (hprints : PrintsMicros format read)
    (hle : min.ns ≤ max.ns) (hn : 0 < partitions.toNat) (t : Int) :
    ((timePlan (fun i => format (boundAt min max partitions.toNat i)) partitions.toNat).map
      (Statement.toPartition base keyColumn orderBy)).countP (fun p =>
        (Statement.read base keyColumn orderBy p.sql).any (·.hasKey read t)) =
      if instantPoint min max partitions.toNat 0 ≤ t ∧
          t ≤ instantPoint min max partitions.toNat partitions.toNat then 1 else 0 := by
  have hread : ∀ i ≤ partitions.toNat, read (format (boundAt min max partitions.toNat i)) =
      some (instantPoint min max partitions.toNat i) := by
    intro i hi
    rw [hprints.read_format, (add_splitOffset hle hn hi).2]
    rfl
  rw [countP_toPartition (quotable_timePlan fun i _ => hprints.quote_notMem _),
    countP_timePlan hn hread (fun i _ => instantPoint_mono (Nat.le_succ i))]

theorem instantRange_holds_iff (base keyColumn orderBy : String) (hprints : PrintsMicros format read)
    (hle : min.ns ≤ max.ns) (hn : 0 < partitions.toNat) :
    (∀ t, ((timePlan (fun i => format (boundAt min max partitions.toNat i)) partitions.toNat).map
      (Statement.toPartition base keyColumn orderBy)).countP (fun p =>
        (Statement.read base keyColumn orderBy p.sql).any (·.hasKey read t)) = 1 ↔
      min.ns ≤ t ∧ t ≤ max.ns) ↔ BoundsPrintable min max := by
  rw [← window_eq_iff hle hn]
  refine forall_congr' ?_
  intro t
  rw [countP_instantRange base keyColumn orderBy hprints hle hn]
  split
  · next h => simp [h]
  · next h => simp [h]

variable (chrono : Chrono) (baseSql keyColumn orderBy : String)

theorem byDatetimeRange_eq (hle : min.ns ≤ max.ns) (hn : 0 < partitions.toNat) :
    byDatetimeRange chrono baseSql keyColumn min max partitions =
      some ((timePlan (fun i => chrono.formatDateTime "%Y-%m-%d %H:%M:%S%.6f"
        (boundAt min max partitions.toNat i)) partitions.toNat).map
          (Statement.toPartition (clean baseSql) keyColumn orderBy)) := by
  rw [byDatetimeRange, if_neg (not_guard_iff.mpr ⟨hn, hle.not_gt⟩)]
  exact instantRange_eq _ _ _ hle hn

theorem byTimestampRange_eq (hle : min.ns ≤ max.ns) (hn : 0 < partitions.toNat) :
    byTimestampRange chrono baseSql keyColumn ⟨min⟩ ⟨max⟩ partitions =
      some ((timePlan (fun i => chrono.formatDateTimeUtc "%Y-%m-%d %H:%M:%S%.6f%:z"
        ⟨boundAt min max partitions.toNat i⟩) partitions.toNat).map
          (Statement.toPartition (clean baseSql) keyColumn orderBy)) := by
  rw [byTimestampRange, if_neg (not_guard_iff.mpr ⟨hn, hle.not_gt⟩)]
  exact instantRange_eq _ _ _ hle hn

end Range

/-! ### The calendar -/

theorem gregorian_prints_datetime :
    PrintsMicros (Chrono.gregorian.formatDateTime "%Y-%m-%d %H:%M:%S%.6f") (Calendar.readNs "") where
  read_format t := Calendar.readNs_print t.ns "" rfl rfl (by simp [Scan.StartsWithDigit])
  quote_notMem t := Calendar.quote_notMem_print t.ns (by decide)

theorem gregorian_prints_timestamp :
    PrintsMicros (fun t => Chrono.gregorian.formatDateTimeUtc "%Y-%m-%d %H:%M:%S%.6f%:z" ⟨t⟩)
      (Calendar.readNs "+00:00") where
  read_format t := Calendar.readNs_print t.ns "%:z" rfl rfl (by simp [Scan.StartsWithDigit])
  quote_notMem t := Calendar.quote_notMem_print t.ns (by decide)

def epoch : NaiveDateTime := ⟨0, by decide⟩

def nextDay : NaiveDateTime := ⟨86400000000000, by decide⟩

/-! ### Exact windows -/

/-- For both helpers, the predicates hold an instant exactly once if and only if it lies between `min`
and `max`, provided that `min` and `max` are what the first and the last boundary print. Otherwise
they do so for other instants. -/
theorem instantRanges_exact_iff (chrono : Chrono) (readDatetime readTimestamp : String → Option Int)
    (hdatetime : PrintsMicros (chrono.formatDateTime "%Y-%m-%d %H:%M:%S%.6f") readDatetime)
    (htimestamp : PrintsMicros
      (fun t => chrono.formatDateTimeUtc "%Y-%m-%d %H:%M:%S%.6f%:z" ⟨t⟩) readTimestamp)
    (baseSql keyColumn : String) (min max : NaiveDateTime) (hle : min.ns ≤ max.ns)
    (partitions : UInt32) (hn : 1 ≤ partitions) :
    (∃ parts, byDatetimeRange chrono baseSql keyColumn min max partitions = some parts ∧
      ((∀ t, parts.countP (fun p =>
          (Statement.read (clean baseSql) keyColumn "" p.sql).any (·.hasKey readDatetime t)) = 1 ↔
        min.ns ≤ t ∧ t ≤ max.ns) ↔ BoundsPrintable min max)) ∧
    ∃ parts, byTimestampRange chrono baseSql keyColumn ⟨min⟩ ⟨max⟩ partitions = some parts ∧
      ((∀ t, parts.countP (fun p =>
          (Statement.read (clean baseSql) keyColumn "" p.sql).any (·.hasKey readTimestamp t)) = 1 ↔
        min.ns ≤ t ∧ t ≤ max.ns) ↔ BoundsPrintable min max) := by
  have hn₀ : 0 < partitions.toNat := UInt32.le_iff_toNat_le.mp hn
  exact ⟨⟨_, byDatetimeRange_eq chrono baseSql keyColumn "" hle hn₀,
      instantRange_holds_iff _ _ _ hdatetime hle hn₀⟩,
    ⟨_, byTimestampRange_eq chrono baseSql keyColumn "" hle hn₀,
      instantRange_holds_iff _ _ _ htimestamp hle hn₀⟩⟩

theorem instantRanges_exact_day :
    (∃ parts, byDatetimeRange Chrono.gregorian "SELECT * FROM t" "at" epoch nextDay 4 = some parts ∧
      ∀ t, parts.countP (fun p => (Statement.read (clean "SELECT * FROM t") "at" "" p.sql).any
        (·.hasKey (Calendar.readNs "") t)) = 1 ↔ 0 ≤ t ∧ t ≤ 86400000000000) ∧
    ∃ parts, byTimestampRange Chrono.gregorian "SELECT * FROM t" "at" ⟨epoch⟩ ⟨nextDay⟩ 4 = some parts ∧
      ∀ t, parts.countP (fun p => (Statement.read (clean "SELECT * FROM t") "at" "" p.sql).any
        (·.hasKey (Calendar.readNs "+00:00") t)) = 1 ↔ 0 ≤ t ∧ t ≤ 86400000000000 := by
  have hprintable : BoundsPrintable epoch nextDay := by decide
  obtain ⟨⟨datetimes, hdatetimes, hdatetime⟩, ⟨timestamps, htimestamps, htimestamp⟩⟩ :=
    instantRanges_exact_iff Chrono.gregorian _ _ gregorian_prints_datetime gregorian_prints_timestamp
      "SELECT * FROM t" "at" epoch nextDay (by decide) 4 (by decide)
  exact ⟨⟨datetimes, hdatetimes, hdatetime.mpr hprintable⟩,
    ⟨timestamps, htimestamps, htimestamp.mpr hprintable⟩⟩

/-- From 1500 ns to 2500 ns, the slice printed is from 1 µs to 2 µs: it drops `max` and holds an instant
before `min`. -/
theorem byDatetimeRange_drops_max :
    ∃ min max : NaiveDateTime, min.ns = 1500 ∧ max.ns = 2500 ∧
      ∃ parts, byDatetimeRange Chrono.gregorian "SELECT * FROM t" "at" min max 1 = some parts ∧
        parts.countP (fun p => (Statement.read (clean "SELECT * FROM t") "at" "" p.sql).any
          (·.hasKey (Calendar.readNs "") 2500)) = 0 ∧
        parts.countP (fun p => (Statement.read (clean "SELECT * FROM t") "at" "" p.sql).any
          (·.hasKey (Calendar.readNs "") 1200)) = 1 := by
  refine ⟨⟨1500, by decide⟩, ⟨2500, by decide⟩, rfl, rfl, _,
    byDatetimeRange_eq _ _ _ "" (by decide) (by decide), ?_, ?_⟩
  · rw [countP_instantRange _ _ _ gregorian_prints_datetime (by decide) (by decide)]
    decide
  · rw [countP_instantRange _ _ _ gregorian_prints_datetime (by decide) (by decide)]
    decide

end Partition
end RustDbDriver
