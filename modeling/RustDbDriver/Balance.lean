import RustDbDriver.IntRange
import RustDbDriver.Lib.Even
import RustDbDriver.TimeTiling
import RustDbDriver.UuidRange

/-!
# How evenly the partitions share the keys

All range helpers put their boundaries at even cuts of a span (`Lib.cut`). `by_int_range` cuts as many
units as there are keys, so as many slices as there can be hold a key, and the sizes differ by one at
most. The other helpers cut `max - min`, one unit less than there are keys, and give that key to the last
slice: with exactly as many keys as partitions an earlier slice is left empty
(`fullFanOut_iff`), and the sizes differ by two at most.
-/

namespace RustDbDriver
open Lib
namespace Partition

/-! ### The keys of a partition -/

section Keys

variable (base keyColumn : String)

def intKeys (p : Partition) : Set Int :=
  {k | (Statement.read base keyColumn "" p.sql).any (·.hasInt k)}

def uuidKeys (order : UuidOrder) (p : Partition) : Set Uuid :=
  {u | (Statement.read base keyColumn "" p.sql).any (·.hasUuid order u)}

def dayKeys (read : String → Option Int) (p : Partition) : Set NaiveDate :=
  {d | (Statement.read base keyColumn "" p.sql).any (·.hasKey read d.days)}

variable {base keyColumn : String} {st : Statement}

theorem intKeys_toPartition (hq : st.Quotable) :
    intKeys base keyColumn (st.toPartition base keyColumn "") = {k | st.hasInt k} := by
  simp [intKeys, read_toPartition hq]

theorem uuidKeys_toPartition (order : UuidOrder) (hq : st.Quotable) :
    uuidKeys base keyColumn order (st.toPartition base keyColumn "") = {u | st.hasUuid order u} := by
  simp [uuidKeys, read_toPartition hq]

theorem dayKeys_toPartition (read : String → Option Int) (hq : st.Quotable) :
    dayKeys base keyColumn read (st.toPartition base keyColumn "") = {d | st.hasKey read d.days} := by
  simp [dayKeys, read_toPartition hq]

end Keys

/-! ### Integer keys -/

section Ints

variable {min width : Int} {n i : Nat} {st : Statement}

theorem intBound_eq_cut (hw : 0 ≤ width) : intBound min width n i = min + (cut width.toNat n i : Int) := by
  obtain ⟨w, rfl⟩ := Int.eq_ofNat_of_zero_le hw
  simp [intBound, cut]

theorem length_intPlan (hn : 0 < n) (hw : 0 ≤ width) :
    (intPlan min width n).length = Min.min n width.toNat := by
  rw [intPlan, List.length_filterMap_eq_countP, ← pieces_self hn, pieces]
  refine List.countP_congr ?_
  intro i _
  simp only [intSlice, intBound_eq_cut hw, decide_eq_true_eq]
  split
  · simp only [Option.isSome_none, Bool.false_eq_true, false_iff]
    omega
  · simp only [Option.isSome_some, true_iff]
    omega

theorem hasInt_intSlice (hst : intSlice min width n i = some st) (k : Int) :
    st.hasInt k = true ↔ intBound min width n i ≤ k ∧ k < intBound min width n (i + 1) := by
  have hany : (intSlice min width n i).any (·.hasInt k) = _ := any_intSlice k i
  rw [hst, Option.any_some] at hany
  rw [hany, decide_eq_true_eq]

theorem quotable_intSlice (hst : intSlice min width n i = some st) : st.Quotable := by
  unfold intSlice at hst
  split at hst
  · cases hst
  · cases hst
    trivial

/-- A slice that is emitted holds the keys between two neighbouring cuts, and there are some. -/
theorem ncard_intSlice (hw : 0 ≤ width) (hst : intSlice min width n i = some st) :
    {k | st.hasInt k}.ncard = cut width.toNat n (i + 1) - cut width.toNat n i ∧
      cut width.toNat n i < cut width.toNat n (i + 1) := by
  have hset : {k | st.hasInt k} =
      Set.Ico (min + (cut width.toNat n i : Int)) (min + (cut width.toNat n (i + 1) : Int)) := by
    ext k
    rw [Set.mem_ofPred_eq, hasInt_intSlice hst, intBound_eq_cut hw, intBound_eq_cut hw, Set.mem_Ico]
  constructor
  · rw [hset, Set.ncard_eq_toFinset_card', Set.toFinset_Ico, Int.card_Ico]
    omega
  · unfold intSlice at hst
    split at hst
    · cases hst
    · next hne =>
      rw [intBound_eq_cut hw, intBound_eq_cut hw] at hne
      omega

theorem pairwise_intPlan (hn : 0 < n) (hw : 0 ≤ width) :
    (intPlan min width n).Pairwise fun st st' =>
      ∀ k, st.hasInt k = true → ∀ k', st'.hasInt k' = true → k < k' := by
  unfold intPlan
  apply List.pairwise_filterMap.mpr
  apply List.pairwise_lt_range.imp
  intro i j hij st hst st' hst' k hk k' hk'
  have hmono : intBound min width n (i + 1) ≤ intBound min width n j := intBound_mono min hn hw hij
  have hlt := ((hasInt_intSlice hst k).mp hk).2
  have hle := ((hasInt_intSlice hst' k').mp hk').1
  omega

end Ints

/-- `by_int_range` emits as many partitions as were asked for, or as there are keys if these are fewer.
They ascend, each selects a key, and no two differ by more than one in how many keys they select. -/
theorem byIntRange_balanced (baseSql keyColumn : String) (min max : Int64) (partitions : UInt32)
    (hn : 1 ≤ partitions) (hle : min ≤ max) :
    ∃ parts, byIntRange baseSql keyColumn min max partitions = some parts ∧
      (parts.length : Int) = Min.min (partitions.toNat : Int) (max.toInt - min.toInt + 1) ∧
      (parts.Pairwise fun p p' => ∀ k ∈ intKeys (clean baseSql) keyColumn p,
        ∀ k' ∈ intKeys (clean baseSql) keyColumn p', k < k') ∧
      ∀ p ∈ parts, 0 < (intKeys (clean baseSql) keyColumn p).ncard ∧
        ∀ p' ∈ parts, (intKeys (clean baseSql) keyColumn p).ncard ≤
          (intKeys (clean baseSql) keyColumn p').ncard + 1 := by
  have hn₀ : 0 < partitions.toNat := UInt32.le_iff_toNat_le.mp hn
  have hle' := Int64.le_iff_toInt_le.mp hle
  have hw : 0 ≤ max.toInt - min.toInt + 1 := by omega
  refine ⟨_, byIntRange_eq baseSql keyColumn "" hn₀ hle, ?_, ?_, ?_⟩
  · rw [List.length_map, length_intPlan hn₀ hw]
    omega
  · rw [List.pairwise_map]
    refine (pairwise_intPlan hn₀ hw).imp_of_mem ?_
    intro st st' hst hst' hlt k hk k' hk'
    obtain ⟨i, -, hi⟩ := List.mem_filterMap.mp hst
    obtain ⟨j, -, hj⟩ := List.mem_filterMap.mp hst'
    rw [intKeys_toPartition (quotable_intSlice hi)] at hk
    rw [intKeys_toPartition (quotable_intSlice hj)] at hk'
    exact hlt k hk k' hk'
  · intro p hp
    obtain ⟨st, hst, rfl⟩ := List.mem_map.mp hp
    obtain ⟨i, -, hi⟩ := List.mem_filterMap.mp hst
    obtain ⟨hsize, hpos⟩ := ncard_intSlice hw hi
    rw [intKeys_toPartition (quotable_intSlice hi), hsize]
    refine ⟨by omega, ?_⟩
    intro p' hp'
    obtain ⟨st', hst', rfl⟩ := List.mem_map.mp hp'
    obtain ⟨j, -, hj⟩ := List.mem_filterMap.mp hst'
    rw [intKeys_toPartition (quotable_intSlice hj), (ncard_intSlice hw hj).1]
    exact cut_sub_le_add_one hn₀

/-- Eleven keys in four. -/
theorem byIntRange_balanced_eleven :
    ∃ parts, byIntRange "SELECT id FROM t" "id" (-5) 5 4 = some parts ∧ (parts.length : Int) = 4 ∧
      (parts.Pairwise fun p p' => ∀ k ∈ intKeys (clean "SELECT id FROM t") "id" p,
        ∀ k' ∈ intKeys (clean "SELECT id FROM t") "id" p', k < k') ∧
      ∀ p ∈ parts, 0 < (intKeys (clean "SELECT id FROM t") "id" p).ncard ∧
        ∀ p' ∈ parts, (intKeys (clean "SELECT id FROM t") "id" p).ncard ≤
          (intKeys (clean "SELECT id FROM t") "id" p').ncard + 1 :=
  byIntRange_balanced "SELECT id FROM t" "id" (-5) 5 4 (by decide) (by decide)

/-! ### UUID keys -/

section Uuids

variable {min max : Uuid} {order : UuidOrder} {n i : Nat} {st : Statement}

theorem kept_of_uuidSlice (hst : uuidSlice min max order n i = some st) :
    Kept (uuidToKey max order - uuidToKey min order) n i := by
  unfold uuidSlice at hst
  dsimp only at hst
  split at hst
  · next hlast => exact .inl hlast
  · split at hst
    · cases hst
    · next hne =>
      refine .inr ?_
      unfold uuidBound at hne
      unfold cut
      omega

theorem uuidSlice_isSome (hn : 0 < n) (hle : uuidToKey min order ≤ uuidToKey max order) (hi : i < n) :
    (uuidSlice min max order n i).isSome ↔
      Kept (uuidToKey max order - uuidToKey min order) n i := by
  constructor
  · intro h
    obtain ⟨st, hst⟩ := Option.isSome_iff_exists.mp h
    exact kept_of_uuidSlice hst
  · intro h
    have hbound := uuidBound_le (uuidToKey min order) (uuidToKey max order - uuidToKey min order) hn hi.le
    unfold uuidSlice
    dsimp only
    split
    · rw [if_neg (by omega)]
      rfl
    · next hne =>
      have hlt := h.resolve_left hne
      unfold uuidBound
      unfold cut at hlt
      rw [if_neg (by omega)]
      rfl

theorem length_uuidPlan (hn : 0 < n) (hle : uuidToKey min order ≤ uuidToKey max order) :
    (uuidPlan min max order n).length =
      pieces (uuidToKey max order - uuidToKey min order) n (n - 1) + 1 :=
  length_filterMap_kept hn fun _ hi => uuidSlice_isSome hn hle hi

theorem hasUuid_uuidSlice (hn : 0 < n) (hle : uuidToKey min order ≤ uuidToKey max order) (hi : i < n)
    (hst : uuidSlice min max order n i = some st) (u : Uuid) :
    st.hasUuid order u = true ↔
      SliceHas (fun i => (uuidToKey min order : Int) +
        (cut (uuidToKey max order - uuidToKey min order) n i : Int)) n i (uuidToKey u order : Int) := by
  have hany := any_uuidSlice (fun s => (Uuid.read s).map (uuidToKey · order)) (uuidToKey · order)
    (readKey_toString order) hn hle (uuidToKey u order) hi
  have hpoint : ∀ j ≤ n, uuidToKey (keyToUuid (uuidBound (uuidToKey min order)
      (uuidToKey max order - uuidToKey min order) n j) order) order =
        uuidToKey min order + cut (uuidToKey max order - uuidToKey min order) n j :=
    fun j hj => uuidPoint_self hn hle hj
  rw [hst, Option.any_some] at hany
  rw [Statement.hasUuid, hany, decide_eq_true_eq]
  simp only [SliceHas, hpoint i hi.le, hpoint (i + 1) hi, hpoint n le_rfl]
  split <;> omega

theorem mem_range_uuidToKey {x : Int} (h₀ : 0 ≤ x) (h : x < 2 ^ 128) :
    x ∈ Set.range fun u => (uuidToKey u order : Int) := by
  obtain ⟨k, rfl⟩ := Int.eq_ofNat_of_zero_le h₀
  exact ⟨keyToUuid k order, congrArg _ (uuidToKey_keyToUuid (by omega) order)⟩

theorem natCast_uuidToKey_injective : Function.Injective fun u => (uuidToKey u order : Int) :=
  fun _ _ h => uuidToKey_injective order (Int.ofNat_inj.mp h)

theorem ncard_uuidSlice (hn : 0 < n) (hle : uuidToKey min order ≤ uuidToKey max order) (hi : i < n)
    (hst : uuidSlice min max order n i = some st) :
    {u | st.hasUuid order u}.ncard =
      sliceSize (uuidToKey max order - uuidToKey min order) n i := by
  have hmax := uuidToKey_lt max order
  have hset : {u | st.hasUuid order u} =
      {u | SliceHas (fun i => (uuidToKey min order : Int) +
        (cut (uuidToKey max order - uuidToKey min order) n i : Int)) n i (uuidToKey u order : Int)} := by
    ext u
    exact hasUuid_uuidSlice hn hle hi hst u
  rw [hset, ncard_slice natCast_uuidToKey_injective (fun x h₀ h₁ => mem_range_uuidToKey (by omega) (by omega))
    hn hi]

/-- The UUIDs of an interval. -/
theorem ncard_uuids :
    {u | uuidToKey min order ≤ uuidToKey u order ∧ uuidToKey u order ≤ uuidToKey max order}.ncard =
      uuidToKey max order + 1 - uuidToKey min order := by
  have hmax := uuidToKey_lt max order
  have hset : {u | uuidToKey min order ≤ uuidToKey u order ∧ uuidToKey u order ≤ uuidToKey max order} =
      {u | (uuidToKey min order : Int) ≤ uuidToKey u order ∧
        (uuidToKey u order : Int) ≤ uuidToKey max order} := by
    simp only [Int.ofNat_le]
  rw [hset, ncard_interval natCast_uuidToKey_injective fun x h₀ h₁ => mem_range_uuidToKey (by omega) (by omega)]
  omega

end Uuids

/-! ### Dates -/

section Dates

variable {format : NaiveDate → String} {read : String → Option Int} {min max : NaiveDate} {n i : Nat}
  {st : Statement}

/-- Two boundaries print the same literal only if no day lies between them. -/
theorem format_dayAt_inj (hprints : PrintsDays format read) (hle : min.days ≤ max.days) (hn : 0 < n)
    (hn' : n < 2 ^ 32) (hi : i < n) :
    format (dayAt min max n i) = format (dayAt min max n (i + 1)) ↔
      cut (max.days - min.days).toNat n i = cut (max.days - min.days).toNat n (i + 1) := by
  constructor
  · intro heq
    have hlo := read_dayAt hprints hle hn hn' hi.le
    have hhi := read_dayAt hprints hle hn hn' (i := i + 1) hi
    rw [heq, hhi, Option.some_inj] at hlo
    have hoffset : dayOffset min max n i = dayOffset min max n (i + 1) := by omega
    exact hoffset
  · intro heq
    have hoffset : dayOffset min max n i = dayOffset min max n (i + 1) := heq
    apply congrArg format
    apply eq_of_days
    rw [(dayAt_spec hle hn hn' hi.le).2.2.2, (dayAt_spec hle hn hn' hi).2.2.2, hoffset]

theorem timeSlice_isSome (hprints : PrintsDays format read) (hle : min.days ≤ max.days) (hn : 0 < n)
    (hn' : n < 2 ^ 32) (hi : i < n) :
    (timeSlice (fun i => format (dayAt min max n i)) n i).isSome ↔
      Kept (max.days - min.days).toNat n i := by
  have hmono : cut (max.days - min.days).toNat n i ≤ cut (max.days - min.days).toNat n (i + 1) :=
    cut_mono (Nat.le_succ i)
  unfold timeSlice Kept
  simp only [format_dayAt_inj hprints hle hn hn' hi]
  split
  · next hlast => simp [hlast]
  · next hlast =>
    split
    · next heq => simp [hlast, heq]
    · next hne => simp [lt_of_le_of_ne hmono hne]

theorem length_timePlan (hprints : PrintsDays format read) (hle : min.days ≤ max.days) (hn : 0 < n)
    (hn' : n < 2 ^ 32) :
    (timePlan (fun i => format (dayAt min max n i)) n).length =
      pieces (max.days - min.days).toNat n (n - 1) + 1 :=
  length_filterMap_kept hn fun _ hi => timeSlice_isSome hprints hle hn hn' hi

theorem days_injective : Function.Injective NaiveDate.days := fun _ _ h => eq_of_days h

theorem mem_range_days (min max : NaiveDate) {x : Int} (h₀ : min.days ≤ x) (h₁ : x ≤ max.days) :
    x ∈ Set.range NaiveDate.days := by
  have hmin := min.inRange
  have hmax := max.inRange
  exact ⟨⟨x, by omega⟩, rfl⟩

theorem ncard_timeSlice (hprints : PrintsDays format read) (hle : min.days ≤ max.days) (hn : 0 < n)
    (hn' : n < 2 ^ 32) (hi : i < n)
    (hst : timeSlice (fun i => format (dayAt min max n i)) n i = some st) :
    {d : NaiveDate | st.hasKey read d.days}.ncard = sliceSize (max.days - min.days).toNat n i := by
  have hset : {d : NaiveDate | st.hasKey read d.days} =
      {d : NaiveDate | SliceHas (fun i => min.days + (cut (max.days - min.days).toNat n i : Int)) n i
        d.days} := by
    ext d
    have hany := any_timeSlice (fun i hi => read_dayAt hprints hle hn hn' hi) d.days hi
    rw [hst, Option.any_some] at hany
    rw [Set.mem_ofPred_eq, hany, decide_eq_true_eq]
    rfl
  rw [hset, ncard_slice days_injective
    (fun x h₀ h₁ => mem_range_days min max h₀ (by omega)) hn hi]

/-- The dates of an interval. -/
theorem ncard_days (min max : NaiveDate) :
    {d : NaiveDate | min.days ≤ d.days ∧ d.days ≤ max.days}.ncard = (max.days + 1 - min.days).toNat :=
  ncard_interval days_injective fun _ h₀ h₁ => mem_range_days min max h₀ h₁

end Dates

/-! ### All partitions -/

/-- The full number of partitions comes back unless the interval holds exactly as many values as
partitions were asked for, and these are more than one. -/
theorem fullFanOut_iff (chrono : Chrono) (read : String → Option Int)
    (hprints : PrintsDays (chrono.formatDate "%Y-%m-%d") read) (baseSql keyColumn : String)
    (partitions : UInt32) (hn : 1 ≤ partitions) :
    (∀ (min max : Uuid) (order : UuidOrder),
      (partitions.toNat ≤ {u | uuidToKey min order ≤ uuidToKey u order ∧
          uuidToKey u order ≤ uuidToKey max order}.ncard →
        ∃ parts, byUuidRangeOrdered baseSql keyColumn min max partitions order = some parts ∧
          parts.length = partitions.toNat) ↔
      partitions.toNat = 1 ∨ partitions.toNat ≠ {u | uuidToKey min order ≤ uuidToKey u order ∧
        uuidToKey u order ≤ uuidToKey max order}.ncard) ∧
    ∀ min max : NaiveDate,
      (partitions.toNat ≤ {d : NaiveDate | min.days ≤ d.days ∧ d.days ≤ max.days}.ncard →
        ∃ parts, byDateRange chrono baseSql keyColumn min max partitions = some parts ∧
          parts.length = partitions.toNat) ↔
      partitions.toNat = 1 ∨
        partitions.toNat ≠ {d : NaiveDate | min.days ≤ d.days ∧ d.days ≤ max.days}.ncard := by
  have hn₀ : 0 < partitions.toNat := UInt32.le_iff_toNat_le.mp hn
  constructor
  · intro min max order
    rw [ncard_uuids]
    rcases le_or_gt (uuidToKey min order) (uuidToKey max order) with hle | hgt
    · rw [byUuidRangeOrdered_eq baseSql keyColumn "" hn₀ hle]
      simp only [Option.some_inj, exists_eq_left', List.length_map, length_uuidPlan hn₀ hle,
        pieces_pred_iff hn₀]
      omega
    · omega
  · intro min max
    rw [ncard_days]
    rcases le_or_gt min.days max.days with hle | hgt
    · rw [byDateRange_eq chrono baseSql keyColumn "" hle hn₀]
      simp only [Option.some_inj, exists_eq_left', List.length_map,
        length_timePlan hprints hle hn₀ partitions.toNat_lt, pieces_pred_iff hn₀]
      omega
    · omega

/-- Eight days in three. -/
theorem fullFanOut_days :
    (3 ≤ {d : NaiveDate | firstDay.days ≤ d.days ∧ d.days ≤ eighthDay.days}.ncard →
        ∃ parts, byDateRange Chrono.gregorian "SELECT * FROM t" "day" firstDay eighthDay 3 = some parts ∧
          parts.length = 3) ↔
      3 = 1 ∨ 3 ≠ {d : NaiveDate | firstDay.days ≤ d.days ∧ d.days ≤ eighthDay.days}.ncard :=
  (fullFanOut_iff Chrono.gregorian _ gregorian_prints_date "SELECT * FROM t" "day" 3 (by decide)).2
    firstDay eighthDay

/-- Two UUIDs, or eight days, in as many partitions: one partition is missing. -/
theorem fullFanOut_misses_one :
    ({u | uuidToKey Uuid.nil .lexical ≤ uuidToKey u .lexical ∧
        uuidToKey u .lexical ≤ uuidToKey (keyToUuid 1 .lexical) .lexical}.ncard = 2 ∧
      ¬ ∃ parts, byUuidRangeOrdered "SELECT id FROM t" "id" Uuid.nil (keyToUuid 1 .lexical) 2 .lexical =
        some parts ∧ parts.length = 2) ∧
    {d : NaiveDate | firstDay.days ≤ d.days ∧ d.days ≤ eighthDay.days}.ncard = 8 ∧
      ¬ ∃ parts, byDateRange Chrono.gregorian "SELECT * FROM t" "day" firstDay eighthDay 8 =
        some parts ∧ parts.length = 8 := by
  have hle : uuidToKey Uuid.nil .lexical ≤ uuidToKey (keyToUuid 1 .lexical) .lexical := by decide
  have hspan : uuidToKey (keyToUuid 1 .lexical) .lexical - uuidToKey Uuid.nil .lexical = 1 := by decide
  have hdays : firstDay.days ≤ eighthDay.days := by decide
  refine ⟨⟨by rw [ncard_uuids]; rfl, ?_⟩, by rw [ncard_days]; rfl, ?_⟩
  · rintro ⟨parts, hparts, hlength⟩
    rw [byUuidRangeOrdered_eq "SELECT id FROM t" "id" "" (by decide) hle, Option.some_inj] at hparts
    rw [← hparts, List.length_map, length_uuidPlan (by decide) hle, hspan] at hlength
    exact absurd hlength (by decide)
  · rintro ⟨parts, hparts, hlength⟩
    rw [byDateRange_eq Chrono.gregorian "SELECT * FROM t" "day" "" hdays (by decide), Option.some_inj] at hparts
    rw [← hparts, List.length_map,
      length_timePlan gregorian_prints_date hdays (by decide) (by decide)] at hlength
    exact absurd hlength (by decide)

/-- No two partitions differ by more than two in how many values they select, and each selects one. -/
theorem ranges_balanced (chrono : Chrono) (read : String → Option Int)
    (hprints : PrintsDays (chrono.formatDate "%Y-%m-%d") read) (baseSql keyColumn : String)
    (partitions : UInt32) (hn : 1 ≤ partitions) :
    (∀ (min max : Uuid) (order : UuidOrder), uuidToKey min order ≤ uuidToKey max order →
      ∃ parts, byUuidRangeOrdered baseSql keyColumn min max partitions order = some parts ∧
        ∀ p ∈ parts, 0 < (uuidKeys (clean baseSql) keyColumn order p).ncard ∧
          ∀ p' ∈ parts, (uuidKeys (clean baseSql) keyColumn order p).ncard ≤
            (uuidKeys (clean baseSql) keyColumn order p').ncard + 2) ∧
    ∀ min max : NaiveDate, min.days ≤ max.days →
      ∃ parts, byDateRange chrono baseSql keyColumn min max partitions = some parts ∧
        ∀ p ∈ parts, 0 < (dayKeys (clean baseSql) keyColumn read p).ncard ∧
          ∀ p' ∈ parts, (dayKeys (clean baseSql) keyColumn read p).ncard ≤
            (dayKeys (clean baseSql) keyColumn read p').ncard + 2 := by
  have hn₀ : 0 < partitions.toNat := UInt32.le_iff_toNat_le.mp hn
  have hn' := partitions.toNat_lt
  constructor
  · intro min max order hle
    refine ⟨_, byUuidRangeOrdered_eq baseSql keyColumn "" hn₀ hle, ?_⟩
    have hslice : ∀ p ∈ (uuidPlan min max order partitions.toNat).map
          (Statement.toPartition (clean baseSql) keyColumn ""),
        ∃ i, Kept (uuidToKey max order - uuidToKey min order) partitions.toNat i ∧
          (uuidKeys (clean baseSql) keyColumn order p).ncard =
            sliceSize (uuidToKey max order - uuidToKey min order) partitions.toNat i := by
      intro p hp
      obtain ⟨st, hst, rfl⟩ := List.mem_map.mp hp
      obtain ⟨i, hi, hsome⟩ := List.mem_filterMap.mp hst
      refine ⟨i, kept_of_uuidSlice hsome, ?_⟩
      rw [uuidKeys_toPartition order (quotable_uuidPlan st hst),
        ncard_uuidSlice hn₀ hle (List.mem_range.mp hi) hsome]
    exact sizes_le_add_two hn₀ hslice
  · intro min max hle
    refine ⟨_, byDateRange_eq chrono baseSql keyColumn "" hle hn₀, ?_⟩
    have hslice : ∀ p ∈ (timePlan (fun i => chrono.formatDate "%Y-%m-%d"
          (dayAt min max partitions.toNat i)) partitions.toNat).map
          (Statement.toPartition (clean baseSql) keyColumn ""),
        ∃ i, Kept (max.days - min.days).toNat partitions.toNat i ∧
          (dayKeys (clean baseSql) keyColumn read p).ncard =
            sliceSize (max.days - min.days).toNat partitions.toNat i := by
      intro p hp
      obtain ⟨st, hst, rfl⟩ := List.mem_map.mp hp
      obtain ⟨i, hi, hsome⟩ := List.mem_filterMap.mp hst
      have hi' := List.mem_range.mp hi
      refine ⟨i, (timeSlice_isSome hprints hle hn₀ hn' hi').mp (by rw [hsome]; rfl), ?_⟩
      rw [dayKeys_toPartition read (quotable_timePlan (fun i _ => hprints.quote_notMem _) st hst),
        ncard_timeSlice hprints hle hn₀ hn' hi' hsome]
    exact sizes_le_add_two hn₀ hslice

/-- All UUIDs, and eight days, in three. -/
theorem ranges_balanced_days :
    (∃ parts, byUuidRangeOrdered "SELECT * FROM t" "day" Uuid.nil Uuid.max 3 .sqlServer = some parts ∧
      ∀ p ∈ parts, 0 < (uuidKeys (clean "SELECT * FROM t") "day" .sqlServer p).ncard ∧
        ∀ p' ∈ parts, (uuidKeys (clean "SELECT * FROM t") "day" .sqlServer p).ncard ≤
          (uuidKeys (clean "SELECT * FROM t") "day" .sqlServer p').ncard + 2) ∧
    ∃ parts, byDateRange Chrono.gregorian "SELECT * FROM t" "day" firstDay eighthDay 3 = some parts ∧
      ∀ p ∈ parts, 0 < (dayKeys (clean "SELECT * FROM t") "day" Calendar.readDays p).ncard ∧
        ∀ p' ∈ parts, (dayKeys (clean "SELECT * FROM t") "day" Calendar.readDays p).ncard ≤
          (dayKeys (clean "SELECT * FROM t") "day" Calendar.readDays p').ncard + 2 := by
  have h := ranges_balanced Chrono.gregorian _ gregorian_prints_date "SELECT * FROM t" "day" 3 (by decide)
  exact ⟨h.1 Uuid.nil Uuid.max .sqlServer (by decide), h.2 firstDay eighthDay (by decide)⟩

end Partition
end RustDbDriver
