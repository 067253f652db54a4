import RustDbDriver.Strategy

/-!
# UUID keys on the three backends

`build_partitions` cuts a UUID key in byte order for every backend, and a backend evaluates the
predicates in its own order. Seen in that order the cut points may step back, and a UUID of the window
is then selected once more for every step back over it (`countP_uuidPlan_of_window`).
-/

namespace RustDbDriver
open Lib RustDbDriver.Partition

/-- Whether a statement returns the rows whose key is `u`, the query itself included. -/
def Partition.selectsUuid (query keyColumn orderBy : String) (order : UuidOrder) (u : Uuid)
    (p : Partition) : Bool :=
  match Statement.read (clean query) keyColumn orderBy p.sql with
  | some st => st.hasUuid order u
  | none => p.sql = query

/-- Seen in `cmp`, no cut point of the byte-order split of `[min, max]` into `n` lies above the next
one, unless it is at or below `min` or the next one is above `max`. -/
def CutsAscend (cmp : UuidOrder) (min max : Uuid) (n : Nat) : Prop :=
  ∀ i, i + 1 < n →
    uuidPoint min max .lexical cmp n i ≤ uuidPoint min max .lexical cmp n (i + 1) ∨
    uuidPoint min max .lexical cmp n i ≤ uuidToKey min cmp ∨
    uuidToKey max cmp < uuidPoint min max .lexical cmp n (i + 1)

section Cuts

variable {cmp : UuidOrder} {min max : Uuid} {m : Nat}

/-- Inside the window every UUID is selected once, and once more for every step back over it. -/
theorem countP_uuidPlan_of_window (hle : uuidToKey min .lexical ≤ uuidToKey max .lexical) {u : Uuid}
    (h₀ : uuidToKey min cmp ≤ uuidToKey u cmp) (h₁ : uuidToKey u cmp ≤ uuidToKey max cmp) :
    (uuidPlan min max .lexical (m + 1)).countP (·.hasUuid cmp u) =
      falls (uuidPoint min max .lexical cmp (m + 1)) m (uuidToKey u cmp) + 1 := by
  rw [countP_uuidPlan (Nat.succ_pos m) hle]
  refine holders_eq_falls ?_ ?_
  · rwa [uuidPoint_zero]
  · rwa [uuidPoint_last (Nat.succ_pos m) hle]

/-- Cut points that ascend step back over no UUID of the window, and others step back over one. -/
theorem cutsAscend_iff (hlecmp : uuidToKey min cmp ≤ uuidToKey max cmp) :
    CutsAscend cmp min max (m + 1) ↔
      ∀ u, uuidToKey min cmp ≤ uuidToKey u cmp → uuidToKey u cmp ≤ uuidToKey max cmp →
        falls (uuidPoint min max .lexical cmp (m + 1)) m (uuidToKey u cmp) = 0 := by
  constructor
  · intro h u h₀ h₁
    refine Nat.eq_zero_of_not_pos ?_
    intro hpos
    obtain ⟨i, hi, hback⟩ := falls_pos_iff.mp hpos
    rcases h i (by omega) with h | h | h <;> omega
  · intro h i hi
    by_contra hno
    simp only [not_or, not_le, not_lt] at hno
    obtain ⟨hback, hmin, hmax⟩ := hno
    -- the larger one of `min` and the cut point that was stepped back to
    have hover : ∃ u, uuidToKey min cmp ≤ uuidToKey u cmp ∧ uuidToKey u cmp ≤ uuidToKey max cmp ∧
        uuidPoint min max .lexical cmp (m + 1) (i + 1) ≤ uuidToKey u cmp ∧
        uuidToKey u cmp < uuidPoint min max .lexical cmp (m + 1) i := by
      rcases le_total (uuidToKey min cmp) (uuidPoint min max .lexical cmp (m + 1) (i + 1)) with hc | hc
      · exact ⟨keyToUuid _ .lexical, hc, hmax, le_rfl, hback⟩
      · exact ⟨min, le_rfl, hlecmp, hc, hmin⟩
    obtain ⟨u, h₀, h₁, hu⟩ := hover
    have hpos := falls_pos_iff.mpr ⟨i, Nat.lt_of_succ_lt_succ hi, hu⟩
    rw [h u h₀ h₁] at hpos
    exact Nat.lt_irrefl 0 hpos

theorem selects_once_iff {n : Nat} (hn : 0 < n)
    (hle : uuidToKey min .lexical ≤ uuidToKey max .lexical)
    (hlecmp : uuidToKey min cmp ≤ uuidToKey max cmp) :
    (∀ u, uuidToKey min cmp ≤ uuidToKey u cmp → uuidToKey u cmp ≤ uuidToKey max cmp →
      (uuidPlan min max .lexical n).countP (·.hasUuid cmp u) = 1) ↔ CutsAscend cmp min max n := by
  obtain ⟨m, rfl⟩ : ∃ m, n = m + 1 := ⟨n - 1, by omega⟩
  rw [cutsAscend_iff hlecmp]
  refine forall_congr' fun u => forall_congr' fun h₀ => forall_congr' fun h₁ => ?_
  rw [countP_uuidPlan_of_window hle h₀ h₁]
  omega

theorem cutsAscend_lexical (hle : uuidToKey min .lexical ≤ uuidToKey max .lexical) (n : Nat) :
    CutsAscend .lexical min max n := by
  intro i hi
  left
  rw [uuidPoint_self (by omega) hle (by omega), uuidPoint_self (by omega) hle (by omega)]
  exact uuidBound_mono (Nat.le_succ i)

end Cuts

section Count

variable (bind : BindInfo) (query : String) (cmp : UuidOrder) (u : Uuid)

theorem countP_query (keyColumn orderBy : String) :
    ([.new query] : List Partition).countP (Partition.selectsUuid query keyColumn orderBy cmp u) = 1 := by
  simp [Partition.selectsUuid, Partition.new, read_query]

theorem countP_slices (w : Window) {n : Nat} (hn : 0 < n) :
    (bind.slices query n (some w)).countP (Partition.selectsUuid query (bind.partitionKey.getD "")
      (bind.orderBy.getD "") cmp u) = (w.plan n).countP (·.hasUuid cmp u) := by
  rw [BindInfo.slices, Option.elim, List.countP_map]
  refine List.countP_congr ?_
  intro st hst
  have hread : Statement.read (clean query) (bind.partitionKey.getD "") (bind.orderBy.getD "")
      (bind.partition query st).sql = some st :=
    Statement.read_print st (w.quotable_plan hn st hst)
  simp [Partition.selectsUuid, hread]

theorem countP_plan_eq_zero {cmp : UuidOrder} {u : Uuid} {w : Window} {n : Nat} (hn : 0 < n)
    (hw : ∀ min max le, w ≠ .uuids min max le) : (w.plan n).countP (·.hasUuid cmp u) = 0 := by
  refine List.countP_eq_zero.mpr ?_
  intro st hst
  cases w with
  | uuids min max le => exact absurd rfl (hw min max le)
  | ints min max le =>
    have := Int64.le_iff_toInt_le.mp le
    obtain ⟨lo, hi, rfl, -⟩ := mem_intPlan hn (by omega) hst
    simp [Statement.hasUuid, Statement.hasKey]
  | first total pos =>
    obtain ⟨limit, offset, rfl, -⟩ := mem_offsetPlan (pageSize_pos hn (Window.toNat_total pos).1) hst
    simp [Statement.hasUuid, Statement.hasKey]

end Count

section Plan

variable {bind : BindInfo} {parseUuid : String → Option Uuid} {key : String} {n : Int64}
  {min max : Uuid} {fuel : Nat} (query : String) (cmp : UuidOrder)

theorem asU32_pos (hn : 1 ≤ n) (hn' : n ≤ 4294967295) :
    0 < n ∧ (asU32 n).toNat = n.toInt.toNat ∧ 0 < n.toInt.toNat := by
  have hpos : 0 < n := Int64.lt_of_lt_of_le (by decide) hn
  have h₁ := Int64.le_iff_toInt_le.mp hn
  have h₂ := Int64.le_iff_toInt_le.mp hn'
  rw [Int64.toInt_one] at h₁
  have hmax : (4294967295 : Int64).toInt = 4294967295 := by decide
  exact ⟨hpos, by rw [toNat_asU32 hpos]; omega, by omega⟩

/-- `min` is at or below `max` in byte order: the plan is the byte-order split. -/
theorem selects_of_le (hfuel : 2 ^ 32 ≤ fuel) (hkey : bind.partitionKey = some key)
    (hbind : bind.partitions = some n) (hn : 1 ≤ n) (hn' : n ≤ 4294967295)
    (hmin : bind.partitionUuidMin.bind parseUuid = some min)
    (hmax : bind.partitionUuidMax.bind parseUuid = some max)
    (hle : uuidToKey min .lexical ≤ uuidToKey max .lexical) :
    ∃ parts, buildPartitions parseUuid fuel query bind = some parts ∧ ∀ u,
      parts.countP (Partition.selectsUuid query key (bind.orderBy.getD "") cmp u) =
        (uuidPlan min max .lexical n.toInt.toNat).countP (·.hasUuid cmp u) := by
  obtain ⟨hpos, htoNat, hm⟩ := asU32_pos hn hn'
  have hwindow : bind.window parseUuid = some (.uuids min max hle) := by
    rw [BindInfo.window, BindInfo.uuidWindow_eq hkey hmin hmax, dif_pos hle]
    rfl
  refine ⟨_, BindInfo.buildPartitions_eq hfuel hbind hpos, fun u => ?_⟩
  rw [if_neg (by simp [hwindow, htoNat, hpos]), htoNat, hwindow]
  have hcount := countP_slices bind query cmp u (.uuids min max hle) hm
  rwa [hkey] at hcount

/-- `min` is above `max` in byte order: the next strategies have it, and the query itself if there is
none of them. -/
theorem selects_of_gt (hfuel : 2 ^ 32 ≤ fuel) (hkey : bind.partitionKey = some key)
    (hbind : bind.partitions = some n) (hn : 1 ≤ n) (hn' : n ≤ 4294967295)
    (hmin : bind.partitionUuidMin.bind parseUuid = some min)
    (hmax : bind.partitionUuidMax.bind parseUuid = some max)
    (hgt : uuidToKey max .lexical < uuidToKey min .lexical) :
    ∃ parts, buildPartitions parseUuid fuel query bind = some parts ∧ ∀ u,
      parts.countP (Partition.selectsUuid query key (bind.orderBy.getD "") cmp u) =
        if bind.intWindow = none ∧ bind.firstWindow = none then 1 else 0 := by
  obtain ⟨hpos, htoNat, hm⟩ := asU32_pos hn hn'
  have hwindow : bind.window parseUuid = bind.intWindow.or bind.firstWindow := by
    rw [BindInfo.window, BindInfo.uuidWindow_eq hkey hmin hmax, dif_neg (Nat.not_le.mpr hgt)]
    rfl
  have hnone : bind.window parseUuid = none ↔ bind.intWindow = none ∧ bind.firstWindow = none := by
    rw [hwindow, Option.or_eq_none_iff]
  refine ⟨_, BindInfo.buildPartitions_eq hfuel hbind hpos, fun u => ?_⟩
  cases hw : bind.window parseUuid with
  | none =>
    rw [if_pos (.inr rfl), if_pos (hnone.mp hw), countP_query]
  | some w =>
    have hno : ¬ (bind.intWindow = none ∧ bind.firstWindow = none) := fun h => by
      rw [hnone.mpr h] at hw
      cases hw
    have hother : ∀ min max le, w ≠ .uuids min max le := by
      rintro min max le rfl
      rw [hwindow] at hw
      rcases Option.or_eq_some_iff.mp hw with h | ⟨-, h⟩
      · simp [BindInfo.intWindow, Option.bind_eq_some_iff] at h
      · simp [BindInfo.firstWindow, Option.bind_eq_some_iff] at h
    have hcount := countP_slices bind query cmp u w hm
    rw [hkey, countP_plan_eq_zero hm hother] at hcount
    rw [if_neg (by simp [htoNat, hpos]), htoNat, if_neg hno]
    exact hcount

end Plan

/-- The plan of a UUID range selects every UUID of `[min, max]` exactly once on PostgreSQL and MySQL;
on SQL Server it does so exactly if the cut points of the byte-order split ascend in
`uniqueidentifier` order, or if `min` lies above `max` in byte order and the query is run as it is. -/
theorem buildPartitions_selects_once_iff (backend : Backend) (parseUuid : String → Option Uuid)
    {fuel : Nat} (hfuel : 2 ^ 32 ≤ fuel) (query : String) (bind : BindInfo) {key : String} {n : Int64}
    {min max : Uuid} (hkey : bind.partitionKey = some key) (hbind : bind.partitions = some n)
    (hn : 1 ≤ n) (hn' : n ≤ 4294967295)
    (hmin : bind.partitionUuidMin.bind parseUuid = some min)
    (hmax : bind.partitionUuidMax.bind parseUuid = some max)
    (hle : uuidToKey min backend.uuidOrder ≤ uuidToKey max backend.uuidOrder) :
    (∃ parts, buildPartitions parseUuid fuel query bind = some parts ∧
      ∀ u, uuidToKey min backend.uuidOrder ≤ uuidToKey u backend.uuidOrder →
        uuidToKey u backend.uuidOrder ≤ uuidToKey max backend.uuidOrder →
        parts.countP (Partition.selectsUuid query key (bind.orderBy.getD "") backend.uuidOrder u) = 1) ↔
    backend ≠ .mssql ∨
      (uuidToKey min .lexical ≤ uuidToKey max .lexical ∧
        CutsAscend .sqlServer min max n.toInt.toNat) ∨
      (uuidToKey max .lexical < uuidToKey min .lexical ∧
        bind.intWindow = none ∧ bind.firstWindow = none) := by
  have hm := (asU32_pos hn hn').2.2
  rcases Nat.lt_or_ge (uuidToKey max .lexical) (uuidToKey min .lexical) with hgt | hlex
  · -- only `uniqueidentifier` order can have `min` below `max` here
    obtain rfl : backend = .mssql := by
      cases backend with
      | mssql => rfl
      | postgres => exact absurd hle (Nat.not_le.mpr hgt)
      | mysql => exact absurd hle (Nat.not_le.mpr hgt)
    obtain ⟨parts, hparts, hcount⟩ := selects_of_gt query Backend.mssql.uuidOrder
      hfuel hkey hbind hn hn' hmin hmax hgt
    simp only [hparts, Option.some.injEq, exists_eq_left', hcount, ne_eq, not_true_eq_false,
      false_or, Nat.not_le.mpr hgt, false_and, hgt, true_and]
    constructor
    · intro h
      by_contra hno
      have := h min le_rfl hle
      rw [if_neg hno] at this
      exact absurd this (by decide)
    · intro h u _ _
      rw [if_pos h]
  · obtain ⟨parts, hparts, hcount⟩ := selects_of_le query backend.uuidOrder
      hfuel hkey hbind hn hn' hmin hmax hlex
    simp only [hparts, Option.some.injEq, exists_eq_left', hcount, selects_once_iff hm hlex hle,
      hlex, Nat.not_lt.mpr hlex, true_and, false_and, or_false]
    cases backend with
    | mssql => simp [Backend.uuidOrder]
    | postgres => simpa [Backend.uuidOrder] using cutsAscend_lexical hlex n.toInt.toNat
    | mysql => simpa [Backend.uuidOrder] using cutsAscend_lexical hlex n.toInt.toNat

def BindInfo.wholeSpace : BindInfo where
  connStr := ""
  query := "SELECT id FROM t"
  partitions := some 6
  partitionKey := some "id"
  partitionUuidMin := some "00000000-0000-0000-0000-000000000000"
  partitionUuidMax := some "ffffffff-ffff-ffff-ffff-ffffffffffff"

theorem buildPartitions_selects_once_wholeSpace :
    (∃ parts, buildPartitions Uuid.read (2 ^ 32) "SELECT id FROM t" .wholeSpace = some parts ∧
      ∀ u, uuidToKey Uuid.nil .lexical ≤ uuidToKey u .lexical →
        uuidToKey u .lexical ≤ uuidToKey Uuid.max .lexical →
        parts.countP (Partition.selectsUuid "SELECT id FROM t" "id" "" .lexical u) = 1) ↔
    Backend.postgres ≠ .mssql ∨
      (uuidToKey Uuid.nil .lexical ≤ uuidToKey Uuid.max .lexical ∧
        CutsAscend .sqlServer Uuid.nil Uuid.max 6) ∨
      (uuidToKey Uuid.max .lexical < uuidToKey Uuid.nil .lexical ∧
        BindInfo.wholeSpace.intWindow = none ∧ BindInfo.wholeSpace.firstWindow = none) :=
  buildPartitions_selects_once_iff .postgres Uuid.read le_rfl "SELECT id FROM t" .wholeSpace
    (n := 6) rfl rfl (by decide) (by decide) (by decide) (by decide) (by decide)

/-- On SQL Server the six partitions select this UUID three times. -/
theorem mssql_selects_thrice :
    ∃ parts u, buildPartitions Uuid.read (2 ^ 32) "SELECT id FROM t" .wholeSpace = some parts ∧
      Uuid.read "00000000-0000-0000-0000-800000000000" = some u ∧
      uuidToKey Uuid.nil Backend.mssql.uuidOrder ≤ uuidToKey u Backend.mssql.uuidOrder ∧
      uuidToKey u Backend.mssql.uuidOrder ≤ uuidToKey Uuid.max Backend.mssql.uuidOrder ∧
      parts.countP (Partition.selectsUuid "SELECT id FROM t" "id" "" Backend.mssql.uuidOrder u) = 3 := by
  have hkey : BindInfo.wholeSpace.partitionKey = some "id" := rfl
  have hbind : BindInfo.wholeSpace.partitions = some 6 := rfl
  have hmin : BindInfo.wholeSpace.partitionUuidMin.bind Uuid.read = some Uuid.nil := by decide
  have hmax : BindInfo.wholeSpace.partitionUuidMax.bind Uuid.read = some Uuid.max := by decide
  obtain ⟨parts, hparts, hcount⟩ := selects_of_le "SELECT id FROM t" .sqlServer (le_refl (2 ^ 32))
    hkey hbind (by decide) (by decide) hmin hmax (by decide)
  refine ⟨parts, ⟨#v[0, 0, 0, 0, 0, 0, 0, 0, 0, 0, 0x80, 0, 0, 0, 0, 0]⟩, hparts, by decide,
    by decide, by decide, ?_⟩
  refine (hcount _).trans ?_
  rw [countP_uuidPlan (by decide) (by decide)]
  decide +kernel

end RustDbDriver
