import RustDbDriver.IntRange
import RustDbDriver.Lib.Pieces
import RustDbDriver.Offset
import RustDbDriver.UuidRange
import RustDbDriver.Vtab

/-!
# Strategies

What the plans of `build_partitions` select. A set of named parameters asks for a `Window` of the base
result; `buildPartitions_eq` says that the cascade of strategies emits the plan of that window, or the
query itself. The plan's rows are the window's rows for every kind of window, except for UUIDs on a
backend that does not compare them by their bytes: there a row is selected once more for every step back
of the cut points over it (`flatMap_select_uuids`).
-/

namespace RustDbDriver
open Lib Lib.Pieces RustDbDriver.Partition

/-! ### The query itself -/

def strippable (c : Char) : Bool := isWhitespace c || c == ';'

theorem toList_clean (query : String) : (clean query).toList =
    ((trim isWhitespace query.toList).rdropWhile (· == ';')).rdropWhile isWhitespace :=
  String.toList_ofList

/-- `clean` strips whitespace in front, and whitespace and semicolons behind. -/
theorem clean_split (query : String) :
    ∃ front tail, query.toList = front ++ ((clean query).toList ++ tail) ∧
      (∀ c ∈ front, isWhitespace c = true) ∧ ∀ c ∈ tail, strippable c = true := by
  have hws (c : Char) (h : isWhitespace c = true) : strippable c = true := by simp [strippable, h]
  have hsemi (c : Char) (h : (c == ';') = true) : strippable c = true := by simp [strippable, h]
  obtain ⟨front, t₁, hquery, hfront, ht₁⟩ := trim_split isWhitespace query.toList
  obtain ⟨t₂, h₂, ht₂⟩ := exists_append_rdropWhile hsemi (trim isWhitespace query.toList)
    fun c hc => hws c (ht₁ c hc)
  obtain ⟨t₃, h₃, ht₃⟩ := exists_append_rdropWhile hws
    ((trim isWhitespace query.toList).rdropWhile (· == ';')) ht₂
  refine ⟨front, t₃, ?_, hfront, ht₃⟩
  rw [toList_clean, ← h₃, ← h₂]
  exact hquery

/-- A query is not a slice of itself: the wrapper leaves letters behind the base query, and `clean`
strips none. -/
theorem read_query (query keyColumn orderBy : String) :
    Statement.read (clean query) keyColumn orderBy query = none := by
  by_contra h
  obtain ⟨st, hst⟩ := Option.ne_none_iff_exists'.mp h
  unfold Statement.read at hst
  simp only [Option.bind_eq_bind, Option.bind_eq_some_iff] at hst
  obtain ⟨r₁, h₁, r₂, h₂, r₃, h₃, -⟩ := hst
  have hq := Scan.eq_append_of_lit h₁
  rw [Scan.eq_append_of_lit h₂, Scan.eq_append_of_lit h₃] at hq
  obtain ⟨front, tail, hsplit, hfront, htail⟩ := clean_split query
  have hnil : front = [] := by
    cases front with
    | nil => rfl
    | cons c front =>
      rw [hsplit, List.cons_append] at hq
      have hc : c = 'S' := by simpa using congrArg List.head? hq
      have := hfront c List.mem_cons_self
      rw [hc] at this
      exact absurd this (by decide)
  rw [hnil, List.nil_append] at hsplit
  rw [hsplit] at hq
  -- what stands behind the base query is no longer than what was stripped
  have hlen := congrArg List.length hq
  simp only [List.length_append] at hlen
  have hsuffix : (") AS _part ".toList ++ r₃) <:+ tail := by
    have hread : (") AS _part ".toList ++ r₃) <:+
        "SELECT * FROM (".toList ++ ((clean query).toList ++ (") AS _part ".toList ++ r₃)) := by
      rw [← List.append_assoc]
      exact List.suffix_append ..
    have htail : tail <:+
        "SELECT * FROM (".toList ++ ((clean query).toList ++ (") AS _part ".toList ++ r₃)) := by
      rw [← hq]
      exact List.suffix_append ..
    refine List.suffix_of_suffix_length_le hread htail ?_
    simp only [List.length_append]
    omega
  have hA : 'A' ∈ tail := hsuffix.mem (by simp)
  exact absurd (htail 'A' hA) (by decide)

/-! ### Windows -/

inductive Backend where
  | postgres
  | mysql
  | mssql
deriving DecidableEq, Repr

/-- The order in which a backend compares its UUID keys: byte order for `uuid` and for a
binary-collated `CHAR(36)`, the order of its own for `uniqueidentifier`. -/
def Backend.uuidOrder : Backend → UuidOrder
  | .postgres => .lexical
  | .mysql => .lexical
  | .mssql => .sqlServer

/-- The part of the base result that a complete set of named parameters asks for. -/
inductive Window where
  | uuids (min max : Uuid) (le : uuidToKey min .lexical ≤ uuidToKey max .lexical)
  | ints (min max : Int64) (le : min ≤ max)
  | first (total : Int64) (pos : 0 < total)

namespace Window

/-- The rows of the window, where UUIDs compare in `order`. -/
def rows (order : UuidOrder) (base : BaseResult) : Window → List Row
  | .uuids min max _ => base.rows.filter fun r => (base.uuidKey r).any fun u =>
      uuidToKey min order ≤ uuidToKey u order ∧ uuidToKey u order ≤ uuidToKey max order
  | .ints min max _ => base.rows.filter fun r => (base.intKey r).any fun k =>
      min.toInt ≤ k ∧ k ≤ max.toInt
  | .first total _ => base.rows.take total.toInt.toNat

def plan (n : Nat) : Window → List Statement
  | .uuids min max _ => uuidPlan min max .lexical n
  | .ints min max _ => intPlan min.toInt (max.toInt - min.toInt + 1) n
  | .first total _ => offsetPlan total.toInt.toNat ((total.toInt.toNat + n - 1) / n)

theorem plan_zero (w : Window) : w.plan 0 = [] := by
  cases w with
  | uuids min max le => rfl
  | ints min max le => rfl
  | first total pos => simp [plan, offsetPlan, pageCount]

theorem toNat_total {total : Int64} (pos : 0 < total) :
    0 < total.toInt.toNat ∧ total.toInt.toNat < 2 ^ 63 ∧ total.toUInt64.toNat = total.toInt.toNat := by
  have hpos := Int64.lt_iff_toInt_lt.mp pos
  have hlt := total.toInt_lt
  rw [Int64.toInt_zero] at hpos
  exact ⟨by omega, by omega, Int64.toNat_toUInt64_of_le (Int64.le_of_lt pos)⟩

theorem plan_ne_nil (w : Window) {n : Nat} (hn : 0 < n) : w.plan n ≠ [] := by
  cases w with
  | uuids min max le =>
    have hone := countP_uuidPlan_self hn le min
    rw [if_pos ⟨le_rfl, le⟩] at hone
    intro h
    rw [show uuidPlan min max .lexical n = [] from h] at hone
    simp at hone
  | ints min max le =>
    have hle := Int64.le_iff_toInt_le.mp le
    have hw : 0 ≤ max.toInt - min.toInt + 1 := by omega
    have hone := countP_intPlan min.toInt hn hw min.toInt
    rw [if_pos ⟨le_rfl, by omega⟩] at hone
    intro h
    rw [show intPlan min.toInt (max.toInt - min.toInt + 1) n = [] from h] at hone
    simp at hone
  | first total pos =>
    obtain ⟨hpos, -, -⟩ := toNat_total pos
    have hpage := pageSize_pos hn hpos
    have hcount : 0 < pageCount total.toInt.toNat _ := (lt_pageCount_iff hpage).mpr (by omega)
    intro h
    have := congrArg List.length h
    rw [plan, length_offsetPlan] at this
    simp only [List.length_nil] at this
    omega

theorem quotable_plan (w : Window) {n : Nat} (hn : 0 < n) : ∀ st ∈ w.plan n, st.Quotable := by
  intro st hst
  cases w with
  | uuids min max le => exact quotable_uuidPlan st hst
  | ints min max le =>
    have hle := Int64.le_iff_toInt_le.mp le
    obtain ⟨lo, hi, rfl, -⟩ := mem_intPlan hn (by omega) hst
    trivial
  | first total pos =>
    obtain ⟨limit, offset, rfl, -⟩ := mem_offsetPlan (pageSize_pos hn (toNat_total pos).1) hst
    trivial

/-- A window of UUIDs selects a row as often as its key is held by the slices between the cut points, as
the backend sees them. -/
theorem flatMap_select_uuids {min max : Uuid} (le : uuidToKey min .lexical ≤ uuidToKey max .lexical) {n : Nat}
    (hn : 0 < n) (base : BaseResult) (order : UuidOrder) :
    ((plan n (.uuids min max le)).flatMap (base.select order)).Perm
      (base.rows.flatMap fun r => List.replicate ((base.uuidKey r).elim 0 fun u =>
        holders (uuidPoint min max .lexical order n) n (uuidToKey u order)) r) := by
  have hselect : ∀ st ∈ plan n (.uuids min max le),
      base.select order st = base.rows.filter fun r => (base.uuidKey r).any fun u => st.hasUuid order u := by
    intro st hst
    obtain ⟨lo, closed, hi, rfl⟩ := mem_uuidPlan hst
    rfl
  rw [List.flatMap_def, List.map_congr_left hselect, ← List.flatMap_def]
  refine flatMap_filter_perm.trans (.of_eq ?_)
  refine congrArg (List.flatMap · base.rows) (funext fun r => congrArg (List.replicate · r) ?_)
  cases base.uuidKey r with
  | none => simp
  | some u => exact countP_uuidPlan hn le u

/-- How often the cut points of a UUID window step back over `u`, in the order of SQL Server. The other
backends compare UUIDs in the order that the window is cut in, where nothing steps back. -/
def stepsBack (backend : Backend) (n : Nat) (w : Window) (u : Uuid) : Nat :=
  match backend, w with
  | .mssql, .uuids min max _ =>
    backs (uuidPoint min max .lexical .sqlServer n) n (uuidToKey u .sqlServer)
  | _, _ => 0

section Steps

variable {backend : Backend} {base : BaseResult} {n : Nat}

theorem stepsBack_uuids {min max : Uuid} (le : uuidToKey min .lexical ≤ uuidToKey max .lexical) (hn : 0 < n)
    (u : Uuid) :
    stepsBack backend n (.uuids min max le) u =
      backs (uuidPoint min max .lexical backend.uuidOrder n) n (uuidToKey u backend.uuidOrder) := by
  obtain ⟨m, rfl⟩ : ∃ m, n = m + 1 := ⟨n - 1, by omega⟩
  have hascend : ∀ i < m + 1, uuidPoint min max .lexical .lexical (m + 1) i ≤
      uuidPoint min max .lexical .lexical (m + 1) (i + 1) := by
    intro i hi
    rw [uuidPoint_self hn le hi.le, uuidPoint_self hn le hi]
    exact uuidBound_mono (Nat.le_succ i)
  cases backend with
  | mssql => rfl
  | postgres => exact (backs_eq_zero hascend).symm
  | mysql => exact (backs_eq_zero hascend).symm

/-- How often a key is held, and what that depends on the number of slices. -/
theorem holders_uuids (backend : Backend) {min max : Uuid}
    (le : uuidToKey min .lexical ≤ uuidToKey max .lexical) (hn : 0 < n) (u : Uuid) :
    holders (uuidPoint min max .lexical backend.uuidOrder n) n (uuidToKey u backend.uuidOrder) +
        (if uuidToKey max backend.uuidOrder < uuidToKey u backend.uuidOrder then 1 else 0) =
      stepsBack backend n (.uuids min max le) u +
        (if uuidToKey min backend.uuidOrder ≤ uuidToKey u backend.uuidOrder then 1 else 0) := by
  rw [stepsBack_uuids le hn]
  obtain ⟨m, rfl⟩ : ∃ m, n = m + 1 := ⟨n - 1, by omega⟩
  have h := holders_add_above (b := uuidPoint min max .lexical backend.uuidOrder (m + 1)) (m := m)
    (x := uuidToKey u backend.uuidOrder)
  rwa [uuidPoint_last hn le, reached, uuidPoint_zero] at h

/-- A plan selects the rows of its window, each once, where no key of them is stepped back over. -/
theorem flatMap_select_plan (w : Window) (hn : 0 < n)
    (hsteps : ∀ r ∈ base.rows, ∀ u, base.uuidKey r = some u → w.stepsBack backend n u = 0) :
    ((w.plan n).flatMap (base.select backend.uuidOrder)).Perm (w.rows backend.uuidOrder base) := by
  cases w with
  | uuids min max le =>
    refine (flatMap_select_uuids le hn base backend.uuidOrder).trans (.of_eq ?_)
    refine flatMap_replicate_eq_filter fun r hr => ?_
    cases hkey : base.uuidKey r with
    | none => rfl
    | some u =>
      have hholders := holders_uuids backend le hn u
      rw [hsteps r hr u hkey] at hholders
      simp only [Option.elim, Option.any_some, decide_eq_true_eq]
      split at hholders <;> split at hholders <;> split <;> omega
  | ints min max le =>
    have hle := Int64.le_iff_toInt_le.mp le
    have hin (k : Int) : k < min.toInt + (max.toInt - min.toInt + 1) ↔ k ≤ max.toInt := by omega
    have hw : 0 ≤ max.toInt - min.toInt + 1 := by omega
    have hselect := flatMap_select_intPlan min.toInt hn hw base backend.uuidOrder
    simpa only [hin, plan, rows] using hselect
  | first total pos =>
    exact .of_eq (flatMap_offsetPlan (pageSize_pos hn (toNat_total pos).1) base backend.uuidOrder)

/-- Only UUIDs on SQL Server are stepped back over. -/
theorem stepsBack_eq_zero {w : Window} (h : backend ≠ .mssql ∨ ∀ min max le, w ≠ .uuids min max le) (u : Uuid) :
    w.stepsBack backend n u = 0 := by
  cases backend with
  | postgres => rfl
  | mysql => rfl
  | mssql =>
    cases w with
    | uuids min max le => exact absurd rfl (h.resolve_left (not_not.mpr rfl) min max le)
    | ints min max le => rfl
    | first total pos => rfl

end Steps

end Window

/-! ### The cascade -/

namespace BindInfo

variable (bind : BindInfo)

def uuidWindow (parseUuid : String → Option Uuid) : Option Window := do
  let _ ← bind.partitionKey
  let min ← bind.partitionUuidMin.bind parseUuid
  let max ← bind.partitionUuidMax.bind parseUuid
  if h : uuidToKey min .lexical ≤ uuidToKey max .lexical then some (.uuids min max h) else none

def intWindow : Option Window := do
  let _ ← bind.partitionKey
  let min ← bind.partitionMin
  let max ← bind.partitionMax
  if h : min ≤ max then some (.ints min max h) else none

def firstWindow : Option Window := do
  let _ ← bind.orderBy
  let total ← bind.totalRows
  if h : 0 < total then some (.first total h) else none

/-- The window the named parameters ask for: that of the first strategy whose set is complete. -/
def window (parseUuid : String → Option Uuid) : Option Window :=
  (bind.uuidWindow parseUuid).or (bind.intWindow.or bind.firstWindow)

def partition (query : String) (st : Statement) : Partition :=
  st.toPartition (clean query) (bind.partitionKey.getD "") (bind.orderBy.getD "")

def slices (query : String) (n : Nat) (w : Option Window) : List Partition :=
  (w.elim [] (Window.plan n)).map (bind.partition query)

variable {bind} {parseUuid : String → Option Uuid} {n : Int64} {query : String}

theorem uuidWindow_eq {key : String} {min max : Uuid} (hkey : bind.partitionKey = some key)
    (hmin : bind.partitionUuidMin.bind parseUuid = some min)
    (hmax : bind.partitionUuidMax.bind parseUuid = some max) :
    bind.uuidWindow parseUuid =
      if h : uuidToKey min .lexical ≤ uuidToKey max .lexical then some (.uuids min max h) else none := by
  simp [uuidWindow, hkey, hmin, hmax]

theorem slices_zero (w : Option Window) : bind.slices query 0 w = [] := by
  cases w <;> simp [slices, Window.plan_zero]

theorem isEmpty_slices {m : Nat} (hm : 0 < m) (w : Option Window) :
    (bind.slices query m w).isEmpty = w.isNone := by
  cases w with
  | none => rfl
  | some w => simp [slices, Window.plan_ne_nil w hm]

theorem partition_of_key {key : String} (hkey : bind.partitionKey = some key) :
    bind.partition query = Statement.toPartition (clean query) key (bind.orderBy.getD "") := by
  funext st; rw [partition, hkey]; rfl

theorem partition_of_orderBy {orderBy : String} (horder : bind.orderBy = some orderBy) :
    bind.partition query =
      Statement.toPartition (clean query) (bind.partitionKey.getD "") orderBy := by
  funext st; rw [partition, horder]; rfl

theorem toNat_pos {m : UInt32} (hm : m ≠ 0) : 0 < m.toNat :=
  Nat.pos_of_ne_zero fun h => hm (UInt32.toNat_inj.mp h)

theorem uuidStrategy_eq (hbind : bind.partitions = some n) (hn : n > 0) :
    uuidStrategy parseUuid query bind =
      some (bind.slices query (asU32 n).toNat (bind.uuidWindow parseUuid)) := by
  unfold uuidStrategy uuidWindow
  rw [hbind]
  cases hkey : bind.partitionKey with
  | none => rfl
  | some key =>
    cases hmin : bind.partitionUuidMin.bind parseUuid with
    | none => rfl
    | some min =>
      cases hmax : bind.partitionUuidMax.bind parseUuid with
      | none => rfl
      | some max =>
        simp only [if_pos hn, Option.bind_eq_bind, Option.bind_some]
        by_cases h₀ : asU32 n = 0
        · rw [h₀]
          simp [byUuidRange, byUuidRangeOrdered, slices_zero]
        · by_cases hle : uuidToKey min .lexical ≤ uuidToKey max .lexical
          · rw [dif_pos hle, byUuidRange,
              byUuidRangeOrdered_eq query key (bind.orderBy.getD "") (toNat_pos h₀) hle, slices,
              partition_of_key hkey]
            rfl
          · rw [dif_neg hle]
            simp [byUuidRange, byUuidRangeOrdered, slices, Nat.lt_of_not_le hle]

theorem intStrategy_eq (hbind : bind.partitions = some n) (hn : n > 0) :
    intStrategy query bind = some (bind.slices query (asU32 n).toNat bind.intWindow) := by
  unfold intStrategy intWindow
  rw [hbind]
  cases hkey : bind.partitionKey with
  | none => rfl
  | some key =>
    cases hmin : bind.partitionMin with
    | none => rfl
    | some min =>
      cases hmax : bind.partitionMax with
      | none => rfl
      | some max =>
        simp only [if_pos hn, Option.bind_eq_bind, Option.bind_some]
        by_cases h₀ : asU32 n = 0
        · rw [h₀]
          simp [byIntRange, slices_zero]
        · by_cases hle : min ≤ max
          · rw [dif_pos hle, byIntRange_eq query key (bind.orderBy.getD "") (toNat_pos h₀) hle, slices,
              partition_of_key hkey]
            rfl
          · rw [dif_neg hle]
            simp [byIntRange, slices, Int64.not_le.mp hle]

theorem offsetStrategy_eq {fuel : Nat} (hfuel : 2 ^ 32 ≤ fuel) (hbind : bind.partitions = some n)
    (hn : n > 0) :
    offsetStrategy fuel query bind =
      some (bind.slices query (asU32 n).toNat bind.firstWindow) := by
  unfold offsetStrategy firstWindow
  rw [hbind]
  cases horder : bind.orderBy with
  | none => rfl
  | some orderBy =>
    cases htotal : bind.totalRows with
    | none => rfl
    | some total =>
      simp only [Option.bind_eq_bind, Option.bind_some]
      by_cases hpos : 0 < total
      · rw [if_pos ⟨hn, hpos⟩, dif_pos hpos]
        obtain ⟨h₁, h₂, h₃⟩ := Window.toNat_total hpos
        by_cases h₀ : asU32 n = 0
        · rw [h₀]
          simp [byOffset, slices_zero]
        · have hm := toNat_pos h₀
          have hlt := (asU32 n).toNat_lt
          rw [byOffset_eq query (bind.partitionKey.getD "") orderBy hm (by omega)
            (pagesFit_of_lt hm (by omega) (by omega)) (by omega), slices, partition_of_orderBy horder, h₃]
          rfl
      · rw [if_neg (fun h => hpos h.2), dif_neg hpos]
        rfl

/-- `build_partitions` emits the slices of the window that the parameters ask for, or the query
itself: if they ask for none, and if the partition count is `0` as a `u32`. -/
theorem buildPartitions_eq {fuel : Nat} (hfuel : 2 ^ 32 ≤ fuel) (hbind : bind.partitions = some n)
    (hn : n > 0) :
    buildPartitions parseUuid fuel query bind = some
      (if (asU32 n).toNat = 0 ∨ bind.window parseUuid = none then [.new query]
        else bind.slices query (asU32 n).toNat (bind.window parseUuid)) := by
  unfold buildPartitions
  simp only [uuidStrategy_eq hbind hn, intStrategy_eq hbind hn, offsetStrategy_eq hfuel hbind hn,
    Option.bind_eq_bind, Option.bind_some]
  rcases Nat.eq_zero_or_pos (asU32 n).toNat with h₀ | hpos
  · simp [h₀, slices_zero]
  · simp only [isEmpty_slices hpos, window, Nat.ne_of_gt hpos, false_or]
    cases bind.uuidWindow parseUuid <;> cases bind.intWindow <;> cases bind.firstWindow <;> simp

end BindInfo

theorem toNat_asU32 {n : Int64} (hn : 0 < n) : (asU32 n).toNat = n.toInt.toNat % 2 ^ 32 := by
  have h : n.toUInt64.toNat = n.toInt.toNat := (Window.toNat_total hn).2.2
  rw [asU32, UInt64.toNat_toUInt32, h]

/-! ### The partition count -/

/-- The rows a statement returns, the query itself included, where UUIDs compare in `order`. -/
def BaseResult.answer (base : BaseResult) (order : UuidOrder) (query keyColumn orderBy : String)
    (p : Partition) : List Row :=
  match Statement.read (clean query) keyColumn orderBy p.sql with
  | some st => base.select order st
  | none => if p.sql = query then base.rows else []

/-- The rows that a backend returns for a plan of the call `bind`. -/
def BindInfo.answers (bind : BindInfo) (backend : Backend) (query : String) (base : BaseResult)
    (parts : List Partition) : List Row :=
  parts.flatMap (base.answer backend.uuidOrder query (bind.partitionKey.getD "") (bind.orderBy.getD ""))

namespace Window

/-- Whether the window holds every base row, each of them once in `n` partitions. -/
def HoldsAll (backend : Backend) (n : Nat) (base : BaseResult) (w : Window) : Prop :=
  match w with
  | .uuids min max _ => ∀ r ∈ base.rows, ∃ u, base.uuidKey r = some u ∧
      w.stepsBack backend n u +
          (if uuidToKey min backend.uuidOrder ≤ uuidToKey u backend.uuidOrder then 1 else 0) =
        1 + (if uuidToKey max backend.uuidOrder < uuidToKey u backend.uuidOrder then 1 else 0)
  | .ints min max _ => ∀ r ∈ base.rows, ∃ k, base.intKey r = some k ∧ min.toInt ≤ k ∧ k ≤ max.toInt
  | .first total _ => base.rows.length ≤ total.toInt.toNat

variable {backend : Backend} {base : BaseResult} {n n₁ n₂ : Nat}

/-- Two splits of one window select the same rows exactly if they step back equally often over the key of
every row. -/
theorem select_perm_select_iff (w : Window) (h₁ : 0 < n₁) (h₂ : 0 < n₂) :
    ((w.plan n₁).flatMap (base.select backend.uuidOrder)).Perm
        ((w.plan n₂).flatMap (base.select backend.uuidOrder)) ↔
      ∀ r ∈ base.rows, ∀ u, base.uuidKey r = some u →
        w.stepsBack backend n₁ u = w.stepsBack backend n₂ u := by
  have hother (hw : ∀ min max le, w ≠ .uuids min max le) :
      ((w.plan n₁).flatMap (base.select backend.uuidOrder)).Perm
        ((w.plan n₂).flatMap (base.select backend.uuidOrder)) ↔
      ∀ r ∈ base.rows, ∀ u, base.uuidKey r = some u → w.stepsBack backend n₁ u = w.stepsBack backend n₂ u := by
    have hzero (n : Nat) (u : Uuid) : w.stepsBack backend n u = 0 := stepsBack_eq_zero (.inr hw) u
    refine iff_of_true ?_ fun _ _ u _ => (hzero n₁ u).trans (hzero n₂ u).symm
    exact (flatMap_select_plan w h₁ fun _ _ u _ => hzero n₁ u).trans
      (flatMap_select_plan w h₂ fun _ _ u _ => hzero n₂ u).symm
  cases w with
  | uuids min max le =>
    have hperm := (flatMap_select_uuids le h₁ base backend.uuidOrder).congr_left
      ((plan n₂ (.uuids min max le)).flatMap (base.select backend.uuidOrder))
    rw [hperm, (flatMap_select_uuids le h₂ base backend.uuidOrder).congr_right, flatMap_replicate_perm_iff]
    refine forall₂_congr fun r _ => ?_
    cases base.uuidKey r with
    | none => simp
    | some u =>
      have hu₁ := holders_uuids backend le h₁ u
      have hu₂ := holders_uuids backend le h₂ u
      simp only [Option.elim, Option.some.injEq, forall_eq']
      omega
  | ints min max le => exact hother (by simp)
  | first total pos => exact hother (by simp)

/-- The unrestricted query selects the rows of a split exactly if the window holds all of them. -/
theorem select_perm_rows_iff (w : Window) (hn : 0 < n) :
    ((w.plan n).flatMap (base.select backend.uuidOrder)).Perm base.rows ↔ w.HoldsAll backend n base := by
  cases w with
  | uuids min max le =>
    rw [(flatMap_select_uuids le hn base backend.uuidOrder).congr_left, flatMap_replicate_perm_self_iff]
    refine forall₂_congr fun r _ => ?_
    cases base.uuidKey r with
    | none => simp
    | some u =>
      have hu := holders_uuids backend le hn u
      simp only [Option.elim, Option.some.injEq, exists_eq_left']
      omega
  | ints min max le =>
    rw [(flatMap_select_plan _ hn fun _ _ u _ => stepsBack_eq_zero (.inr (by simp)) u).congr_left, rows]
    constructor
    · intro h r hr
      have hkeep := (List.filter_eq_self.mp (List.filter_sublist.eq_of_length h.length_eq)) r hr
      simpa [Option.any_eq_true] using hkeep
    · intro h
      refine .of_eq (List.filter_eq_self.mpr fun r hr => ?_)
      simpa [Option.any_eq_true] using h r hr
  | first total pos =>
    rw [(flatMap_select_plan _ hn fun _ _ u _ => stepsBack_eq_zero (.inr (by simp)) u).congr_left, rows]
    constructor
    · intro h
      have hlen := h.length_eq
      rw [List.length_take] at hlen
      exact min_eq_right_iff.mp hlen
    · intro h
      exact .of_eq (List.take_of_length_le h)

end Window

section Count

variable {bind : BindInfo} {parseUuid : String → Option Uuid} {backend : Backend} (query : String)
  (base : BaseResult)

theorem answers_query : bind.answers backend query base [.new query] = base.rows := by
  simp [BindInfo.answers, BaseResult.answer, Partition.new, read_query]

theorem answers_slices (w : Window) {m : Nat} (hm : 0 < m) :
    bind.answers backend query base (bind.slices query m (some w)) =
      (w.plan m).flatMap (base.select backend.uuidOrder) := by
  have hanswer : ∀ st ∈ w.plan m, base.answer backend.uuidOrder query (bind.partitionKey.getD "")
      (bind.orderBy.getD "") (bind.partition query st) = base.select backend.uuidOrder st := by
    intro st hst
    have hread : Statement.read (clean query) (bind.partitionKey.getD "") (bind.orderBy.getD "")
        (bind.partition query st).sql = some st :=
      Statement.read_print st (w.quotable_plan hm st hst)
    rw [BaseResult.answer, hread]
  rw [BindInfo.answers, BindInfo.slices, Option.elim, List.flatMap_map, List.flatMap_def,
    List.flatMap_def, List.map_congr_left hanswer]

variable (bind parseUuid backend) in
/-- The rows of a plan: those of the window's slices, or all if the parameters ask for no window or the
count is `0` as a `u32`. -/
theorem answers_buildPartitions {fuel : Nat} (hfuel : 2 ^ 32 ≤ fuel) (n : Int64) (hn : 1 ≤ n) :
    ∃ parts, buildPartitions parseUuid fuel query { bind with partitions := some n } = some parts ∧
      bind.answers backend query base parts = (bind.window parseUuid).elim base.rows fun w =>
        if n.toInt.toNat % 2 ^ 32 = 0 then base.rows
        else (w.plan (n.toInt.toNat % 2 ^ 32)).flatMap (base.select backend.uuidOrder) := by
  have hpos : 0 < n := Int64.lt_of_lt_of_le (by decide) hn
  have hbind : ({ bind with partitions := some n } : BindInfo).partitions = some n := rfl
  refine ⟨_, BindInfo.buildPartitions_eq hfuel hbind hpos, ?_⟩
  rw [toNat_asU32 hpos]
  have hwindow : BindInfo.window { bind with partitions := some n } parseUuid = bind.window parseUuid := rfl
  rw [hwindow]
  cases bind.window parseUuid with
  | none => rw [if_pos (.inr rfl), answers_query, Option.elim]
  | some w =>
    simp only [reduceCtorEq, or_false, Option.elim]
    split
    · exact answers_query query base
    · next hne => exact answers_slices query base w (Nat.pos_of_ne_zero hne)

end Count

/-- Two partition counts `n₁` and `n₂`, which are `m₁` and `m₂` as a `u32`, select the same rows exactly
if both of `m₁`, `m₂` are `0`; or neither is and the two splits step back equally often over the key of
every row; or one of them is, so that one plan is the unrestricted query, and the window holds every row. -/
theorem buildPartitions_count_iff (backend : Backend) (parseUuid : String → Option Uuid) {fuel : Nat}
    (hfuel : 2 ^ 32 ≤ fuel) (query : String) (bind : BindInfo) (base : BaseResult) {n₁ n₂ : Int64}
    (h₁ : 1 ≤ n₁) (h₂ : 1 ≤ n₂) :
    let m₁ := n₁.toInt.toNat % 2 ^ 32
    let m₂ := n₂.toInt.toNat % 2 ^ 32
    ∃ parts₁ parts₂,
      buildPartitions parseUuid fuel query { bind with partitions := some n₁ } = some parts₁ ∧
      buildPartitions parseUuid fuel query { bind with partitions := some n₂ } = some parts₂ ∧
      ((bind.answers backend query base parts₁).Perm (bind.answers backend query base parts₂) ↔
        ∀ w, bind.window parseUuid = some w →
          (m₁ = 0 ∧ m₂ = 0) ∨
          (m₁ ≠ 0 ∧ m₂ ≠ 0 ∧ ∀ r ∈ base.rows, ∀ u, base.uuidKey r = some u →
            w.stepsBack backend m₁ u = w.stepsBack backend m₂ u) ∨
          (m₁ = 0 ∧ m₂ ≠ 0 ∧ w.HoldsAll backend m₂ base) ∨
          (m₁ ≠ 0 ∧ m₂ = 0 ∧ w.HoldsAll backend m₁ base)) := by
  intro m₁ m₂
  obtain ⟨parts₁, hparts₁, hanswers₁⟩ :=
    answers_buildPartitions bind parseUuid backend query base hfuel n₁ h₁
  obtain ⟨parts₂, hparts₂, hanswers₂⟩ :=
    answers_buildPartitions bind parseUuid backend query base hfuel n₂ h₂
  refine ⟨parts₁, parts₂, hparts₁, hparts₂, ?_⟩
  rw [hanswers₁, hanswers₂]
  cases bind.window parseUuid with
  | none => simp
  | some w =>
    simp only [Option.elim, Option.some.injEq, forall_eq']
    by_cases hm₁ : m₁ = 0 <;> by_cases hm₂ : m₂ = 0
    · rw [if_pos hm₁, if_pos hm₂]
      simp [hm₁, hm₂]
    · rw [if_pos hm₁, if_neg hm₂, List.perm_comm, w.select_perm_rows_iff (Nat.pos_of_ne_zero hm₂)]
      simp [hm₁, hm₂]
    · rw [if_neg hm₁, if_pos hm₂, w.select_perm_rows_iff (Nat.pos_of_ne_zero hm₁)]
      simp [hm₁, hm₂]
    · rw [if_neg hm₁, if_neg hm₂,
        w.select_perm_select_iff (Nat.pos_of_ne_zero hm₁) (Nat.pos_of_ne_zero hm₂)]
      simp [hm₁, hm₂]

/-- One key out of two, asked for with `1` and with `2 ^ 32` partitions. -/
def BindInfo.oneOfTwo : BindInfo where
  connStr := ""
  query := "SELECT id FROM t"
  partitionKey := some "id"
  partitionMin := some 1
  partitionMax := some 1

theorem buildPartitions_count_ids :
    ∃ parts₁ parts₂,
      buildPartitions Uuid.read (2 ^ 32) "SELECT id FROM t"
        { BindInfo.oneOfTwo with partitions := some 1 } = some parts₁ ∧
      buildPartitions Uuid.read (2 ^ 32) "SELECT id FROM t"
        { BindInfo.oneOfTwo with partitions := some 4294967296 } = some parts₂ ∧
      ((BindInfo.oneOfTwo.answers .postgres "SELECT id FROM t" (.ofIds [.int64 1, .int64 2]) parts₁).Perm
          (BindInfo.oneOfTwo.answers .postgres "SELECT id FROM t" (.ofIds [.int64 1, .int64 2]) parts₂) ↔
        ∀ w, BindInfo.oneOfTwo.window Uuid.read = some w →
          (1 = 0 ∧ 0 = 0) ∨
          (1 ≠ 0 ∧ 0 ≠ 0 ∧ ∀ r ∈ (BaseResult.ofIds [.int64 1, .int64 2]).rows, ∀ u,
            (BaseResult.ofIds [.int64 1, .int64 2]).uuidKey r = some u →
              w.stepsBack .postgres 1 u = w.stepsBack .postgres 0 u) ∨
          (1 = 0 ∧ 0 ≠ 0 ∧ w.HoldsAll .postgres 0 (.ofIds [.int64 1, .int64 2])) ∨
          (1 ≠ 0 ∧ 0 = 0 ∧ w.HoldsAll .postgres 1 (.ofIds [.int64 1, .int64 2]))) :=
  buildPartitions_count_iff .postgres Uuid.read le_rfl "SELECT id FROM t" BindInfo.oneOfTwo
    (.ofIds [.int64 1, .int64 2]) (show (1 : Int64) ≤ 1 by decide) (show (1 : Int64) ≤ 4294967296 by decide)

/-- The whole space of UUIDs. -/
def BindInfo.allUuids : BindInfo where
  connStr := ""
  query := "SELECT id FROM t"
  partitionKey := some "id"
  partitionUuidMin := some "00000000-0000-0000-0000-000000000000"
  partitionUuidMax := some "ffffffff-ffff-ffff-ffff-ffffffffffff"

/-- The UUID 00000000-0000-0000-0000-800000000000, over which six cut points step back twice in the order
of SQL Server. -/
def BaseResult.steppedOver : BaseResult :=
  .ofIds [.uuid ⟨#v[0, 0, 0, 0, 0, 0, 0, 0, 0, 0, 0x80, 0, 0, 0, 0, 0]⟩]

theorem mssql_count_differs :
    ∃ parts₁ parts₂,
      buildPartitions Uuid.read (2 ^ 32) "SELECT id FROM t"
        { BindInfo.allUuids with partitions := some 1 } = some parts₁ ∧
      buildPartitions Uuid.read (2 ^ 32) "SELECT id FROM t"
        { BindInfo.allUuids with partitions := some 6 } = some parts₂ ∧
      ¬ (BindInfo.allUuids.answers .mssql "SELECT id FROM t" .steppedOver parts₁).Perm
          (BindInfo.allUuids.answers .mssql "SELECT id FROM t" .steppedOver parts₂) := by
  obtain ⟨parts₁, h₁, hanswers₁⟩ := answers_buildPartitions .allUuids Uuid.read .mssql "SELECT id FROM t"
    .steppedOver (le_refl (2 ^ 32)) 1 (by decide)
  obtain ⟨parts₂, h₂, hanswers₂⟩ := answers_buildPartitions .allUuids Uuid.read .mssql "SELECT id FROM t"
    .steppedOver (le_refl (2 ^ 32)) 6 (by decide)
  refine ⟨parts₁, parts₂, h₁, h₂, fun h => ?_⟩
  have hw : BindInfo.allUuids.window Uuid.read = some (.uuids Uuid.nil Uuid.max (by decide)) := by
    have hmin : BindInfo.allUuids.partitionUuidMin.bind Uuid.read = some Uuid.nil := by decide
    have hmax : BindInfo.allUuids.partitionUuidMax.bind Uuid.read = some Uuid.max := by decide
    rw [BindInfo.window, BindInfo.uuidWindow_eq rfl hmin hmax, dif_pos (by decide), Option.some_or]
  rw [hanswers₁, hanswers₂, hw] at h
  have hsteps := (Window.select_perm_select_iff _ (show 0 < 1 by decide) (show 0 < 6 by decide)).mp h
    _ List.mem_cons_self _ rfl
  exact absurd hsteps (by decide +kernel)

/-- The plans for `1` and `2 ^ 32` partitions do not select the same rows, nor do those for `1` and `6`
partitions of UUIDs on SQL Server. -/
theorem buildPartitions_count_differs :
    (∃ parts₁ parts₂,
      buildPartitions Uuid.read (2 ^ 32) "SELECT id FROM t"
        { BindInfo.oneOfTwo with partitions := some 1 } = some parts₁ ∧
      buildPartitions Uuid.read (2 ^ 32) "SELECT id FROM t"
        { BindInfo.oneOfTwo with partitions := some 4294967296 } = some parts₂ ∧
      ¬ (BindInfo.oneOfTwo.answers .postgres "SELECT id FROM t" (.ofIds [.int64 1, .int64 2]) parts₁).Perm
          (BindInfo.oneOfTwo.answers .postgres "SELECT id FROM t" (.ofIds [.int64 1, .int64 2]) parts₂)) ∧
    ∃ parts₁ parts₂,
      buildPartitions Uuid.read (2 ^ 32) "SELECT id FROM t"
        { BindInfo.allUuids with partitions := some 1 } = some parts₁ ∧
      buildPartitions Uuid.read (2 ^ 32) "SELECT id FROM t"
        { BindInfo.allUuids with partitions := some 6 } = some parts₂ ∧
      ¬ (BindInfo.allUuids.answers .mssql "SELECT id FROM t" .steppedOver parts₁).Perm
          (BindInfo.allUuids.answers .mssql "SELECT id FROM t" .steppedOver parts₂) := by
  refine ⟨?_, mssql_count_differs⟩
  obtain ⟨parts₁, h₁, hanswers₁⟩ := answers_buildPartitions .oneOfTwo Uuid.read .postgres "SELECT id FROM t"
    (.ofIds [.int64 1, .int64 2]) (le_refl (2 ^ 32)) 1 (by decide)
  obtain ⟨parts₂, h₂, hanswers₂⟩ := answers_buildPartitions .oneOfTwo Uuid.read .postgres "SELECT id FROM t"
    (.ofIds [.int64 1, .int64 2]) (le_refl (2 ^ 32)) 4294967296 (by decide)
  refine ⟨parts₁, parts₂, h₁, h₂, fun h => ?_⟩
  have hw : BindInfo.oneOfTwo.window Uuid.read = some (.ints 1 1 (by decide)) := rfl
  rw [hanswers₁, hanswers₂, hw] at h
  have hall := (Window.select_perm_rows_iff _ Nat.one_pos).mp h
  obtain ⟨k, hk, -, hle⟩ := hall _ (List.mem_cons_of_mem _ List.mem_cons_self)
  cases hk
  exact absurd hle (by decide)

end RustDbDriver
