import RustDbDriver.Partition
import RustDbDriver.Plan

/-!
# UUID key ranges

`uuidPlan` is the plan of `by_uuid_range_ordered` in exact arithmetic; `byUuidRangeOrdered_eq` says
that the checked 128-bit computation never overflows and emits that plan. How often a plan that was
cut in one order holds a UUID when its predicates are evaluated in another order is
`countP_uuidPlan`: the number of slices, between the same literals, that hold its key in that order.
-/

namespace RustDbDriver
open Lib
namespace Partition

/-! ### The plan -/

/-- Boundary `i` of `n` across `span` keys from `lo` on. -/
def uuidBound (lo span n i : Nat) : Nat := lo + span * i / n

/-- The slice from boundary `i` to the next one, unless it is empty; the last one is closed. -/
def uuidSlice (min max : Uuid) (order : UuidOrder) (n i : Nat) : Option Statement :=
  let loKey := uuidToKey min order
  let hiKey := uuidToKey max order
  let bound := uuidBound loKey (hiKey - loKey) n
  if i + 1 = n then
    if bound i > hiKey then none
    else some (.range (toString (keyToUuid (bound i) order)) true (toString max))
  else
    if bound i ≥ bound (i + 1) then none
    else some (.range (toString (keyToUuid (bound i) order)) false
      (toString (keyToUuid (bound (i + 1)) order)))

def uuidPlan (min max : Uuid) (order : UuidOrder) (n : Nat) : List Statement :=
  (List.range n).filterMap (uuidSlice min max order n)

section Bounds

variable {lo span n i : Nat}

theorem uuidBound_zero : uuidBound lo span n 0 = lo := by simp [uuidBound]

theorem uuidBound_last (hn : 0 < n) : uuidBound lo span n n = lo + span := by
  rw [uuidBound, Nat.mul_div_cancel _ hn]

theorem uuidBound_mono {j : Nat} (hij : i ≤ j) : uuidBound lo span n i ≤ uuidBound lo span n j :=
  Nat.add_le_add_left (Nat.div_le_div_right (Nat.mul_le_mul_left span hij)) lo

theorem uuidBound_le (lo span : Nat) (hn : 0 < n) (hi : i ≤ n) : uuidBound lo span n i ≤ lo + span :=
  (uuidBound_mono hi).trans_eq (uuidBound_last hn)

end Bounds

/-- On any keys and any `u32` partition count the loop stays inside of `u128` and emits the plan. -/
theorem byUuidRangeOrdered_eq (baseSql keyColumn orderBy : String) {min max : Uuid}
    {partitions : UInt32} {order : UuidOrder} (hn₀ : 0 < partitions.toNat)
    (hle : uuidToKey min order ≤ uuidToKey max order) :
    byUuidRangeOrdered baseSql keyColumn min max partitions order =
      some ((uuidPlan min max order partitions.toNat).map
        (Statement.toPartition (clean baseSql) keyColumn orderBy)) := by
  have hn₁ : partitions.toNat < 2 ^ 32 := partitions.toNat_lt
  have hhi := uuidToKey_lt max order
  have hguard : ¬ (partitions = 0 ∨ uuidToKey min order > uuidToKey max order) :=
    not_guard_iff.mpr ⟨hn₀, hle.not_gt⟩
  have hspan : uuidToKey max order - uuidToKey min order ≤ U128.MAX := by
    simp only [U128.MAX]; omega
  -- boundary `k` is exact for every `k` the loop asks for
  have hbound : ∀ k ≤ partitions.toNat, (do
      U128.add (uuidToKey min order) (← mulDiv (uuidToKey max order - uuidToKey min order) k
        partitions.toNat)) = some (uuidBound (uuidToKey min order)
          (uuidToKey max order - uuidToKey min order) partitions.toNat k) := by
    intro k hk
    have hle := uuidBound_le (uuidToKey min order) (uuidToKey max order - uuidToKey min order) hn₀ hk
    simp only [mulDiv_eq hspan hk hn₀ hn₁, Option.bind_eq_bind, Option.bind_some]
    unfold uuidBound at hle ⊢
    exact U128.add_eq (by simp only [U128.MAX]; omega)
  unfold byUuidRangeOrdered
  simp only [if_neg hguard, U128.sub_eq hle, Option.bind_eq_bind, Option.bind_some]
  rw [uuidPlan, List.map_filterMap]
  refine forPush_eq ?_
  intro i hi
  have hi' : i < partitions.toNat := List.mem_range.mp hi
  have hsucc : U128.add i 1 = some (i + 1) := U128.add_eq (by simp only [U128.MAX]; omega)
  have hb := hbound i hi'.le
  have hb' := hbound (i + 1) hi'
  simp only [Option.bind_eq_bind] at hb hb'
  simp only [hb, hb', hsucc, Option.bind_some]
  unfold uuidSlice
  dsimp only
  split
  · split <;> rfl
  · split <;> rfl

/-! ### Evaluating the plan -/

/-- Boundary `i` of a plan cut in `order`, as a backend that compares in `cmp` sees it. -/
def uuidPoint (min max : Uuid) (order cmp : UuidOrder) (n i : Nat) : Nat :=
  uuidToKey (keyToUuid (uuidBound (uuidToKey min order)
    (uuidToKey max order - uuidToKey min order) n i) order) cmp

section Evaluate

variable {min max : Uuid} {order cmp : UuidOrder} {n : Nat}

theorem uuidPoint_zero : uuidPoint min max order cmp n 0 = uuidToKey min cmp := by
  rw [uuidPoint, uuidBound_zero, keyToUuid_uuidToKey]

theorem uuidPoint_last (hn : 0 < n) (hle : uuidToKey min order ≤ uuidToKey max order) :
    uuidPoint min max order cmp n n = uuidToKey max cmp := by
  rw [uuidPoint, uuidBound_last hn, Nat.add_sub_cancel' hle, keyToUuid_uuidToKey]

theorem uuidPoint_self (hn : 0 < n) (hle : uuidToKey min order ≤ uuidToKey max order) {i : Nat}
    (hi : i ≤ n) :
    uuidPoint min max order order n i =
      uuidBound (uuidToKey min order) (uuidToKey max order - uuidToKey min order) n i := by
  have hbound := uuidBound_le (uuidToKey min order) (uuidToKey max order - uuidToKey min order) hn hi
  have hmax := uuidToKey_lt max order
  exact uuidToKey_keyToUuid (by omega) order

end Evaluate

section Literals

variable {κ : Type} [LinearOrder κ] (readLit : String → Option κ) (val : Uuid → κ) {min max : Uuid}
  {order : UuidOrder} {n : Nat}

/-- A slice holds a value that stands between its boundaries as the backend reads them; the slices that
were skipped hold none. -/
theorem any_uuidSlice (hread : ∀ u : Uuid, readLit (toString u) = some (val u)) (hn : 0 < n)
    (hle : uuidToKey min order ≤ uuidToKey max order) (x : κ) {i : Nat} (hi : i < n) :
    (uuidSlice min max order n i).any (·.hasKey readLit x) =
      decide (SliceHas (fun i => val (keyToUuid (uuidBound (uuidToKey min order)
        (uuidToKey max order - uuidToKey min order) n i) order)) n i x) := by
  have hlast : keyToUuid (uuidBound (uuidToKey min order)
      (uuidToKey max order - uuidToKey min order) n n) order = max := by
    rw [uuidBound_last hn, Nat.add_sub_cancel' hle, keyToUuid_uuidToKey]
  have hbound := uuidBound_le (uuidToKey min order) (uuidToKey max order - uuidToKey min order) hn hi.le
  unfold uuidSlice
  dsimp only
  split
  · next heq =>
    rw [if_neg (by omega), Option.any_some]
    simp only [Statement.hasKey, hread, SliceHas, if_true, if_pos heq, hlast]
  · next hne =>
    split
    · next hskip =>
      -- equal neighbours are equal literals
      have heq := le_antisymm (uuidBound_mono (Nat.le_succ i)) hskip
      simp only [Option.any_none, SliceHas, if_neg hne, heq, Bool.false_eq, decide_eq_false_iff_not,
        not_and, not_lt]
      exact id
    · rw [Option.any_some]
      simp only [Statement.hasKey, hread, SliceHas, if_neg hne, Bool.false_eq_true, if_false]

theorem countP_uuidPlan_key (hread : ∀ u : Uuid, readLit (toString u) = some (val u)) (hn : 0 < n)
    (hle : uuidToKey min order ≤ uuidToKey max order) (x : κ) :
    (uuidPlan min max order n).countP (·.hasKey readLit x) =
      holders (fun i => val (keyToUuid (uuidBound (uuidToKey min order)
        (uuidToKey max order - uuidToKey min order) n i) order)) n x := by
  rw [uuidPlan, countP_filterMap_any]
  refine List.countP_congr ?_
  intro i hi
  rw [any_uuidSlice readLit val hread hn hle x (List.mem_range.mp hi)]

/-- Where the backend reads the literals in the order of the plan, the plan tiles what lies between
`min` and `max` as it reads them. -/
theorem countP_uuidPlan_of_mono (hread : ∀ u : Uuid, readLit (toString u) = some (val u))
    (hval : ∀ u v, uuidToKey u order ≤ uuidToKey v order → val u ≤ val v) (hn : 0 < n)
    (hle : uuidToKey min order ≤ uuidToKey max order) (x : κ) :
    (uuidPlan min max order n).countP (·.hasKey readLit x) =
      if val min ≤ x ∧ x ≤ val max then 1 else 0 := by
  obtain ⟨m, rfl⟩ : ∃ m, n = m + 1 := ⟨n - 1, by omega⟩
  have hmax := uuidToKey_lt max order
  have hpoints : ∀ i < m + 1,
      val (keyToUuid (uuidBound (uuidToKey min order)
        (uuidToKey max order - uuidToKey min order) (m + 1) i) order) ≤
      val (keyToUuid (uuidBound (uuidToKey min order)
        (uuidToKey max order - uuidToKey min order) (m + 1) (i + 1)) order) := by
    intro i hi
    have hbound : uuidBound (uuidToKey min order) (uuidToKey max order - uuidToKey min order) (m + 1) i ≤
        uuidBound (uuidToKey min order) (uuidToKey max order - uuidToKey min order) (m + 1) (i + 1) :=
      uuidBound_mono (Nat.le_succ i)
    have hnext : uuidBound (uuidToKey min order) (uuidToKey max order - uuidToKey min order) (m + 1) (i + 1) ≤
        uuidToKey min order + (uuidToKey max order - uuidToKey min order) := uuidBound_le _ _ hn hi
    apply hval
    rw [uuidToKey_keyToUuid (by omega), uuidToKey_keyToUuid (by omega)]
    exact hbound
  rw [countP_uuidPlan_key readLit val hread hn hle, holders_eq_of_ascending hpoints, uuidBound_zero,
    uuidBound_last hn, Nat.add_sub_cancel' hle, keyToUuid_uuidToKey, keyToUuid_uuidToKey]

theorem readKey_toString (cmp : UuidOrder) (u : Uuid) :
    (Uuid.read (toString u)).map (uuidToKey · cmp) = some (uuidToKey u cmp) := by
  rw [Uuid.read_toString, Option.map_some]

theorem countP_uuidPlan {cmp : UuidOrder} (hn : 0 < n) (hle : uuidToKey min order ≤ uuidToKey max order)
    (u : Uuid) :
    (uuidPlan min max order n).countP (·.hasUuid cmp u) =
      holders (uuidPoint min max order cmp n) n (uuidToKey u cmp) :=
  countP_uuidPlan_key (fun s => (Uuid.read s).map (uuidToKey · cmp)) (uuidToKey · cmp)
    (readKey_toString cmp) hn hle _

theorem countP_uuidPlan_self (hn : 0 < n) (hle : uuidToKey min order ≤ uuidToKey max order)
    (u : Uuid) :
    (uuidPlan min max order n).countP (·.hasUuid order u) =
      if uuidToKey min order ≤ uuidToKey u order ∧ uuidToKey u order ≤ uuidToKey max order
      then 1 else 0 :=
  countP_uuidPlan_of_mono (fun s => (Uuid.read s).map (uuidToKey · order)) (uuidToKey · order)
    (readKey_toString order) (fun _ _ h => h) hn hle _

theorem mem_uuidPlan {st : Statement} (hst : st ∈ uuidPlan min max order n) :
    ∃ lo closed hi, st = .range (toString (lo : Uuid)) closed (toString (hi : Uuid)) := by
  obtain ⟨i, -, hsome⟩ := List.mem_filterMap.mp hst
  unfold uuidSlice at hsome
  dsimp only at hsome
  split at hsome <;> split at hsome <;> cases hsome <;> exact ⟨_, _, _, rfl⟩

theorem quotable_uuidPlan : ∀ st ∈ uuidPlan min max order n, st.Quotable := by
  intro st hst
  obtain ⟨lo, closed, hi, rfl⟩ := mem_uuidPlan hst
  exact ⟨Uuid.quote_notMem_toString lo, Uuid.quote_notMem_toString hi⟩

end Literals

/-- The predicates of `by_uuid_range_ordered`, evaluated in the order the space was cut in, hold
every UUID between `min` and `max` exactly once and no other. -/
theorem byUuidRangeOrdered_tiles (baseSql keyColumn : String) (min max : Uuid) (partitions : UInt32)
    (order : UuidOrder) (hn : 1 ≤ partitions) (hle : uuidToKey min order ≤ uuidToKey max order) :
    ∃ parts, byUuidRangeOrdered baseSql keyColumn min max partitions order = some parts ∧
      ∀ u, parts.countP (fun p =>
          (Statement.read (clean baseSql) keyColumn "" p.sql).any (·.hasUuid order u)) =
        if uuidToKey min order ≤ uuidToKey u order ∧ uuidToKey u order ≤ uuidToKey max order
        then 1 else 0 := by
  have hn₀ : 0 < partitions.toNat := UInt32.le_iff_toNat_le.mp hn
  refine ⟨_, byUuidRangeOrdered_eq baseSql keyColumn "" hn₀ hle, fun u => ?_⟩
  rw [countP_toPartition quotable_uuidPlan, countP_uuidPlan_self hn₀ hle]

/-- The whole space in `uniqueidentifier` order, in as many partitions as there can be. -/
theorem byUuidRangeOrdered_tiles_all :
    ∃ parts, byUuidRangeOrdered "SELECT id FROM t" "id" Uuid.nil Uuid.max 4294967295 .sqlServer =
        some parts ∧
      ∀ u, parts.countP (fun p =>
          (Statement.read (clean "SELECT id FROM t") "id" "" p.sql).any (·.hasUuid .sqlServer u)) =
        if uuidToKey Uuid.nil .sqlServer ≤ uuidToKey u .sqlServer ∧
          uuidToKey u .sqlServer ≤ uuidToKey Uuid.max .sqlServer then 1 else 0 :=
  byUuidRangeOrdered_tiles "SELECT id FROM t" "id" Uuid.nil Uuid.max 4294967295 .sqlServer
    (by decide) (by decide)

end Partition
end RustDbDriver
