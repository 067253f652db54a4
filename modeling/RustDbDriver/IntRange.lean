import RustDbDriver.Partition
import RustDbDriver.Plan

/-!
# Integer key ranges

`intPlan` is the plan of `by_int_range` in exact arithmetic: slices of an integer interval between
boundaries that ascend from `min` to `max + 1`. `byIntRange_eq` says that the checked 128-bit
computation never overflows and emits that plan.
-/

namespace RustDbDriver
open Lib
namespace Partition

/-- Boundary `i` of `n` across `width` values from `min` on. -/
def intBound (min width : Int) (n i : Nat) : Int := min + width * i / n

/-- The slice from boundary `i` to the next one, unless it is empty. -/
def intSlice (min width : Int) (n i : Nat) : Option Statement :=
  if intBound min width n i > intBound min width n (i + 1) - 1 then none
  else some (.between (intBound min width n i) (intBound min width n (i + 1) - 1))

def intPlan (min width : Int) (n : Nat) : List Statement :=
  (List.range n).filterMap (intSlice min width n)

/-! ### Boundaries -/

section Bounds

variable {min width : Int} {n i : Nat}

theorem intBound_zero : intBound min width n 0 = min := by simp [intBound]

theorem intBound_last (hn : 0 < n) : intBound min width n n = min + width := by
  have : (n : Int) ≠ 0 := by omega
  rw [intBound, Int.mul_ediv_cancel _ this]

theorem intBound_mono (min : Int) (hn : 0 < n) (hw : 0 ≤ width) {j : Nat} (hij : i ≤ j) :
    intBound min width n i ≤ intBound min width n j := by
  have hmul : width * i ≤ width * j := Int.mul_le_mul_of_nonneg_left (by omega) hw
  exact Int.add_le_add_left (Int.ediv_le_ediv (by omega) hmul) min

theorem intBound_mem (min : Int) (hn : 0 < n) (hw : 0 ≤ width) (hi : i ≤ n) :
    min ≤ intBound min width n i ∧ intBound min width n i ≤ min + width := by
  have h₀ := intBound_mono min hn hw (Nat.zero_le i)
  have h₁ := intBound_mono min hn hw hi
  rw [intBound_zero] at h₀
  rw [intBound_last hn] at h₁
  exact ⟨h₀, h₁⟩

end Bounds

/-! ### The checked computation -/

section Checked

variable {width : Int} {n : Nat}

theorem mul_div_checked {i : Nat} (hw : 0 ≤ width) (hw' : width ≤ 2 ^ 64) (hn : 0 < n)
    (hn' : n < 2 ^ 32) (hi : i ≤ n) :
    I128.mul width i = some (width * i) ∧ I128.div (width * i) n = some (width * i / n) := by
  have h₀ : 0 ≤ width * i := Int.mul_nonneg hw (by omega)
  have h₁ : width * i ≤ 2 ^ 64 * 2 ^ 32 := Int.mul_le_mul hw' (by omega) (by omega) (by norm_num)
  exact ⟨I128.mul_eq (by omega) (by omega), I128.div_eq h₀ (by omega) (by omega)⟩

/-- On its `u32` many rounds the loop stays inside of `i128` and emits the plan. -/
theorem byIntRange_eq (baseSql keyColumn orderBy : String) {min max : Int64} {partitions : UInt32}
    (hn₀ : 0 < partitions.toNat) (hle : min ≤ max) :
    byIntRange baseSql keyColumn min max partitions =
      some ((intPlan min.toInt (max.toInt - min.toInt + 1) partitions.toNat).map
        (Statement.toPartition (clean baseSql) keyColumn orderBy)) := by
  have hn₁ : partitions.toNat < 2 ^ 32 := partitions.toNat_lt
  have hle' := Int64.le_iff_toInt_le.mp hle
  have hmin := min.le_toInt
  have hmax := max.toInt_lt
  have hguard : ¬ (partitions = 0 ∨ min > max) := not_guard_iff.mpr ⟨hn₀, Int64.not_lt.mpr hle⟩
  generalize hwidth : max.toInt - min.toInt + 1 = width
  have hw : 0 ≤ width := by omega
  have hw' : width ≤ 2 ^ 64 := by omega
  have hsub : I128.sub max.toInt min.toInt = some (width - 1) := by
    rw [I128.sub_eq (by omega) (by omega)]
    congr 1; omega
  have hadd : I128.add (width - 1) 1 = some width := by
    rw [I128.add_eq (by omega) (by omega)]
    congr 1; omega
  unfold byIntRange
  rw [if_neg hguard]
  simp only [hsub, hadd, Option.bind_eq_bind, Option.bind_some]
  rw [intPlan, List.map_filterMap]
  refine forPush_eq ?_
  intro i hi
  have hi' : i < partitions.toNat := List.mem_range.mp hi
  obtain ⟨hmul, hdiv⟩ := mul_div_checked hw hw' hn₀ hn₁ hi'.le
  obtain ⟨hmul', hdiv'⟩ := mul_div_checked (i := i + 1) hw hw' hn₀ hn₁ hi'
  have hlo := intBound_mem min.toInt hn₀ hw hi'.le
  have hhi := intBound_mem min.toInt (i := i + 1) hn₀ hw hi'
  have hsucc : I128.add i 1 = some ((i + 1 : Nat) : Int) := I128.add_eq (by omega) (by omega)
  have hlo' : I128.add min.toInt (width * i / partitions.toNat) =
      some (intBound min.toInt width partitions.toNat i) := by
    unfold intBound at hlo ⊢
    exact I128.add_eq (by omega) (by omega)
  have hnext : I128.add min.toInt (width * (i + 1 : Nat) / partitions.toNat) =
      some (intBound min.toInt width partitions.toNat (i + 1)) := by
    unfold intBound at hhi ⊢
    exact I128.add_eq (by omega) (by omega)
  have hhi' : I128.sub (intBound min.toInt width partitions.toNat (i + 1)) 1 =
      some (intBound min.toInt width partitions.toNat (i + 1) - 1) :=
    I128.sub_eq (by omega) (by omega)
  simp only [hmul, hdiv, hsucc, hmul', hdiv', hlo', hnext, hhi', Option.bind_some]
  unfold intSlice
  split <;> rfl

end Checked

/-! ### The plan -/

section Plan

variable {min width : Int} {n : Nat}

theorem any_intSlice (k : Int) (i : Nat) :
    (intSlice min width n i).any (·.hasInt k) =
      decide (intBound min width n i ≤ k ∧ k < intBound min width n (i + 1)) := by
  unfold intSlice
  split
  · simp only [Option.any_none, Bool.false_eq, decide_eq_false_iff_not]; omega
  · simp only [Option.any_some, Statement.hasInt, decide_eq_decide]; omega

theorem mem_intPlan (hn : 0 < n) (hw : 0 ≤ width) {st : Statement} (hst : st ∈ intPlan min width n) :
    ∃ lo hi, st = .between lo hi ∧ min ≤ lo ∧ lo ≤ hi ∧ hi < min + width := by
  obtain ⟨i, hi, hsome⟩ := List.mem_filterMap.mp hst
  have hi' := List.mem_range.mp hi
  have hlo := (intBound_mem min hn hw hi'.le).1
  have hhi := (intBound_mem min (i := i + 1) hn hw hi').2
  unfold intSlice at hsome
  split at hsome
  · cases hsome
  · cases hsome
    exact ⟨_, _, rfl, hlo, by omega, by omega⟩

/-- The ranges tile: a key of `[min, min + width)` is in exactly one of them, any other in none. -/
theorem countP_intPlan (min : Int) (hn : 0 < n) (hw : 0 ≤ width) (k : Int) :
    (intPlan min width n).countP (·.hasInt k) = if min ≤ k ∧ k < min + width then 1 else 0 := by
  have hb : ∀ i < n, intBound min width n i ≤ intBound min width n (i + 1) :=
    fun i _ => intBound_mono min hn hw (Nat.le_succ i)
  have hrises := rises_eq_of_ascending (x := k) hb
  rw [intBound_zero, intBound_last hn] at hrises
  rw [← hrises, intPlan, countP_filterMap_any, rises]
  exact congrArg (fun p => (List.range n).countP p) (funext (any_intSlice k))

theorem flatMap_select_intPlan (min : Int) (hn : 0 < n) (hw : 0 ≤ width) (rows : BaseResult)
    (order : UuidOrder) :
    ((intPlan min width n).flatMap (rows.select order)).Perm
      (rows.rows.filter fun r => (rows.intKey r).any fun k => min ≤ k ∧ k < min + width) := by
  refine flatMap_select_perm Statement.hasInt ?_ ?_
  · intro st hst
    obtain ⟨lo, hi, rfl, -⟩ := mem_intPlan hn hw hst
    rfl
  · intro k
    simpa using countP_intPlan min hn hw k

end Plan

/-- Running the ranges of `by_int_range` returns the rows of `[min, max]`, each as often as the base
result holds it, where the driver answers a range with the rows whose key is in it. -/
theorem byIntRange_runs (d : DbDriver) (rows : BaseResult) (order : UuidOrder)
    (baseSql keyColumn orderBy : String) (min max : Int64) (partitions : UInt32)
    (hn : 1 ≤ partitions) (hle : min ≤ max)
    (hd : ∀ lo hi, d.Answers rows order (clean baseSql) keyColumn orderBy (.between lo hi)) :
    ∃ plan : List Statement,
      byIntRange baseSql keyColumn min max partitions =
        some (plan.map (Statement.toPartition (clean baseSql) keyColumn orderBy)) ∧
      (∀ st ∈ plan, ∃ lo hi, st = .between lo hi ∧
        min.toInt ≤ lo ∧ lo ≤ hi ∧ hi ≤ max.toInt) ∧
      (∀ k, plan.countP (·.hasInt k) = if min.toInt ≤ k ∧ k ≤ max.toInt then 1 else 0) ∧
      ∀ σ : Lib.Futures.Schedule, σ.Settles plan.length 1 → ∃ out,
        d.queryPartitioned (plan.map (Statement.toPartition (clean baseSql) keyColumn orderBy)) σ =
          some (.ok out) ∧
        out.Perm (rows.rows.filter fun r =>
          (rows.intKey r).any fun k => min.toInt ≤ k ∧ k ≤ max.toInt) := by
  have hn₀ : 0 < partitions.toNat := UInt32.le_iff_toNat_le.mp hn
  have hle' := Int64.le_iff_toInt_le.mp hle
  have hw : 0 ≤ max.toInt - min.toInt + 1 := by omega
  have hin (k : Int) : k < min.toInt + (max.toInt - min.toInt + 1) ↔ k ≤ max.toInt := by omega
  have hrange : ∀ st ∈ intPlan min.toInt (max.toInt - min.toInt + 1) partitions.toNat,
      ∃ lo hi, st = .between lo hi ∧ min.toInt ≤ lo ∧ lo ≤ hi ∧ hi ≤ max.toInt := by
    intro st hst
    obtain ⟨lo, hi, heq, h₁, h₂, h₃⟩ := mem_intPlan hn₀ hw hst
    exact ⟨lo, hi, heq, h₁, h₂, (hin hi).mp h₃⟩
  refine ⟨_, byIntRange_eq baseSql keyColumn orderBy hn₀ hle, hrange, ?_, ?_⟩
  · intro k
    simpa only [hin] using countP_intPlan min.toInt hn₀ hw k
  · intro σ hσ
    have hanswers : ∀ st ∈ intPlan min.toInt (max.toInt - min.toInt + 1) partitions.toNat,
        d.Answers rows order (clean baseSql) keyColumn orderBy st := by
      intro st hst
      obtain ⟨lo, hi, rfl, -⟩ := hrange st hst
      exact hd lo hi
    have hquotable : ∀ st ∈ intPlan min.toInt (max.toInt - min.toInt + 1) partitions.toNat,
        st.Quotable := by
      intro st hst
      obtain ⟨lo, hi, rfl, -⟩ := hrange st hst
      trivial
    obtain ⟨out, hout, hperm⟩ := DbDriver.queryPartitioned_perm hanswers hquotable hσ
    have hselect := flatMap_select_intPlan min.toInt hn₀ hw rows order
    simp only [hin] at hselect
    exact ⟨out, hout, hperm.trans hselect⟩

/-- Five partitions over three values: NULL and what is out of the range stay away, a key that is
there twice comes twice. -/
theorem byIntRange_runs_ids :
    ∃ plan : List Statement,
      byIntRange " SELECT id FROM t; " "id" (-1) 1 5 =
        some (plan.map (Statement.toPartition (clean " SELECT id FROM t; ") "id" "")) ∧
      ∀ σ : Lib.Futures.Schedule, σ.Settles plan.length 1 → ∃ out,
        (BaseResult.driver (.ofIds [.int64 1, .null, .int64 (-1), .int64 1, .int64 7]) .lexical
          (clean " SELECT id FROM t; ") "id" "").queryPartitioned
            (plan.map (Statement.toPartition (clean " SELECT id FROM t; ") "id" "")) σ =
          some (.ok out) ∧
        out.Perm (BaseResult.ofIds [.int64 1, .int64 (-1), .int64 1]).rows := by
  obtain ⟨plan, hplan, -, -, hrun⟩ := byIntRange_runs
    (BaseResult.driver (.ofIds [.int64 1, .null, .int64 (-1), .int64 1, .int64 7]) .lexical
      (clean " SELECT id FROM t; ") "id" "")
    (.ofIds [.int64 1, .null, .int64 (-1), .int64 1, .int64 7]) .lexical
    " SELECT id FROM t; " "id" "" (-1) 1 5 (by decide) (by decide)
    fun lo hi => BaseResult.driver_answers _ _ _ _ _ _
  exact ⟨plan, hplan, hrun⟩

end Partition
end RustDbDriver
