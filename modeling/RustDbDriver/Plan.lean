import RustDbDriver.Driver
import RustDbDriver.Lib.Cuts
import RustDbDriver.Statement

/-!
# Running a plan

A plan is a list of statements around one base query. What a driver has to do for the statements of a
plan is `DbDriver.Answers`; `queryPartitioned_plan` puts the answers together, and the two corollaries
say what that is for statements that come back in any order and for pages, which do not.
-/

namespace RustDbDriver

def Statement.toPartition (base keyColumn orderBy : String) (st : Statement) : Partition :=
  .new (st.print base keyColumn orderBy)

theorem read_toPartition {base keyColumn orderBy : String} {st : Statement} (hq : st.Quotable) :
    Statement.read base keyColumn orderBy (st.toPartition base keyColumn orderBy).sql = some st :=
  Statement.read_print st hq

/-- Counting over the emitted texts, as they are read back, is counting over the plan. -/
theorem countP_toPartition {base keyColumn orderBy : String} {plan : List Statement}
    (hq : ∀ st ∈ plan, st.Quotable) (has : Statement → Bool) :
    (plan.map (Statement.toPartition base keyColumn orderBy)).countP
      (fun p => (Statement.read base keyColumn orderBy p.sql).any has) = plan.countP has := by
  rw [List.countP_map]
  refine List.countP_congr ?_
  intro st hst
  simp [read_toPartition (hq st hst)]

/-- Whether `out` is a result of the statement. Rows come back in an order of their own unless the
statement has an `ORDER BY`. -/
def BaseResult.Returns (rows : BaseResult) (order : UuidOrder) (st : Statement) (out : List Row) :
    Prop :=
  match st with
  | .page .. => out = rows.select order st
  | _ => out.Perm (rows.select order st)

/-- Whether every query of a text that reads as `st` succeeds, with a result of `st`. -/
def DbDriver.Answers (d : DbDriver) (rows : BaseResult) (order : UuidOrder)
    (base keyColumn orderBy : String) (st : Statement) : Prop :=
  ∀ i sql, Statement.read base keyColumn orderBy sql = some st →
    ∃ out, d.query i sql [] = .ok out ∧ rows.Returns order st out

/-- The driver that answers every statement with what it selects. -/
def BaseResult.driver (rows : BaseResult) (order : UuidOrder) (base keyColumn orderBy : String) :
    DbDriver where
  query _ sql _ :=
    match Statement.read base keyColumn orderBy sql with
    | some st => .ok (rows.select order st)
    | none => .error (.query sql)

theorem BaseResult.driver_answers (rows : BaseResult) (order : UuidOrder)
    (base keyColumn orderBy : String) (st : Statement) :
    (rows.driver order base keyColumn orderBy).Answers rows order base keyColumn orderBy st := by
  refine fun i sql h => ⟨rows.select order st, by simp [driver, h], ?_⟩
  cases st with
  | page limit offset => rfl
  | _ => exact .rfl

/-- The base result of one column, which is also the key column. -/
def BaseResult.ofIds (ids : List Value) : BaseResult where
  rows := ids.map fun v => ⟨[⟨"id", "", true⟩], [v]⟩
  intKey r :=
    match r.get 0 with
    | some (.int64 n) => some n.toInt
    | _ => none
  uuidKey r :=
    match r.get 0 with
    | some (.uuid u) => some u
    | _ => none

/-- What a plan selects together, when each of its statements selects by the key it finds in a row and
every key of `keep` is in exactly one of them. -/
theorem flatMap_select_perm {rows : BaseResult} {order : UuidOrder} {plan : List Statement} {κ : Type}
    {key : Row → Option κ} (has : Statement → κ → Bool) {keep : κ → Bool}
    (hselect : ∀ st ∈ plan, rows.select order st = rows.rows.filter fun r => (key r).any (has st))
    (hone : ∀ k, plan.countP (has · k) = if keep k then 1 else 0) :
    (plan.flatMap (rows.select order)).Perm (rows.rows.filter fun r => (key r).any keep) := by
  have hflat : plan.flatMap (rows.select order) =
      plan.flatMap fun st => rows.rows.filter fun r => (key r).any (has st) := by
    rw [List.flatMap_def, List.flatMap_def, List.map_congr_left hselect]
  rw [hflat]
  refine Lib.flatMap_filter_perm_filter ?_
  intro r _
  cases key r with
  | none => simp
  | some k => exact hone k

theorem exists_outs {α : Type} {R : α → List Row → Prop} {as : List α}
    {f : Nat → α → Except DbError (List Row)}
    (h : ∀ i, ∀ a ∈ as, ∃ out, f i a = .ok out ∧ R a out) :
    ∃ outs : List (List Row), List.Forall₂ R as outs ∧ as.mapIdx f = outs.map Except.ok := by
  induction as generalizing f with
  | nil => exact ⟨[], .nil, rfl⟩
  | cons a as ih =>
    obtain ⟨out, hout, hR⟩ := h 0 a List.mem_cons_self
    obtain ⟨outs, houts, heq⟩ := ih (f := fun i => f (i + 1))
      fun i b hb => h (i + 1) b (List.mem_cons_of_mem _ hb)
    exact ⟨out :: outs, .cons hR houts, by rw [List.mapIdx_cons, heq, hout]; rfl⟩

namespace DbDriver

variable {d : DbDriver} {rows : BaseResult} {order : UuidOrder} {base keyColumn orderBy : String}
  {plan : List Statement} {σ : Lib.Futures.Schedule}

/-- Running a plan that the driver answers returns the answers in plan order. -/
theorem queryPartitioned_plan (hd : ∀ st ∈ plan, d.Answers rows order base keyColumn orderBy st)
    (hq : ∀ st ∈ plan, st.Quotable) (hσ : σ.Settles plan.length 1) :
    ∃ outs : List (List Row), List.Forall₂ (rows.Returns order) plan outs ∧
      d.queryPartitioned (plan.map (Statement.toPartition base keyColumn orderBy)) σ =
        some (.ok outs.flatten) := by
  have hanswer : ∀ i, ∀ st ∈ plan, ∃ out, d.query i (st.print base keyColumn orderBy) [] = .ok out ∧
      rows.Returns order st out := by
    intro i st hst
    exact hd st hst i _ (Statement.read_print st (hq st hst))
  obtain ⟨outs, hout, heq⟩ := exists_outs hanswer
  refine ⟨outs, hout, ?_⟩
  have hall : d.outcomes (plan.map (Statement.toPartition base keyColumn orderBy)) =
      outs.map Except.ok := by
    rw [← heq]
    refine List.ext_getElem (by simp) ?_
    intro i h₁ h₂
    simp [outcomes, Statement.toPartition, Partition.new]
  have hsome : (d.queryPartitioned
      (plan.map (Statement.toPartition base keyColumn orderBy)) σ).isSome :=
    queryPartitioned_isSome (by rwa [List.length_map])
  obtain ⟨r, hr⟩ := Option.isSome_iff_exists.mp hsome
  rw [hr, queryPartitioned_eq_ok hall hr]

theorem perm_of_returns {outs : List (List Row)}
    (h : List.Forall₂ (rows.Returns order) plan outs) :
    outs.flatten.Perm (plan.flatMap (rows.select order)) := by
  induction h with
  | nil => exact .nil
  | @cons st out plan outs hst _ ih =>
    have hperm : out.Perm (rows.select order st) := by
      cases st with
      | between lo hi => exact hst
      | range lo closed hi => exact hst
      | page limit offset => exact .of_eq hst
    exact hperm.append ih

theorem queryPartitioned_perm (hd : ∀ st ∈ plan, d.Answers rows order base keyColumn orderBy st)
    (hq : ∀ st ∈ plan, st.Quotable) (hσ : σ.Settles plan.length 1) :
    ∃ out, d.queryPartitioned (plan.map (Statement.toPartition base keyColumn orderBy)) σ =
      some (.ok out) ∧ out.Perm (plan.flatMap (rows.select order)) := by
  obtain ⟨outs, hout, heq⟩ := queryPartitioned_plan hd hq hσ
  exact ⟨_, heq, perm_of_returns hout⟩

theorem eq_of_returns {outs : List (List Row)} (hpage : ∀ st ∈ plan, ∃ l o, st = .page l o)
    (h : List.Forall₂ (rows.Returns order) plan outs) : outs = plan.map (rows.select order) := by
  induction h with
  | nil => rfl
  | @cons st out plan outs hst _ ih =>
    obtain ⟨l, o, rfl⟩ := hpage st List.mem_cons_self
    rw [List.map_cons, ← ih fun st hst => hpage st (List.mem_cons_of_mem _ hst), show out = _ from hst]

theorem queryPartitioned_pages (hd : ∀ st ∈ plan, d.Answers rows order base keyColumn orderBy st)
    (hpage : ∀ st ∈ plan, ∃ l o, st = .page l o) (hσ : σ.Settles plan.length 1) :
    d.queryPartitioned (plan.map (Statement.toPartition base keyColumn orderBy)) σ =
      some (.ok (plan.flatMap (rows.select order))) := by
  have hq : ∀ st ∈ plan, st.Quotable := by
    intro st hst
    obtain ⟨l, o, rfl⟩ := hpage st hst
    trivial
  obtain ⟨outs, hout, heq⟩ := queryPartitioned_plan hd hq hσ
  rw [heq, eq_of_returns hpage hout, List.flatMap_def]

end DbDriver
end RustDbDriver
