import RustDbDriver.Partition
import RustDbDriver.Plan

/-!
# Offset pages

`offsetPlan` is the plan of `by_offset`: pages of one size, the last one cut off at the total. The
loop's invariant `Paging.Inv` ties its offset to the number of pages it has emitted; the measure that
ends it is the number of pages still to come, which is at most `partitions` from the start.
-/

namespace RustDbDriver
open Lib
namespace Partition

def offsetPage (total page k : Nat) : Statement := .page (min page (total - k * page)) (k * page)

def pageCount (total page : Nat) : Nat := (total + page - 1) / page

def offsetPlan (total page : Nat) : List Statement :=
  (List.range (pageCount total page)).map (offsetPage total page)

/-! ### Page sizes and counts -/

section Pages

variable {total page n k : Nat}

theorem lt_pageCount_iff (hp : 0 < page) : k < pageCount total page ↔ k * page < total := by
  unfold pageCount
  rw [Nat.lt_iff_add_one_le, Nat.le_div_iff_mul_le hp, Nat.succ_mul]
  omega

theorem le_pageSize_mul (total : Nat) (hn : 0 < n) : total ≤ n * ((total + n - 1) / n) := by
  have h := Nat.lt_mul_div_succ (total + n - 1) hn
  rw [Nat.mul_add, Nat.mul_one] at h
  omega

theorem pageCount_le (hp : 0 < page) (hcover : total ≤ n * page) : pageCount total page ≤ n := by
  by_contra h
  have := (lt_pageCount_iff hp).mp (Nat.lt_of_not_le h)
  omega

theorem pageSize_pos (hn : 0 < n) (ht : 0 < total) : 0 < (total + n - 1) / n :=
  Nat.div_pos (by omega) hn

theorem pageSize_le (hn : 0 < n) (ht : 0 < total) : (total + n - 1) / n ≤ total := by
  rw [Nat.div_le_iff_le_mul_add_pred hn]
  have : total * 1 ≤ n * total := by rw [Nat.mul_comm n]; exact Nat.mul_le_mul_left _ hn
  omega

end Pages

/-- The rounded-up quotient, from the rounded-down one and the remainder. -/
theorem ceil_eq {a b : Nat} (hb : 0 < b) :
    (a + b - 1) / b = if 0 < a % b then a / b + 1 else a / b := by
  have hmod := Nat.mod_lt a hb
  have hsplit : a + b - 1 = b * (a / b) + (a % b + b - 1) := by
    have := Nat.div_add_mod a b
    omega
  rw [hsplit, Nat.mul_add_div hb]
  split
  · next h =>
    congr 1
    exact Nat.div_eq_of_lt_le (by omega) (by omega)
  · next h =>
    have hzero : (a % b + b - 1) / b = 0 := Nat.div_eq_of_lt (by omega)
    rw [hzero, Nat.add_zero]

/-- `div_ceil` is exact: where it rounds up, the divisor is at least two. -/
theorem toNat_divCeil {a b : UInt64} (hb : 0 < b.toNat) :
    (divCeil a b).toNat = (a.toNat + b.toNat - 1) / b.toNat := by
  have ha := a.toNat_lt
  have hpos : a % b > 0 ↔ 0 < a.toNat % b.toNat := by
    rw [gt_iff_lt, UInt64.lt_iff_toNat_lt, UInt64.toNat_mod]
    rfl
  unfold divCeil
  rw [ceil_eq hb]
  split
  · next h =>
    have hmod := hpos.mp h
    have hb' : 2 ≤ b.toNat := by
      by_contra hlt
      rw [show b.toNat = 1 by omega, Nat.mod_one] at hmod
      exact absurd hmod (Nat.lt_irrefl 0)
    have hdiv : a.toNat / b.toNat ≤ a.toNat / 2 := Nat.div_le_div_left hb' (by decide)
    rw [if_pos hmod, UInt64.toNat_add, UInt64.toNat_div]
    exact Nat.mod_eq_of_lt (show a.toNat / b.toNat + 1 < 2 ^ 64 by omega)
  · next h => rw [if_neg (mt hpos.mpr h), UInt64.toNat_div]

/-! ### The loop -/

section Loop

variable {base keyColumn orderBy : String} {totalRows page : UInt64}

/-- The loop has emitted the pages in front of its offset. -/
structure Paging.Inv (base keyColumn orderBy : String) (total page : Nat) (s : Paging) : Prop where
  offset : s.offset.toNat = s.out.length * page
  out : s.out = ((List.range s.out.length).map (offsetPage total page)).map
    (Statement.toPartition base keyColumn orderBy)
  le : s.out.length ≤ pageCount total page

theorem toNat_min (a b : UInt64) : (min a b).toNat = min a.toNat b.toNat := by
  show (if a ≤ b then a else b).toNat = _
  split
  · next h => exact (min_eq_left (UInt64.le_iff_toNat_le.mp h)).symm
  · next h => exact (min_eq_right (Nat.le_of_not_le (mt UInt64.le_iff_toNat_le.mpr h))).symm

def pagingBody (base orderBy : String) (totalRows page : UInt64) (s : Paging) : Paging :=
  let limit := min page (totalRows - s.offset)
  { offset := s.offset + page
    out := s.out ++ [.new
      s!"SELECT * FROM ({base}) AS _part ORDER BY {orderBy} LIMIT {limit} OFFSET {s.offset}"] }

theorem pagingBody_offset (s : Paging) :
    (pagingBody base orderBy totalRows page s).offset = s.offset + page := rfl

theorem pagingBody_out (keyColumn : String) {s : Paging} (h : s.offset ≤ totalRows) :
    (pagingBody base orderBy totalRows page s).out = s.out ++
      [(Statement.page (min page.toNat (totalRows.toNat - s.offset.toNat)) s.offset.toNat).toPartition
        base keyColumn orderBy] := by
  have hlimit : (min page (totalRows - s.offset)).toNat =
      min page.toNat (totalRows.toNat - s.offset.toNat) := by
    rw [toNat_min, UInt64.toNat_sub_of_le _ _ h]
  rw [← hlimit]
  rfl

theorem Paging.Inv.start : (⟨0, []⟩ : Paging).Inv base keyColumn orderBy totalRows.toNat page.toNat :=
  ⟨by simp, by simp, by simp⟩

/-- A round adds one page, as long as all pages end inside of `u64`. -/
theorem Paging.Inv.step (hp : 0 < page.toNat)
    (hfits : pageCount totalRows.toNat page.toNat * page.toNat < 2 ^ 64)
    {s : Paging} (hs : s.Inv base keyColumn orderBy totalRows.toNat page.toNat)
    (hc : s.offset < totalRows) :
    (pagingBody base orderBy totalRows page s).Inv base keyColumn orderBy totalRows.toNat page.toNat ∧
      (pagingBody base orderBy totalRows page s).out.length = s.out.length + 1 ∧
      s.offset.toNat + page.toNat < 2 ^ 64 := by
  have hlt := UInt64.lt_iff_toNat_lt.mp hc
  have hcount : s.out.length < pageCount totalRows.toNat page.toNat :=
    (lt_pageCount_iff hp).mpr (by rwa [← hs.offset])
  have hadd : s.offset.toNat + page.toNat < 2 ^ 64 := by
    calc s.offset.toNat + page.toNat = (s.out.length + 1) * page.toNat := by rw [hs.offset, Nat.succ_mul]
      _ ≤ pageCount totalRows.toNat page.toNat * page.toNat := Nat.mul_le_mul_right _ hcount
      _ < 2 ^ 64 := hfits
  have hout : (pagingBody base orderBy totalRows page s).out = _ :=
    pagingBody_out keyColumn (UInt64.le_of_lt hc)
  have hlen : (pagingBody base orderBy totalRows page s).out.length = s.out.length + 1 := by
    rw [hout, List.length_append, List.length_singleton]
  refine ⟨⟨?_, ?_, ?_⟩, hlen, hadd⟩
  · rw [hlen, Nat.succ_mul, ← hs.offset, pagingBody_offset, UInt64.toNat_add]
    exact Nat.mod_eq_of_lt hadd
  · rw [hlen, List.range_succ, List.map_append, List.map_append, ← hs.out, hout, hs.offset]
    rfl
  · rw [hlen]
    exact hcount

/-- With fuel for every page the loop comes to its end, with all pages. -/
theorem whileFuel_paging (hp : 0 < page.toNat)
    (hfits : pageCount totalRows.toNat page.toNat * page.toNat < 2 ^ 64) {fuel : Nat}
    (hfuel : pageCount totalRows.toNat page.toNat ≤ fuel) :
    (whileFuel (fun s => decide (s.offset < totalRows)) (pagingBody base orderBy totalRows page) fuel
      ⟨0, []⟩).map (·.out) = some ((offsetPlan totalRows.toNat page.toNat).map
        (Statement.toPartition base keyColumn orderBy)) := by
  have hstart : (⟨0, []⟩ : Paging).Inv base keyColumn orderBy totalRows.toNat page.toNat := .start
  have hsome : (whileFuel (fun s => decide (s.offset < totalRows))
      (pagingBody base orderBy totalRows page) fuel ⟨0, []⟩).isSome := by
    refine whileFuel_isSome (Paging.Inv base keyColumn orderBy totalRows.toNat page.toNat)
      (fun s => pageCount totalRows.toNat page.toNat - s.out.length) ?_ hstart (by simpa using hfuel)
    intro s hs hc
    obtain ⟨hinv, hlen, -⟩ := hs.step hp hfits (of_decide_eq_true hc)
    have := hinv.le
    exact ⟨hinv, by omega⟩
  obtain ⟨s, hs⟩ := Option.isSome_iff_exists.mp hsome
  obtain ⟨hinv, hend⟩ := whileFuel_invariant
    (Paging.Inv base keyColumn orderBy totalRows.toNat page.toNat)
    (fun s hs hc => (Paging.Inv.step hp hfits hs (of_decide_eq_true hc)).1) hstart hs
  -- the loop stops behind the last page
  have hall : s.out.length = pageCount totalRows.toNat page.toNat := by
    refine le_antisymm hinv.le (Nat.le_of_not_lt ?_)
    intro hlt
    have hoff := (lt_pageCount_iff hp).mp hlt
    rw [← hinv.offset] at hoff
    exact of_decide_eq_false hend (UInt64.lt_iff_toNat_lt.mpr hoff)
  rw [hs, Option.map_some, hinv.out, hall]
  rfl

end Loop

/-- Whether the rows, rounded up to whole pages, are counted by a `u64`. -/
def PagesFit (total n : Nat) : Prop :=
  pageCount total ((total + n - 1) / n) * ((total + n - 1) / n) < 2 ^ 64

theorem pagesFit_of_lt {total n : Nat} (hn : 0 < n) (ht₀ : 0 < total) (ht : total < 2 ^ 63) :
    PagesFit total n := by
  have hp := pageSize_pos hn ht₀
  have hle := pageSize_le hn ht₀
  unfold PagesFit
  generalize (total + n - 1) / n = page at hp hle
  have := Nat.div_mul_le_self (total + page - 1) page
  unfold pageCount
  omega

theorem toNat_pageSize {totalRows : UInt64} {partitions : UInt32} (hn : 0 < partitions.toNat) :
    (divCeil totalRows partitions.toUInt64).toNat =
      (totalRows.toNat + partitions.toNat - 1) / partitions.toNat := by
  rw [toNat_divCeil (by simpa using hn), UInt32.toNat_toUInt64]

/-- With fuel for `partitions` pages `by_offset` ends and emits the plan. -/
theorem byOffset_eq (baseSql keyColumn orderBy : String) {totalRows : UInt64} {partitions : UInt32}
    {fuel : Nat} (hn : 0 < partitions.toNat) (ht₀ : 0 < totalRows.toNat)
    (hfits : PagesFit totalRows.toNat partitions.toNat) (hfuel : partitions.toNat ≤ fuel) :
    byOffset fuel baseSql orderBy totalRows partitions =
      some ((offsetPlan totalRows.toNat
        ((totalRows.toNat + partitions.toNat - 1) / partitions.toNat)).map
        (Statement.toPartition (clean baseSql) keyColumn orderBy)) := by
  have hpage := @toNat_pageSize totalRows partitions hn
  have hpos := pageSize_pos hn ht₀
  have hcount := (pageCount_le hpos (le_pageSize_mul _ hn)).trans hfuel
  have hguard : ¬ (partitions = 0 ∨ totalRows = 0) := by
    rintro (rfl | rfl)
    · simp at hn
    · simp at ht₀
  unfold PagesFit at hfits
  rw [← hpage] at hpos hfits hcount ⊢
  rw [byOffset, if_neg hguard]
  exact whileFuel_paging hpos hfits hcount

/-! ### Where the loop ends -/

/-- The loop of `by_offset` is left within `partitions` rounds, and no round adds past `u64::MAX`. -/
def OffsetLoopFits (baseSql orderBy : String) (totalRows : UInt64) (partitions : UInt32) : Prop :=
  (byOffset partitions.toNat baseSql orderBy totalRows partitions).isSome = true ∧
    (partitions ≠ 0 → totalRows ≠ 0 →
      ∀ s, Reaches (fun s : Paging => decide (s.offset < totalRows))
          (pagingBody (clean baseSql) orderBy totalRows (divCeil totalRows partitions.toUInt64)) ⟨0, []⟩ s →
        s.offset < totalRows → s.offset.toNat + (divCeil totalRows partitions.toUInt64).toNat < 2 ^ 64)

/-- Up to the last page, the loop comes by every multiple of the page size. -/
theorem reaches_page (base orderBy : String) {totalRows page : UInt64} (hp : 0 < page.toNat) {k : Nat}
    (hk : k < pageCount totalRows.toNat page.toNat) :
    ∃ s, Reaches (fun s : Paging => decide (s.offset < totalRows)) (pagingBody base orderBy totalRows page)
      ⟨0, []⟩ s ∧ s.offset.toNat = k * page.toNat := by
  have ht := totalRows.toNat_lt
  induction k with
  | zero => exact ⟨_, .start, by simp⟩
  | succ k ih =>
    have hlt := (lt_pageCount_iff hp).mp hk
    have hlt' := (lt_pageCount_iff hp).mp (Nat.lt_of_succ_lt hk)
    obtain ⟨s, hs, hoffset⟩ := ih (Nat.lt_of_succ_lt hk)
    have hc : s.offset < totalRows := UInt64.lt_iff_toNat_lt.mpr (by rwa [hoffset])
    refine ⟨_, hs.round (decide_eq_true hc), ?_⟩
    rw [Nat.succ_mul] at hlt ⊢
    rw [pagingBody_offset, UInt64.toNat_add, hoffset]
    exact Nat.mod_eq_of_lt (by omega)

/-- The round of the last page adds up to the end of that page. -/
theorem pageCount_mul_lt (base orderBy : String) {totalRows page : UInt64} (hp : 0 < page.toNat)
    (ht : 0 < totalRows.toNat)
    (hadd : ∀ s, Reaches (fun s : Paging => decide (s.offset < totalRows))
      (pagingBody base orderBy totalRows page) ⟨0, []⟩ s →
      s.offset < totalRows → s.offset.toNat + page.toNat < 2 ^ 64) :
    pageCount totalRows.toNat page.toNat * page.toNat < 2 ^ 64 := by
  have hcount : 0 < pageCount totalRows.toNat page.toNat := (lt_pageCount_iff hp).mpr (by rwa [Nat.zero_mul])
  obtain ⟨last, hlast⟩ := Nat.exists_eq_succ_of_ne_zero hcount.ne'
  have hk : last < pageCount totalRows.toNat page.toNat := hlast ▸ Nat.lt_succ_self last
  obtain ⟨s, hs, hoffset⟩ := reaches_page base orderBy hp hk
  have hc : s.offset < totalRows := by
    rw [UInt64.lt_iff_toNat_lt, hoffset]
    exact (lt_pageCount_iff hp).mp hk
  have hfits := hadd s hs hc
  rwa [hoffset, ← Nat.succ_mul, ← hlast] at hfits

/-- The loop of `by_offset` ends in time and without overflow exactly if the rows, rounded up to whole
pages, are counted by a `u64`. -/
theorem offsetLoopFits_iff (baseSql orderBy : String) (totalRows : UInt64) (partitions : UInt32) :
    OffsetLoopFits baseSql orderBy totalRows partitions ↔
      partitions = 0 ∨ totalRows = 0 ∨ PagesFit totalRows.toNat partitions.toNat := by
  by_cases hguard : partitions = 0 ∨ totalRows = 0
  · have hempty : byOffset partitions.toNat baseSql orderBy totalRows partitions = some [] := by
      rw [byOffset, if_pos hguard]
    constructor
    · intro _
      rcases hguard with h | h
      · exact .inl h
      · exact .inr (.inl h)
    · intro _
      refine ⟨by rw [hempty]; rfl, ?_⟩
      intro hn ht
      exact absurd hguard (not_or.mpr ⟨hn, ht⟩)
  · obtain ⟨hn, ht⟩ := not_or.mp hguard
    have hn₀ : 0 < partitions.toNat := Nat.pos_of_ne_zero fun h => hn (UInt32.toNat_inj.mp h)
    have ht₀ : 0 < totalRows.toNat := Nat.pos_of_ne_zero fun h => ht (UInt64.toNat_inj.mp h)
    have hpage := @toNat_pageSize totalRows partitions hn₀
    have hp := pageSize_pos hn₀ ht₀
    constructor
    · rintro ⟨-, hadd⟩
      refine .inr (.inr ?_)
      unfold PagesFit
      rw [← hpage] at hp ⊢
      exact pageCount_mul_lt (clean baseSql) orderBy hp ht₀ (hadd hn ht)
    · rintro (h | h | hfits)
      · exact absurd h hn
      · exact absurd h ht
      · refine ⟨by rw [byOffset_eq baseSql "" orderBy hn₀ ht₀ hfits le_rfl]; rfl, ?_⟩
        intro _ _ s hs hc
        unfold PagesFit at hfits
        rw [← hpage] at hp hfits
        have hinv := hs.invariant (Paging.Inv (clean baseSql) "" orderBy totalRows.toNat
          (divCeil totalRows partitions.toUInt64).toNat)
          (fun s hs hc => (hs.step hp hfits (of_decide_eq_true hc)).1) .start
        exact (hinv.step hp hfits hc).2.2

/-- Two pages over `u64::MAX` rows: the second one ends at `2 ^ 64`, and the loop starts over. -/
theorem byOffset_never_ends :
    ¬ ∃ fuel, (byOffset fuel "SELECT id FROM t" "id" 18446744073709551615 2).isSome = true := by
  rintro ⟨fuel, hends⟩
  have hloop : whileFuel (fun s : Paging => decide (s.offset < 18446744073709551615))
      (pagingBody (clean "SELECT id FROM t") "id" 18446744073709551615 9223372036854775808) fuel ⟨0, []⟩ =
        none := by
    refine whileFuel_eq_none (fun s => s.offset = 0 ∨ s.offset = 9223372036854775808) ?_ (.inl rfl)
    intro s hs
    rw [pagingBody_offset]
    rcases hs with hs | hs
    · rw [hs]
      decide
    · rw [hs]
      decide
  have hpage : divCeil 18446744073709551615 (2 : UInt32).toUInt64 = 9223372036854775808 := by decide
  rw [byOffset, if_neg (by decide), hpage] at hends
  have hnone : (Option.map Paging.out (none : Option Paging)).isSome = true := hloop ▸ hends
  cases hnone

/-! ### What the pages return -/

section Run

variable {total page n k : Nat}

theorem length_offsetPlan : (offsetPlan total page).length = pageCount total page := by
  simp [offsetPlan]

theorem mem_offsetPlan (hp : 0 < page) {st : Statement} (hst : st ∈ offsetPlan total page) :
    ∃ limit offset, st = .page limit offset ∧ 1 ≤ limit := by
  obtain ⟨k, hk, rfl⟩ := List.mem_map.mp hst
  have := (lt_pageCount_iff hp).mp (List.mem_range.mp hk)
  exact ⟨_, _, rfl, by omega⟩

theorem mem_dropLast_offsetPlan (hp : 0 < page) {st : Statement}
    (hst : st ∈ (offsetPlan total page).dropLast) : ∃ offset, st = .page page offset := by
  obtain ⟨k, hk, rfl⟩ := List.mem_iff_getElem.mp hst
  rw [List.length_dropLast, length_offsetPlan] at hk
  -- the page behind page `k` is not empty
  have hnext : (k + 1) * page < total := (lt_pageCount_iff hp).mp (by omega)
  rw [Nat.succ_mul] at hnext
  refine ⟨k * page, ?_⟩
  rw [List.getElem_dropLast]
  simp only [offsetPlan, List.getElem_map, List.getElem_range, offsetPage]
  congr 1
  omega

/-- The first `k` pages return the first `k * page` rows, or all up to the total. -/
theorem flatMap_offsetPage (hp : 0 < page) (rows : BaseResult) (order : UuidOrder)
    (hk : k ≤ pageCount total page) :
    ((List.range k).map (offsetPage total page)).flatMap (rows.select order) =
      rows.rows.take (min (k * page) total) := by
  induction k with
  | zero => simp
  | succ k ih =>
    have hlt := (lt_pageCount_iff hp).mp (Nat.lt_of_succ_le hk)
    have htake : min ((k + 1) * page) total = k * page + min page (total - k * page) := by
      rw [Nat.succ_mul]; omega
    have hmin : min (k * page) total = k * page := by omega
    rw [List.range_succ, List.map_append, List.flatMap_append, ih (by omega), hmin, htake,
      List.take_add]
    simp [offsetPage, BaseResult.select]

/-- The pages return the first `total` rows in order, or all there are. -/
theorem flatMap_offsetPlan (hp : 0 < page) (rows : BaseResult) (order : UuidOrder) :
    (offsetPlan total page).flatMap (rows.select order) = rows.rows.take total := by
  have hcover : ¬ pageCount total page * page < total := fun h =>
    Nat.lt_irrefl _ ((lt_pageCount_iff hp).mpr h)
  have hmin : min (pageCount total page * page) total = total := by omega
  rw [offsetPlan, flatMap_offsetPage hp rows order le_rfl, hmin]

end Run

/-- `by_offset` emits at most `partitions` pages, none empty and all but the last of one size, and
running them returns the first `total_rows` rows in their order. -/
theorem byOffset_runs (d : DbDriver) (rows : BaseResult) (order : UuidOrder)
    (baseSql keyColumn orderBy : String) (totalRows : UInt64) (partitions : UInt32) (fuel : Nat)
    (hn : 1 ≤ partitions) (ht₁ : 1 ≤ totalRows) (ht : totalRows.toNat ≤ 2 ^ 63 - 1)
    (hfuel : partitions.toNat ≤ fuel)
    (hd : ∀ limit offset,
      d.Answers rows order (clean baseSql) keyColumn orderBy (.page limit offset)) :
    ∃ plan : List Statement,
      byOffset fuel baseSql orderBy totalRows partitions =
        some (plan.map (Statement.toPartition (clean baseSql) keyColumn orderBy)) ∧
      plan.length ≤ partitions.toNat ∧
      (∀ st ∈ plan, ∃ limit offset, st = .page limit offset ∧ 1 ≤ limit) ∧
      (∀ st ∈ plan.dropLast, ∃ offset,
        st = .page ((totalRows.toNat + partitions.toNat - 1) / partitions.toNat) offset) ∧
      ∀ σ : Lib.Futures.Schedule, σ.Settles plan.length 1 →
        d.queryPartitioned (plan.map (Statement.toPartition (clean baseSql) keyColumn orderBy)) σ =
          some (.ok (rows.rows.take totalRows.toNat)) := by
  have hn₀ : 0 < partitions.toNat := UInt32.le_iff_toNat_le.mp hn
  have ht₀ : 0 < totalRows.toNat := UInt64.le_iff_toNat_le.mp ht₁
  have hp := pageSize_pos hn₀ ht₀
  have hcover := le_pageSize_mul totalRows.toNat hn₀
  have hplan := byOffset_eq baseSql keyColumn orderBy hn₀ ht₀ (pagesFit_of_lt hn₀ ht₀ (by omega)) hfuel
  generalize (totalRows.toNat + partitions.toNat - 1) / partitions.toNat = page at *
  have hpages : ∀ st ∈ offsetPlan totalRows.toNat page, ∃ limit offset, st = .page limit offset := by
    intro st hst
    obtain ⟨limit, offset, rfl, -⟩ := mem_offsetPlan hp hst
    exact ⟨limit, offset, rfl⟩
  have hanswers : ∀ st ∈ offsetPlan totalRows.toNat page,
      d.Answers rows order (clean baseSql) keyColumn orderBy st := by
    intro st hst
    obtain ⟨limit, offset, rfl⟩ := hpages st hst
    exact hd limit offset
  refine ⟨_, hplan, ?_, ?_, ?_, ?_⟩
  · rw [length_offsetPlan]
    exact pageCount_le hp hcover
  · intro st hst
    exact mem_offsetPlan hp hst
  · intro st hst
    exact mem_dropLast_offsetPlan hp hst
  · intro σ hσ
    rw [DbDriver.queryPartitioned_pages hanswers hpages hσ, flatMap_offsetPlan hp]

/-- More partitions than rows, and a total that is larger than the base result. -/
theorem byOffset_runs_ids :
    ∃ plan : List Statement,
      byOffset 10 "SELECT id FROM t;" "id" 4 10 =
        some (plan.map (Statement.toPartition (clean "SELECT id FROM t;") "" "id")) ∧
      ∀ σ : Lib.Futures.Schedule, σ.Settles plan.length 1 →
        (BaseResult.driver (.ofIds [.null, .int64 1, .int64 7]) .lexical
          (clean "SELECT id FROM t;") "" "id").queryPartitioned
            (plan.map (Statement.toPartition (clean "SELECT id FROM t;") "" "id")) σ =
          some (.ok (BaseResult.ofIds [.null, .int64 1, .int64 7]).rows) := by
  obtain ⟨plan, hplan, -, -, -, hrun⟩ := byOffset_runs
    (BaseResult.driver (.ofIds [.null, .int64 1, .int64 7]) .lexical
      (clean "SELECT id FROM t;") "" "id")
    (.ofIds [.null, .int64 1, .int64 7]) .lexical "SELECT id FROM t;" "" "id" 4 10 10
    (by decide) (by decide) (by decide) (by decide)
    fun limit offset => BaseResult.driver_answers _ _ _ _ _ _
  exact ⟨plan, hplan, hrun⟩

/-! ### Pages as a stream -/

section Stream

variable {d : DbDriver} {rows : BaseResult} {order : UuidOrder} {base keyColumn orderBy : String}
  {total page k : Nat}

theorem outcomes_offsetPlan
    (hd : ∀ limit offset, d.Answers rows order base keyColumn orderBy (.page limit offset)) :
    d.outcomes ((offsetPlan total page).map (Statement.toPartition base keyColumn orderBy)) =
      ((offsetPlan total page).map (rows.select order)).map Except.ok := by
  refine List.ext_getElem (by simp) ?_
  intro i h₁ h₂
  have hread : Statement.read base keyColumn orderBy ((offsetPage total page i).print base keyColumn orderBy) =
      some (offsetPage total page i) := Statement.read_print _ trivial
  obtain ⟨out, hout, hreturns⟩ := hd _ _ i _ hread
  have hselect : d.query i ((offsetPage total page i).print base keyColumn orderBy) [] =
      .ok (rows.select order (offsetPage total page i)) := hout.trans (congrArg _ hreturns)
  simpa [DbDriver.outcomes, Statement.toPartition, Partition.new, offsetPlan] using hselect

/-- The items of the first `k` pages. -/
theorem flatMap_take_outcomes (hp : 0 < page)
    (hd : ∀ limit offset, d.Answers rows order base keyColumn orderBy (.page limit offset)) :
    ((d.outcomes ((offsetPlan total page).map (Statement.toPartition base keyColumn orderBy))).take k).flatMap
        DbDriver.streamItems = (rows.rows.take (min (k * page) total)).map Except.ok := by
  have htake : (offsetPlan total page).take k =
      (List.range (min k (pageCount total page))).map (offsetPage total page) := by
    rw [offsetPlan, ← List.map_take, List.take_range]
  have hmin : min (min k (pageCount total page) * page) total = min (k * page) total := by
    by_cases hk : k ≤ pageCount total page
    · rw [min_eq_left hk]
    · -- no row is behind the last page
      have hlast : ¬ pageCount total page * page < total := mt (lt_pageCount_iff hp).mpr (Nat.lt_irrefl _)
      have hle : pageCount total page * page ≤ k * page := Nat.mul_le_mul_right page (by omega)
      have hcount : min k (pageCount total page) = pageCount total page := by omega
      rw [hcount]
      omega
  have hrows := flatMap_offsetPage hp rows order (Nat.min_le_right k (pageCount total page))
  rw [outcomes_offsetPlan hd, ← List.map_take, ← List.map_take, htake, DbDriver.flatMap_streamItems_ok,
    ← List.flatMap_def, hrows, hmin]

end Stream

/-- The pages of `by_offset`, as a stream: whenever it is looked at, it has handed out the first rows of the base
result, in their order and up to the total; all of them at its end, which it reaches; and all rows of the first
`k` pages as soon as these are there and have been polled for, whatever the later pages do. -/
theorem byOffset_streams (d : DbDriver) (rows : BaseResult) (order : UuidOrder)
    (baseSql keyColumn orderBy : String) (totalRows : UInt64) (partitions : UInt32) (fuel : Nat)
    (hn : 1 ≤ partitions) (ht₁ : 1 ≤ totalRows) (ht : totalRows.toNat ≤ 2 ^ 63 - 1)
    (hfuel : partitions.toNat ≤ fuel)
    (hd : ∀ limit offset,
      d.Answers rows order (clean baseSql) keyColumn orderBy (.page limit offset)) :
    ∃ parts, byOffset fuel baseSql orderBy totalRows partitions = some parts ∧
      (∀ σ : Futures.Schedule,
        (d.queryPartitionedStream parts σ).emitted <+: (rows.rows.take totalRows.toNat).map .ok ∧
        ((d.queryPartitionedStream parts σ).ended = true →
          (d.queryPartitionedStream parts σ).emitted = (rows.rows.take totalRows.toNat).map .ok) ∧
        (σ.Settles parts.length ((rows.rows.take totalRows.toNat).length + 1) →
          (d.queryPartitionedStream parts σ).ended = true)) ∧
      ∀ (σ₁ σ₂ : Futures.Schedule) (k : Nat),
        let front := rows.rows.take
          (min (k * ((totalRows.toNat + partitions.toNat - 1) / partitions.toNat)) totalRows.toNat)
        (∀ i < k, .complete i ∈ σ₁) → front.length ≤ σ₂.count .poll →
          front.map .ok <+: (d.queryPartitionedStream parts (σ₁ ++ σ₂)).emitted ∧
          (.complete k ∉ σ₁ ++ σ₂ → (d.queryPartitionedStream parts (σ₁ ++ σ₂)).emitted = front.map .ok) := by
  have hn₀ : 0 < partitions.toNat := UInt32.le_iff_toNat_le.mp hn
  have ht₀ : 0 < totalRows.toNat := UInt64.le_iff_toNat_le.mp ht₁
  have hp := pageSize_pos hn₀ ht₀
  have hcover := le_pageSize_mul totalRows.toNat hn₀
  have hplan := byOffset_eq baseSql keyColumn orderBy hn₀ ht₀ (pagesFit_of_lt hn₀ ht₀ (by omega)) hfuel
  generalize (totalRows.toNat + partitions.toNat - 1) / partitions.toNat = page at *
  generalize totalRows.toNat = total at *
  refine ⟨_, hplan, ?_, ?_⟩
  · intro σ
    have hall : d.streamed ((offsetPlan total page).map (Statement.toPartition (clean baseSql) keyColumn orderBy)) =
        (rows.rows.take total).map Except.ok := by
      rw [DbDriver.streamed, outcomes_offsetPlan hd, DbDriver.flatMap_streamItems_ok, ← List.flatMap_def,
        flatMap_offsetPlan hp]
    have hok := DbDriver.ok_queryPartitionedStream d
      ((offsetPlan total page).map (Statement.toPartition (clean baseSql) keyColumn orderBy)) σ
    rw [← hall]
    refine ⟨hok.inv.prefix_emitted, hok.ended, ?_⟩
    intro hσ
    exact DbDriver.ended_queryPartitionedStream (by simpa [hall] using hσ)
  · intro σ₁ σ₂ k front hcomplete hpolls
    have hitems : ((d.outcomes ((offsetPlan total page).map
        (Statement.toPartition (clean baseSql) keyColumn orderBy))).take k).flatMap DbDriver.streamItems =
          front.map Except.ok := flatMap_take_outcomes hp hd
    rw [← List.length_map (Except.ok (ε := DbError)), ← hitems] at hpolls
    rw [← hitems]
    exact ⟨Futures.Consumer.eager_run hcomplete hpolls, Futures.Consumer.emitted_eq_of_waiting hcomplete hpolls⟩

/-- Three rows in pages of two, the second page still running. -/
theorem byOffset_streams_ids :
    let rows := BaseResult.ofIds [.null, .int64 1, .int64 7]
    let d := rows.driver .lexical (clean "SELECT id FROM t;") "" "id"
    ∃ parts, byOffset 2 "SELECT id FROM t;" "id" 3 2 = some parts ∧
      (∀ σ : Futures.Schedule,
        (d.queryPartitionedStream parts σ).emitted <+: (rows.rows.take 3).map .ok ∧
        ((d.queryPartitionedStream parts σ).ended = true →
          (d.queryPartitionedStream parts σ).emitted = (rows.rows.take 3).map .ok) ∧
        (σ.Settles parts.length ((rows.rows.take 3).length + 1) →
          (d.queryPartitionedStream parts σ).ended = true)) ∧
      ((rows.rows.take 2).map .ok <+:
          (d.queryPartitionedStream parts ([.complete 0] ++ [.poll, .poll])).emitted ∧
        (.complete 1 ∉ [.complete 0] ++ [Futures.Event.poll, .poll] →
          (d.queryPartitionedStream parts ([.complete 0] ++ [.poll, .poll])).emitted =
            (rows.rows.take 2).map .ok)) := by
  intro rows d
  obtain ⟨parts, hparts, hrun, heager⟩ := byOffset_streams d rows .lexical "SELECT id FROM t;" "" "id" 3 2 2
    (by decide) (by decide) (by decide) (by decide) fun limit offset => BaseResult.driver_answers _ _ _ _ _ _
  refine ⟨parts, hparts, hrun, heager [.complete 0] [.poll, .poll] 1 ?_ (by decide)⟩
  intro i hi
  obtain rfl : i = 0 := by omega
  exact List.mem_singleton_self _

end Partition
end RustDbDriver
