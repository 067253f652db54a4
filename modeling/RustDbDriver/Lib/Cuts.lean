import Mathlib

/-!
# Cutting an ordered type at points

`b 0, b 1, …, b n` cut a linear order into the slices `[b i, b (i + 1))`. Nothing is assumed of the
order the points stand in: `rises b m x` counts the slices that hold `x`, `falls b m x` the places
where the points step back over `x`, and their difference only depends on the two ends
(`rises_add_reached`). Where the points ascend nothing steps back, and the slices tile.

`holders` counts the slices that hold `x` when the last of them is closed, `[b (n - 1), b n]`, and
`backs` the steps back that go with them (`holders_add_above`).

Selecting rows by each of several predicates and putting the selections together returns every row
as often as there are predicates that hold it (`flatMap_filter_perm`), which turns what is known of
`holders` into what is known of the rows.
-/

namespace RustDbDriver.Lib

variable {α : Type} [LinearOrder α]

/-- The slices `[b i, b (i + 1))`, `i < m`, that hold `x`. -/
def rises (b : Nat → α) (m : Nat) (x : α) : Nat :=
  (List.range m).countP fun i => decide (b i ≤ x ∧ x < b (i + 1))

/-- The places `i < m` where the points step back over `x`. -/
def falls (b : Nat → α) (m : Nat) (x : α) : Nat :=
  (List.range m).countP fun i => decide (b (i + 1) ≤ x ∧ x < b i)

def reached (p x : α) : Nat := if p ≤ x then 1 else 0

/-- Whether slice `i` of `n` holds `x`, the last slice being closed at its upper end. -/
def SliceHas (b : Nat → α) (n i : Nat) (x : α) : Prop :=
  b i ≤ x ∧ if i + 1 = n then x ≤ b n else x < b (i + 1)

instance (b : Nat → α) (n i : Nat) (x : α) : Decidable (SliceHas b n i x) := by
  unfold SliceHas; infer_instance

def holders (b : Nat → α) (n : Nat) (x : α) : Nat :=
  (List.range n).countP fun i => decide (SliceHas b n i x)

/-- The places where the points step back over `x`, the last slice being closed at its upper end. -/
def backs (b : Nat → α) (n : Nat) (x : α) : Nat :=
  (List.range n).countP fun i => decide (x < b i ∧ if i + 1 = n then b n < x else b (i + 1) ≤ x)

variable {b : Nat → α} {m n : Nat} {x : α}

theorem rises_succ : rises b (m + 1) x = rises b m x + if b m ≤ x ∧ x < b (m + 1) then 1 else 0 := by
  simp [rises, List.range_succ, List.countP_append, List.countP_cons]

theorem falls_succ : falls b (m + 1) x = falls b m x + if b (m + 1) ≤ x ∧ x < b m then 1 else 0 := by
  simp [falls, List.range_succ, List.countP_append, List.countP_cons]

/-- Every slice that holds `x` rises over it and every step back falls below it again, so the two
counts differ by what the first and the last point say about `x`. -/
theorem rises_add_reached : rises b m x + reached (b m) x = falls b m x + reached (b 0) x := by
  induction m with
  | zero => simp [rises, falls]
  | succ m ih =>
    rw [rises_succ, falls_succ]
    unfold reached at ih ⊢
    rcases le_or_gt (b m) x with hm | hm <;> rcases le_or_gt (b (m + 1)) x with hs | hs <;>
      simp only [hm, hs, not_le.mpr, not_lt.mpr, and_self, and_true, and_false,
        if_true, if_false] at ih ⊢ <;> omega

theorem falls_eq_zero (hb : ∀ i < m, b i ≤ b (i + 1)) : falls b m x = 0 := by
  refine List.countP_eq_zero.mpr ?_
  intro i hi
  simp only [decide_eq_true_eq, not_and, not_lt]
  exact (hb i (List.mem_range.mp hi)).trans

theorem falls_pos_iff : 0 < falls b m x ↔ ∃ i < m, b (i + 1) ≤ x ∧ x < b i := by
  simp [falls, List.countP_pos_iff]

theorem first_le_last (hb : ∀ i < m, b i ≤ b (i + 1)) : b 0 ≤ b m := by
  induction m with
  | zero => exact le_rfl
  | succ m ih => exact (ih fun i hi => hb i (by omega)).trans (hb m (by omega))

theorem rises_eq_of_ascending (hb : ∀ i < m, b i ≤ b (i + 1)) :
    rises b m x = if b 0 ≤ x ∧ x < b m then 1 else 0 := by
  have h := rises_add_reached (b := b) (m := m) (x := x)
  have h0 := first_le_last hb
  rw [falls_eq_zero hb] at h
  unfold reached at h
  rcases le_or_gt (b m) x with hm | hm
  · simp only [hm, h0.trans hm, if_true, not_lt.mpr hm, and_false, if_false] at h ⊢
    omega
  · simp only [not_le.mpr hm, hm, if_false, and_true] at h ⊢
    omega

theorem holders_succ :
    holders b (m + 1) x = rises b m x + if b m ≤ x ∧ x ≤ b (m + 1) then 1 else 0 := by
  unfold holders rises
  rw [List.range_succ, List.countP_append, List.countP_singleton]
  congr 1
  · refine List.countP_congr ?_
    intro i hi
    have hne : i ≠ m := (List.mem_range.mp hi).ne
    simp [SliceHas, hne]
  · simp [SliceHas]

theorem backs_succ :
    backs b (m + 1) x = falls b m x + if x < b m ∧ b (m + 1) < x then 1 else 0 := by
  unfold backs falls
  rw [List.range_succ, List.countP_append, List.countP_singleton]
  congr 1
  · refine List.countP_congr ?_
    intro i hi
    have hne : i ≠ m := (List.mem_range.mp hi).ne
    simp [hne, and_comm]
  · simp

/-- How often `x` is held is how often the points step back over it, up to what the first and the last
point say about `x`. -/
theorem holders_add_above :
    holders b (m + 1) x + (if b (m + 1) < x then 1 else 0) = backs b (m + 1) x + reached (b 0) x := by
  have h := rises_add_reached (b := b) (m := m) (x := x)
  rw [holders_succ, backs_succ]
  unfold reached at h ⊢
  rcases le_or_gt (b m) x with hm | hm <;> rcases le_or_gt x (b (m + 1)) with hs | hs <;>
    simp only [hm, hs, not_le.mpr, not_lt.mpr, and_self, and_true, and_false, if_true, if_false] at h ⊢ <;>
    omega

theorem backs_eq_zero (hb : ∀ i < m + 1, b i ≤ b (i + 1)) : backs b (m + 1) x = 0 := by
  have hlast := hb m (by omega)
  rw [backs_succ, falls_eq_zero fun i hi => hb i (by omega), if_neg]
  exact fun h => not_lt.mpr hlast (h.2.trans h.1)

/-- Between the first and the last point every `x` is held once, and once more for every place where
the points step back over it. -/
theorem holders_eq_falls (h₀ : b 0 ≤ x) (h₁ : x ≤ b (m + 1)) :
    holders b (m + 1) x = falls b m x + 1 := by
  have h := rises_add_reached (b := b) (m := m) (x := x)
  rw [holders_succ]
  unfold reached at h
  simp only [h₀, h₁, and_true, if_true] at h ⊢
  exact h

/-- Slices at ascending points, the last one closed, hold exactly `[b 0, b n]`, each `x` once. -/
theorem holders_eq_of_ascending (hb : ∀ i < m + 1, b i ≤ b (i + 1)) :
    holders b (m + 1) x = if b 0 ≤ x ∧ x ≤ b (m + 1) then 1 else 0 := by
  have hbm : ∀ i < m, b i ≤ b (i + 1) := fun i hi => hb i (by omega)
  by_cases hx : b 0 ≤ x ∧ x ≤ b (m + 1)
  · rw [holders_eq_falls hx.1 hx.2, falls_eq_zero hbm, if_pos hx]
  · have h0 := first_le_last hbm
    have hm := hb m (by omega)
    rw [holders_succ, rises_eq_of_ascending hbm, if_neg hx, if_neg, if_neg]
    · exact fun h => hx ⟨h0.trans h.1, h.2⟩
    · exact fun h => hx ⟨h.1, h.2.le.trans hm⟩

/-! ### Selecting by slices -/

section Select

variable {ρ β : Type} {sel : β → ρ → Bool} {parts : List β} {rows : List ρ}

theorem flatMap_filter_cons (r : ρ) :
    (parts.flatMap fun p => (r :: rows).filter (sel p)).Perm
      (List.replicate (parts.countP (sel · r)) r ++ parts.flatMap fun p => rows.filter (sel p)) := by
  induction parts with
  | nil => simp
  | cons p parts ih =>
    have hmid := (ih.append_left (rows.filter (sel p))).trans (List.perm_append_comm_assoc ..)
    rw [List.flatMap_cons, List.flatMap_cons, List.countP_cons, List.filter_cons]
    split
    · rw [List.replicate_succ, List.cons_append, List.cons_append]
      exact hmid.cons r
    · exact hmid

theorem flatMap_filter_perm :
    (parts.flatMap fun p => rows.filter (sel p)).Perm
      (rows.flatMap fun r => List.replicate (parts.countP (sel · r)) r) := by
  induction rows with
  | nil => simp
  | cons r rows ih => exact (flatMap_filter_cons r).trans (ih.append_left _)

open Classical in
theorem count_flatMap_replicate (f : ρ → Nat) (a : ρ) :
    (rows.flatMap fun r => List.replicate (f r) r).count a = rows.count a * f a := by
  induction rows with
  | nil => simp
  | cons r rows ih =>
    rw [List.flatMap_cons, List.count_append, ih, List.count_cons, List.count_replicate]
    by_cases hr : r = a
    · simp [hr, Nat.add_mul, Nat.add_comm]
    · simp [hr]

/-- Repeating each row some number of times gives the same rows exactly if the numbers are the same. -/
theorem flatMap_replicate_perm_iff {f g : ρ → Nat} :
    (rows.flatMap fun r => List.replicate (f r) r).Perm (rows.flatMap fun r => List.replicate (g r) r) ↔
      ∀ r ∈ rows, f r = g r := by
  classical
  rw [List.perm_iff_count]
  simp only [count_flatMap_replicate]
  constructor
  · intro h r hr
    exact Nat.eq_of_mul_eq_mul_left (List.count_pos_iff.mpr hr) (h r)
  · intro h r
    by_cases hr : r ∈ rows
    · rw [h r hr]
    · rw [List.count_eq_zero_of_not_mem hr, Nat.zero_mul, Nat.zero_mul]

theorem flatMap_replicate_perm_self_iff {f : ρ → Nat} :
    (rows.flatMap fun r => List.replicate (f r) r).Perm rows ↔ ∀ r ∈ rows, f r = 1 := by
  have hone : (rows.flatMap fun r => List.replicate 1 r) = rows := by simp
  have h : (rows.flatMap fun r => List.replicate (f r) r).Perm (rows.flatMap fun r => List.replicate 1 r) ↔
      ∀ r ∈ rows, f r = 1 := flatMap_replicate_perm_iff
  rwa [hone] at h

theorem flatMap_replicate_eq_filter {count : ρ → Nat} {keep : ρ → Bool}
    (h : ∀ r ∈ rows, count r = if keep r then 1 else 0) :
    (rows.flatMap fun r => List.replicate (count r) r) = rows.filter keep := by
  induction rows with
  | nil => rfl
  | cons r rows ih =>
    rw [List.flatMap_cons, h r List.mem_cons_self, ih fun r' hr' => h r' (List.mem_cons_of_mem _ hr'),
      List.filter_cons]
    split <;> simp

theorem countP_filterMap_any {ι : Type} {slice : ι → Option β} {is : List ι} {q : β → Bool} :
    (is.filterMap slice).countP q = is.countP fun i => (slice i).any q := by
  rw [List.countP_filterMap]
  refine List.countP_congr ?_
  intro i _
  cases slice i <;> simp

/-- Predicates that hold each row of `keep` once and no other row select, together, what `keep`
selects. -/
theorem flatMap_filter_perm_filter {keep : ρ → Bool}
    (h : ∀ r ∈ rows, parts.countP (sel · r) = if keep r then 1 else 0) :
    (parts.flatMap fun p => rows.filter (sel p)).Perm (rows.filter keep) := by
  rw [← flatMap_replicate_eq_filter h]
  exact flatMap_filter_perm

end Select

end RustDbDriver.Lib
