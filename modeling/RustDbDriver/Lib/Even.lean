import Mathlib
import RustDbDriver.Lib.Cuts

/-!
# Even cuts

`cut w n i` is the floor of `w * i / n`: `n` pieces between neighbouring cuts share out `w` units. Every
piece has `w / n` units or one more (`cut_add_le`, `cut_succ_le`), and `min n w` of them have any
(`pieces_self`). Where the last piece is given one more unit and kept even if it is empty, the pieces
that are kept stay within two units of each other (`sliceSize_le_add_two`); `ncard_slice` counts the values
that such a slice holds.
-/

namespace RustDbDriver.Lib

def cut (w n i : Nat) : Nat := w * i / n

/-- How many of the first `m` pieces are not empty. -/
def pieces (w n m : Nat) : Nat := (List.range m).countP fun i => decide (cut w n i < cut w n (i + 1))

/-- The units of piece `i`, where the last piece has one more. -/
def sliceSize (w n i : Nat) : Nat := cut w n (i + 1) - cut w n i + if i + 1 = n then 1 else 0

variable {w n i j m : Nat}

theorem cut_self (hn : 0 < n) : cut w n n = w := Nat.mul_div_cancel _ hn

theorem cut_mono (hij : i ≤ j) : cut w n i ≤ cut w n j :=
  Nat.div_le_div_right (Nat.mul_le_mul_left w hij)

theorem cut_le (hn : 0 < n) (hi : i ≤ n) : cut w n i ≤ w := (cut_mono hi).trans_eq (cut_self hn)

theorem cut_add_le : cut w n i + w / n ≤ cut w n (i + 1) := by
  unfold cut
  rw [Nat.mul_succ]
  exact Nat.div_add_div_le_add_div

theorem cut_succ_le (hn : 0 < n) : cut w n (i + 1) ≤ cut w n i + w / n + 1 := by
  unfold cut
  rw [Nat.mul_succ, Nat.add_div hn]
  split <;> omega

/-! ### Pieces that are not empty -/

theorem pieces_succ : pieces w n (m + 1) = pieces w n m + if cut w n m < cut w n (m + 1) then 1 else 0 := by
  simp [pieces, List.range_succ, List.countP_append, List.countP_cons]

/-- Where there are enough units every piece has one. -/
theorem pieces_of_le (hn : 0 < n) (hw : n ≤ w) : pieces w n m = m := by
  have hq : 0 < w / n := Nat.div_pos hw hn
  induction m with
  | zero => rfl
  | succ m ih =>
    have hstep : cut w n m + w / n ≤ cut w n (m + 1) := cut_add_le
    rw [pieces_succ, ih, if_pos (by omega)]

/-- Where there are too few units no piece has two of them. -/
theorem pieces_of_lt (hw : w < n) : pieces w n m = cut w n m := by
  have hq : w / n = 0 := Nat.div_eq_of_lt hw
  induction m with
  | zero => simp [pieces, cut]
  | succ m ih =>
    have hlow : cut w n m + w / n ≤ cut w n (m + 1) := cut_add_le
    have hup : cut w n (m + 1) ≤ cut w n m + w / n + 1 := cut_succ_le (by omega)
    rw [pieces_succ, ih]
    split <;> omega

theorem pieces_self (hn : 0 < n) : pieces w n n = min n w := by
  rcases le_or_gt n w with hw | hw
  · rw [pieces_of_le hn hw, min_eq_left hw]
  · rw [pieces_of_lt hw, cut_self hn, min_eq_right hw.le]

/-- The last cut before the end leaves one unit, where there are too few of them. -/
theorem cut_pred (hw₀ : 0 < w) (hw : w ≤ n) : cut w n (n - 1) = w - 1 := by
  have hmul : w * (n - 1) = n * (w - 1) + (n - w) := by
    obtain ⟨v, rfl⟩ : ∃ v, w = v + 1 := ⟨w - 1, by omega⟩
    obtain ⟨d, rfl⟩ : ∃ d, n = v + 1 + d := ⟨n - (v + 1), by omega⟩
    rw [show v + 1 + d - 1 = v + d by omega, show v + 1 - 1 = v by omega,
      show v + 1 + d - (v + 1) = d by omega]
    ring
  unfold cut
  rw [hmul, Nat.mul_add_div (by omega), Nat.div_eq_of_lt (by omega), Nat.add_zero]

/-- With the last piece kept in any case, all of them are kept exactly if there are enough units, or
there is one piece. -/
theorem pieces_pred_iff (hn : 0 < n) : pieces w n (n - 1) + 1 = n ↔ n = 1 ∨ n ≤ w := by
  rcases le_or_gt n w with hw | hw
  · rw [pieces_of_le hn hw]
    omega
  · rw [pieces_of_lt hw]
    rcases Nat.eq_zero_or_pos w with rfl | hw₀
    · simp only [cut, Nat.zero_mul, Nat.zero_div]
      omega
    · rw [cut_pred hw₀ hw.le]
      omega

/-- A piece that is kept is the last one or not empty. -/
def Kept (w n i : Nat) : Prop := i + 1 = n ∨ cut w n i < cut w n (i + 1)

instance (w n i : Nat) : Decidable (Kept w n i) := by unfold Kept; infer_instance

theorem countP_kept (hn : 0 < n) :
    (List.range n).countP (fun i => decide (Kept w n i)) = pieces w n (n - 1) + 1 := by
  obtain ⟨m, rfl⟩ : ∃ m, n = m + 1 := ⟨n - 1, by omega⟩
  rw [List.range_succ, List.countP_append, List.countP_singleton, if_pos (by simp [Kept]), pieces,
    Nat.add_sub_cancel]
  congr 1
  refine List.countP_congr ?_
  intro i hi
  have hne : i ≠ m := (List.mem_range.mp hi).ne
  simp [Kept, hne]

/-- How many pieces are kept. -/
theorem length_filterMap_kept {S : Type} {slice : Nat → Option S} (hn : 0 < n)
    (h : ∀ i < n, (slice i).isSome ↔ Kept w n i) :
    ((List.range n).filterMap slice).length = pieces w n (n - 1) + 1 := by
  rw [List.length_filterMap_eq_countP, ← countP_kept hn]
  refine List.countP_congr ?_
  intro i hi
  rw [h i (List.mem_range.mp hi), decide_eq_true_eq]

/-! ### Sizes -/

theorem sliceSize_pos (h : Kept w n i) : 0 < sliceSize w n i := by
  unfold sliceSize
  rcases h with h | h
  · rw [if_pos h]
    omega
  · omega

theorem sliceSize_le_add_two (hn : 0 < n) (h : Kept w n j) : sliceSize w n i ≤ sliceSize w n j + 2 := by
  have hpos := sliceSize_pos h
  have hup : cut w n (i + 1) ≤ cut w n i + w / n + 1 := cut_succ_le hn
  have hlow : cut w n j + w / n ≤ cut w n (j + 1) := cut_add_le
  unfold sliceSize at hpos ⊢
  split <;> omega

theorem sizes_le_add_two {ι : Type} {parts : List ι} {size : ι → Nat} (hn : 0 < n)
    (h : ∀ p ∈ parts, ∃ i, Kept w n i ∧ size p = sliceSize w n i) :
    ∀ p ∈ parts, 0 < size p ∧ ∀ p' ∈ parts, size p ≤ size p' + 2 := by
  intro p hp
  obtain ⟨i, hi, hsize⟩ := h p hp
  rw [hsize]
  refine ⟨sliceSize_pos hi, ?_⟩
  intro p' hp'
  obtain ⟨j, hj, hsize'⟩ := h p' hp'
  rw [hsize']
  exact sliceSize_le_add_two hn hj

theorem cut_sub_le_add_one (hn : 0 < n) :
    cut w n (i + 1) - cut w n i ≤ cut w n (j + 1) - cut w n j + 1 := by
  have hup : cut w n (i + 1) ≤ cut w n i + w / n + 1 := cut_succ_le hn
  have hlow : cut w n j + w / n ≤ cut w n (j + 1) := cut_add_le
  omega

section Values

variable {α : Type} {key : α → Int}

theorem ncard_interval (hkey : Function.Injective key) {lo hi : Int}
    (hrange : ∀ x, lo ≤ x → x ≤ hi → x ∈ Set.range key) :
    {a | lo ≤ key a ∧ key a ≤ hi}.ncard = (hi + 1 - lo).toNat := by
  have hset : {a | lo ≤ key a ∧ key a ≤ hi} = Set.preimage key (Set.Icc lo hi) := rfl
  rw [hset, Set.ncard_preimage_of_injective_subset_range hkey fun x hx => hrange x hx.1 hx.2,
    Set.ncard_eq_toFinset_card', Set.toFinset_Icc, Int.card_Icc]

/-- A slice between even cuts holds as many values as it has units. -/
theorem ncard_slice (hkey : Function.Injective key) {start : Int}
    (hrange : ∀ x, start ≤ x → x ≤ start + w → x ∈ Set.range key) (hn : 0 < n) (hi : i < n) :
    {a | SliceHas (fun i => start + (cut w n i : Int)) n i (key a)}.ncard = sliceSize w n i := by
  have hle : cut w n i ≤ cut w n (i + 1) := cut_mono (Nat.le_succ i)
  have hnext : cut w n (i + 1) ≤ w := cut_le hn hi
  have hset : {a | SliceHas (fun i => start + (cut w n i : Int)) n i (key a)} =
      {a | start + (cut w n i : Int) ≤ key a ∧
        key a ≤ start + (cut w n (i + 1) : Int) - if i + 1 = n then 0 else 1} := by
    ext a
    by_cases hlast : i + 1 = n
    · simp [SliceHas, hlast]
    · simp only [SliceHas, hlast, if_false, Set.mem_ofPred_eq]
      omega
  rw [hset, ncard_interval hkey]
  · unfold sliceSize
    split <;> omega
  · intro x h₁ h₂
    apply hrange x
    · omega
    · split at h₂ <;> omega

end Values

end RustDbDriver.Lib
