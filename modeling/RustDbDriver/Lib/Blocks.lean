import Mathlib

/-!
# A list in blocks

`block size xs k` is the `k`-th stretch of `size` entries of `xs`, shorter at the end and empty behind
it. The blocks together are the list (`flatMap_block`), and `xs.length / size`, rounded up, of them have
entries (`countP_block`).
-/

namespace RustDbDriver.Lib

variable {α : Type} {size n : Nat} {xs : List α}

def block (size : Nat) (xs : List α) (k : Nat) : List α := (xs.drop (size * k)).take size

theorem length_block_le (k : Nat) : (block size xs k).length ≤ size := List.length_take_le _ _

theorem length_block (k : Nat) : (block size xs k).length = min size (xs.length - size * k) := by
  simp [block]

theorem flatMap_block : (List.range n).flatMap (block size xs) = xs.take (size * n) := by
  induction n with
  | zero => simp
  | succ n ih =>
    rw [List.range_succ, List.flatMap_append, ih, List.flatMap_singleton, Nat.mul_succ, List.take_add]
    rfl

/-- Enough blocks are the whole list. -/
theorem flatMap_block_eq (hn : xs.length ≤ size * n) : (List.range n).flatMap (block size xs) = xs := by
  rw [flatMap_block, List.take_of_length_le hn]

theorem length_block_pos (hsize : 0 < size) (k : Nat) :
    0 < (block size xs k).length ↔ size * k < xs.length := by
  rw [length_block]
  omega

theorem countP_lt_range (m : Nat) : (List.range n).countP (fun k => decide (k < m)) = min n m := by
  induction n with
  | zero => simp
  | succ n ih =>
    rw [List.range_succ, List.countP_append, ih, List.countP_singleton]
    simp only [decide_eq_true_eq]
    split <;> omega

theorem countP_block (hsize : 0 < size) :
    (List.range n).countP (fun k => decide (0 < (block size xs k).length)) =
      min n ((xs.length + (size - 1)) / size) := by
  rw [← countP_lt_range]
  refine List.countP_congr ?_
  intro k _
  rw [decide_eq_true_eq, decide_eq_true_eq, length_block_pos hsize, Nat.lt_div_iff_mul_lt hsize,
    Nat.mul_comm k]
  omega

end RustDbDriver.Lib
