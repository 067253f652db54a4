import RustDbDriver.Lib.Blocks
import RustDbDriver.Vtab

/-!
# Scanning a result

DuckDB calls `func` on one reset output chunk after another and reads a chunk of length `0` as the end
of the data. `calls` is the run of the first `n` calls from a position of the cursor. Call `k` from
`init` on leaves block `k` of the rows (`funcInto_block`), so the run delivers the rows in blocks of
`VECTOR_SIZE` and nothing behind them.
-/

namespace RustDbDriver
open Lib

/-- The output chunk of a call: the length that is set and what is written, column by column. -/
structure DataChunk where
  len : Nat
  vectors : List (List Written)

/-- The rows DuckDB reads in a chunk; `none` is an entry that was not written. -/
def DataChunk.rows (chunk : DataChunk) : List (List (Option Value)) :=
  (List.range chunk.len).map fun r => chunk.vectors.map fun vector => (vector[r]?).map Written.toValue

namespace RemoteVTab

/-- One call of `func` on a reset output chunk; `none` is a row index out of range. -/
def funcInto (fmt : Display) (data : RemoteQueryBindData) (pos : Nat) : Option (DataChunk × Nat) :=
  if pos ≥ data.rows.length then some (⟨0, []⟩, pos)
  else do
    let batch := min (data.rows.length - pos) VECTOR_SIZE
    let vectors ← (List.range data.colCount).mapM fun colIdx =>
      (List.range batch).mapM fun rowOffset => do
        let row ← data.rows[pos + rowOffset]?
        return writeValue fmt ((row.get colIdx).getD .null)
    return (⟨batch, vectors⟩, pos + batch)

/-- The position of a new cursor. -/
def init : Nat := 0

/-- The chunks of `n` calls, one after the other, and the position they leave. -/
def calls (fmt : Display) (data : RemoteQueryBindData) : Nat → Nat → Option (List DataChunk × Nat)
  | 0, pos => some ([], pos)
  | n + 1, pos => do
    let (chunk, pos) ← funcInto fmt data pos
    let (chunks, pos) ← calls fmt data n pos
    return (chunk :: chunks, pos)

/-- A row in the first `colCount` columns, as DuckDB shows it; a missing cell is NULL. -/
def project (fmt : Display) (colCount : Nat) (row : Row) : List (Option Value) :=
  (List.range colCount).map fun colIdx => some (((row.get colIdx).getD .null).shown fmt)

/-! ### One call -/

section Call

variable {fmt : Display} {data : RemoteQueryBindData} {pos : Nat}

/-- The chunk of a call is as long as there are rows left, up to `VECTOR_SIZE`, and holds what `func`
writes: no index leaves its range. -/
theorem funcInto_eq (fmt : Display) (data : RemoteQueryBindData) (pos : Nat) :
    funcInto fmt data pos =
      some (⟨min (data.rows.length - pos) VECTOR_SIZE, (func fmt data pos).1⟩, (func fmt data pos).2) := by
  unfold funcInto func
  split
  · next hend =>
    have hzero : data.rows.length - pos = 0 := by omega
    simp [hzero]
  · next hmore =>
    have hcell : ∀ colIdx, (List.range (min (data.rows.length - pos) VECTOR_SIZE)).mapM (fun rowOffset => do
          let row ← data.rows[pos + rowOffset]?
          return writeValue fmt ((row.get colIdx).getD .null)) =
        some ((List.range (min (data.rows.length - pos) VECTOR_SIZE)).map fun rowOffset =>
          writeValue fmt (((data.rows[pos + rowOffset]?).bind fun r => r.get colIdx).getD .null)) := by
      intro colIdx
      refine mapM_eq_some ?_
      intro rowOffset hoffset
      have hlt : pos + rowOffset < data.rows.length := by
        have := List.mem_range.mp hoffset
        omega
      simp [List.getElem?_eq_getElem hlt]
    simp only [hcell]
    rw [mapM_eq_some fun colIdx _ => rfl]
    rfl

theorem func_snd (hpos : pos ≤ data.rows.length) :
    (func fmt data pos).2 = min (pos + VECTOR_SIZE) data.rows.length := by
  unfold func
  split
  · show pos = _
    omega
  · show pos + min _ _ = _
    omega

/-- The rows of a chunk are the rows at the cursor, cell by cell. -/
theorem rows_func (fmt : Display) (data : RemoteQueryBindData) (pos : Nat) :
    DataChunk.rows ⟨min (data.rows.length - pos) VECTOR_SIZE, (func fmt data pos).1⟩ =
      ((data.rows.drop pos).take VECTOR_SIZE).map (project fmt data.colCount) := by
  refine List.ext_getElem (by simp [DataChunk.rows, min_comm]) ?_
  intro r h₁ h₂
  have hr : r < min (data.rows.length - pos) VECTOR_SIZE := by simpa [DataChunk.rows] using h₁
  have hpos : ¬ pos ≥ data.rows.length := by omega
  have hlt : pos + r < data.rows.length := by omega
  have hget : data.rows[pos + r]? = some data.rows[pos + r] := List.getElem?_eq_getElem hlt
  simp [DataChunk.rows, project, func, hpos, hr, hget]

end Call

/-! ### A run of calls -/

section Calls

variable {fmt : Display} {data : RemoteQueryBindData} {n : Nat}

/-- Chunk `k` of a run from the first row on. -/
def chunkAt (fmt : Display) (data : RemoteQueryBindData) (k : Nat) : DataChunk :=
  ⟨(block VECTOR_SIZE data.rows k).length,
    (func fmt data (min (VECTOR_SIZE * k) data.rows.length)).1⟩

theorem drop_min_length {α : Type} (xs : List α) (i : Nat) : xs.drop (min i xs.length) = xs.drop i := by
  rcases le_or_gt i xs.length with hi | hi
  · rw [min_eq_left hi]
  · rw [min_eq_right hi.le, List.drop_length, List.drop_of_length_le hi.le]

theorem rows_chunkAt (k : Nat) :
    (chunkAt fmt data k).rows = (block VECTOR_SIZE data.rows k).map (project fmt data.colCount) := by
  have hrows := rows_func fmt data (min (VECTOR_SIZE * k) data.rows.length)
  have hlen : min (data.rows.length - min (VECTOR_SIZE * k) data.rows.length) VECTOR_SIZE =
      (block VECTOR_SIZE data.rows k).length := by
    rw [length_block]
    omega
  rw [hlen, drop_min_length] at hrows
  exact hrows

/-- Where the cursor has passed `k` blocks, a call leaves block `k` and passes it. -/
theorem funcInto_block (k : Nat) :
    funcInto fmt data (min (VECTOR_SIZE * k) data.rows.length) =
      some (chunkAt fmt data k, min (VECTOR_SIZE * (k + 1)) data.rows.length) := by
  have hpos : min (min (VECTOR_SIZE * k) data.rows.length + VECTOR_SIZE) data.rows.length =
      min (VECTOR_SIZE * (k + 1)) data.rows.length := by
    rw [Nat.mul_succ]
    omega
  have hlen : min (data.rows.length - min (VECTOR_SIZE * k) data.rows.length) VECTOR_SIZE =
      (block VECTOR_SIZE data.rows k).length := by
    rw [length_block]
    omega
  rw [funcInto_eq, func_snd (Nat.min_le_right _ _), hpos, hlen]
  rfl

theorem calls_block (n k : Nat) :
    calls fmt data n (min (VECTOR_SIZE * k) data.rows.length) =
      some ((List.range n).map fun i => chunkAt fmt data (k + i),
        min (VECTOR_SIZE * (k + n)) data.rows.length) := by
  induction n generalizing k with
  | zero => rfl
  | succ n ih =>
    have hshift : (List.range n).map (fun i => chunkAt fmt data (k + 1 + i)) =
        (List.range n).map ((fun i => chunkAt fmt data (k + i)) ∘ Nat.succ) := by
      refine List.map_congr_left ?_
      intro i _
      rw [Function.comp_apply, Nat.add_assoc, Nat.add_comm 1 i]
    rw [calls, funcInto_block, Option.bind_eq_bind, Option.bind_some]
    dsimp only
    rw [ih (k + 1), Option.bind_eq_bind, Option.bind_some, List.range_succ_eq_map, List.map_cons,
      List.map_map, hshift, Nat.add_assoc k 1 n, Nat.add_comm 1 n]
    rfl

theorem calls_init :
    calls fmt data n init =
      some ((List.range n).map (chunkAt fmt data), min (VECTOR_SIZE * n) data.rows.length) := by
  have h := @calls_block fmt data n 0
  simpa [init] using h

end Calls

/-- Any number of calls from `init` on deliver the rows from the first one on, once each and in order,
in chunks of at most 2048. A chunk is empty exactly if all rows are delivered before it, and where the
calls suffice for all rows, one chunk for every 2048 rows begun is not. -/
theorem calls_deliver (fmt : Display) (rows : List Row) (n : Nat) :
    ∃ chunks, calls fmt (bindRows rows).data n init = some (chunks, min (2048 * n) rows.length) ∧
      chunks.length = n ∧ (∀ chunk ∈ chunks, chunk.len ≤ 2048) ∧
      (∀ k chunk, chunks[k]? = some chunk → (0 < chunk.len ↔ 2048 * k < rows.length)) ∧
      chunks.flatMap DataChunk.rows =
        (rows.take (2048 * n)).map (project fmt (bindRows rows).data.colCount) ∧
      ((rows.length + 2047) / 2048 ≤ n →
        chunks.flatMap DataChunk.rows = rows.map (project fmt (bindRows rows).data.colCount) ∧
        chunks.countP (fun chunk => decide (0 < chunk.len)) = (rows.length + 2047) / 2048) := by
  have hrows : ((List.range n).map (chunkAt fmt (bindRows rows).data)).flatMap DataChunk.rows =
      ((List.range n).flatMap (block VECTOR_SIZE rows)).map
        (project fmt (bindRows rows).data.colCount) := by
    rw [List.flatMap_map, List.map_flatMap]
    refine List.flatMap_congr ?_
    intro k _
    exact rows_chunkAt k
  refine ⟨_, calls_init, by simp, ?_, ?_, ?_, ?_⟩
  · intro chunk hchunk
    obtain ⟨k, -, rfl⟩ := List.mem_map.mp hchunk
    exact length_block_le k
  · intro k chunk hchunk
    rw [List.getElem?_map] at hchunk
    obtain ⟨i, hi, rfl⟩ := Option.map_eq_some_iff.mp hchunk
    obtain ⟨hk, rfl⟩ := List.getElem?_eq_some_iff.mp hi
    rw [List.getElem_range]
    exact length_block_pos (by decide) k
  · rw [hrows, flatMap_block]
    rfl
  · intro hn
    have hlen : rows.length ≤ VECTOR_SIZE * n := by
      unfold VECTOR_SIZE
      omega
    refine ⟨by rw [hrows, flatMap_block_eq hlen], ?_⟩
    rw [List.countP_map]
    have hcount := @countP_block Row VECTOR_SIZE n rows (by decide)
    rw [show (rows.length + (VECTOR_SIZE - 1)) / VECTOR_SIZE = (rows.length + 2047) / 2048 from rfl,
      min_eq_right hn] at hcount
    exact hcount

end RemoteVTab
end RustDbDriver
