import RustDbDriver.Chrono
import RustDbDriver.Driver
import RustDbDriver.Lib.Checked
import RustDbDriver.Lib.While
import RustDbDriver.Uuid

/-!
# Splitting one query into partitions

The helpers of `partition`. Each wraps the base query as a subselect and adds a slicing predicate or
a page. `none` is a panic: of a checked 128-bit operation, of a `chrono` operation out of its range,
or of an index; `byOffset` also answers `none` while its `u64` loop has not come to its end within
the given fuel, and its additions wrap.
-/

namespace RustDbDriver
open Lib
namespace Partition

/-! ### The base query -/

/-- `char::is_whitespace`: the Unicode `White_Space` property. -/
def isWhitespace (c : Char) : Bool :=
  let n := c.toNat
  (9 ≤ n ∧ n ≤ 13) ∨ n = 0x20 ∨ n = 0x85 ∨ n = 0xA0 ∨ n = 0x1680 ∨ (0x2000 ≤ n ∧ n ≤ 0x200A) ∨
    n = 0x2028 ∨ n = 0x2029 ∨ n = 0x202F ∨ n = 0x205F ∨ n = 0x3000

/-- Strip a trailing `;` and surrounding whitespace. -/
def clean (baseSql : String) : String :=
  let trimmed := (baseSql.toList.dropWhile isWhitespace).rdropWhile isWhitespace
  String.ofList ((trimmed.rdropWhile (· == ';')).rdropWhile isWhitespace)

/-! ### Integer keys -/

def byIntRange (baseSql keyColumn : String) (min max : Int64) (partitions : UInt32) :
    Option (List Partition) :=
  if partitions = 0 ∨ min > max then some []
  else do
    let base := clean baseSql
    let n : Int := partitions.toNat
    let width ← I128.add (← I128.sub max.toInt min.toInt) 1
    let min := min.toInt
    forPush (fun i : Nat => do
      let lo ← I128.add min (← I128.div (← I128.mul width i) n)
      let next ← I128.div (← I128.mul width (← I128.add i 1)) n
      let hi ← I128.sub (← I128.add min next) 1
      if lo > hi then return none
      return some (.new
        s!"SELECT * FROM ({base}) AS _part WHERE {keyColumn} BETWEEN {lo} AND {hi}"))
      (List.range partitions.toNat)

/-! ### Offset pages -/

/-- `u64::div_ceil`. -/
def divCeil (a b : UInt64) : UInt64 := if a % b > 0 then a / b + 1 else a / b

structure Paging where
  offset : UInt64
  out : List Partition

def byOffset (fuel : Nat) (baseSql orderBy : String) (totalRows : UInt64) (partitions : UInt32) :
    Option (List Partition) :=
  if partitions = 0 ∨ totalRows = 0 then some []
  else
    let base := clean baseSql
    let page := divCeil totalRows partitions.toUInt64
    let body (s : Paging) : Paging :=
      let limit := min page (totalRows - s.offset)
      { offset := s.offset + page
        out := s.out ++ [.new
          s!"SELECT * FROM ({base}) AS _part ORDER BY {orderBy} LIMIT {limit} OFFSET {s.offset}"] }
    (whileFuel (fun s => decide (s.offset < totalRows)) body fuel ⟨0, []⟩).map (·.out)

/-! ### Interpolation -/

/-- `floor(a * num / den)` without overflowing for the intermediate product. -/
def mulDiv (a num den : Nat) : Option Nat := do
  U128.add (← U128.mul (← U128.div a den) num)
    (← U128.div (← U128.mul (← U128.rem a den) num) den)

theorem mul_div_split (a num : Nat) {den : Nat} (hden : 0 < den) :
    a / den * num + a % den * num / den = a * num / den := by
  have h : a * num = den * (a / den * num) + a % den * num := by
    calc a * num = (den * (a / den) + a % den) * num := by rw [Nat.div_add_mod]
      _ = den * (a / den * num) + a % den * num := by ring
  rw [h, Nat.mul_add_div hden]

/-- Where the result fits, no more than the product with the remainder can overflow. -/
theorem mulDiv_eq_of_fits {a num den : Nat} (hden : 0 < den) (hfits : a * num / den ≤ U128.MAX)
    (hrem : a % den * num ≤ U128.MAX) : mulDiv a num den = some (a * num / den) := by
  have hsplit := mul_div_split a num hden
  have hquot : a / den * num ≤ U128.MAX := (Nat.le_add_right _ _).trans (hsplit.trans_le hfits)
  unfold mulDiv
  simp only [U128.div_eq hden, U128.rem_eq hden, U128.mul_eq hquot, U128.mul_eq hrem, Option.bind_eq_bind,
    Option.bind_some]
  rw [U128.add_eq (hsplit.trans_le hfits), hsplit]

/-- For a fraction of at most `1` with a `u32` denominator `mul_div` is the floor, on all of `u128`. -/
theorem mulDiv_eq {a num den : Nat} (ha : a ≤ U128.MAX) (hnum : num ≤ den) (hden : 0 < den)
    (hden' : den < 2 ^ 32) : mulDiv a num den = some (a * num / den) := by
  have hrem : a % den * num ≤ 2 ^ 32 * 2 ^ 32 :=
    Nat.mul_le_mul ((Nat.mod_lt a hden).le.trans hden'.le) (hnum.trans hden'.le)
  have hle : a * num / den ≤ a := by
    calc a * num / den ≤ a * den / den := Nat.div_le_div_right (Nat.mul_le_mul_left _ hnum)
      _ = a := Nat.mul_div_cancel _ hden
  exact mulDiv_eq_of_fits hden (hle.trans ha) (hrem.trans (by decide))

theorem mulDiv_eq_none {a num den : Nat} (hden : 0 < den) (hrem : U128.MAX < a % den * num) :
    mulDiv a num den = none := by
  have hmul : U128.mul (a % den) num = none := if_neg hrem.not_ge
  simp [mulDiv, U128.div_eq hden, U128.rem_eq hden, hmul]

/-- Where the floor fits, `mul_div` computes it exactly if the remainder of `a` times `num` fits as well;
otherwise that product overflows. -/
theorem mulDiv_exact_iff (a num den : Nat) (hden : 0 < den) (hfits : a * num / den ≤ U128.MAX) :
    mulDiv a num den = some (a * num / den) ↔ a % den * num ≤ U128.MAX := by
  constructor
  · intro h
    by_contra hrem
    rw [mulDiv_eq_none hden (Nat.lt_of_not_le hrem)] at h
    cases h
  · exact mulDiv_eq_of_fits hden hfits

theorem mulDiv_exact_third : mulDiv (2 ^ 128 - 1) 1 3 = some ((2 ^ 128 - 1) * 1 / 3) ↔
    (2 ^ 128 - 1) % 3 * 1 ≤ U128.MAX :=
  mulDiv_exact_iff (2 ^ 128 - 1) 1 3 (by decide) (by decide)

/-- The floor is below `2 ^ 64`, but the product overflows. -/
theorem mulDiv_overflows : 2 ^ 64 * 2 ^ 64 / (2 ^ 64 + 1) = 2 ^ 64 - 1 ∧
    mulDiv (2 ^ 64) (2 ^ 64) (2 ^ 64 + 1) = none ∧
    mulDiv (2 ^ 64) (2 ^ 64) (2 ^ 64 + 1) ≠ some (2 ^ 64 * 2 ^ 64 / (2 ^ 64 + 1)) := by
  decide

/-! ### UUID keys -/

def byUuidRangeOrdered (baseSql keyColumn : String) (min max : Uuid) (partitions : UInt32)
    (order : UuidOrder) : Option (List Partition) :=
  let loKey := uuidToKey min order
  let hiKey := uuidToKey max order
  if partitions = 0 ∨ loKey > hiKey then some []
  else do
    let base := clean baseSql
    let n := partitions.toNat
    let span ← U128.sub hiKey loKey
    let boundary (k : Nat) : Option Nat := do U128.add loKey (← mulDiv span k n)
    forPush (fun i => do
      let lo ← boundary i
      let hi ← boundary (← U128.add i 1)
      let loUuid := keyToUuid lo order
      if (← U128.add i 1) = n then
        if lo > hiKey then return none
        return some (.new
          s!"SELECT * FROM ({base}) AS _part WHERE {keyColumn} >= '{loUuid}' AND {keyColumn} <= '{max}'")
      else
        if lo ≥ hi then return none
        let hiUuid := keyToUuid hi order
        return some (.new
          s!"SELECT * FROM ({base}) AS _part WHERE {keyColumn} >= '{loUuid}' AND {keyColumn} < '{hiUuid}'"))
      (List.range n)

def byUuidRange (baseSql keyColumn : String) (min max : Uuid) (partitions : UInt32) :
    Option (List Partition) :=
  byUuidRangeOrdered baseSql keyColumn min max partitions .lexical

/-! ### Date and time keys -/

/-- `i64 as u128`. -/
def i64AsU128 (x : Int) : Nat := (x % 2 ^ 128).toNat

/-- `u128 as i64`. -/
def u128AsI64 (x : Nat) : Int := (x : Int).bmod (2 ^ 64)

/-- The `i`-th of `n` boundary offsets across a span, in microseconds, or in seconds for spans too
large to express in microseconds. -/
def splitDuration (span : Duration) (i n : Nat) : Option Duration :=
  match span.numMicroseconds with
  | some us => do Duration.microseconds (u128AsI64 (← mulDiv (i64AsU128 us) i n))
  | none => do Duration.seconds (u128AsI64 (← mulDiv (i64AsU128 span.numSeconds) i n))

/-- Half-open partitions from boundary literals, the last one closed. -/
def timePartitions (base keyColumn : String) (bounds : List String) : Option (List Partition) :=
  let n := bounds.length - 1
  forPush (fun i => do
    let lo ← bounds[i]?
    let hi ← bounds[i + 1]?
    let last := decide (i + 1 = n)
    if !last && lo == hi then return none
    let pred :=
      if last then s!"{keyColumn} >= '{lo}' AND {keyColumn} <= '{hi}'"
      else s!"{keyColumn} >= '{lo}' AND {keyColumn} < '{hi}'"
    return some (.new s!"SELECT * FROM ({base}) AS _part WHERE {pred}"))
    (List.range n)

variable (chrono : Chrono)

def byDateRange (baseSql keyColumn : String) (min max : NaiveDate) (partitions : UInt32) :
    Option (List Partition) :=
  if partitions = 0 ∨ min.days > max.days then some []
  else do
    let base := clean baseSql
    let span := i64AsU128 (Max.max (max.sub min).numDays 0)
    let n := partitions.toNat
    let bounds ← (List.range (n + 1)).mapM fun i => do
      let days := u128AsI64 (← mulDiv span i n)
      return chrono.formatDate "%Y-%m-%d" (← min.add (← Duration.days days))
    timePartitions base keyColumn bounds

def byDatetimeRange (baseSql keyColumn : String) (min max : NaiveDateTime) (partitions : UInt32) :
    Option (List Partition) :=
  if partitions = 0 ∨ min.ns > max.ns then some []
  else do
    let base := clean baseSql
    let span := max.sub min
    let n := partitions.toNat
    let bounds ← (List.range (n + 1)).mapM fun i => do
      return chrono.formatDateTime "%Y-%m-%d %H:%M:%S%.6f" (← min.add (← splitDuration span i n))
    timePartitions base keyColumn bounds

def byTimestampRange (baseSql keyColumn : String) (min max : DateTimeUtc) (partitions : UInt32) :
    Option (List Partition) :=
  if partitions = 0 ∨ min.utc.ns > max.utc.ns then some []
  else do
    let base := clean baseSql
    let span := max.utc.sub min.utc
    let n := partitions.toNat
    let bounds ← (List.range (n + 1)).mapM fun i => do
      let bound ← min.utc.add (← splitDuration span i n)
      return chrono.formatDateTimeUtc "%Y-%m-%d %H:%M:%S%.6f%:z" ⟨bound⟩
    timePartitions base keyColumn bounds

/-- What the guards of the helpers let through. -/
theorem not_guard_iff {partitions : UInt32} {empty : Prop} :
    ¬ (partitions = 0 ∨ empty) ↔ 0 < partitions.toNat ∧ ¬ empty := by
  rw [not_or, ← UInt32.toNat_inj, Nat.pos_iff_ne_zero]
  rfl

end Partition
end RustDbDriver
