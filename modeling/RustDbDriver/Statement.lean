import RustDbDriver.Lib.Scan
import RustDbDriver.Row

/-!
# What a backend reads in an emitted statement

The helpers emit text. `Statement` is what a backend makes of it: the slicing predicate or the page
that was put around the base query. `Statement.read` parses the text, knowing the base query, the key
column and the ordering it was built from, and `read_print` says that it gets back exactly what was
printed. `BaseResult.select` answers a statement on the rows of the base query.
-/

namespace RustDbDriver
open Lib Scan

inductive Statement where
  /-- `key BETWEEN lo AND hi` -/
  | between (lo hi : Int)
  /-- `key >= 'lo' AND key < 'hi'`, or `<= 'hi'` when closed -/
  | range (lo : String) (closed : Bool) (hi : String)
  /-- `ORDER BY … LIMIT limit OFFSET offset` -/
  | page (limit offset : Nat)
deriving DecidableEq, Repr

namespace Statement

def print (base keyColumn orderBy : String) : Statement → String
  | .between lo hi => s!"SELECT * FROM ({base}) AS _part WHERE {keyColumn} BETWEEN {lo} AND {hi}"
  | .range lo true hi =>
    s!"SELECT * FROM ({base}) AS _part WHERE {keyColumn} >= '{lo}' AND {keyColumn} <= '{hi}'"
  | .range lo false hi =>
    s!"SELECT * FROM ({base}) AS _part WHERE {keyColumn} >= '{lo}' AND {keyColumn} < '{hi}'"
  | .page limit offset =>
    s!"SELECT * FROM ({base}) AS _part ORDER BY {orderBy} LIMIT {limit} OFFSET {offset}"

def atEnd (st : Statement) (rest : List Char) : Option Statement :=
  if rest = [] then some st else none

def readBetween (text : List Char) : Option Statement := do
  let (lo, rest) ← int text
  let rest ← lit " AND " rest
  let (hi, rest) ← int rest
  atEnd (.between lo hi) rest

def readRange (keyColumn : String) (text : List Char) : Option Statement := do
  let rest ← lit " >= " text
  let (lo, rest) ← quoted rest
  let rest ← lit " AND " rest
  let rest ← lit keyColumn rest
  match lit " <= " rest with
  | some rest => do
    let (hi, rest) ← quoted rest
    atEnd (.range lo true hi) rest
  | none => do
    let rest ← lit " < " rest
    let (hi, rest) ← quoted rest
    atEnd (.range lo false hi) rest

def readPage (orderBy : String) (text : List Char) : Option Statement := do
  let rest ← lit "ORDER BY " text
  let rest ← lit orderBy rest
  let rest ← lit " LIMIT " rest
  let (limit, rest) ← nat rest
  let rest ← lit " OFFSET " rest
  let (offset, rest) ← nat rest
  atEnd (.page limit offset) rest

/-- Reads a statement around `base`. -/
def read (base keyColumn orderBy sql : String) : Option Statement := do
  let rest ← lit "SELECT * FROM (" sql.toList
  let rest ← lit base rest
  let rest ← lit ") AS _part " rest
  match lit "WHERE " rest with
  | some rest => do
    let rest ← lit keyColumn rest
    match lit " BETWEEN " rest with
    | some rest => readBetween rest
    | none => readRange keyColumn rest
  | none => readPage orderBy rest

@[simp] theorem print_between (base keyColumn orderBy : String) (lo hi : Int) :
    print base keyColumn orderBy (.between lo hi) =
      s!"SELECT * FROM ({base}) AS _part WHERE {keyColumn} BETWEEN {lo} AND {hi}" := rfl

@[simp] theorem print_closed (base keyColumn orderBy lo hi : String) :
    print base keyColumn orderBy (.range lo true hi) =
      s!"SELECT * FROM ({base}) AS _part WHERE {keyColumn} >= '{lo}' AND {keyColumn} <= '{hi}'" := rfl

@[simp] theorem print_halfOpen (base keyColumn orderBy lo hi : String) :
    print base keyColumn orderBy (.range lo false hi) =
      s!"SELECT * FROM ({base}) AS _part WHERE {keyColumn} >= '{lo}' AND {keyColumn} < '{hi}'" := rfl

@[simp] theorem print_page (base keyColumn orderBy : String) (limit offset : Nat) :
    print base keyColumn orderBy (.page limit offset) =
      s!"SELECT * FROM ({base}) AS _part ORDER BY {orderBy} LIMIT {limit} OFFSET {offset}" := rfl

def Quotable : Statement → Prop
  | .range lo _ hi => '\'' ∉ lo.toList ∧ '\'' ∉ hi.toList
  | _ => True

variable {base keyColumn orderBy : String}

theorem not_startsWithDigit_and (rest : List Char) : ¬ StartsWithDigit (" AND ".toList ++ rest) := by
  simp [StartsWithDigit]

theorem not_startsWithDigit_offset (rest : List Char) :
    ¬ StartsWithDigit (" OFFSET ".toList ++ rest) := by
  simp [StartsWithDigit]

theorem readBetween_print (lo hi : Int) :
    readBetween ((toString lo).toList ++ (" AND ".toList ++ (toString hi).toList)) =
      some (.between lo hi) := by
  have hhi : int (toString hi).toList = some (hi, []) := by
    simpa using int_toString_append hi not_startsWithDigit_nil
  unfold readBetween
  rw [int_toString_append lo (not_startsWithDigit_and _), Option.bind_eq_bind, Option.bind_some]
  simp only [lit_append, Option.bind_eq_bind, Option.bind_some, hhi, atEnd, if_true]

theorem readRange_print {lo hi : String} (closed : Bool) (hlo : '\'' ∉ lo.toList)
    (hhi : '\'' ∉ hi.toList) :
    readRange keyColumn (" >= ".toList ++ ('\'' :: (lo.toList ++ '\'' :: (" AND ".toList ++
      (keyColumn.toList ++ ((if closed then " <= " else " < ").toList ++
        '\'' :: (hi.toList ++ ['\'']))))))) = some (.range lo closed hi) := by
  unfold readRange
  simp only [lit_append, quoted_append hlo, Option.bind_eq_bind, Option.bind_some]
  cases closed with
  | true => simp only [if_true, lit_append, quoted_append hhi, Option.bind_some, atEnd]
  | false =>
    have hne : ∀ rest, lit " <= " (" < ".toList ++ rest) = none := fun _ => by
      simp [lit, List.isPrefixOf?]
    simp only [Bool.false_eq_true, if_false, hne, lit_append, quoted_append hhi, Option.bind_some,
      atEnd, if_true]

theorem readPage_print (limit offset : Nat) :
    readPage orderBy ("ORDER BY ".toList ++ (orderBy.toList ++ (" LIMIT ".toList ++
      ((toString limit).toList ++ (" OFFSET ".toList ++ (toString offset).toList))))) =
      some (.page limit offset) := by
  have hoff : nat (toString offset).toList = some (offset, []) := by
    simpa using nat_toString_append offset not_startsWithDigit_nil
  unfold readPage
  simp only [lit_append, Option.bind_eq_bind, Option.bind_some,
    nat_toString_append limit (not_startsWithDigit_offset _), hoff, atEnd, if_true]

/-- Behind the wrapper and `WHERE`, the key column is followed by a predicate. -/
theorem read_where (text : List Char) {sql : String}
    (hsql : sql.toList = "SELECT * FROM (".toList ++ (base.toList ++ (") AS _part ".toList ++
      ("WHERE ".toList ++ (keyColumn.toList ++ text))))) :
    read base keyColumn orderBy sql =
      match lit " BETWEEN " text with
      | some rest => readBetween rest
      | none => readRange keyColumn text := by
  unfold read
  simp only [hsql, lit_append, Option.bind_eq_bind, Option.bind_some]

/-- A backend reads in a printed statement what was printed. -/
theorem read_print (st : Statement) (hq : st.Quotable) :
    read base keyColumn orderBy (st.print base keyColumn orderBy) = some st := by
  cases st with
  | between lo hi =>
    rw [read_where (" BETWEEN ".toList ++ ((toString lo).toList ++
        (" AND ".toList ++ (toString hi).toList))) (by simp), lit_append]
    exact readBetween_print lo hi
  | range lo closed hi =>
    rw [read_where (" >= ".toList ++ ('\'' :: (lo.toList ++ '\'' :: (" AND ".toList ++
      (keyColumn.toList ++ ((if closed then " <= " else " < ").toList ++
        '\'' :: (hi.toList ++ ['\'']))))))) (by cases closed <;> simp)]
    have hne : ∀ rest, lit " BETWEEN " (" >= ".toList ++ rest) = none := fun _ => by
      simp [lit, List.isPrefixOf?]
    rw [hne]
    exact readRange_print closed hq.1 hq.2
  | page limit offset =>
    have hsql : (print base keyColumn orderBy (.page limit offset)).toList =
        "SELECT * FROM (".toList ++ (base.toList ++ (") AS _part ".toList ++
          ("ORDER BY ".toList ++ (orderBy.toList ++ (" LIMIT ".toList ++
            ((toString limit).toList ++ (" OFFSET ".toList ++ (toString offset).toList))))))) := by
      simp
    have hne : ∀ rest, lit "WHERE " ("ORDER BY ".toList ++ rest) = none := fun _ => by
      simp [lit, List.isPrefixOf?]
    unfold read
    simp only [hsql, lit_append, Option.bind_eq_bind, Option.bind_some, hne]
    exact readPage_print limit offset

example : read "SELECT * FROM t" "id" ""
    "SELECT * FROM (SELECT * FROM t) AS _part WHERE id BETWEEN -3 AND 25" =
      some (.between (-3) 25) := by decide

/-- Whether the key `k` passes a `BETWEEN`. -/
def hasInt : Statement → Int → Bool
  | .between lo hi, k => lo ≤ k ∧ k ≤ hi
  | _, _ => false

/-- Whether the key `x` passes a range predicate whose literals `readLit` reads in the order of the
key. -/
def hasKey {κ : Type} [LinearOrder κ] (readLit : String → Option κ) : Statement → κ → Bool
  | .range lo closed hi, x =>
    match readLit lo, readLit hi with
    | some lo, some hi => lo ≤ x ∧ if closed then x ≤ hi else x < hi
    | _, _ => false
  | _, _ => false

/-- Whether the UUID `u` passes a range predicate, where UUIDs and literals compare in `order`. -/
def hasUuid (st : Statement) (order : UuidOrder) (u : Uuid) : Bool :=
  st.hasKey (fun s => (Uuid.read s).map (uuidToKey · order)) (uuidToKey u order)

end Statement

/-- The result of the base query, as predicates and pages see it: its rows, in the order of the
`ORDER BY`, and what the key column holds in a row (`none` for NULL, and for a key of another
type). -/
structure BaseResult where
  rows : List Row
  intKey : Row → Option Int
  uuidKey : Row → Option Uuid

def BaseResult.select (base : BaseResult) (order : UuidOrder) : Statement → List Row
  | .between lo hi => base.rows.filter fun r => (base.intKey r).any (Statement.between lo hi).hasInt
  | .range lo closed hi =>
    base.rows.filter fun r => (base.uuidKey r).any ((Statement.range lo closed hi).hasUuid order)
  | .page limit offset => (base.rows.drop offset).take limit

end RustDbDriver
