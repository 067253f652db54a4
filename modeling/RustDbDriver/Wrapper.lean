import RustDbDriver.Lib.SqlLex
import RustDbDriver.Strategy
import RustDbDriver.TimeTiling

/-!
# The wrapper around the base query

Every helper puts the cleaned base query between `SELECT * FROM (` and `) AS _part `. Where the base query
is a complete statement, what stands behind it is read as code and its `)` closes the parenthesis in front
of it, unless the cleaned query ends in a line comment: then all of the rest is in that comment
(`wrapped_iff`). `clean` strips the newline that would have ended it.
-/

namespace RustDbDriver
open Lib Lib.SqlLex
namespace Partition

/-! ### What the helpers emit -/

/-- A partition that a helper emits for the base query, whatever its other arguments are. -/
inductive Emitted (baseSql : String) (p : Partition) : Prop where
  | intRange {keyColumn : String} {min max : Int64} {partitions : UInt32} {parts : List Partition} :
      byIntRange baseSql keyColumn min max partitions = some parts → p ∈ parts → Emitted baseSql p
  | offset {fuel : Nat} {orderBy : String} {totalRows : UInt64} {partitions : UInt32}
      {parts : List Partition} :
      byOffset fuel baseSql orderBy totalRows partitions = some parts → p ∈ parts → Emitted baseSql p
  | uuidRange {keyColumn : String} {min max : Uuid} {partitions : UInt32} {order : UuidOrder}
      {parts : List Partition} :
      byUuidRangeOrdered baseSql keyColumn min max partitions order = some parts → p ∈ parts →
      Emitted baseSql p
  | dateRange {chrono : Chrono} {keyColumn : String} {min max : NaiveDate} {partitions : UInt32}
      {parts : List Partition} :
      byDateRange chrono baseSql keyColumn min max partitions = some parts → p ∈ parts → Emitted baseSql p
  | datetimeRange {chrono : Chrono} {keyColumn : String} {min max : NaiveDateTime} {partitions : UInt32}
      {parts : List Partition} :
      byDatetimeRange chrono baseSql keyColumn min max partitions = some parts → p ∈ parts → Emitted baseSql p
  | timestampRange {chrono : Chrono} {keyColumn : String} {min max : DateTimeUtc} {partitions : UInt32}
      {parts : List Partition} :
      byTimestampRange chrono baseSql keyColumn min max partitions = some parts → p ∈ parts → Emitted baseSql p

def OPEN : List Char := "SELECT * FROM (".toList

def CLOSE : List Char := ") AS _part ".toList

theorem toList_toPartition (base keyColumn orderBy : String) (st : Statement) :
    ∃ tail, (st.toPartition base keyColumn orderBy).sql.toList = (OPEN ++ base.toList) ++ (CLOSE ++ tail) := by
  unfold OPEN CLOSE
  cases st with
  | between lo hi =>
    exact ⟨"WHERE ".toList ++ (keyColumn.toList ++ (" BETWEEN ".toList ++ ((toString lo).toList ++
      (" AND ".toList ++ (toString hi).toList)))), by simp [Statement.toPartition, Partition.new]⟩
  | range lo closed hi =>
    exact ⟨"WHERE ".toList ++ (keyColumn.toList ++ (" >= ".toList ++ ('\'' :: (lo.toList ++ '\'' ::
      (" AND ".toList ++ (keyColumn.toList ++ ((if closed then " <= " else " < ").toList ++
        '\'' :: (hi.toList ++ ['\''])))))))),
      by cases closed <;> simp [Statement.toPartition, Partition.new]⟩
  | page limit offset =>
    exact ⟨"ORDER BY ".toList ++ (orderBy.toList ++ (" LIMIT ".toList ++ ((toString limit).toList ++
      (" OFFSET ".toList ++ (toString offset).toList)))), by simp [Statement.toPartition, Partition.new]⟩

/-- The loop emits nothing but pages, also where its offset wraps around. -/
theorem mem_byOffset {fuel : Nat} {baseSql orderBy : String} {totalRows : UInt64} {partitions : UInt32}
    {parts : List Partition} (h : byOffset fuel baseSql orderBy totalRows partitions = some parts) :
    ∀ p ∈ parts, ∃ st : Statement, p = st.toPartition (clean baseSql) "" orderBy := by
  unfold byOffset at h
  split at h
  · cases h
    intro p hp
    cases hp
  · obtain ⟨s, hs, rfl⟩ := Option.map_eq_some_iff.mp h
    have hinv := whileFuel_invariant
      (fun s : Paging => ∀ p ∈ s.out, ∃ st : Statement, p = st.toPartition (clean baseSql) "" orderBy) ?_
      (by intro p hp; cases hp) hs
    · exact hinv.1
    · intro s hs _ p hp
      rcases List.mem_append.mp hp with hp | hp
      · exact hs p hp
      · rw [List.mem_singleton] at hp
        exact ⟨.page (Min.min (divCeil totalRows partitions.toUInt64) (totalRows - s.offset)).toNat
          s.offset.toNat, hp⟩

/-- A helper emits nothing for no partitions or an empty range, and maps a plan otherwise. -/
theorem mem_of_guard {partitions : UInt32} {empty : Prop} {helper : Option (List Partition)}
    {plan : List Statement} {parts : List Partition} {p : Partition} {base keyColumn : String}
    (hempty : partitions = 0 ∨ empty → helper = some [])
    (hplan : 0 < partitions.toNat → ¬ empty → helper = some (plan.map (Statement.toPartition base keyColumn "")))
    (h : helper = some parts) (hp : p ∈ parts) : ∃ st : Statement, p = st.toPartition base keyColumn "" := by
  by_cases hguard : partitions = 0 ∨ empty
  · rw [hempty hguard] at h
    cases h
    cases hp
  · obtain ⟨hn, hne⟩ := not_guard_iff.mp hguard
    rw [hplan hn hne] at h
    cases h
    obtain ⟨st, -, rfl⟩ := List.mem_map.mp hp
    exact ⟨st, rfl⟩

/-- Every partition is a statement around the cleaned base query. -/
theorem Emitted.eq_toPartition {baseSql : String} {p : Partition} (h : Emitted baseSql p) :
    ∃ (keyColumn orderBy : String) (st : Statement), p = st.toPartition (clean baseSql) keyColumn orderBy := by
  cases h with
  | offset h hp => exact ⟨_, _, mem_byOffset h p hp⟩
  | intRange h hp =>
    exact ⟨_, _, mem_of_guard (fun hguard => if_pos hguard)
      (fun hn hne => byIntRange_eq _ _ _ hn (Int64.not_lt.mp hne)) h hp⟩
  | uuidRange h hp =>
    exact ⟨_, _, mem_of_guard (fun hguard => if_pos hguard)
      (fun hn hne => byUuidRangeOrdered_eq _ _ _ hn (not_lt.mp hne)) h hp⟩
  | dateRange h hp =>
    exact ⟨_, _, mem_of_guard (fun hguard => if_pos hguard)
      (fun hn hne => byDateRange_eq _ _ _ _ (not_lt.mp hne) hn) h hp⟩
  | datetimeRange h hp =>
    exact ⟨_, _, mem_of_guard (fun hguard => if_pos hguard)
      (fun hn hne => byDatetimeRange_eq _ _ _ _ (not_lt.mp hne) hn) h hp⟩
  | timestampRange h hp =>
    exact ⟨_, _, mem_of_guard (fun hguard => if_pos hguard)
      (fun hn hne => byTimestampRange_eq _ _ _ _ (not_lt.mp hne) hn) h hp⟩

/-! ### Behind the base query -/

/-- What quotes nothing in any dialect. -/
def plain (c : Char) : Bool := isWhitespace c || c.isAlpha || ['(', ')', ';', '*', '_'].contains c

theorem ne_of_strippable {c x : Char} (h : strippable c = true) (hx : strippable x = false) : c ≠ x := by
  rintro rfl
  rw [h] at hx
  cases hx

theorem neutral_of_strippable {c : Char} (h : strippable c = true) : Neutral plain c where
  plain := by
    rcases Bool.or_eq_true_iff.mp h with h | h
    · simp [plain, h]
    · rw [beq_iff_eq.mp h]
      rfl
  ne_special := ⟨ne_of_strippable h rfl, ne_of_strippable h rfl, ne_of_strippable h rfl,
    ne_of_strippable h rfl⟩
  ne_star := ne_of_strippable h rfl

theorem neutral_of_isWhitespace {c : Char} (h : isWhitespace c = true) : Neutral plain c :=
  neutral_of_strippable (by simp [strippable, h])

variable {d : Dialect plain} {baseSql : String}

theorem inert_of_all {text : List Char}
    (h : text.all fun c => plain c && !(['(', ')', '-', '/'].contains c)) : ∀ c ∈ text, Inert plain c := by
  intro c hc
  have hcode := List.all_eq_true.mp h c hc
  simp only [List.contains_eq_mem, Bool.and_eq_true, Bool.not_eq_true',
    decide_eq_false_iff_not] at hcode
  exact ⟨hcode.1, by simpa using hcode.2⟩

theorem run_OPEN : d.run .start OPEN = some (State.start.lift 15 [14]) := by
  have hsplit : OPEN = "SELECT * FROM ".toList ++ ['('] := rfl
  rw [hsplit, Dialect.run_append, State.start, run_code_inert (inert_of_all (by decide))]
  rfl

theorem run_CLOSE {s : State plain} {o : Nat} (hmode : s.mode.Outside) (hopens : s.opens = [o]) :
    d.run s CLOSE = some ⟨.code, [], s.pos + 1 + 10⟩ := by
  have hsplit : CLOSE = ')' :: " AS _part ".toList := rfl
  rw [hsplit, Dialect.run_cons, step_close (by decide) hmode hopens, Option.bind_some,
    run_code_inert (inert_of_all (by decide))]
  rfl

/-- The text without the blanks at its end, the semicolons in front of them and the blanks in front of
these. -/
def stripEnd (text : List Char) : List Char :=
  ((text.rdropWhile isWhitespace).rdropWhile (· == ';')).rdropWhile isWhitespace

theorem rdropWhile_blank_append (p : Char → Bool) {front text : List Char}
    (hfront : ∀ c ∈ front, isWhitespace c = true) :
    ∃ front', (∀ c ∈ front', isWhitespace c = true) ∧
      (front ++ text).rdropWhile p = front' ++ text.rdropWhile p := by
  rw [List.rdropWhile, List.rdropWhile, List.reverse_append, List.dropWhile_append]
  split
  case isTrue hempty =>
    rw [List.isEmpty_iff.mp hempty]
    refine ⟨front.rdropWhile p, ?_, (List.append_nil _).symm⟩
    intro c hc
    exact hfront c ((List.rdropWhile_prefix p front).mem hc)
  case isFalse => exact ⟨front, hfront, by simp⟩

/-- `clean` strips the end of the query like this, and blanks in front. -/
theorem stripEnd_eq (query : String) :
    ∃ front, (∀ c ∈ front, isWhitespace c = true) ∧
      stripEnd query.toList = front ++ (clean query).toList := by
  have hfront : ∀ c ∈ query.toList.takeWhile isWhitespace, isWhitespace c = true :=
    fun c hc => List.mem_takeWhile_imp hc
  obtain ⟨f₁, hf₁, h₁⟩ := rdropWhile_blank_append isWhitespace hfront
  obtain ⟨f₂, hf₂, h₂⟩ := rdropWhile_blank_append (· == ';') hf₁
  obtain ⟨f₃, hf₃, h₃⟩ := rdropWhile_blank_append isWhitespace hf₂
  rw [List.takeWhile_append_dropWhile] at h₁
  refine ⟨f₃, hf₃, ?_⟩
  rw [stripEnd, h₁, h₂, h₃, clean, String.toList_ofList]

theorem endsInLineComment_stripEnd :
    d.EndsInLineComment (stripEnd baseSql.toList) ↔ d.EndsInLineComment (clean baseSql).toList := by
  obtain ⟨front, hfront, heq⟩ := stripEnd_eq baseSql
  rw [heq]
  exact endsInLineComment_append fun c hc => neutral_of_isWhitespace (hfront c hc)

theorem complete_clean (h : d.Complete baseSql.toList) : d.Complete (clean baseSql).toList := by
  obtain ⟨front, tail, hsplit, hfront, htail⟩ := clean_split baseSql
  rw [hsplit] at h
  exact complete_of_append (fun c hc => neutral_of_isWhitespace (hfront c hc))
    (fun c hc => neutral_of_strippable (htail c hc)) h

/-- Behind the base query the scanner is outside of literals and comments, with only the parenthesis in
front of it open, and `) AS _part ` closes that; the rest, which holds the predicate, is scanned as a
statement of its own. -/
def Wrapped (d : Dialect plain) (baseSql sql : String) : Prop :=
  ∃ tail s s', sql.toList = (OPEN ++ (clean baseSql).toList) ++ (CLOSE ++ tail) ∧
    d.run .start (OPEN ++ (clean baseSql).toList) = some s ∧ s.mode.Outside ∧ s.opens = [OPEN.length - 1] ∧
    d.run s CLOSE = some s' ∧ s'.mode = .code ∧ s'.opens = [] ∧
    d.run .start sql.toList = (d.run .start tail).map (State.lift s'.pos [])

theorem wrapped_toPartition_iff (hbase : d.Complete baseSql.toList) (keyColumn orderBy : String)
    (st : Statement) :
    Wrapped d baseSql (st.toPartition (clean baseSql) keyColumn orderBy).sql ↔
      ¬ d.EndsInLineComment (stripEnd baseSql.toList) := by
  obtain ⟨t, ht, hopens, hinside⟩ := complete_clean hbase
  have hrun : d.run .start (OPEN ++ (clean baseSql).toList) = some (t.lift 15 [14]) := by
    rw [Dialect.run_append, run_OPEN, Option.bind_some, run_lift 15 [14] ht]
  have hcomment : d.EndsInLineComment (clean baseSql).toList ↔ t.mode = .lineComment := by
    simp [Dialect.EndsInLineComment, ht]
  rw [endsInLineComment_stripEnd, hcomment]
  constructor
  · rintro ⟨tail, s, s', -, hs, hmode, -⟩ hline
    rw [hrun] at hs
    cases hs
    have houtside : t.mode.Outside := hmode
    rw [hline] at houtside
    exact houtside
  · intro hline
    have houtside : (t.lift 15 [14]).mode.Outside := by
      rcases t.mode.outside_or with h | h | h
      · exact h
      · exact absurd h hinside
      · exact absurd h hline
    have hlift : (t.lift 15 [14]).opens = [14] := by simp [State.lift, hopens]
    have hclose := run_CLOSE (d := d) houtside hlift
    obtain ⟨tail, htail⟩ := toList_toPartition (clean baseSql) keyColumn orderBy st
    refine ⟨tail, _, _, htail, hrun, houtside, hlift, hclose, rfl, rfl, ?_⟩
    rw [htail, Dialect.run_append, hrun, Option.bind_some, Dialect.run_append, hclose, Option.bind_some,
      ← run_lift_nil]
    simp [State.lift, State.start]

/-- The predicate of every slice stands behind the whole base query exactly if the query, without what
is stripped at its end, does not end in a line comment. -/
theorem wrapped_iff (d : Dialect plain) (baseSql : String) (hbase : d.Complete baseSql.toList)
    (p : Partition) (hp : Emitted baseSql p) :
    Wrapped d baseSql p.sql ↔ ¬ d.EndsInLineComment (stripEnd baseSql.toList) := by
  obtain ⟨keyColumn, orderBy, st, rfl⟩ := hp.eq_toPartition
  exact wrapped_toPartition_iff hbase keyColumn orderBy st

/-- String literals, identifiers in double quotes, and block comments that nest. -/
def standard : Dialect plain where
  quotes := [⟨'\'', '\'', false, by decide, by decide⟩, ⟨'"', '"', false, by decide, by decide⟩]
  nested := true
  newline c := c == '\n' || c == '\r'

/-- Identifiers in brackets as well. -/
def bracketed : Dialect plain where
  quotes := ⟨'[', ']', false, by decide, by decide⟩ :: standard.quotes
  nested := true
  newline := standard.newline

theorem emitted_whole (baseSql : String) :
    Emitted baseSql ((Statement.between 1 10).toPartition (clean baseSql) "id" "") :=
  .intRange (byIntRange_eq baseSql "id" "" (by decide : 0 < (1 : UInt32).toNat)
    (by decide : (1 : Int64) ≤ 10)) (List.mem_map.mpr ⟨.between 1 10, by decide, rfl⟩)

/-- A literal that looks like a comment, and a comment that ends in its line. -/
theorem wrapped_iff_bracketed :
    Wrapped bracketed "SELECT id -- (\nFROM [t)] WHERE a <> '--'; "
        ((Statement.between 1 10).toPartition (clean "SELECT id -- (\nFROM [t)] WHERE a <> '--'; ")
          "id" "").sql ↔
      ¬ bracketed.EndsInLineComment (stripEnd "SELECT id -- (\nFROM [t)] WHERE a <> '--'; ".toList) :=
  wrapped_iff bracketed _ ⟨_, rfl, rfl, id⟩ _ (emitted_whole _)

/-- `clean` strips the newline behind the comment. -/
theorem not_wrapped_commented :
    standard.Complete "SELECT id FROM t -- all\n".toList ∧
      Emitted "SELECT id FROM t -- all\n"
        ((Statement.between 1 10).toPartition (clean "SELECT id FROM t -- all\n") "id" "") ∧
      ¬ Wrapped standard "SELECT id FROM t -- all\n"
        ((Statement.between 1 10).toPartition (clean "SELECT id FROM t -- all\n") "id" "").sql := by
  have hbase : standard.Complete "SELECT id FROM t -- all\n".toList := ⟨_, rfl, rfl, id⟩
  refine ⟨hbase, emitted_whole _, ?_⟩
  rw [wrapped_toPartition_iff hbase, not_not]
  exact ⟨_, rfl, rfl⟩

end Partition
end RustDbDriver
