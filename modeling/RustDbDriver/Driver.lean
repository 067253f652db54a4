import RustDbDriver.Lib.Futures
import RustDbDriver.Row

/-!
# Partitioned queries

`queryPartitioned` and `queryPartitionedStream` dispatch one `query` for every partition and put the
rows together again in partition order: the first waits for all of them, the second hands out rows as
partitions resolve. A `Schedule` says in which order the partitions complete and when the caller
polls; everything here holds for all of them.

Which of several failures `queryPartitioned` reports is another matter: it is the one of the smallest
index, as in the stream, only if there are more than 30 partitions or one error to report
(`queryPartitioned_timingFree_iff`).
-/

namespace RustDbDriver
open Lib.Futures

structure Partition where
  sql : String
  params : List Value

def Partition.new (sql : String) : Partition := ⟨sql, []⟩

/-- A driver, as the partitioned queries see it: `query i sql params` is what the `i`-th of the
`query` calls dispatched together resolves to. -/
structure DbDriver where
  query : Nat → String → List Value → Except DbError (List Row)

namespace DbDriver

variable (d : DbDriver)

def outcomes (partitions : List Partition) : List (Except DbError (List Row)) :=
  partitions.mapIdx fun i p => d.query i p.sql p.params

/-- `query_partitioned`: `none` as long as the call has not returned. -/
def queryPartitioned (partitions : List Partition) (σ : Schedule) :
    Option (Except DbError (List Row)) :=
  if partitions.isEmpty then some (.ok [])
  else (tryJoinAll (d.outcomes partitions) [] σ).map fun results => results.map List.flatten

def streamItems : Except DbError (List Row) → List (Except DbError Row)
  | .ok rows => rows.map .ok
  | .error e => [.error e]

/-- `query_partitioned_stream`, consumed over a schedule. -/
def queryPartitionedStream (partitions : List Partition) (σ : Schedule) :
    Consumer (Except DbError (List Row)) (Except DbError Row) :=
  Consumer.run streamItems (d.outcomes partitions) σ

def streamed (partitions : List Partition) : List (Except DbError Row) :=
  (d.outcomes partitions).flatMap streamItems

variable {d} {partitions : List Partition} {σ : Schedule}

@[simp] theorem length_outcomes : (d.outcomes partitions).length = partitions.length := by
  simp [outcomes]

/-- The items of the stream, partition by partition. -/
theorem map_streamItems_outcomes : (d.outcomes partitions).map streamItems =
    partitions.mapIdx fun i p =>
      match d.query i p.sql p.params with
      | .ok rows => rows.map .ok
      | .error e => [.error e] := by
  refine List.ext_getElem (by simp) ?_
  intro i h₁ h₂
  simp only [outcomes, List.getElem_map, List.getElem_mapIdx]
  rfl

theorem mem_outcomes {x : Except DbError (List Row)} :
    x ∈ d.outcomes partitions ↔ ∃ i p, partitions[i]? = some p ∧ d.query i p.sql p.params = x := by
  rw [outcomes, List.mem_mapIdx]
  constructor
  · rintro ⟨i, hi, hx⟩
    exact ⟨i, partitions[i], List.getElem?_eq_getElem hi, hx⟩
  · rintro ⟨i, p, hp, hx⟩
    obtain ⟨hi, rfl⟩ := List.getElem?_eq_some_iff.mp hp
    exact ⟨i, hi, hx⟩

theorem flatMap_streamItems_ok (results : List (List Row)) :
    (results.map Except.ok).flatMap streamItems = results.flatten.map Except.ok := by
  induction results with
  | nil => rfl
  | cons rows results ih => simp [streamItems, ih]

/-- The rows before the first failed partition, then its error, then what comes after it. -/
theorem flatMap_streamItems_error (results : List (List Row)) (e : DbError)
    (rest : List (Except DbError (List Row))) :
    (results.map Except.ok ++ Except.error e :: rest).flatMap streamItems =
      results.flatten.map Except.ok ++ Except.error e :: rest.flatMap streamItems := by
  rw [List.flatMap_append, flatMap_streamItems_ok]
  simp [streamItems]

theorem outcomes_cases (outcomes : List (Except DbError (List Row))) :
    (∃ results : List (List Row), outcomes = results.map Except.ok) ∨
      ∃ (results : List (List Row)) (e : DbError) (rest : List (Except DbError (List Row))),
        outcomes = results.map Except.ok ++ Except.error e :: rest := by
  cases h : tryCollect outcomes with
  | ok results => exact .inl ⟨results, tryCollect_eq_ok_iff.mp h⟩
  | error e =>
    obtain ⟨results, rest, heq⟩ := tryCollect_eq_error_iff.mp h
    exact .inr ⟨results, e, rest, heq⟩

/-! ### `query_partitioned_stream` -/

theorem ok_queryPartitionedStream (d : DbDriver) (partitions : List Partition) (σ : Schedule) :
    Consumer.Ok streamItems (d.outcomes partitions) (d.queryPartitionedStream partitions σ) :=
  Consumer.ok_run streamItems (d.outcomes partitions) σ

theorem ended_queryPartitionedStream
    (hσ : σ.Settles partitions.length ((d.streamed partitions).length + 1)) :
    (d.queryPartitionedStream partitions σ).ended = true :=
  Consumer.ended_run (by rwa [length_outcomes])

/-- Under every schedule the stream emits the partitions' items in partition order and no others,
holds back what stands behind a partition that is not complete, and reaches the end once all
partitions are complete and the caller keeps polling. -/
theorem queryPartitionedStream_ordered (d : DbDriver) (partitions : List Partition) (σ : Schedule) :
    let items : List (List (Except DbError Row)) := partitions.mapIdx fun i p =>
      match d.query i p.sql p.params with
      | .ok rows => rows.map .ok
      | .error e => [.error e]
    let stream := d.queryPartitionedStream partitions σ
    stream.emitted <+: items.flatten ∧
    (∀ i, .complete i ∉ σ → stream.emitted <+: (items.take i).flatten) ∧
    (stream.ended = true → stream.emitted = items.flatten) ∧
    (σ.Settles partitions.length (items.flatten.length + 1) → stream.ended = true) := by
  intro items stream
  have hok := ok_queryPartitionedStream d partitions σ
  have hitems : items = (d.outcomes partitions).map streamItems := map_streamItems_outcomes.symm
  have hflat : items.flatten = d.streamed partitions := by rw [hitems, streamed, List.flatMap_def]
  refine ⟨?_, ?_, ?_, ?_⟩
  · rw [hflat]
    exact hok.inv.prefix_emitted
  · intro i hi
    rw [hitems, ← List.map_take, ← List.flatMap_def]
    refine hok.inv.held_back ?_
    intro hmem
    exact hi ((Consumer.mem_run_done i).mp hmem)
  · rw [hflat]
    exact hok.ended
  · rw [hflat]
    exact ended_queryPartitionedStream

/-- Four partitions, of two rows, of none, of an error and of one row. -/
def fourPartitions : DbDriver where
  query i _ _ :=
    match i with
    | 0 => .ok [⟨[], [.int64 1]⟩, ⟨[], [.int64 2]⟩]
    | 1 => .ok []
    | 2 => .error (.query "no such table")
    | _ => .ok [⟨[], [.int64 4]⟩]

def fourTexts : List Partition := [.new "a", .new "b", .new "c", .new "d"]

/-- The last partition completes first: its row is held back until the others are through, and comes behind
the error of the third. -/
theorem queryPartitionedStream_ordered_four :
    (fourPartitions.queryPartitionedStream fourTexts [.complete 3, .poll, .poll]).emitted = [] ∧
    (fourPartitions.queryPartitionedStream fourTexts ([.complete 3, .poll, .complete 1, .complete 0, .complete 2] ++
      List.replicate 5 .poll)).emitted =
      [.ok ⟨[], [.int64 1]⟩, .ok ⟨[], [.int64 2]⟩, .error (.query "no such table"), .ok ⟨[], [.int64 4]⟩] := by
  obtain ⟨-, hheld, -, -⟩ :=
    queryPartitionedStream_ordered fourPartitions fourTexts [.complete 3, .poll, .poll]
  obtain ⟨-, -, hall, hends⟩ := queryPartitionedStream_ordered fourPartitions fourTexts
    ([.complete 3, .poll, .complete 1, .complete 0, .complete 2] ++ List.replicate 5 .poll)
  refine ⟨List.prefix_nil.mp (hheld 0 (by decide)), hall (hends ?_)⟩
  exact ⟨_, _, rfl, by decide, by decide⟩

/-- Rows come as early as they can: once the first `k` partitions are complete, as many polls as they have
items hand these out, whatever the others do; and where the next partition never completes, nothing else
comes. -/
theorem queryPartitionedStream_eager (d : DbDriver) (partitions : List Partition) (σ₁ σ₂ : Schedule) (k : Nat)
    (hcomplete : ∀ i < k, .complete i ∈ σ₁)
    (hpolls : (((d.outcomes partitions).take k).flatMap streamItems).length ≤ σ₂.count .poll) :
    ((d.outcomes partitions).take k).flatMap streamItems <+:
        (d.queryPartitionedStream partitions (σ₁ ++ σ₂)).emitted ∧
      (.complete k ∉ σ₁ ++ σ₂ → (d.queryPartitionedStream partitions (σ₁ ++ σ₂)).emitted =
        ((d.outcomes partitions).take k).flatMap streamItems) :=
  ⟨Consumer.eager_run hcomplete hpolls, Consumer.emitted_eq_of_waiting hcomplete hpolls⟩

/-- The rows of the first partition, while the second is still running. -/
theorem queryPartitionedStream_eager_first :
    let d : DbDriver := ⟨fun _ _ _ => .ok [⟨[], []⟩, ⟨[], []⟩]⟩
    let partitions := [Partition.new "SELECT 1", .new "SELECT 2"]
    ((d.outcomes partitions).take 1).flatMap streamItems <+:
        (d.queryPartitionedStream partitions ([.complete 0] ++ [.poll, .poll])).emitted ∧
      (.complete 1 ∉ [.complete 0] ++ [Event.poll, .poll] →
        (d.queryPartitionedStream partitions ([.complete 0] ++ [.poll, .poll])).emitted =
          ((d.outcomes partitions).take 1).flatMap streamItems) := by
  intro d partitions
  refine queryPartitionedStream_eager d partitions [.complete 0] [.poll, .poll] 1 ?_ ?_
  · intro i hi
    obtain rfl : i = 0 := by omega
    exact List.mem_singleton_self _
  · decide

/-! ### `query_partitioned` -/

theorem outcomes_of_isEmpty (h : partitions.isEmpty = true) : d.outcomes partitions = [] := by
  rw [List.isEmpty_iff.mp h]; rfl

/-- What `query_partitioned` can return: all rows in partition order if every partition succeeded,
or the error of a partition that failed. -/
theorem queryPartitioned_cases {r : Except DbError (List Row)}
    (h : d.queryPartitioned partitions σ = some r) :
    (∃ results : List (List Row), d.outcomes partitions = results.map Except.ok ∧
        r = .ok results.flatten) ∨
      ∃ e, Except.error e ∈ d.outcomes partitions ∧ r = .error e := by
  unfold queryPartitioned at h
  split at h
  · next hempty =>
    cases h
    exact .inl ⟨[], outcomes_of_isEmpty hempty, rfl⟩
  · obtain ⟨joined, hjoin, rfl⟩ := Option.map_eq_some_iff.mp h
    obtain ⟨done, hpoll⟩ := joinPoll_of_tryJoinAll hjoin
    cases joined with
    | ok results => exact .inl ⟨results, joinPoll_ok hpoll, rfl⟩
    | error e =>
      obtain ⟨i, -, hi⟩ := joinPoll_error hpoll
      exact .inr ⟨e, List.mem_of_getElem? hi, rfl⟩

/-- The same, query by query. -/
theorem queryPartitioned_results {r : Except DbError (List Row)}
    (h : d.queryPartitioned partitions σ = some r) :
    (∃ outs : Fin partitions.length → List Row, r = .ok (List.ofFn outs).flatten ∧
        ∀ i : Fin partitions.length, d.query i partitions[i].sql partitions[i].params = .ok (outs i)) ∨
      ∃ e, r = .error e ∧ ∃ i : Fin partitions.length,
        d.query i partitions[i].sql partitions[i].params = .error e := by
  rcases queryPartitioned_cases h with ⟨results, hall, rfl⟩ | ⟨e, hmem, rfl⟩
  · have hlen : results.length = partitions.length := by simpa using (congrArg List.length hall).symm
    refine .inl ⟨fun i => results.get (i.cast hlen.symm), ?_, ?_⟩
    · have hofFn : List.ofFn (fun i : Fin partitions.length => results.get (i.cast hlen.symm)) = results :=
        List.ext_getElem (by simp [hlen]) (by simp)
      rw [hofFn]
    · intro i
      have hi := congrArg (·[i.val]?) hall
      simpa [outcomes, hlen] using hi
  · obtain ⟨i, hi, hquery⟩ := List.mem_mapIdx.mp hmem
    exact .inr ⟨e, rfl, ⟨i, hi⟩, hquery⟩

theorem queryPartitioned_isSome (hσ : σ.Settles partitions.length 1) :
    (d.queryPartitioned partitions σ).isSome := by
  unfold queryPartitioned
  split
  · rfl
  · have hjoin : (tryJoinAll (d.outcomes partitions) [] σ).isSome :=
      Schedule.Settles.isSome_tryJoinAll (by rwa [length_outcomes])
    simpa using hjoin

theorem not_error_of_eq_map_ok {outcomes : List (Except DbError (List Row))}
    {results : List (List Row)} (h : outcomes = results.map Except.ok) (e : DbError) :
    Except.error e ∉ outcomes := by
  rw [h]; simp

theorem queryPartitioned_eq_ok {results : List (List Row)}
    (hall : d.outcomes partitions = results.map Except.ok) {r : Except DbError (List Row)}
    (h : d.queryPartitioned partitions σ = some r) : r = .ok results.flatten := by
  rcases queryPartitioned_cases h with ⟨results', hall', rfl⟩ | ⟨e, he, -⟩
  · have hinj : Function.Injective (Except.ok (ε := DbError) (α := List Row)) :=
      fun _ _ h => Except.ok.inj h
    rw [List.map_injective_iff.mpr hinj (hall.symm.trans hall')]
  · exact absurd he (not_error_of_eq_map_ok hall e)

/-! ### `try_collect` on the stream -/

theorem tryCollect_ended {c : Consumer (Except DbError (List Row)) (Except DbError Row)}
    (h : c.ended = true) : c.tryCollect = some (tryCollect c.emitted) := by
  unfold Consumer.tryCollect
  cases tryCollect c.emitted <;> simp [h]

theorem tryCollect_stream_ok {results : List (List Row)}
    (hall : d.outcomes partitions = results.map Except.ok)
    (hend : (d.queryPartitionedStream partitions σ).ended = true) :
    (d.queryPartitionedStream partitions σ).emitted = results.flatten.map Except.ok ∧
      (d.queryPartitionedStream partitions σ).tryCollect = some (.ok results.flatten) := by
  have hemit := (ok_queryPartitionedStream d partitions σ).ended hend
  rw [hall, flatMap_streamItems_ok] at hemit
  rw [tryCollect_ended hend, hemit, tryCollect_map_ok]
  exact ⟨rfl, rfl⟩

/-- Whatever the schedule, `try_collect` can only come to what all items of the stream come to. -/
theorem tryCollect_stream {r : Except DbError (List Row)}
    (h : (d.queryPartitionedStream partitions σ).tryCollect = some r) :
    r = tryCollect (d.streamed partitions) := by
  have hok := ok_queryPartitionedStream d partitions σ
  unfold Consumer.tryCollect at h
  split at h
  · next e' he' =>
    cases h
    -- the failure the consumer met stands in the prefix it was handed
    obtain ⟨t, ht⟩ := hok.inv.prefix_emitted
    obtain ⟨bs, rest', hbs⟩ := tryCollect_eq_error_iff.mp he'
    refine (tryCollect_eq_error_iff.mpr ⟨bs, rest' ++ t, ?_⟩).symm
    rw [streamed, ← ht, hbs]
    simp
  · next bs hbs =>
    split at h
    · next hend =>
      cases h
      rw [← hbs, hok.ended hend, streamed]
    · cases h

/-- All rows in partition order, or the error of the first partition that failed. -/
def collected (d : DbDriver) (partitions : List Partition) : Except DbError (List Row) :=
  (tryCollect (d.outcomes partitions)).map List.flatten

theorem collected_of_ok {results : List (List Row)} (hall : d.outcomes partitions = results.map Except.ok) :
    d.collected partitions = .ok results.flatten := by
  rw [collected, hall, tryCollect_map_ok]
  rfl

theorem collected_of_error {results : List (List Row)} {e : DbError}
    {rest : List (Except DbError (List Row))}
    (hfail : d.outcomes partitions = results.map Except.ok ++ Except.error e :: rest) :
    d.collected partitions = .error e := by
  rw [collected, tryCollect_eq_error_iff.mpr ⟨results, rest, hfail⟩]
  rfl

theorem tryCollect_streamed : tryCollect (d.streamed partitions) = d.collected partitions := by
  rcases outcomes_cases (d.outcomes partitions) with ⟨results, hall⟩ | ⟨results, e, rest, hfail⟩
  · rw [collected_of_ok hall, streamed, hall, flatMap_streamItems_ok, tryCollect_map_ok]
  · rw [collected_of_error hfail, streamed, hfail, flatMap_streamItems_error]
    exact tryCollect_eq_error_iff.mpr ⟨_, _, rfl⟩

theorem tryCollect_stream_error {results : List (List Row)} {e : DbError}
    {rest : List (Except DbError (List Row))}
    (hfail : d.outcomes partitions = results.map Except.ok ++ Except.error e :: rest)
    {r : Except DbError (List Row)}
    (h : (d.queryPartitionedStream partitions σ).tryCollect = some r) : r = .error e := by
  rw [tryCollect_stream h, tryCollect_streamed, collected_of_error hfail]

theorem tryCollect_stream_isSome
    (hσ : σ.Settles partitions.length ((d.streamed partitions).length + 1)) :
    ∃ r, (d.queryPartitionedStream partitions σ).tryCollect = some r :=
  ⟨_, tryCollect_ended (ended_queryPartitionedStream hσ)⟩

/-- A failed partition fails the stream's collection too, under every schedule. -/
theorem tryCollect_stream_fails {e : DbError} (he : Except.error e ∈ d.outcomes partitions)
    {r : Except DbError (List Row)}
    (h : (d.queryPartitionedStream partitions σ).tryCollect = some r) :
    ∃ e', Except.error e' ∈ d.outcomes partitions ∧ r = .error e' := by
  rcases outcomes_cases (d.outcomes partitions) with ⟨results, hall⟩ | ⟨results, e', rest, hfail⟩
  · exact absurd he (not_error_of_eq_map_ok hall e)
  · have hmem : Except.error e' ∈ d.outcomes partitions := by
      rw [hfail]
      simp
    exact ⟨e', hmem, tryCollect_stream_error hfail h⟩

/-- `query_partitioned` is all or nothing, its result does not depend on the schedule, and the
stream, consumed under any other schedule, agrees with it. -/
theorem queryPartitioned_agrees (d : DbDriver) (partitions : List Partition) (σ : Schedule) :
    let items : List (List (Except DbError Row)) := partitions.mapIdx fun i p =>
      match d.query i p.sql p.params with
      | .ok rows => rows.map .ok
      | .error e => [.error e]
    (σ.Settles partitions.length 1 → (d.queryPartitioned partitions σ).isSome) ∧
    ∀ r, d.queryPartitioned partitions σ = some r →
      ((∃ rows, r = .ok rows) ↔
        ∀ i p, partitions[i]? = some p → ∃ rows, d.query i p.sql p.params = .ok rows) ∧
      (∀ rows, r = .ok rows →
        (∃ results : List (List Row), results.length = partitions.length ∧
          (∀ i p, partitions[i]? = some p →
            ∃ out, results[i]? = some out ∧ d.query i p.sql p.params = .ok out) ∧
          rows = results.flatten) ∧
        (∀ σ' r', d.queryPartitioned partitions σ' = some r' → r' = .ok rows) ∧
        ∀ σ', (d.queryPartitionedStream partitions σ').ended = true →
          (d.queryPartitionedStream partitions σ').emitted = rows.map Except.ok ∧
          (d.queryPartitionedStream partitions σ').tryCollect = some (.ok rows)) ∧
      (∀ e, r = .error e →
        (∃ i p, partitions[i]? = some p ∧ d.query i p.sql p.params = .error e) ∧
        (∀ σ' r', (d.queryPartitionedStream partitions σ').tryCollect = some r' →
          ∃ e', (∃ i p, partitions[i]? = some p ∧ d.query i p.sql p.params = .error e') ∧ r' = .error e') ∧
        ∀ σ', σ'.Settles partitions.length (items.flatten.length + 1) →
          ∃ r', (d.queryPartitionedStream partitions σ').tryCollect = some r') := by
  intro items
  have hflat : items.flatten = d.streamed partitions := by
    rw [show items = (d.outcomes partitions).map streamItems from map_streamItems_outcomes.symm, streamed,
      List.flatMap_def]
  rw [hflat]
  refine ⟨queryPartitioned_isSome, ?_⟩
  intro r h
  rcases queryPartitioned_cases h with ⟨results, hall, rfl⟩ | ⟨e, he, rfl⟩
  · have hresult : ∀ i p, partitions[i]? = some p →
        ∃ out, results[i]? = some out ∧ d.query i p.sql p.params = .ok out := by
      intro i p hp
      have hi := congrArg (·[i]?) hall
      simp only [outcomes, List.getElem?_mapIdx, hp, Option.map_some, List.getElem?_map] at hi
      obtain ⟨out, hout, hquery⟩ := Option.map_eq_some_iff.mp hi.symm
      exact ⟨out, hout, hquery.symm⟩
    refine ⟨?_, ?_, ?_⟩
    · refine iff_of_true ⟨_, rfl⟩ ?_
      intro i p hp
      obtain ⟨out, -, hquery⟩ := hresult i p hp
      exact ⟨out, hquery⟩
    · rintro rows ⟨⟩
      have hlen : results.length = partitions.length := by simpa using (congrArg List.length hall).symm
      exact ⟨⟨results, hlen, hresult, rfl⟩, fun σ' r' h' => queryPartitioned_eq_ok hall h',
        fun σ' hend => tryCollect_stream_ok hall hend⟩
    · rintro e ⟨⟩
  · refine ⟨?_, ?_, ?_⟩
    · constructor
      · rintro ⟨rows, ⟨⟩⟩
      · intro hall
        obtain ⟨i, p, hp, hquery⟩ := mem_outcomes.mp he
        obtain ⟨rows, hrows⟩ := hall i p hp
        rw [hquery] at hrows
        cases hrows
    · rintro rows ⟨⟩
    · rintro e' ⟨⟩
      refine ⟨mem_outcomes.mp he, ?_, fun σ' hσ' => tryCollect_stream_isSome hσ'⟩
      intro σ' r' h'
      obtain ⟨e', he', hr'⟩ := tryCollect_stream_fails he h'
      exact ⟨e', mem_outcomes.mp he', hr'⟩

/-- The last partition completes first and the third fails: no rows, and its error, there and from the stream
under another schedule. -/
theorem queryPartitioned_agrees_four :
    fourPartitions.queryPartitioned fourTexts
      [.complete 3, .poll, .complete 1, .complete 2, .poll, .complete 0, .poll] =
        some (.error (.query "no such table")) ∧
    ∃ e, (fourPartitions.queryPartitionedStream fourTexts
      ([.complete 0, .poll, .complete 1, .complete 2, .complete 3] ++ List.replicate 5 .poll)).tryCollect =
        some (.error e) := by
  have hjoin : fourPartitions.queryPartitioned fourTexts
      [.complete 3, .poll, .complete 1, .complete 2, .poll, .complete 0, .poll] =
        some (.error (.query "no such table")) := rfl
  obtain ⟨-, hfails⟩ := queryPartitioned_agrees fourPartitions fourTexts
    [.complete 3, .poll, .complete 1, .complete 2, .poll, .complete 0, .poll]
  obtain ⟨-, -, herror⟩ := hfails _ hjoin
  obtain ⟨-, hsame, hcomes⟩ := herror _ rfl
  obtain ⟨r, hr⟩ := hcomes ([.complete 0, .poll, .complete 1, .complete 2, .complete 3] ++ List.replicate 5 .poll)
    ⟨_, _, rfl, by decide, by decide⟩
  obtain ⟨e, -, rfl⟩ := hsame _ _ hr
  exact ⟨hjoin, e, hr⟩

/-! ### Which error is reported -/

theorem outcomes_ne_nil {x : Except DbError (List Row)} (hx : x ∈ d.outcomes partitions) :
    partitions.isEmpty = false := by
  cases partitions with
  | nil => cases hx
  | cons p partitions => rfl

/-- The one failure of a run is that of the partition that fails first. -/
theorem queryPartitioned_prompt (hsmall : partitions.length ≤ SMALL) {i : Nat} {e : DbError}
    (hfail : (d.outcomes partitions)[i]? = some (.error e)) (rest : List Nat) :
    d.queryPartitioned partitions (.prompt (i :: rest)) = some (.error e) := by
  have hne := outcomes_ne_nil (List.mem_of_getElem? hfail)
  have hjoin : tryJoinAll (d.outcomes partitions) [] (.prompt ([] ++ i :: rest)) = some (.error e) :=
    tryJoinAll_prompt (by rwa [length_outcomes]) nofun nofun hfail
  rw [List.nil_append] at hjoin
  rw [queryPartitioned, hne, hjoin]
  rfl

theorem queryPartitioned_big (hbig : SMALL < partitions.length) {r : Except DbError (List Row)}
    (h : d.queryPartitioned partitions σ = some r) : r = d.collected partitions := by
  unfold queryPartitioned at h
  split at h
  · next hempty =>
    rw [List.isEmpty_iff.mp hempty] at hbig
    cases hbig
  · obtain ⟨joined, hjoin, rfl⟩ := Option.map_eq_some_iff.mp h
    rw [collected, tryJoinAll_big (by rwa [length_outcomes]) hjoin]

theorem queryPartitioned_same
    (hsame : ∀ e e', .error e ∈ d.outcomes partitions → .error e' ∈ d.outcomes partitions → e = e')
    {r : Except DbError (List Row)} (h : d.queryPartitioned partitions σ = some r) :
    r = d.collected partitions := by
  rcases queryPartitioned_cases h with ⟨results, hall, rfl⟩ | ⟨e, he, rfl⟩
  · exact (collected_of_ok hall).symm
  · rcases outcomes_cases (d.outcomes partitions) with ⟨results, hall⟩ | ⟨results, e', rest, hfail⟩
    · exact absurd he (not_error_of_eq_map_ok hall e)
    · have he' : Except.error e' ∈ d.outcomes partitions := by
        rw [hfail]
        simp
      rw [collected_of_error hfail, hsame e e' he he']

/-- `query_partitioned` returns the same for all orders in which the partitions complete, the stream comes
to the same, and a failure is that of the failed partition with the smallest index. -/
def TimingFree (d : DbDriver) (partitions : List Partition) : Prop :=
  ∃ r, (∀ σ : Schedule, σ.Settles partitions.length 1 → d.queryPartitioned partitions σ = some r) ∧
    (∀ σ r', d.queryPartitioned partitions σ = some r' → r' = r) ∧
    (∀ σ r', (d.queryPartitionedStream partitions σ).tryCollect = some r' → r' = r) ∧
    ∀ (i : Nat) (e : DbError), (d.outcomes partitions)[i]? = some (.error e) →
      (∀ j < i, ∃ rows, (d.outcomes partitions)[j]? = some (.ok rows)) → r = .error e

/-- A list of outcomes has one first failure. -/
theorem first_failure_unique {outs : List (Except DbError (List Row))} {results : List (List Row)}
    {e e' : DbError} {rest : List (Except DbError (List Row))} {i : Nat}
    (hfail : outs = results.map .ok ++ .error e' :: rest) (hi : outs[i]? = some (.error e))
    (hbefore : ∀ j < i, ∃ rows, outs[j]? = some (.ok rows)) : e' = e := by
  rcases Nat.lt_trichotomy i results.length with hlt | rfl | hgt
  · rw [hfail, List.getElem?_append_left (by simpa using hlt)] at hi
    simp at hi
  · rw [hfail, List.getElem?_append_right (by simp)] at hi
    simpa using hi
  · obtain ⟨rows, hrows⟩ := hbefore results.length hgt
    rw [hfail, List.getElem?_append_right (by simp)] at hrows
    simp at hrows

theorem timingFree_of_collected
    (h : ∀ σ r, d.queryPartitioned partitions σ = some r → r = d.collected partitions) :
    d.TimingFree partitions := by
  refine ⟨d.collected partitions, ?_, h, ?_, ?_⟩
  · intro σ hσ
    obtain ⟨r, hr⟩ := Option.isSome_iff_exists.mp (queryPartitioned_isSome hσ)
    rw [hr, h σ r hr]
  · intro σ r' hr'
    rw [tryCollect_stream hr', tryCollect_streamed]
  · intro i e hi hbefore
    rcases outcomes_cases (d.outcomes partitions) with ⟨results, hall⟩ | ⟨results, e', rest, hfail⟩
    · exact absurd (List.mem_of_getElem? hi) (not_error_of_eq_map_ok hall e)
    · rw [collected_of_error hfail, first_failure_unique hfail hi hbefore]

/-- Up to `SMALL` partitions, what is reported on all schedules is any failure there is: its partition may
complete first. -/
theorem reported_of_failed {r : Except DbError (List Row)} {e : DbError} (hsmall : partitions.length ≤ SMALL)
    (hr : ∀ σ : Schedule, σ.Settles partitions.length 1 → d.queryPartitioned partitions σ = some r)
    (he : .error e ∈ d.outcomes partitions) : r = .error e := by
  obtain ⟨i, hi⟩ := List.mem_iff_getElem?.mp he
  have hprompt := queryPartitioned_prompt hsmall hi ((List.range partitions.length).erase i)
  have hall : ∀ j < partitions.length, j ∈ i :: (List.range partitions.length).erase i := by
    intro j hj
    by_cases hji : j = i
    · simp [hji]
    · simp [List.mem_erase_of_ne hji, hj]
  rw [hr _ (Schedule.settles_prompt (List.cons_ne_nil _ _) hall)] at hprompt
  exact Option.some.inj hprompt

/-- The reported error is free of timing exactly for more than `SMALL` partitions, and where no two
partitions fail with different errors. -/
theorem queryPartitioned_timingFree_iff (d : DbDriver) (partitions : List Partition) :
    d.TimingFree partitions ↔ SMALL < partitions.length ∨
      ∀ e e', Except.error e ∈ d.outcomes partitions → Except.error e' ∈ d.outcomes partitions → e = e' := by
  constructor
  · rintro ⟨r, hr, -⟩
    by_cases hbig : SMALL < partitions.length
    · exact .inl hbig
    · refine .inr ?_
      intro e e' he he'
      have hsmall := Nat.le_of_not_lt hbig
      have hsame := (reported_of_failed hsmall hr he).symm.trans (reported_of_failed hsmall hr he')
      cases hsame
      rfl
  · rintro (hbig | hsame)
    · exact timingFree_of_collected fun σ r hr => queryPartitioned_big hbig hr
    · exact timingFree_of_collected fun σ r hr => queryPartitioned_same hsame hr

/-- Every query fails, each with its own error. -/
def alwaysFails : DbDriver := ⟨fun _ sql _ => .error (.query sql)⟩

/-- Two partitions that complete in either order. -/
theorem alwaysFails_reports_either :
    alwaysFails.queryPartitioned [.new "a", .new "b"] (.prompt [0, 1]) = some (.error (.query "a")) ∧
      alwaysFails.queryPartitioned [.new "a", .new "b"] (.prompt [1, 0]) = some (.error (.query "b")) ∧
      ¬ alwaysFails.TimingFree [.new "a", .new "b"] := by
  refine ⟨rfl, rfl, ?_⟩
  rintro ⟨r, -, hr, -⟩
  have hfirst : .error (.query "a") = r := hr (.prompt [0, 1]) _ rfl
  have hother : .error (.query "b") = r := hr (.prompt [1, 0]) _ rfl
  exact absurd (Except.error.inj (hfirst.trans hother.symm)) (by decide)

end DbDriver
end RustDbDriver
