import Mathlib

/-!
# Futures polled by one consumer

Future `i` of a call resolves to `outputs[i]`. A `Schedule` interleaves, in any order, the
completions of the futures with the polls of the consumer; a poll that finds nothing to do answers
`pending` and changes nothing, so a schedule also covers wakeups that come too early.

* `FlatMap` is `FuturesOrdered` (outputs are released in `push_back` order: a poll looks at the first
  future that is not released yet, and at no other) under `flat_map` (the items of one output are
  handed out before the next output is asked for).
* `tryJoinAll` keeps the input order of the values and resolves to an error once it sees a failed
  future. Up to `SMALL` futures a poll looks at all of them, so that the failure that completes first is
  the one reported (`tryJoinAll_prompt`); a longer list goes through the ordered queue, and a failure is
  seen when the futures before it are through.

`Inv` is the one invariant of a stream: what was handed out and what is still held is the output of
the released futures, and a released future is complete. Its step lemma is `Inv.step`.
-/

namespace RustDbDriver.Lib.Futures

inductive Event where
  /-- Future `i` becomes ready with its output. -/
  | complete (i : Nat)
  /-- The consumer polls. -/
  | poll
deriving DecidableEq, Repr

abbrev Schedule := List Event

/-- Every one of `n` futures completes, and the consumer polls at least `k` times after that. -/
def Schedule.Settles (n k : Nat) (σ : Schedule) : Prop :=
  ∃ σ₁ σ₂ : Schedule, σ = σ₁ ++ σ₂ ∧ (∀ i < n, .complete i ∈ σ₁) ∧ k ≤ σ₂.count .poll

inductive Poll (β : Type) where
  | pending
  | item (b : β)
  | finished

/-! ### `FuturesOrdered` under `flat_map` -/

structure FlatMap (α β : Type) where
  /-- Items of the last released output that are not handed out yet. -/
  inner : List β
  /-- Outputs of the futures that are not released, in `push_back` order. -/
  queue : List α
  /-- The position of the first of them. -/
  next : Nat
deriving DecidableEq, Repr

variable {α β ε : Type}

/-- Asks the queue: an output without items is passed over, a future that is not complete stops. -/
def pollQueue (items : α → List β) (done : List Nat) : Nat → List α → Poll β × FlatMap α β
  | next, [] => (.finished, ⟨[], [], next⟩)
  | next, a :: queue =>
    if next ∈ done then
      match items a with
      | [] => pollQueue items done (next + 1) queue
      | b :: inner => (.item b, ⟨inner, queue, next + 1⟩)
    else (.pending, ⟨[], a :: queue, next⟩)

def FlatMap.poll (items : α → List β) (done : List Nat) (s : FlatMap α β) : Poll β × FlatMap α β :=
  match s.inner with
  | b :: inner => (.item b, { s with inner := inner })
  | [] => pollQueue items done s.next s.queue

/-- The consumer of a stream: what it was handed, and whether it has seen the end. -/
structure Consumer (α β : Type) where
  done : List Nat
  stream : FlatMap α β
  emitted : List β
  ended : Bool
deriving DecidableEq, Repr

namespace Consumer

def start (outputs : List α) : Consumer α β := ⟨[], ⟨[], outputs, 0⟩, [], false⟩

def absorb (c : Consumer α β) : Poll β × FlatMap α β → Consumer α β
  | (.pending, s) => { c with stream := s }
  | (.item b, s) => { c with stream := s, emitted := c.emitted ++ [b] }
  | (.finished, s) => { c with stream := s, ended := true }

def step (items : α → List β) (c : Consumer α β) : Event → Consumer α β
  | .complete i => { c with done := i :: c.done }
  | .poll => c.absorb (c.stream.poll items c.done)

def run (items : α → List β) (outputs : List α) (σ : Schedule) : Consumer α β :=
  σ.foldl (step items) (start outputs)

/-- What was handed out and what is still held is the output of the released futures. -/
structure Inv (items : α → List β) (outputs : List α) (done : List Nat) (emitted : List β)
    (s : FlatMap α β) : Prop where
  next_le : s.next ≤ outputs.length
  queue_eq : s.queue = outputs.drop s.next
  emitted_eq : emitted ++ s.inner = (outputs.take s.next).flatMap items
  released : ∀ i < s.next, i ∈ done

/-- What a poll can answer, and the state it leaves. -/
inductive Polled (items : α → List β) (outputs : List α) (done : List Nat) (emitted : List β) :
    Poll β × FlatMap α β → Prop
  | pending {s : FlatMap α β} (inv : Inv items outputs done emitted s) (inner : s.inner = [])
      (lt : s.next < outputs.length) (waits : s.next ∉ done) : Polled items outputs done emitted (.pending, s)
  | item {s : FlatMap α β} {b : β} (inv : Inv items outputs done (emitted ++ [b]) s) :
      Polled items outputs done emitted (.item b, s)
  | finished {s : FlatMap α β} (inv : Inv items outputs done emitted s) (inner : s.inner = [])
      (all : s.next = outputs.length) : Polled items outputs done emitted (.finished, s)

variable {items : α → List β} {outputs : List α} {done : List Nat} {emitted : List β}
  {s : FlatMap α β} {c : Consumer α β} {σ : Schedule}

theorem prefix_flatMap_take (items : α → List β) (outputs : List α) {i j : Nat} (h : i ≤ j) :
    (outputs.take i).flatMap items <+: (outputs.take j).flatMap items := by
  obtain ⟨t, ht⟩ := List.take_prefix_take_left (l := outputs) h
  exact ⟨t.flatMap items, by rw [← ht, List.flatMap_append]⟩

theorem Inv.prefix_released (h : Inv items outputs done emitted s) :
    emitted <+: (outputs.take s.next).flatMap items :=
  h.emitted_eq ▸ List.prefix_append emitted s.inner

theorem Inv.prefix_emitted (h : Inv items outputs done emitted s) :
    emitted <+: outputs.flatMap items := by
  have := prefix_flatMap_take items outputs h.next_le
  rw [List.take_length] at this
  exact h.prefix_released.trans this

/-- The items behind a future that is not complete are held back. -/
theorem Inv.held_back (h : Inv items outputs done emitted s) {i : Nat} (hi : i ∉ done) :
    emitted <+: (outputs.take i).flatMap items := by
  have hle : s.next ≤ i := Nat.le_of_not_lt fun hlt => hi (h.released i hlt)
  exact h.prefix_released.trans (prefix_flatMap_take items outputs hle)

theorem Inv.eq_of_finished (h : Inv items outputs done emitted s) (hs : s.inner = [])
    (hn : s.next = outputs.length) : emitted = outputs.flatMap items := by
  have := h.emitted_eq
  rwa [hs, hn, List.append_nil, List.take_length] at this

theorem Inv.complete (h : Inv items outputs done emitted s) (i : Nat) :
    Inv items outputs (i :: done) emitted s :=
  ⟨h.next_le, h.queue_eq, h.emitted_eq, fun j hj => List.mem_cons_of_mem _ (h.released j hj)⟩

/-- Asking the queue with nothing held; the induction is over the outputs not released yet. -/
theorem polled_pollQueue (queue : List α) (next : Nat) (h : Inv items outputs done emitted ⟨[], queue, next⟩) :
    Polled items outputs done emitted (pollQueue items done next queue) := by
  induction queue generalizing next with
  | nil =>
    have hlen := congrArg List.length h.queue_eq
    have hle := h.next_le
    simp only [List.length_nil, List.length_drop] at hlen hle
    exact .finished h rfl (by show next = _; omega)
  | cons a queue ih =>
    obtain ⟨-, hq, he, hr⟩ := h
    dsimp only at hq he hr
    have hlt : next < outputs.length := by
      have := congrArg List.length hq
      simp only [List.length_cons, List.length_drop] at this
      omega
    have hq' := hq
    rw [List.drop_eq_getElem_cons hlt] at hq'
    obtain ⟨ha, hqueue⟩ := List.cons.inj hq'
    rw [List.append_nil] at he
    have htake : (outputs.take (next + 1)).flatMap items = emitted ++ items a := by
      rw [← List.take_append_getElem hlt, List.flatMap_append, he, ha]
      simp
    unfold pollQueue
    by_cases hd : next ∈ done
    · rw [if_pos hd]
      have hr' : ∀ i < next + 1, i ∈ done := by
        intro i hi
        rcases Nat.lt_succ_iff_lt_or_eq.mp hi with hi | rfl
        · exact hr i hi
        · exact hd
      cases hitems : items a with
      | nil => exact ih (next + 1) ⟨hlt, hqueue, by rw [htake, hitems], hr'⟩
      | cons b inner => exact .item ⟨hlt, hqueue, by rw [htake, hitems]; simp, hr'⟩
    · rw [if_neg hd]
      exact .pending ⟨Nat.le_of_lt hlt, hq, by rw [List.append_nil]; exact he, hr⟩ rfl hlt hd

theorem polled_poll (h : Inv items outputs done emitted s) :
    Polled items outputs done emitted (s.poll items done) := by
  obtain ⟨inner, queue, next⟩ := s
  cases inner with
  | nil => exact polled_pollQueue queue next h
  | cons b inner =>
    exact .item ⟨h.next_le, h.queue_eq, by rw [← h.emitted_eq]; simp, h.released⟩

structure Ok (items : α → List β) (outputs : List α) (c : Consumer α β) : Prop where
  inv : Inv items outputs c.done c.emitted c.stream
  ended : c.ended = true → c.emitted = outputs.flatMap items

theorem ok_start (items : α → List β) (outputs : List α) : Ok items outputs (start outputs) :=
  ⟨⟨Nat.zero_le _, rfl, rfl, fun _ h => absurd h (Nat.not_lt_zero _)⟩, fun h => by cases h⟩

theorem Ok.step (h : Ok items outputs c) (e : Event) : Ok items outputs (c.step items e) := by
  cases e with
  | complete i => exact ⟨h.inv.complete i, h.ended⟩
  | poll =>
    have hp := polled_poll h.inv
    unfold Consumer.step
    dsimp only
    generalize c.stream.poll items c.done = r at hp ⊢
    cases hp with
    | pending inv => exact ⟨inv, h.ended⟩
    | item inv =>
      refine ⟨inv, ?_⟩
      intro hend
      -- the invariant leaves no room for an item after the end
      have hlen := inv.prefix_emitted.length_le
      rw [← h.ended hend, List.length_append, List.length_singleton] at hlen
      omega
    | finished inv inner all => exact ⟨inv, fun _ => inv.eq_of_finished inner all⟩

theorem Ok.foldl (h : Ok items outputs c) (σ : Schedule) :
    Ok items outputs (σ.foldl (Consumer.step items) c) := by
  induction σ generalizing c with
  | nil => exact h
  | cons e σ ih => exact ih (h.step e)

theorem ok_run (items : α → List β) (outputs : List α) (σ : Schedule) :
    Ok items outputs (run items outputs σ) :=
  (ok_start items outputs).foldl σ

theorem absorb_done (c : Consumer α β) (r : Poll β × FlatMap α β) : (c.absorb r).done = c.done := by
  obtain ⟨p, s⟩ := r
  cases p <;> rfl

theorem mem_foldl_done (c : Consumer α β) (σ : Schedule) (i : Nat) :
    i ∈ (σ.foldl (Consumer.step items) c).done ↔ i ∈ c.done ∨ .complete i ∈ σ := by
  induction σ generalizing c with
  | nil => simp
  | cons e σ ih =>
    rw [List.foldl_cons, ih]
    cases e with
    | complete j => simp [Consumer.step, or_assoc, or_left_comm]
    | poll => simp [Consumer.step, absorb_done]

theorem mem_run_done (i : Nat) : i ∈ (run items outputs σ).done ↔ .complete i ∈ σ := by
  simp [run, mem_foldl_done, start]

theorem poll_progress (h : Ok items outputs c) (hd : ∀ i < outputs.length, i ∈ c.done) :
    (c.step items .poll).ended = true ∨
      (c.step items .poll).emitted.length = c.emitted.length + 1 := by
  have hp := polled_poll h.inv
  unfold Consumer.step
  dsimp only
  generalize c.stream.poll items c.done = r at hp ⊢
  cases hp with
  | pending _ _ lt waits => exact absurd (hd _ lt) waits
  | item => right; simp [absorb]
  | finished => exact .inl rfl

theorem ended_step (hc : c.ended = true) (e : Event) : (c.step items e).ended = true := by
  cases e with
  | complete i => exact hc
  | poll =>
    unfold Consumer.step
    dsimp only
    obtain ⟨p, s⟩ := c.stream.poll items c.done
    cases p <;> simp [absorb, hc]

theorem ended_foldl (hc : c.ended = true) (σ : Schedule) :
    (σ.foldl (Consumer.step items) c).ended = true := by
  induction σ generalizing c with
  | nil => exact hc
  | cons e σ ih => exact ih (ended_step hc e)

theorem ended_of_polls (h : Ok items outputs c) (hd : ∀ i < outputs.length, i ∈ c.done)
    (hk : (outputs.flatMap items).length < c.emitted.length + σ.count .poll) :
    (σ.foldl (Consumer.step items) c).ended = true := by
  induction σ generalizing c with
  | nil =>
    have hle := h.inv.prefix_emitted.length_le
    rw [List.count_nil] at hk
    omega
  | cons e σ ih =>
    cases e with
    | complete i =>
      rw [List.count_cons_of_ne (by simp)] at hk
      exact ih (h.step _) (fun j hj => List.mem_cons_of_mem _ (hd j hj)) hk
    | poll =>
      rw [List.count_cons_self] at hk
      rcases poll_progress h hd with hend | hlen
      · exact ended_foldl hend σ
      · refine ih (h.step _) ?_ (by rw [hlen]; omega)
        intro j hj
        rw [Consumer.step, absorb_done]
        exact hd j hj

/-- A schedule that completes every future and then polls once more than there are items reaches
the end of the stream. -/
theorem ended_run (hσ : σ.Settles outputs.length ((outputs.flatMap items).length + 1)) :
    (run items outputs σ).ended = true := by
  obtain ⟨σ₁, σ₂, rfl, hall, hk⟩ := hσ
  rw [run, List.foldl_append]
  refine ended_of_polls (ok_run items outputs σ₁) ?_ (by omega)
  intro i hi
  exact (mem_run_done i).mpr (hall i hi)

/-! ### Items come as early as they can -/

theorem emitted_prefix_step (c : Consumer α β) (e : Event) : c.emitted <+: (c.step items e).emitted := by
  cases e with
  | complete i => exact List.prefix_rfl
  | poll =>
    unfold Consumer.step
    dsimp only
    obtain ⟨p, s⟩ := c.stream.poll items c.done
    cases p with
    | pending => exact List.prefix_rfl
    | item b => exact List.prefix_append c.emitted [b]
    | finished => exact List.prefix_rfl

theorem emitted_prefix_foldl (c : Consumer α β) (σ : Schedule) :
    c.emitted <+: (σ.foldl (Consumer.step items) c).emitted := by
  induction σ generalizing c with
  | nil => exact List.prefix_rfl
  | cons e σ ih => exact (emitted_prefix_step c e).trans (ih _)

theorem prefix_flatMap (items : α → List β) (outputs : List α) (k : Nat) :
    (outputs.take k).flatMap items <+: outputs.flatMap items := by
  obtain ⟨t, ht⟩ := List.take_prefix k outputs
  exact ⟨t.flatMap items, by rw [← List.flatMap_append, ht]⟩

/-- Where the first `k` futures are complete, a poll hands out one more item, or theirs are all out. -/
theorem poll_eager (h : Ok items outputs c) {k : Nat} (hd : ∀ i < k, i ∈ c.done) :
    (outputs.take k).flatMap items <+: (c.step items .poll).emitted ∨
      (c.step items .poll).emitted.length = c.emitted.length + 1 := by
  have hp := polled_poll h.inv
  unfold Consumer.step
  dsimp only
  generalize c.stream.poll items c.done = r at hp ⊢
  cases hp with
  | @pending s inv inner lt waits =>
    -- the poll stopped behind the first `k`
    have hle : k ≤ s.next := Nat.le_of_not_lt fun hlt => waits (hd _ hlt)
    have hemitted := inv.emitted_eq
    rw [inner, List.append_nil] at hemitted
    refine .inl ?_
    show _ <+: c.emitted
    rw [hemitted]
    exact prefix_flatMap_take items outputs hle
  | item => exact .inr (by simp [absorb])
  | finished inv inner all =>
    have hall := inv.eq_of_finished inner all
    exact .inl (hall ▸ prefix_flatMap items outputs k)

/-- The induction is over the events that are left; each poll is one item, as long as there are any. -/
theorem eager_foldl (h : Ok items outputs c) {k : Nat} (hd : ∀ i < k, i ∈ c.done)
    (hk : ((outputs.take k).flatMap items).length ≤ c.emitted.length + σ.count .poll) :
    (outputs.take k).flatMap items <+: (σ.foldl (Consumer.step items) c).emitted := by
  induction σ generalizing c with
  | nil =>
    exact List.prefix_of_prefix_length_le (prefix_flatMap items outputs k) h.inv.prefix_emitted hk
  | cons e σ ih =>
    cases e with
    | complete i =>
      rw [List.count_cons_of_ne (by simp)] at hk
      exact ih (h.step _) (fun j hj => List.mem_cons_of_mem _ (hd j hj)) hk
    | poll =>
      rw [List.count_cons_self] at hk
      rcases poll_eager h hd with hout | hlen
      · exact hout.trans (emitted_prefix_foldl _ σ)
      · refine ih (h.step _) ?_ (by rw [hlen]; omega)
        intro j hj
        rw [Consumer.step, absorb_done]
        exact hd j hj

/-- Once the first `k` futures are complete, as many polls as they have items hand these out. -/
theorem eager_run {σ₁ σ₂ : Schedule} {k : Nat} (hd : ∀ i < k, .complete i ∈ σ₁)
    (hk : ((outputs.take k).flatMap items).length ≤ σ₂.count .poll) :
    (outputs.take k).flatMap items <+: (run items outputs (σ₁ ++ σ₂)).emitted := by
  rw [run, List.foldl_append]
  refine eager_foldl (ok_run items outputs σ₁) ?_ (by omega)
  intro i hi
  exact (mem_run_done i).mpr (hd i hi)

/-- Nothing else comes while the next one is not complete. -/
theorem emitted_eq_of_waiting {σ₁ σ₂ : Schedule} {k : Nat} (hd : ∀ i < k, .complete i ∈ σ₁)
    (hk : ((outputs.take k).flatMap items).length ≤ σ₂.count .poll) (hwait : .complete k ∉ σ₁ ++ σ₂) :
    (run items outputs (σ₁ ++ σ₂)).emitted = (outputs.take k).flatMap items := by
  have hheld := (ok_run items outputs (σ₁ ++ σ₂)).inv.held_back fun hmem => hwait ((mem_run_done k).mp hmem)
  exact hheld.eq_of_length_le (eager_run hd hk).length_le

end Consumer

/-! ### `try_join_all` and `try_collect` -/

/-- The values, if there is no failure, else the first failure. -/
def tryCollect : List (Except ε β) → Except ε (List β)
  | [] => .ok []
  | .ok b :: xs => (tryCollect xs).map (b :: ·)
  | .error e :: _ => .error e

/-- `try_collect` on a stream resolves at the first failure it is handed, or at the end. -/
def Consumer.tryCollect (c : Consumer α (Except ε β)) : Option (Except ε (List β)) :=
  match Futures.tryCollect c.emitted with
  | .error e => some (.error e)
  | .ok bs => if c.ended then some (.ok bs) else none

/-- Up to this many futures `try_join_all` polls all of them on every wakeup. -/
def SMALL : Nat := 30

/-- A poll that looks at every future: the first failure among the complete ones resolves it. -/
def joinSmall (done : List Nat) (outputs : List (Except ε β)) : Option (Except ε (List β)) :=
  match outputs.zipIdx.filter (fun (_, i) => i ∈ done) |>.map Prod.fst |> tryCollect with
  | .error e => some (.error e)
  | .ok bs => if bs.length = outputs.length then some (.ok bs) else none

/-- A poll through the ordered queue: it stops at the first future that is not complete. -/
def joinBig (done : List Nat) : Nat → List (Except ε β) → Option (Except ε (List β))
  | _, [] => some (.ok [])
  | i, x :: xs =>
    if i ∈ done then
      match x with
      | .ok b => (joinBig done (i + 1) xs).map fun r => r.map (b :: ·)
      | .error e => some (.error e)
    else none

def joinPoll (done : List Nat) (outputs : List (Except ε β)) : Option (Except ε (List β)) :=
  if outputs.length ≤ SMALL then joinSmall done outputs else joinBig done 0 outputs

/-- Runs the join over a schedule: the first poll that resolves it ends it. -/
def tryJoinAll (outputs : List (Except ε β)) : List Nat → Schedule → Option (Except ε (List β))
  | _, [] => none
  | done, .complete i :: σ => tryJoinAll outputs (i :: done) σ
  | done, .poll :: σ =>
    match joinPoll done outputs with
    | some r => some r
    | none => tryJoinAll outputs done σ

variable {outputs : List (Except ε β)} {done : List Nat} {σ : Schedule}

theorem tryCollect_ok_cons {b : β} {bs : List β} :
    tryCollect (.ok b :: outputs) = .ok bs ↔ ∃ cs, tryCollect outputs = .ok cs ∧ b :: cs = bs := by
  rw [tryCollect]
  cases tryCollect outputs <;> simp [Except.map]

theorem tryCollect_ok_cons_error {b : β} {e : ε} :
    tryCollect (.ok b :: outputs) = .error e ↔ tryCollect outputs = .error e := by
  rw [tryCollect]
  cases tryCollect outputs <;> simp [Except.map]

theorem tryCollect_map_ok (bs : List β) : tryCollect (bs.map (Except.ok (ε := ε))) = .ok bs := by
  induction bs with
  | nil => rfl
  | cons b bs ih => exact tryCollect_ok_cons.mpr ⟨bs, ih, rfl⟩

theorem tryCollect_eq_ok_iff {bs : List β} : tryCollect outputs = .ok bs ↔ outputs = bs.map .ok := by
  constructor
  · intro h
    induction outputs generalizing bs with
    | nil => cases h; rfl
    | cons x xs ih =>
      cases x with
      | error e => cases h
      | ok b =>
        obtain ⟨cs, hcs, rfl⟩ := tryCollect_ok_cons.mp h
        rw [ih hcs, List.map_cons]
  · rintro rfl
    exact tryCollect_map_ok bs

theorem tryCollect_eq_error_iff {e : ε} :
    tryCollect outputs = .error e ↔
      ∃ (bs : List β) (rest : List (Except ε β)), outputs = bs.map .ok ++ .error e :: rest := by
  constructor
  · intro h
    induction outputs with
    | nil => cases h
    | cons x xs ih =>
      cases x with
      | error e' => cases h; exact ⟨[], xs, rfl⟩
      | ok b =>
        obtain ⟨bs, rest, rfl⟩ := ih (tryCollect_ok_cons_error.mp h)
        exact ⟨b :: bs, rest, rfl⟩
  · rintro ⟨bs, rest, rfl⟩
    induction bs with
    | nil => rfl
    | cons b bs ih => exact tryCollect_ok_cons_error.mpr ih

theorem joinSmall_eq : joinSmall done outputs =
    match tryCollect ((outputs.zipIdx.filter fun (_, i) => i ∈ done).map Prod.fst) with
    | .error e => some (.error e)
    | .ok bs => if bs.length = outputs.length then some (.ok bs) else none := rfl

theorem joinSmall_ok {bs : List β} (h : joinSmall done outputs = some (.ok bs)) :
    outputs = bs.map .ok := by
  rw [joinSmall_eq] at h
  split at h
  · cases h
  · next bs' hbs =>
    split at h
    · next hlen =>
      cases h
      -- all outputs were seen: the complete ones are as many as there are
      have hseen := tryCollect_eq_ok_iff.mp hbs
      have hcount := congrArg List.length hseen
      rw [List.length_map, List.length_map, hlen] at hcount
      rw [List.filter_sublist.eq_of_length (hcount.trans List.length_zipIdx.symm),
        List.zipIdx_map_fst] at hseen
      exact hseen
    · cases h

theorem joinSmall_error {e : ε} (h : joinSmall done outputs = some (.error e)) :
    ∃ i ∈ done, outputs[i]? = some (.error e) := by
  rw [joinSmall_eq] at h
  split at h
  · next e' he =>
    cases h
    obtain ⟨bs, rest, heq⟩ := tryCollect_eq_error_iff.mp he
    have hmem : Except.error e ∈ (outputs.zipIdx.filter fun (_, i) => i ∈ done).map Prod.fst := by
      rw [heq]; simp
    obtain ⟨⟨x, i⟩, hxi, hx⟩ := List.mem_map.mp hmem
    dsimp only at hx
    subst hx
    obtain ⟨hzip, hd⟩ := List.mem_filter.mp hxi
    exact ⟨i, by simpa using hd, List.mem_zipIdx_iff_getElem?.mp hzip⟩
  · split at h <;> cases h

theorem joinSmall_of_failed {i : Nat} {e : ε} (hi : i ∈ done) (hx : outputs[i]? = some (.error e)) :
    ∃ e', joinSmall done outputs = some (.error e') := by
  have hmem : Except.error e ∈ (outputs.zipIdx.filter fun (_, i) => i ∈ done).map Prod.fst :=
    List.mem_map.mpr ⟨(.error e, i), List.mem_filter.mpr
      ⟨List.mem_zipIdx_iff_getElem?.mpr hx, by simpa using hi⟩, rfl⟩
  rw [joinSmall_eq]
  split
  · next e' _ => exact ⟨e', rfl⟩
  · next bs hbs =>
    rw [tryCollect_eq_ok_iff.mp hbs] at hmem
    simp at hmem

theorem joinSmall_all (hd : ∀ i < outputs.length, i ∈ done) :
    joinSmall done outputs = some (tryCollect outputs) := by
  have hall : outputs.zipIdx.filter (fun (_, i) => decide (i ∈ done)) = outputs.zipIdx := by
    refine List.filter_eq_self.mpr fun ⟨x, i⟩ hxi => ?_
    have := (List.mem_zipIdx hxi).2.1
    simpa using hd i (by omega)
  rw [joinSmall_eq, hall, List.zipIdx_map_fst]
  cases hc : tryCollect outputs with
  | error e => rfl
  | ok bs => simp [tryCollect_eq_ok_iff.mp hc]

/-- The ordered queue hands on the values, or the first failure in input order. -/
theorem joinBig_eq {i : Nat} {r : Except ε (List β)} (h : joinBig done i outputs = some r) :
    r = tryCollect outputs := by
  induction outputs generalizing i r with
  | nil => cases h; rfl
  | cons x xs ih =>
    unfold joinBig at h
    split at h
    · cases x with
      | error e => cases h; rfl
      | ok b =>
        obtain ⟨r', hr', rfl⟩ := Option.map_eq_some_iff.mp h
        rw [ih hr', tryCollect]
    · cases h

theorem joinBig_ok {i : Nat} {bs : List β} (h : joinBig done i outputs = some (.ok bs)) :
    outputs = bs.map .ok :=
  tryCollect_eq_ok_iff.mp (joinBig_eq h).symm

theorem joinBig_error {i : Nat} {e : ε} (h : joinBig done i outputs = some (.error e)) :
    ∃ j, i + j ∈ done ∧ outputs[j]? = some (.error e) := by
  induction outputs generalizing i with
  | nil => cases h
  | cons x xs ih =>
    unfold joinBig at h
    split at h
    · next hi =>
      cases x with
      | error e' => cases h; exact ⟨0, hi, rfl⟩
      | ok b =>
        obtain ⟨r, hr, hmap⟩ := Option.map_eq_some_iff.mp h
        cases r with
        | ok cs => cases hmap
        | error e' =>
          cases hmap
          obtain ⟨j, hj, hx⟩ := ih hr
          exact ⟨j + 1, by rwa [Nat.add_right_comm] at hj, by simpa using hx⟩
    · cases h

theorem joinBig_all {i : Nat} (hd : ∀ j < outputs.length, i + j ∈ done) :
    joinBig done i outputs = some (tryCollect outputs) := by
  induction outputs generalizing i with
  | nil => rfl
  | cons x xs ih =>
    have hi : i ∈ done := hd 0 (by simp)
    unfold joinBig
    rw [if_pos hi]
    cases x with
    | error e => rfl
    | ok b =>
      have hrest : ∀ j < xs.length, i + 1 + j ∈ done := by
        intro j hj
        rw [Nat.add_right_comm]
        exact hd (j + 1) (by simpa using hj)
      rw [ih hrest]
      rfl

theorem joinPoll_ok {bs : List β} (h : joinPoll done outputs = some (.ok bs)) :
    outputs = bs.map .ok := by
  unfold joinPoll at h
  split at h
  · exact joinSmall_ok h
  · exact joinBig_ok h

theorem joinPoll_error {e : ε} (h : joinPoll done outputs = some (.error e)) :
    ∃ i ∈ done, outputs[i]? = some (.error e) := by
  unfold joinPoll at h
  split at h
  · exact joinSmall_error h
  · obtain ⟨j, hj, hx⟩ := joinBig_error h
    exact ⟨j, by simpa using hj, hx⟩

theorem joinPoll_all (hd : ∀ i < outputs.length, i ∈ done) :
    joinPoll done outputs = some (tryCollect outputs) := by
  unfold joinPoll
  split
  · exact joinSmall_all hd
  · exact joinBig_all fun j hj => by simpa using hd j hj

theorem joinPoll_of_tryJoinAll {r : Except ε (List β)} (h : tryJoinAll outputs done σ = some r) :
    ∃ done', joinPoll done' outputs = some r := by
  induction σ generalizing done with
  | nil => cases h
  | cons ev σ ih =>
    cases ev with
    | complete i => exact ih h
    | poll =>
      rw [tryJoinAll] at h
      split at h
      · next r' hr => cases h; exact ⟨done, hr⟩
      · exact ih h

/-- More than `SMALL` futures: what the join resolves to does not depend on the schedule. -/
theorem tryJoinAll_big (hbig : SMALL < outputs.length) {r : Except ε (List β)}
    (h : tryJoinAll outputs done σ = some r) : r = tryCollect outputs := by
  obtain ⟨done', hpoll⟩ := joinPoll_of_tryJoinAll h
  rw [joinPoll, if_neg hbig.not_ge] at hpoll
  exact joinBig_eq hpoll

theorem isSome_tryJoinAll (hd : ∀ i < outputs.length, i ∈ done ∨ .complete i ∈ σ)
    {σ' : Schedule} (hp : .poll ∈ σ') : (tryJoinAll outputs done (σ ++ σ')).isSome := by
  induction σ generalizing done with
  | nil =>
    rw [List.nil_append]
    have hd' : ∀ i < outputs.length, i ∈ done := fun i hi => (hd i hi).resolve_right (by simp)
    clear hd
    induction σ' generalizing done with
    | nil => cases hp
    | cons ev σ' ih =>
      cases ev with
      | complete i =>
        exact ih (by simpa using hp) fun j hj => List.mem_cons_of_mem _ (hd' j hj)
      | poll => rw [tryJoinAll, joinPoll_all hd']; rfl
  | cons ev σ ih =>
    cases ev with
    | complete i =>
      refine ih ?_
      intro j hj
      rcases hd j hj with hj | hj
      · exact .inl (List.mem_cons_of_mem _ hj)
      · rcases List.mem_cons.mp hj with hj | hj
        · cases hj; exact .inl List.mem_cons_self
        · exact .inr hj
    | poll =>
      rw [List.cons_append, tryJoinAll]
      split
      · rfl
      · refine ih ?_
        intro j hj
        simpa using hd j hj

/-- A schedule that completes every future and then polls resolves the join. -/
theorem Schedule.Settles.isSome_tryJoinAll (hσ : σ.Settles outputs.length 1) :
    (tryJoinAll outputs [] σ).isSome := by
  obtain ⟨σ₁, σ₂, rfl, hall, hk⟩ := hσ
  exact Futures.isSome_tryJoinAll (fun i hi => .inr (hall i hi)) (List.count_pos_iff.mp hk)

/-! ### One completion after the other -/

/-- The futures complete in this order, and the consumer polls after every one of them. -/
def Schedule.prompt (order : List Nat) : Schedule := order.flatMap fun i => [.complete i, .poll]

theorem Schedule.settles_prompt {n : Nat} {order : List Nat} (hne : order ≠ []) (hall : ∀ i < n, i ∈ order) :
    (Schedule.prompt order).Settles n 1 := by
  obtain ⟨init, last, rfl⟩ := List.eq_nil_or_concat order |>.resolve_left hne
  refine ⟨Schedule.prompt init ++ [.complete last], [.poll], ?_, ?_, le_rfl⟩
  · simp [Schedule.prompt]
  · intro i hi
    have hmem := hall i hi
    simp only [List.concat_eq_append, List.mem_append, List.mem_singleton] at hmem
    rcases hmem with hmem | rfl
    · exact List.mem_append_left _ (List.mem_flatMap.mpr ⟨i, hmem, List.mem_cons_self⟩)
    · exact List.mem_append_right _ (List.mem_singleton.mpr rfl)

/-- Up to `SMALL` futures: the join resolves to the failure that completes first. -/
theorem tryJoinAll_prompt (hsmall : outputs.length ≤ SMALL) {oks rest : List Nat} {i : Nat} {e : ε}
    (hdone : ∀ j ∈ done, ∃ b, outputs[j]? = some (.ok b)) (hoks : ∀ j ∈ oks, ∃ b, outputs[j]? = some (.ok b))
    (hfail : outputs[i]? = some (.error e)) :
    tryJoinAll outputs done (.prompt (oks ++ i :: rest)) = some (.error e) := by
  induction oks generalizing done with
  | nil =>
    show (match joinPoll (i :: done) outputs with
      | some r => some r
      | none => tryJoinAll outputs (i :: done) (.prompt rest)) = _
    obtain ⟨e', he'⟩ := joinSmall_of_failed (List.mem_cons_self (a := i) (l := done)) hfail
    obtain ⟨k, hk, hx⟩ := joinSmall_error he'
    have hsame : e' = e := by
      rcases List.mem_cons.mp hk with rfl | hk
      · rw [hfail] at hx
        cases hx
        rfl
      · obtain ⟨b, hb⟩ := hdone k hk
        rw [hx] at hb
        cases hb
    rw [joinPoll, if_pos hsmall, he', hsame]
  | cons j oks ih =>
    have hdone' : ∀ k ∈ j :: done, ∃ b, outputs[k]? = some (.ok b) := by
      intro k hk
      rcases List.mem_cons.mp hk with rfl | hk
      · exact hoks k List.mem_cons_self
      · exact hdone k hk
    -- neither all values nor a failure are complete
    have hnone : joinPoll (j :: done) outputs = none := by
      rw [joinPoll, if_pos hsmall]
      cases h : joinSmall (j :: done) outputs with
      | none => rfl
      | some r =>
        cases r with
        | ok bs =>
          rw [joinSmall_ok h] at hfail
          simp at hfail
        | error e' =>
          obtain ⟨k, hk, hx⟩ := joinSmall_error h
          obtain ⟨b, hb⟩ := hdone' k hk
          rw [hx] at hb
          cases hb
    show (match joinPoll (j :: done) outputs with
      | some r => some r
      | none => tryJoinAll outputs (j :: done) (.prompt (oks ++ i :: rest))) = _
    rw [hnone]
    exact ih hdone' fun k hk => hoks k (List.mem_cons_of_mem _ hk)

end RustDbDriver.Lib.Futures
