import Mathlib

/-!
# Runs of a machine

A machine answers an event with its next state, or with `none` where the event cannot happen. `run`
follows a list of events. What is known of a run is proved one event at a time: `run_history` carries an
invariant that may speak of the events so far, and each of its steps also knows the run up to it and the
rest of the run.
-/

namespace RustDbDriver.Lib

variable {S E : Type}

def run (step : S → E → Option S) (s : S) : List E → Option S
  | [] => some s
  | e :: es => (step s e).bind fun s' => run step s' es

variable {step : S → E → Option S} {s t : S} {es : List E}

theorem run_append (s : S) (es es' : List E) :
    run step s (es ++ es') = (run step s es).bind fun t => run step t es' := by
  induction es generalizing s with
  | nil => rfl
  | cons e es ih =>
    rw [List.cons_append, run, run, Option.bind_assoc]
    congr 1
    funext s'
    exact ih s'

theorem run_concat (s : S) (es : List E) (e : E) :
    run step s (es ++ [e]) = (run step s es).bind fun t => step t e := by
  rw [run_append]
  congr 1
  funext t
  simp [run]

/-- A run goes through an event of its list: from the state before it, by a step, to the state after. -/
theorem run_split {pre post : List E} {e : E} (h : run step s (pre ++ e :: post) = some t) :
    ∃ u v, run step s pre = some u ∧ step u e = some v ∧ run step v post = some t := by
  rw [run_append] at h
  obtain ⟨u, hu, hrest⟩ := Option.bind_eq_some_iff.mp h
  obtain ⟨v, hv, hpost⟩ := Option.bind_eq_some_iff.mp hrest
  exact ⟨u, v, hu, hv, hpost⟩

theorem run_invariant (inv : S → Prop) (hstep : ∀ s e t, inv s → step s e = some t → inv t)
    (h₀ : inv s) (h : run step s es = some t) : inv t := by
  induction es generalizing s with
  | nil =>
    cases h
    exact h₀
  | cons e es ih =>
    obtain ⟨u, hu, hrest⟩ := Option.bind_eq_some_iff.mp h
    exact ih (hstep s e u h₀ hu) hrest

/-- Of two events of a list one is the other, or comes before it. -/
theorem split_cases {pre post pre' post' : List E} {e e' : E} (h : pre ++ e :: post = pre' ++ e' :: post') :
    (pre = pre' ∧ e = e') ∨ (∃ mid, pre' = pre ++ e :: mid) ∨ ∃ mid, pre = pre' ++ e' :: mid := by
  rcases List.append_eq_append_iff.mp h with ⟨l, hl, heq⟩ | ⟨l, hl, heq⟩
  · cases l with
    | nil =>
      obtain ⟨rfl, -⟩ := List.cons.inj heq
      exact .inl ⟨by simpa using hl.symm, rfl⟩
    | cons x l =>
      obtain ⟨rfl, -⟩ := List.cons.inj heq
      exact .inr (.inl ⟨l, hl⟩)
  · cases l with
    | nil =>
      obtain ⟨rfl, -⟩ := List.cons.inj heq
      exact .inl ⟨by simpa using hl, rfl⟩
    | cons x l =>
      obtain ⟨rfl, -⟩ := List.cons.inj heq
      exact .inr (.inr ⟨l, hl⟩)

/-- What has not happened does not happen by another event. -/
theorem notMem_concat {e e' : E} (h : e ∉ es) (hne : e ≠ e') : e ∉ es ++ [e'] := by
  rw [List.mem_append, List.mem_singleton, not_or]
  exact ⟨h, hne⟩

/-- An invariant of the events so far and the state they led to holds at the end if every step of this
run keeps it. -/
theorem run_history (inv : List E → S → Prop) (h₀ : inv [] s)
    (hstep : ∀ pre e post u v, es = pre ++ e :: post → run step s pre = some u → step u e = some v →
      run step v post = some t → inv pre u → inv (pre ++ [e]) v)
    (h : run step s es = some t) : inv es t := by
  have hprefix : ∀ pre post, es = pre ++ post → ∀ u, run step s pre = some u → run step u post = some t →
      inv pre u := by
    intro pre
    induction pre using List.reverseRecOn with
    | nil =>
      intro post _ u hu _
      cases hu
      exact h₀
    | append_singleton pre e ih =>
      intro post hes v hv hpost
      rw [run_concat] at hv
      obtain ⟨u, hu, huv⟩ := Option.bind_eq_some_iff.mp hv
      have hes' : es = pre ++ e :: post := by rw [hes, List.append_assoc, List.singleton_append]
      have hrest : run step u (e :: post) = some t := by rw [run, huv, Option.bind_some, hpost]
      exact hstep pre e post u v hes' hu huv hpost (ih (e :: post) hes' u hu hrest)
  exact hprefix es [] (List.append_nil es).symm t h rfl

end RustDbDriver.Lib
