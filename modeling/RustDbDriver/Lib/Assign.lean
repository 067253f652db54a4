import Mathlib

/-!
# Assignments that override each other

Assignments are run one after the other, and each of them writes some variables of the state. A variable
then holds the last value that was written to it (`foldl_view`). `keepLast p` drops every assignment of
the kind `p` that another of its kind follows; a variable that no assignment of the kind writes does not
notice (`filterMap_keepLast_of_disjoint`), and one that only these write is left with what the last of
them writes, if that writes it at all (`filterMap_keepLast_of_only`).
-/

namespace RustDbDriver.Lib.Assign

variable {S O C : Type}

/-- A variable that assignment `o` sets to `write o`, or leaves alone. -/
theorem foldl_view {set : S → O → S} {view : S → C} {write : O → Option C}
    (h : ∀ s o, view (set s o) = (write o).getD (view s)) (ops : List O) (s : S) :
    view (ops.foldl set s) = ((ops.filterMap write).getLast?).getD (view s) := by
  induction ops using List.reverseRecOn with
  | nil => rfl
  | append_singleton ops o ih =>
    rw [List.foldl_append, List.foldl_cons, List.foldl_nil, h, ih, List.filterMap_append]
    cases hwrite : write o with
    | none => simp [hwrite]
    | some c => simp [hwrite]

/-- All that is written is the same value, and it is written. -/
theorem getLast?_eq_of_forall {cs : List C} {c : C} (hne : cs ≠ []) (h : ∀ d ∈ cs, d = c) :
    cs.getLast? = some c := by
  rw [List.getLast?_eq_some_getLast hne, h _ (List.getLast_mem hne)]

/-! ### Dropping what is overridden -/

def keepLast (p : O → Bool) : List O → List O
  | [] => []
  | o :: ops => if p o && ops.any p then keepLast p ops else o :: keepLast p ops

variable {p : O → Bool} {ops : List O}

theorem mem_of_mem_keepLast {o : O} (h : o ∈ keepLast p ops) : o ∈ ops := by
  induction ops with
  | nil => exact h
  | cons a ops ih =>
    unfold keepLast at h
    split at h
    · exact List.mem_cons_of_mem _ (ih h)
    · rcases List.mem_cons.mp h with rfl | h
      · exact List.mem_cons_self
      · exact List.mem_cons_of_mem _ (ih h)

theorem keepLast_ne_nil (h : ops ≠ []) : keepLast p ops ≠ [] := by
  induction ops with
  | nil => exact h
  | cons a ops ih =>
    unfold keepLast
    split
    · next hp =>
      refine ih ?_
      rintro rfl
      simp at hp
    · exact List.cons_ne_nil _ _

theorem filterMap_keepLast_of_disjoint {write : O → Option C} (h : ∀ o, p o = true → write o = none) :
    (keepLast p ops).filterMap write = ops.filterMap write := by
  induction ops with
  | nil => rfl
  | cons a ops ih =>
    unfold keepLast
    split
    · next hp => rw [ih, List.filterMap_cons_none (h a (by simp at hp; exact hp.1))]
    · rw [List.filterMap_cons, List.filterMap_cons, ih]

theorem filterMap_keepLast_of_only {write : O → Option C} (h : ∀ o c, write o = some c → p o = true) :
    (keepLast p ops).filterMap write = (((ops.filter p).getLast?).bind write).toList := by
  induction ops with
  | nil => rfl
  | cons a ops ih =>
    unfold keepLast
    cases hp : p a with
    | false =>
      have hwrite : write a = none := by
        cases hwrite : write a with
        | none => rfl
        | some c => rw [h a c hwrite] at hp; cases hp
      simp [hp, hwrite, ih]
    | true =>
      cases hany : ops.any p with
      | true =>
        have hne : ops.filter p ≠ [] := by
          obtain ⟨o, ho, hpo⟩ := List.any_eq_true.mp hany
          exact List.ne_nil_of_mem (List.mem_filter.mpr ⟨ho, hpo⟩)
        rw [if_pos (by simp), ih, List.filter_cons_of_pos hp, List.getLast?_cons,
          List.getLast?_eq_some_getLast hne]
        rfl
      | false =>
        have hnil : ops.filter p = [] := by
          rw [List.filter_eq_nil_iff]
          intro o ho hpo
          exact absurd (List.any_eq_true.mpr ⟨o, ho, hpo⟩) (by simp [hany])
        rw [if_neg (by simp), List.filterMap_cons, ih, List.filter_cons_of_pos hp, hnil]
        cases hwrite : write a <;> simp [hwrite]

theorem getLast?_filterMap_eq {write : O → Option C} (h : ∀ o, p o = (write o).isSome) :
    (ops.filterMap write).getLast? = ((ops.filter p).getLast?).bind write := by
  induction ops using List.reverseRecOn with
  | nil => rfl
  | append_singleton ops o ih =>
    rw [List.filter_append, List.filterMap_append]
    cases hwrite : write o with
    | none => simp [h, hwrite, ih]
    | some c => simp [h, hwrite]

/-- A variable that every assignment of the kind writes, and no other, does not notice either. -/
theorem getLast?_keepLast {write : O → Option C} (h : ∀ o, p o = (write o).isSome) :
    ((keepLast p ops).filterMap write).getLast? = (ops.filterMap write).getLast? := by
  rw [filterMap_keepLast_of_only fun o c hc => by rw [h, hc]; rfl, getLast?_filterMap_eq h]
  cases ((ops.filter p).getLast?).bind write <;> rfl

theorem forall₂_keepLast {O' : Type} {R : O → O' → Prop} {p' : O' → Bool} {ops' : List O'}
    (hR : ∀ o o', R o o' → p o = p' o') (h : List.Forall₂ R ops ops') :
    List.Forall₂ R (keepLast p ops) (keepLast p' ops') := by
  induction h with
  | nil => exact .nil
  | @cons o o' ops ops' ho hops ih =>
    have hany : ops.any p = ops'.any p' := by
      clear ih
      induction hops with
      | nil => rfl
      | cons hab _ ih => rw [List.any_cons, List.any_cons, hR _ _ hab, ih]
    unfold keepLast
    rw [hR o o' ho, hany]
    split
    · exact ih
    · exact .cons ho ih

end RustDbDriver.Lib.Assign
