import Mathlib

/-!
# While loops

`whileFuel` runs a loop for at most `fuel` rounds and answers the state in which its condition fails,
or `none` when the rounds did not suffice. An invariant that the body keeps holds where the loop stops
(`whileFuel_invariant`) and wherever it comes by (`Reaches.invariant`), a measure that the body lowers
bounds the rounds (`whileFuel_isSome`), and an invariant under which the condition never fails keeps the
loop going (`whileFuel_eq_none`).
-/

namespace RustDbDriver.Lib

variable {S : Type}

def whileFuel (cond : S → Bool) (body : S → S) : Nat → S → Option S
  | 0, s => if cond s then none else some s
  | fuel + 1, s => if cond s then whileFuel cond body fuel (body s) else some s

/-- The states a loop comes by, the last one included. -/
inductive Reaches (cond : S → Bool) (body : S → S) (s : S) : S → Prop where
  | start : Reaches cond body s s
  | round {t : S} : Reaches cond body s t → cond t = true → Reaches cond body s (body t)

variable {cond : S → Bool} {body : S → S} {fuel : Nat} {s t : S}

theorem Reaches.invariant (inv : S → Prop) (step : ∀ s, inv s → cond s = true → inv (body s))
    (h : Reaches cond body s t) (h₀ : inv s) : inv t := by
  induction h with
  | start => exact h₀
  | round _ hc ih => exact step _ ih hc

/-- Where an invariant keeps the condition true the loop never stops. -/
theorem whileFuel_eq_none (inv : S → Prop) (step : ∀ s, inv s → cond s = true ∧ inv (body s))
    (h₀ : inv s) : whileFuel cond body fuel s = none := by
  induction fuel generalizing s with
  | zero => rw [whileFuel, if_pos (step s h₀).1]
  | succ fuel ih =>
    rw [whileFuel, if_pos (step s h₀).1]
    exact ih (step s h₀).2

/-- An invariant that every round keeps holds where the loop stops, and there the condition fails. -/
theorem whileFuel_invariant (inv : S → Prop) (step : ∀ s, inv s → cond s = true → inv (body s))
    (h₀ : inv s) (h : whileFuel cond body fuel s = some t) : inv t ∧ cond t = false := by
  induction fuel generalizing s with
  | zero =>
    unfold whileFuel at h
    split at h
    · cases h
    · next hc => cases h; exact ⟨h₀, by simpa using hc⟩
  | succ fuel ih =>
    rw [whileFuel] at h
    split at h
    · next hc => exact ih (step s h₀ hc) h
    · next hc => cases h; exact ⟨h₀, by simpa using hc⟩

/-- A measure that every round lowers, as long as an invariant holds, bounds the rounds. -/
theorem whileFuel_isSome (inv : S → Prop) (μ : S → Nat)
    (step : ∀ s, inv s → cond s = true → inv (body s) ∧ μ (body s) < μ s)
    (h₀ : inv s) (hμ : μ s ≤ fuel) : (whileFuel cond body fuel s).isSome := by
  induction fuel generalizing s with
  | zero =>
    unfold whileFuel
    split
    · next hc =>
      have := (step s h₀ hc).2
      omega
    · rfl
  | succ fuel ih =>
    rw [whileFuel]
    split
    · next hc =>
      obtain ⟨h₁, hlt⟩ := step s h₀ hc
      exact ih h₁ (by omega)
    · rfl

end RustDbDriver.Lib
