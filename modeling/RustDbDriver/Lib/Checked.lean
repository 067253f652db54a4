import Mathlib

/-!
# Checked machine arithmetic

Fixed-width integers are carried as `Nat` and `Int`, and an operation whose exact result leaves the
width answers `none`: the point where a build with overflow checks panics. A computation that
answers `some` is exact, so it has the same value with and without the checks.

`forPush` is the loop that runs over a list and appends what each round pushes, if it pushes at all.
-/

namespace RustDbDriver.Lib

/-! ### Unsigned 128 bits -/

namespace U128

def MAX : Nat := 2 ^ 128 - 1

/-- The exact result `x`, if it fits. -/
def check (x : Nat) : Option Nat := if x ≤ MAX then some x else none

def add (a b : Nat) : Option Nat := check (a + b)
def mul (a b : Nat) : Option Nat := check (a * b)
def sub (a b : Nat) : Option Nat := if b ≤ a then some (a - b) else none
def div (a b : Nat) : Option Nat := if b = 0 then none else some (a / b)
def rem (a b : Nat) : Option Nat := if b = 0 then none else some (a % b)

variable {a b : Nat}

theorem check_eq {x : Nat} (h : x ≤ MAX) : check x = some x := by simp [check, h]

theorem add_eq (h : a + b ≤ MAX) : add a b = some (a + b) := check_eq h

theorem mul_eq (h : a * b ≤ MAX) : mul a b = some (a * b) := check_eq h

theorem sub_eq (h : b ≤ a) : sub a b = some (a - b) := by simp [sub, h]

theorem div_eq (h : 0 < b) : div a b = some (a / b) := by simp [div, Nat.ne_of_gt h]

theorem rem_eq (h : 0 < b) : rem a b = some (a % b) := by simp [rem, Nat.ne_of_gt h]

end U128

/-! ### Signed 128 bits -/

namespace I128

def MIN : Int := -2 ^ 127
def MAX : Int := 2 ^ 127 - 1

def check (x : Int) : Option Int := if MIN ≤ x ∧ x ≤ MAX then some x else none

def add (a b : Int) : Option Int := check (a + b)
def sub (a b : Int) : Option Int := check (a - b)
def mul (a b : Int) : Option Int := check (a * b)
/-- Division rounds towards zero; `MIN / -1` overflows. -/
def div (a b : Int) : Option Int := if b = 0 then none else check (a.tdiv b)

variable {a b : Int}

theorem check_eq {x : Int} (h₁ : -2 ^ 127 ≤ x) (h₂ : x < 2 ^ 127) : check x = some x :=
  if_pos ⟨h₁, by simp only [MAX]; omega⟩

theorem add_eq (h₁ : -2 ^ 127 ≤ a + b) (h₂ : a + b < 2 ^ 127) : add a b = some (a + b) :=
  check_eq h₁ h₂

theorem sub_eq (h₁ : -2 ^ 127 ≤ a - b) (h₂ : a - b < 2 ^ 127) : sub a b = some (a - b) :=
  check_eq h₁ h₂

theorem mul_eq (h₁ : -2 ^ 127 ≤ a * b) (h₂ : a * b < 2 ^ 127) : mul a b = some (a * b) :=
  check_eq h₁ h₂

theorem div_eq (ha : 0 ≤ a) (hb : 0 < b) (h : a < 2 ^ 127) : div a b = some (a / b) := by
  have hq : 0 ≤ a / b := Int.ediv_nonneg ha hb.le
  have hle : a / b ≤ a := Int.ediv_le_self b ha
  rw [div, if_neg hb.ne', Int.tdiv_eq_ediv_of_nonneg ha]
  exact check_eq (by omega) (by omega)

end I128

/-! ### The loop that pushes -/

/-- One round of the loop for each `i` of the list: `none` stops it (a panic), `some none` pushes
nothing (`continue`), `some (some b)` pushes `b`. -/
def forPush {α β : Type} (round : α → Option (Option β)) : List α → Option (List β)
  | [] => some []
  | i :: is => do
    let pushed ← round i
    let out ← forPush round is
    return pushed.toList ++ out

theorem forPush_eq {α β : Type} {round : α → Option (Option β)} {g : α → Option β} {is : List α}
    (h : ∀ i ∈ is, round i = some (g i)) : forPush round is = some (is.filterMap g) := by
  induction is with
  | nil => rfl
  | cons i is ih =>
    rw [forPush, h i List.mem_cons_self, ih fun j hj => h j (List.mem_cons_of_mem _ hj)]
    cases hg : g i <;> simp [hg]

theorem mapM_eq_some {α β : Type} {f : α → Option β} {g : α → β} {is : List α}
    (h : ∀ i ∈ is, f i = some (g i)) : is.mapM f = some (is.map g) := by
  induction is with
  | nil => rfl
  | cons i is ih =>
    rw [List.mapM_cons, h i List.mem_cons_self, ih fun j hj => h j (List.mem_cons_of_mem _ hj)]
    rfl

end RustDbDriver.Lib
