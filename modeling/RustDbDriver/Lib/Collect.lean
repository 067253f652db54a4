import Mathlib

/-!
# Collecting results

`List.mapM` over results stops at the first error (`mapM_eq_error_iff`), otherwise it has a value for every
entry (`mapM_eq_ok_iff`). Collecting lists of lists fails as collecting all of their entries in one go does
(`mapM_mapM_eq_error_iff`), and a loop that uses each value as it comes fails as collecting them first does
(`foldlM_map_eq`). One step after another fails with the first error of a step (`bind_eq_error_iff`).
-/

namespace RustDbDriver.Lib

variable {α β ε : Type} {f : α → Except ε β} {x : α} {xs : List α} {ys : List β} {e : ε}

section Steps

variable {δ : Type}

theorem bind_eq_error_iff {r : Except ε α} :
    r.bind f = .error e ↔ r = .error e ∨ ∃ a, r = .ok a ∧ f a = .error e := by
  cases r with
  | error e' => simp [Except.bind]
  | ok a => simp [Except.bind]

theorem mapError_eq_error_iff {r : Except δ α} {g : δ → ε} :
    r.mapError g = .error e ↔ ∃ d, r = .error d ∧ g d = e := by
  cases r with
  | error d => simp [Except.mapError]
  | ok a => simp [Except.mapError]

theorem mapError_eq_ok_iff {r : Except δ α} {g : δ → ε} {a : α} : r.mapError g = .ok a ↔ r = .ok a := by
  cases r with
  | error d => simp [Except.mapError]
  | ok b => simp [Except.mapError]

end Steps

theorem mapM_cons_of_error (h : f x = .error e) : (x :: xs).mapM f = .error e := by
  rw [List.mapM_cons, h]
  rfl

theorem mapM_cons_of_ok {y : β} (h : f x = .ok y) : (x :: xs).mapM f = (xs.mapM f).map (y :: ·) := by
  rw [List.mapM_cons, h]
  cases hxs : xs.mapM f <;> rfl

theorem mapM_eq_ok_iff : xs.mapM f = .ok ys ↔ List.Forall₂ (fun x y => f x = .ok y) xs ys := by
  induction xs generalizing ys with
  | nil => cases ys <;> simp [pure, Except.pure]
  | cons x xs ih =>
    cases hx : f x with
    | error e =>
      rw [mapM_cons_of_error hx]
      refine iff_of_false (by simp) ?_
      rintro (_ | ⟨hy, -⟩)
      rw [hx] at hy
      cases hy
    | ok y =>
      rw [mapM_cons_of_ok hx]
      constructor
      · intro h
        cases hxs : xs.mapM f with
        | error e =>
          rw [hxs] at h
          cases h
        | ok ys' =>
          rw [hxs] at h
          cases h
          exact .cons hx (ih.mp hxs)
      · rintro (_ | ⟨hy, hys⟩)
        rw [hx] at hy
        cases hy
        rw [ih.mpr hys]
        rfl

theorem mapM_eq_error_iff : xs.mapM f = .error e ↔
    ∃ front x rest, xs = front ++ x :: rest ∧ (∀ a ∈ front, ∃ b, f a = .ok b) ∧ f x = .error e := by
  induction xs with
  | nil =>
    refine iff_of_false nofun ?_
    rintro ⟨front, x, rest, h, -⟩
    simp at h
  | cons a xs ih =>
    cases ha : f a with
    | error e' =>
      rw [mapM_cons_of_error ha]
      constructor
      · intro h
        cases h
        exact ⟨[], a, xs, rfl, nofun, ha⟩
      · rintro ⟨front, x, rest, h, hfront, hx⟩
        cases front with
        | nil =>
          obtain ⟨rfl, -⟩ := List.cons.inj h
          rw [ha] at hx
          cases hx
          rfl
        | cons a' front =>
          obtain ⟨rfl, -⟩ := List.cons.inj h
          obtain ⟨b, hb⟩ := hfront a List.mem_cons_self
          rw [ha] at hb
          cases hb
    | ok b =>
      rw [mapM_cons_of_ok ha]
      constructor
      · intro h
        cases hxs : xs.mapM f with
        | ok ys =>
          rw [hxs] at h
          cases h
        | error e' =>
          rw [hxs] at h
          cases h
          obtain ⟨front, x, rest, rfl, hfront, hx⟩ := ih.mp hxs
          exact ⟨a :: front, x, rest, rfl, List.forall_mem_cons.mpr ⟨⟨b, ha⟩, hfront⟩, hx⟩
      · rintro ⟨front, x, rest, h, hfront, hx⟩
        cases front with
        | nil =>
          obtain ⟨rfl, -⟩ := List.cons.inj h
          rw [ha] at hx
          cases hx
        | cons a' front =>
          obtain ⟨rfl, rfl⟩ := List.cons.inj h
          rw [ih.mpr ⟨front, x, rest, rfl, fun c hc => hfront c (List.mem_cons_of_mem _ hc), hx⟩]
          rfl

theorem exists_mapM_ok (h : ∀ x ∈ xs, ∃ y, f x = .ok y) : ∃ ys, xs.mapM f = .ok ys := by
  cases hxs : xs.mapM f with
  | ok ys => exact ⟨ys, rfl⟩
  | error e =>
    obtain ⟨front, x, rest, rfl, -, hx⟩ := mapM_eq_error_iff.mp hxs
    obtain ⟨y, hy⟩ := h x (by simp)
    rw [hx] at hy
    cases hy

theorem exists_ok_of_mapM (h : xs.mapM f = .ok ys) : ∀ x ∈ xs, ∃ y, f x = .ok y := by
  have hall := mapM_eq_ok_iff.mp h
  clear h
  induction hall with
  | nil => exact nofun
  | cons hx _ ih => exact List.forall_mem_cons.mpr ⟨⟨_, hx⟩, ih⟩

/-- The first error of a list of lists. -/
theorem mapM_mapM_eq_error_iff {xss : List (List α)} :
    (xss.mapM fun xs => xs.mapM f) = .error e ↔ xss.flatten.mapM f = .error e := by
  rw [mapM_eq_error_iff, mapM_eq_error_iff]
  constructor
  · rintro ⟨fronts, xs, rests, rfl, hfronts, hxs⟩
    obtain ⟨front, x, rest, rfl, hfront, hx⟩ := mapM_eq_error_iff.mp hxs
    refine ⟨fronts.flatten ++ front, x, rest ++ rests.flatten, by simp, ?_, hx⟩
    intro a ha
    rcases List.mem_append.mp ha with ha | ha
    · obtain ⟨ys, hys, ha⟩ := List.mem_flatten.mp ha
      obtain ⟨bs, hbs⟩ := hfronts ys hys
      exact exists_ok_of_mapM hbs a ha
    · exact hfront a ha
  · rintro ⟨front, x, rest, h, hfront, hx⟩
    induction xss generalizing front with
    | nil => simp at h
    | cons xs xss ih =>
      rw [List.flatten_cons] at h
      rcases List.append_eq_append_iff.mp h with ⟨l, rfl, hl⟩ | ⟨l, rfl, hl⟩
      · obtain ⟨fronts, ys, rests, rfl, hfronts, hys⟩ :=
          ih l hl fun a ha => hfront a (List.mem_append_right _ ha)
        refine ⟨xs :: fronts, ys, rests, rfl, List.forall_mem_cons.mpr ⟨?_, hfronts⟩, hys⟩
        exact exists_mapM_ok fun a ha => hfront a (List.mem_append_left _ ha)
      · cases l with
        | nil =>
          -- the error is behind this list
          rw [List.append_nil]
          obtain ⟨fronts, ys, rests, rfl, hfronts, hys⟩ := ih [] hl.symm nofun
          refine ⟨front :: fronts, ys, rests, rfl, List.forall_mem_cons.mpr ⟨?_, hfronts⟩, hys⟩
          exact exists_mapM_ok hfront
        | cons x' l =>
          obtain ⟨rfl, -⟩ := List.cons.inj hl
          exact ⟨[], front ++ x :: l, xss, rfl, nofun, mapM_eq_error_iff.mpr ⟨front, x, l, rfl, hfront, hx⟩⟩

theorem eq_map_of_mapM {g : α → β} (h : xs.mapM f = .ok ys) (hf : ∀ x ∈ xs, ∀ y, f x = .ok y → y = g x) :
    ys = xs.map g := by
  have hall := mapM_eq_ok_iff.mp h
  clear h
  induction hall with
  | nil => rfl
  | cons hx _ ih =>
    rw [List.map_cons, hf _ List.mem_cons_self _ hx, ih fun x hmem => hf x (List.mem_cons_of_mem _ hmem)]

/-- A loop that collects as it goes. -/
theorem foldlM_map_eq {S : Type} {g : S → β → S} {s : S} :
    xs.foldlM (fun s x => (f x).map (g s)) s = (xs.mapM f).map fun ys => ys.foldl g s := by
  induction xs generalizing s with
  | nil => rfl
  | cons x xs ih =>
    cases hx : f x with
    | error e =>
      rw [mapM_cons_of_error hx, List.foldlM_cons, hx]
      rfl
    | ok y =>
      rw [mapM_cons_of_ok hx, List.foldlM_cons, hx]
      refine ih.trans ?_
      cases xs.mapM f <;> rfl

/-- A relation that is a function's graph relates lists entry by entry as the function maps them. -/
theorem forall₂_iff_map {R : α → β → Prop} {g : α → β} (h : ∀ x y, R x y ↔ y = g x) :
    List.Forall₂ R xs ys ↔ ys = xs.map g := by
  induction xs generalizing ys with
  | nil => simp
  | cons x xs ih =>
    cases ys with
    | nil => simp
    | cons y ys => rw [List.forall₂_cons, h, ih, List.map_cons, List.cons.injEq]

end RustDbDriver.Lib
