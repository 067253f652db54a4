import Mathlib

/-!
# Pieces of a text

A text is cut at its separators and blanks are trimmed off every piece. `any_trim_splitOnP_iff` says
when some piece is then of a kind: the text has such a stretch, with nothing but blanks between it and
the next separator, or the end of the text, on either side.
-/

namespace RustDbDriver.Lib.Pieces

variable {α : Type} {sep blank : α → Bool}

def trim (blank : α → Bool) (xs : List α) : List α := (xs.dropWhile blank).rdropWhile blank

/-- Up to blanks, `xs` is empty or begins with a separator. -/
def closes (sep blank : α → Bool) (xs : List α) : Bool :=
  (xs.dropWhile fun x => blank x && !sep x).head?.all sep

/-- Up to blanks, `xs` is empty or ends with a separator. -/
def opens (sep blank : α → Bool) (xs : List α) : Bool :=
  (xs.rdropWhile fun x => blank x && !sep x).getLast?.all sep

/-! ### Cutting -/

theorem mem_splitOnP_of_append {l p r : List α} (hp : ∀ x ∈ p, sep x = false)
    (hl : l.getLast?.all sep = true) (hr : r.head?.all sep = true) : p ∈ (l ++ (p ++ r)).splitOnP sep := by
  have hpiece : p ∈ (p ++ r).splitOnP sep := by
    cases r with
    | nil => simp [List.splitOnP_eq_singleton hp]
    | cons d r =>
      rw [List.splitOnP_append_cons_of_forall_mem hp d (by simpa using hr)]
      exact List.mem_cons_self
  rcases List.eq_nil_or_concat l with rfl | ⟨l, d, rfl⟩
  · exact hpiece
  · have hd : sep d = true := by simpa using hl
    rw [List.concat_eq_append, List.append_assoc, List.singleton_append, List.splitOnP_append_cons _ _ hd]
    exact List.mem_append_right _ hpiece

theorem exists_append_of_mem_splitOnP {p xs : List α} (h : p ∈ xs.splitOnP sep) :
    ∃ l r, xs = l ++ (p ++ r) ∧ (∀ x ∈ p, sep x = false) ∧ l.getLast?.all sep = true ∧
      r.head?.all sep = true := by
  induction hn : xs.length using Nat.strong_induction_on generalizing xs with
  | _ n ih =>
    -- cut at the first separator
    cases hfind : xs.find? sep with
    | none =>
      have hsep : ∀ x ∈ xs, sep x = false := by simpa using List.find?_eq_none.mp hfind
      rw [List.splitOnP_eq_singleton hsep, List.mem_singleton] at h
      exact ⟨[], [], by simp [h], h ▸ hsep, rfl, rfl⟩
    | some d =>
      obtain ⟨hd, front, rest, rfl, hfront⟩ := List.find?_eq_some_iff_append.mp hfind
      have hfront' : ∀ x ∈ front, sep x = false := by simpa using hfront
      rw [List.splitOnP_append_cons_of_forall_mem hfront' d hd] at h
      rcases List.mem_cons.mp h with rfl | h
      · exact ⟨[], d :: rest, rfl, hfront', rfl, by simpa using hd⟩
      · obtain ⟨l, r, rfl, hp, hl, hr⟩ := ih _ (by rw [← hn]; simp; omega) h rfl
        refine ⟨front ++ d :: l, r, by simp, hp, ?_, hr⟩
        cases l with
        | nil => simpa using hd
        | cons x l =>
          have hlast : (front ++ d :: x :: l).getLast? = (x :: l).getLast? := by
            simp [List.getLast?_append, List.getLast?_cons]
          rw [hlast, hl]

/-! ### Trimming -/

theorem trim_split (blank : α → Bool) (xs : List α) :
    ∃ front tail, xs = front ++ (trim blank xs ++ tail) ∧ (∀ x ∈ front, blank x = true) ∧
      ∀ x ∈ tail, blank x = true := by
  refine ⟨xs.takeWhile blank, (xs.dropWhile blank).rtakeWhile blank, ?_, ?_, ?_⟩
  · rw [trim, List.rdropWhile_append_rtakeWhile, List.takeWhile_append_dropWhile]
  · intro x hx
    exact List.mem_takeWhile_imp hx
  · intro x hx
    exact List.mem_rtakeWhile_imp hx

theorem dropWhile_append_of_not {p : α → Bool} {xs : List α} (d : α) (hd : p d = false) (ys : List α) :
    (xs ++ d :: ys).dropWhile p = xs.dropWhile p ++ d :: ys := by
  induction xs with
  | nil => exact List.dropWhile_cons_of_neg (by simp [hd])
  | cons x xs ih =>
    rw [List.cons_append, List.dropWhile_cons, List.dropWhile_cons, ih]
    split <;> rfl

theorem rdropWhile_append_of_not {p : α → Bool} {ys : List α} (xs : List α) (d : α) (hd : p d = false) :
    (xs ++ d :: ys).rdropWhile p = xs ++ d :: ys.rdropWhile p := by
  have h := @dropWhile_append_of_not α p ys.reverse d hd xs.reverse
  rw [List.rdropWhile, List.rdropWhile, List.reverse_append, List.reverse_cons, List.append_assoc,
    List.singleton_append, h]
  simp

theorem getLast?_rdropWhile (p : α → Bool) (xs : List α) : ∀ x ∈ (xs.rdropWhile p).getLast?, p x = false := by
  intro x hx
  have hne : xs.rdropWhile p ≠ [] := by
    intro hnil
    rw [hnil] at hx
    cases hx
  have hnot := List.rdropWhile_last_not p xs hne
  rw [List.getLast?_eq_some_getLast hne] at hx
  cases hx
  simpa using hnot

theorem mem_head?_of_rdropWhile {p : α → Bool} {xs : List α} {x : α} (hx : x ∈ (xs.rdropWhile p).head?) :
    x ∈ xs.head? := by
  obtain ⟨rest, hrest⟩ := List.rdropWhile_prefix p xs
  rw [Option.mem_def] at hx ⊢
  rw [← hrest, List.head?_append, hx]
  rfl

theorem rdropWhile_eq_self {p : α → Bool} {xs : List α} (hlast : ∀ x ∈ xs.getLast?, p x = false) :
    xs.rdropWhile p = xs := by
  refine List.rdropWhile_eq_self_iff.mpr ?_
  intro hne
  simp [hlast _ (List.getLast?_eq_some_getLast hne)]

/-- What `rdropWhile` strips is added in front of what was stripped before. -/
theorem exists_append_rdropWhile {p q : α → Bool} (hpq : ∀ x, p x = true → q x = true) (xs : List α)
    {tail : List α} (htail : ∀ x ∈ tail, q x = true) :
    ∃ tail', xs ++ tail = xs.rdropWhile p ++ tail' ∧ ∀ x ∈ tail', q x = true := by
  refine ⟨xs.rtakeWhile p ++ tail, ?_, ?_⟩
  · rw [← List.append_assoc, List.rdropWhile_append_rtakeWhile]
  · intro x hx
    rcases List.mem_append.mp hx with hx | hx
    · exact hpq x (List.mem_rtakeWhile_imp hx)
    · exact htail x hx

theorem rdropWhile_append_of_pos {p : α → Bool} (xs : List α) {tail : List α}
    (htail : ∀ x ∈ tail, p x = true) : (xs ++ tail).rdropWhile p = xs.rdropWhile p := by
  rw [List.rdropWhile, List.reverse_append,
    List.dropWhile_append_of_pos fun x hx => htail x (List.mem_reverse.mp hx), List.rdropWhile]

/-- What is not blank inside of a text keeps its neighbours. -/
theorem trim_append_cons (xs : List α) (d : α) (hd : blank d = false) (ys : List α) :
    trim blank (xs ++ d :: ys) = xs.dropWhile blank ++ d :: ys.rdropWhile blank := by
  rw [trim, dropWhile_append_of_not d hd, rdropWhile_append_of_not _ d hd]

theorem trim_append_of_ends {front xs tail : List α} (hfront : ∀ x ∈ front, blank x = true)
    (hhead : ∀ x ∈ xs.head?, blank x = false) (hlast : ∀ x ∈ xs.getLast?, blank x = false)
    (htail : ∀ x ∈ tail, blank x = true) : trim blank (front ++ (xs ++ tail)) = xs := by
  rw [trim, List.dropWhile_append_of_pos hfront]
  cases xs with
  | nil => rw [List.nil_append, List.dropWhile_eq_nil_iff.mpr htail, List.rdropWhile_nil]
  | cons x xs =>
    have hx : ¬ blank x = true := by simp [hhead x rfl]
    rw [List.cons_append, List.dropWhile_cons_of_neg hx, ← List.cons_append, rdropWhile_append_of_pos _ htail,
      rdropWhile_eq_self hlast]

theorem trim_append {front xs tail : List α} (hfront : ∀ x ∈ front, blank x = true)
    (hxs : ∀ x ∈ xs, blank x = false) (htail : ∀ x ∈ tail, blank x = true) :
    trim blank (front ++ (xs ++ tail)) = xs :=
  trim_append_of_ends hfront (fun x hx => hxs x (List.mem_of_mem_head? hx))
    (fun x hx => hxs x (List.mem_of_mem_getLast? hx)) htail

/-- A trimmed text begins and ends with what is not blank. -/
theorem ends_trim (blank : α → Bool) (xs : List α) :
    (∀ x ∈ (trim blank xs).head?, blank x = false) ∧ ∀ x ∈ (trim blank xs).getLast?, blank x = false := by
  constructor
  · intro x hx
    have hnot := List.head?_dropWhile_not blank xs
    rw [Option.mem_def.mp (mem_head?_of_rdropWhile hx)] at hnot
    simpa using hnot
  · exact getLast?_rdropWhile blank _

theorem trim_dropWhile (xs : List α) : trim blank (xs.dropWhile blank) = trim blank xs := by
  rw [trim, trim, List.dropWhile_idempotent]

theorem trim_rdropWhile (xs : List α) : trim blank (xs.rdropWhile blank) = trim blank xs := by
  obtain ⟨front, tail, hxs, hfront, htail⟩ := trim_split blank (xs.rdropWhile blank)
  obtain ⟨hhead, hlast⟩ := ends_trim blank (xs.rdropWhile blank)
  have hback : ∀ x ∈ tail ++ xs.rtakeWhile blank, blank x = true := by
    intro x hx
    rcases List.mem_append.mp hx with hx | hx
    · exact htail x hx
    · exact List.mem_rtakeWhile_imp hx
  have h := trim_append_of_ends hfront hhead hlast hback
  rw [← List.append_assoc _ tail, ← List.append_assoc front, ← hxs, List.rdropWhile_append_rtakeWhile] at h
  exact h.symm

/-! ### Pieces of a kind -/

theorem closes_append {b r : List α} (hb : ∀ x ∈ b, blank x = true ∧ sep x = false)
    (hr : r.head?.all sep = true) :
    closes sep blank (b ++ r) = true := by
  rw [closes, List.dropWhile_append_of_pos fun x hx => by simp [hb x hx]]
  cases r with
  | nil => rfl
  | cons d r =>
    have hd : sep d = true := by simpa using hr
    simp [hd]

theorem opens_append {l b : List α} (hl : l.getLast?.all sep = true)
    (hb : ∀ x ∈ b, blank x = true ∧ sep x = false) :
    opens sep blank (l ++ b) = true := by
  have hdrop : (l ++ b).rdropWhile (fun x => blank x && !sep x) = l := by
    rw [List.rdropWhile, List.reverse_append,
      List.dropWhile_append_of_pos fun x hx => by simp [hb x (List.mem_reverse.mp hx)]]
    rcases List.eq_nil_or_concat l with rfl | ⟨l, d, rfl⟩
    · rfl
    · have hd : sep d = true := by simpa using hl
      simp [hd]
  rw [opens, hdrop, hl]

/-- Some trimmed piece of `xs` is of the kind `m`, which allows neither separators nor blanks. -/
theorem any_trim_splitOnP_iff {m : List α → Bool} (hm : ∀ p, m p = true → ∀ x ∈ p, sep x = false ∧ blank x = false)
    (xs : List α) :
    (xs.splitOnP sep).any (fun p => m (trim blank p)) = true ↔
      ∃ l p r, xs = l ++ (p ++ r) ∧ m p = true ∧ opens sep blank l = true ∧ closes sep blank r = true := by
  rw [List.any_eq_true]
  constructor
  · rintro ⟨q, hq, hmq⟩
    obtain ⟨l, r, rfl, hqsep, hl, hr⟩ := exists_append_of_mem_splitOnP hq
    obtain ⟨front, tail, hqeq, hfront, htail⟩ := trim_split blank q
    have hsep : ∀ x ∈ front ++ (trim blank q ++ tail), sep x = false := hqeq ▸ hqsep
    refine ⟨l ++ front, trim blank q, tail ++ r, ?_, hmq, ?_, ?_⟩
    · rw [List.append_assoc, ← List.append_assoc _ tail, ← List.append_assoc front, ← hqeq]
    · exact opens_append hl fun x hx => ⟨hfront x hx, hsep x (by simp [hx])⟩
    · exact closes_append (fun x hx => ⟨htail x hx, hsep x (by simp [hx])⟩) hr
  · rintro ⟨l, p, r, rfl, hmp, hl, hr⟩
    have hp := hm p hmp
    set edge : α → Bool := fun x => blank x && !sep x with hedge
    have hfront : ∀ x ∈ l.rtakeWhile edge, blank x = true ∧ sep x = false := by
      intro x hx
      simpa [hedge] using List.mem_rtakeWhile_imp hx
    have htail : ∀ x ∈ r.takeWhile edge, blank x = true ∧ sep x = false := by
      intro x hx
      simpa [hedge] using List.mem_takeWhile_imp hx
    refine ⟨l.rtakeWhile edge ++ (p ++ r.takeWhile edge), ?_, ?_⟩
    · have hcut : l ++ (p ++ r) = l.rdropWhile edge ++
          ((l.rtakeWhile edge ++ (p ++ r.takeWhile edge)) ++ r.dropWhile edge) := by
        rw [List.append_assoc, List.append_assoc, List.takeWhile_append_dropWhile,
          ← List.append_assoc (l.rdropWhile edge),
          List.rdropWhile_append_rtakeWhile]
      rw [hcut]
      refine mem_splitOnP_of_append ?_ hl hr
      intro x hx
      simp only [List.mem_append] at hx
      rcases hx with hx | hx | hx
      · exact (hfront x hx).2
      · exact (hp x hx).1
      · exact (htail x hx).2
    · rwa [trim_append (fun x hx => (hfront x hx).1) (fun x hx => (hp x hx).2) fun x hx => (htail x hx).1]

/-! ### A stretch across a join -/

theorem exists_suffix_of_append_eq {l k a v : List α} (h : l ++ k = a ++ v) (hlast : ∀ x ∈ a.getLast?, x ∉ k) :
    ∃ x, v = x ++ k ∧ l = a ++ x := by
  rcases List.append_eq_append_iff.mp h with ⟨m, ha, hk⟩ | ⟨m, hl, hv⟩
  · rcases List.eq_nil_or_concat m with rfl | ⟨m, y, rfl⟩
    · exact ⟨[], by simpa using hk.symm, by simpa using ha.symm⟩
    · exact absurd (by simp [hk]) (hlast y (by simp [ha]))
  · exact ⟨m, hv, hl⟩

theorem exists_prefix_of_append_eq {d r v b : List α} (h : d ++ r = v ++ b) (hhead : ∀ x ∈ b.head?, x ∉ d) :
    ∃ w, v = d ++ w ∧ r = w ++ b := by
  rcases List.append_eq_append_iff.mp h with ⟨m, hv, hr⟩ | ⟨m, hd, hb⟩
  · exact ⟨m, hv, hr⟩
  · cases m with
    | nil => exact ⟨[], by simpa using hd.symm, by simpa using hb.symm⟩
    | cons y m => exact absurd (by simp [hd]) (hhead y (by simp [hb]))

end RustDbDriver.Lib.Pieces
