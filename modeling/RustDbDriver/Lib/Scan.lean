import Mathlib

/-!
# Reading a text from the left

Readers over a list of characters that answer what they read and the text that is left. Each one
reads back what its printer writes, whatever follows (`lit_append`, `int_toString_append`,
`quoted_append`), so a reader of a composed text is proved by rewriting through its parts.
-/

namespace RustDbDriver.Lib.Scan

def lit (s : String) (text : List Char) : Option (List Char) := s.toList.isPrefixOf? text

/-- Reads a decimal number: the longest run of digits, which may not be empty. -/
def nat (text : List Char) : Option (Nat × List Char) :=
  let digits := text.takeWhile Char.isDigit
  if digits = [] then none else some (Nat.ofDigitChars 10 digits 0, text.dropWhile Char.isDigit)

def int : List Char → Option (Int × List Char)
  | '-' :: text => (nat text).map fun (n, rest) => (-(n : Int), rest)
  | text => (nat text).map fun (n, rest) => ((n : Int), rest)

/-- Reads a decimal number with an optional sign of either kind. -/
def signed : List Char → Option (Int × List Char)
  | '+' :: text => (nat text).map fun (n, rest) => ((n : Int), rest)
  | text => int text

def quoted : List Char → Option (String × List Char)
  | '\'' :: text =>
    match text.dropWhile (· ≠ '\'') with
    | _ :: rest => some (String.ofList (text.takeWhile (· ≠ '\'')), rest)
    | [] => none
  | _ => none

/-- Prints a number in at least `width` digits. -/
def padded (width n : Nat) : List Char :=
  List.replicate (width - (Nat.toDigits 10 n).length) '0' ++ Nat.toDigits 10 n

variable {rest : List Char}

def StartsWithDigit (text : List Char) : Prop := ∃ c ∈ text.head?, c.isDigit = true

@[simp] theorem toString_string (s : String) : toString s = s := rfl

theorem lit_append (s : String) (rest : List Char) : lit s (s.toList ++ rest) = some rest := by
  unfold lit
  generalize s.toList = cs
  induction cs with
  | nil => simp [List.isPrefixOf?]
  | cons c cs ih => simp [List.isPrefixOf?, ih]

theorem lit_cons (s : String) (c : Char) (hs : s.toList = [c]) (rest : List Char) :
    lit s (c :: rest) = some rest := by
  rw [← lit_append s rest, hs]
  rfl

theorem eq_append_of_lit {s : String} {text : List Char} (h : lit s text = some rest) :
    text = s.toList ++ rest := by
  unfold lit at h
  generalize s.toList = cs at h ⊢
  induction cs generalizing text with
  | nil => simpa [List.isPrefixOf?] using h
  | cons c cs ih =>
    cases text with
    | nil => simp [List.isPrefixOf?] at h
    | cons d text =>
      simp only [List.isPrefixOf?] at h
      split at h
      · next hcd => rw [ih h, beq_iff_eq.mp hcd, List.cons_append]
      · cases h

theorem not_startsWithDigit_nil : ¬ StartsWithDigit [] := by simp [StartsWithDigit]

theorem not_startsWithDigit_cons {c : Char} (hc : c.isDigit = false) : ¬ StartsWithDigit (c :: rest) := by
  rintro ⟨d, hd, hdigit⟩
  cases hd
  simp [hc] at hdigit

theorem takeWhile_isDigit_append (ds : List Char) (hds : ∀ c ∈ ds, c.isDigit = true)
    (hr : ¬ StartsWithDigit rest) :
    (ds ++ rest).takeWhile Char.isDigit = ds ∧ (ds ++ rest).dropWhile Char.isDigit = rest := by
  have hrest : rest.takeWhile Char.isDigit = [] ∧ rest.dropWhile Char.isDigit = rest := by
    cases rest with
    | nil => simp
    | cons c rest =>
      have : ¬ c.isDigit = true := fun hc => hr ⟨c, by simp, hc⟩
      simp [this]
  rw [List.takeWhile_append_of_pos hds, List.dropWhile_append_of_pos hds, hrest.1, hrest.2]
  simp

theorem nat_toDigits_append (n : Nat) (hr : ¬ StartsWithDigit rest) :
    nat (Nat.toDigits 10 n ++ rest) = some (n, rest) := by
  have hd : ∀ c ∈ Nat.toDigits 10 n, c.isDigit = true := fun c hc =>
    Nat.isDigit_of_mem_toDigits (by decide) (by decide) hc
  obtain ⟨ht, hw⟩ := takeWhile_isDigit_append _ hd hr
  simp [nat, ht, hw, Nat.toDigits_ne_nil, Nat.ofDigitChars_ten_toDigits]

theorem isDigit_of_mem_padded {width n : Nat} {c : Char} (hc : c ∈ padded width n) :
    c.isDigit = true := by
  rcases List.mem_append.mp hc with hc | hc
  · rw [List.eq_of_mem_replicate hc]
    rfl
  · exact Nat.isDigit_of_mem_toDigits (by decide) (by decide) hc

theorem length_padded {width n : Nat} (hw : 0 < width) (hn : n < 10 ^ width) :
    (padded width n).length = width := by
  have := (Nat.length_toDigits_le_iff (by decide) hw).mpr hn
  simp only [padded, List.length_append, List.length_replicate]
  omega

theorem ofDigitChars_padded (width n : Nat) : Nat.ofDigitChars 10 (padded width n) 0 = n := by
  simp [padded, Nat.ofDigitChars_append, Nat.ofDigitChars_replicate_zero, Nat.ofDigitChars_ten_toDigits]

theorem nat_padded_append (width n : Nat) (hr : ¬ StartsWithDigit rest) :
    nat (padded width n ++ rest) = some (n, rest) := by
  obtain ⟨ht, hw⟩ := takeWhile_isDigit_append (padded width n) (fun _ => isDigit_of_mem_padded) hr
  have hne : padded width n ≠ [] := by simp [padded, Nat.toDigits_ne_nil]
  simp [nat, ht, hw, hne, ofDigitChars_padded]

theorem signed_padded_append (width n : Nat) (hr : ¬ StartsWithDigit rest) :
    signed (padded width n ++ rest) = some ((n : Int), rest) := by
  have hnat := nat_padded_append width n hr
  obtain ⟨c, cs, hcs⟩ : ∃ c cs, padded width n = c :: cs :=
    List.exists_cons_of_ne_nil (by simp [padded, Nat.toDigits_ne_nil])
  have hmem : c ∈ padded width n := by simp [hcs]
  have hc := isDigit_of_mem_padded hmem
  rw [hcs, List.cons_append] at hnat ⊢
  unfold signed int
  split
  · next h =>
    cases h
    simp at hc
  · split
    · next h =>
      cases h
      simp at hc
    · simp [hnat]

theorem nat_toString_append (n : Nat) (hr : ¬ StartsWithDigit rest) :
    nat ((toString n).toList ++ rest) = some (n, rest) := by
  have : (toString n).toList = Nat.toDigits 10 n := by simp
  rw [this, nat_toDigits_append n hr]

/-- A printed integer reads back, whatever follows it other than another digit. -/
theorem int_toString_append (i : Int) (hr : ¬ StartsWithDigit rest) :
    int ((toString i).toList ++ rest) = some (i, rest) := by
  cases i with
  | ofNat n =>
    have hs : (toString (Int.ofNat n)).toList = Nat.toDigits 10 n := by
      show (Nat.repr n).toList = _
      simp
    have hne := Nat.toDigits_ne_nil (n := n) (b := 10)
    obtain ⟨c, cs, hcs⟩ := List.exists_cons_of_ne_nil hne
    have hc : c ≠ '-' := by
      rintro rfl
      have := Nat.isDigit_of_mem_toDigits (b := 10) (n := n) (by decide) (by decide)
        (c := '-') (by simp [hcs])
      simp at this
    have hn := nat_toDigits_append n hr
    rw [hs]
    rw [hcs] at hn ⊢
    simp only [List.cons_append] at hn ⊢
    unfold int
    split
    · next h => simp only [List.cons.injEq] at h; exact absurd h.1 hc
    · simp [hn]
  | negSucc n =>
    have hs : (toString (Int.negSucc n)).toList = '-' :: Nat.toDigits 10 (n + 1) := by
      show ("-" ++ Nat.repr (n + 1)).toList = _
      simp
    rw [hs, List.cons_append]
    simp [int, nat_toDigits_append (n + 1) hr, Int.negSucc_eq]

/-- A quoted text without a quote in it reads back. -/
theorem quoted_append {s : String} (hs : '\'' ∉ s.toList) (rest : List Char) :
    quoted ('\'' :: (s.toList ++ '\'' :: rest)) = some (s, rest) := by
  have h : ∀ c ∈ s.toList, decide (c ≠ '\'') = true := by
    intro c hc
    have hne : c ≠ '\'' := by rintro rfl; exact hs hc
    simp [hne]
  simp only [quoted]
  rw [List.dropWhile_append_of_pos h, List.takeWhile_append_of_pos h]
  simp

end RustDbDriver.Lib.Scan
