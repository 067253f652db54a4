import Mathlib

/-!
# Keyword strings

A keyword string is a list of `keyword=value` pairs with blanks between them and, where one likes, around
the `=`. A value is bare, up to the next blank, or stands between single quotes; in both a backslash takes
the next character as it is. `KeywordString` is such a string as it is written, blanks and quotes
included, and can only be built well-formed; `read` is how it is read. `read_text` says that the pairs
that were written are read.
-/

namespace RustDbDriver.Lib.Keywords

/-- A character of a value, as it is written. -/
inductive ValueChar where
  | plain (c : Char)
  | escaped (c : Char)
deriving DecidableEq, Repr

namespace ValueChar

def char : ValueChar → Char
  | .plain c => c
  | .escaped c => c

def text : ValueChar → List Char
  | .plain c => [c]
  | .escaped c => ['\\', c]

end ValueChar

/-- A value, as it is written. -/
inductive Value (blank : Char → Bool) where
  | bare (first : ValueChar) (rest : List ValueChar) (first_ne : first ≠ .plain '\'')
      (plain : ∀ c, .plain c ∈ first :: rest → blank c = false ∧ c ≠ '\\')
  | quoted (chars : List ValueChar) (plain : ∀ c, .plain c ∈ chars → c ≠ '\'' ∧ c ≠ '\\')

/-- A pair, as it is written, with the blanks before it. -/
structure Pair (blank : Char → Bool) where
  gap : List Char
  keyword : List Char
  beforeSign : List Char
  afterSign : List Char
  value : Value blank
  keyword_ne : keyword ≠ []
  keyword_char : ∀ c ∈ keyword, blank c = false ∧ c ≠ '='
  gap_blank : ∀ c ∈ gap, blank c = true
  before_blank : ∀ c ∈ beforeSign, blank c = true
  after_blank : ∀ c ∈ afterSign, blank c = true

structure KeywordString (blank : Char → Bool) where
  pairs : List (Pair blank)
  trailing : List Char
  gap_ne : ∀ p ∈ pairs.tail, p.gap ≠ []
  trailing_blank : ∀ c ∈ trailing, blank c = true

variable {blank : Char → Bool}

namespace Value

def chars : Value blank → List Char
  | .bare first rest _ _ => (first :: rest).map ValueChar.char
  | .quoted chars _ => chars.map ValueChar.char

def text : Value blank → List Char
  | .bare first rest _ _ => (first :: rest).flatMap ValueChar.text
  | .quoted chars _ => '\'' :: (chars.flatMap ValueChar.text ++ ['\''])

end Value

/-- What stands before the `=` of a pair. -/
def Pair.left (p : Pair blank) : List Char := p.gap ++ (p.keyword ++ p.beforeSign)

def textOf (trailing : List Char) : List (Pair blank) → List Char
  | [] => trailing
  | p :: ps => p.left ++ '=' :: (p.afterSign ++ (p.value.text ++ textOf trailing ps))

def KeywordString.text (s : KeywordString blank) : List Char := textOf s.trailing s.pairs

/-- The pairs that are meant. -/
def KeywordString.settings (s : KeywordString blank) : List (String × String) :=
  s.pairs.map fun p => (String.ofList p.keyword, String.ofList p.value.chars)

/-! ### Reading -/

/-- Reads a bare value: up to the next blank that no backslash takes. -/
def readBare (blank : Char → Bool) : List Char → List Char × List Char
  | [] => ([], [])
  | ['\\'] => ([], [])
  | '\\' :: c :: text => ((c :: (readBare blank text).1), (readBare blank text).2)
  | c :: text => if blank c then ([], c :: text) else ((c :: (readBare blank text).1), (readBare blank text).2)

/-- Reads the rest of a quoted value, the closing quote included. -/
def readQuoted : List Char → Option (List Char × List Char)
  | [] => none
  | ['\\'] => none
  | '\'' :: text => some ([], text)
  | '\\' :: c :: text => (readQuoted text).map fun (value, rest) => (c :: value, rest)
  | c :: text => (readQuoted text).map fun (value, rest) => (c :: value, rest)

def readValue (blank : Char → Bool) : List Char → Option (List Char × List Char)
  | '\'' :: text => readQuoted text
  | text => if (readBare blank text).1 = [] then none else some (readBare blank text)

/-- Reads at most `fuel` pairs. -/
def readPairs (blank : Char → Bool) : Nat → List Char → Option (List (String × String))
  | 0, _ => none
  | fuel + 1, text =>
    let text := text.dropWhile blank
    if text = [] then some []
    else
      let keyword := text.takeWhile fun c => !blank c && c != '='
      let rest := (text.dropWhile fun c => !blank c && c != '=').dropWhile blank
      if keyword = [] then none
      else
        match rest with
        | '=' :: rest => do
          let (value, rest) ← readValue blank (rest.dropWhile blank)
          let pairs ← readPairs blank fuel rest
          return (String.ofList keyword, String.ofList value) :: pairs
        | _ => none

def read (blank : Char → Bool) (text : List Char) : Option (List (String × String)) :=
  readPairs blank (text.length + 1) text

/-! ### What is written is read -/

/-- Where a bare value ends. -/
def Stops (blank : Char → Bool) (text : List Char) : Prop := ∀ c ∈ text.head?, blank c = true

theorem readBare_stop (hslash : blank '\\' = false) {text : List Char} (h : Stops blank text) :
    readBare blank text = ([], text) := by
  cases text with
  | nil => rfl
  | cons c text =>
    have hc : blank c = true := h c rfl
    have hne : c ≠ '\\' := fun heq => by simp [heq, hslash] at hc
    rw [readBare, if_pos hc]
    · intro hnil
      exact absurd hnil hne
    · intro c' text' hc'
      exact absurd hc' hne

theorem readBare_chars (hslash : blank '\\' = false) {chars : List ValueChar} {rest : List Char}
    (hplain : ∀ c, .plain c ∈ chars → blank c = false ∧ c ≠ '\\') (hrest : Stops blank rest) :
    readBare blank (chars.flatMap ValueChar.text ++ rest) = (chars.map ValueChar.char, rest) := by
  induction chars with
  | nil => exact readBare_stop hslash hrest
  | cons v chars ih =>
    have hih := ih fun c hc => hplain c (List.mem_cons_of_mem _ hc)
    cases v with
    | plain c =>
      obtain ⟨hc, hne⟩ := hplain c List.mem_cons_self
      show readBare blank (c :: (chars.flatMap ValueChar.text ++ rest)) = _
      rw [readBare, if_neg (by simp [hc]), hih]
      · rfl
      · intro hnil
        exact absurd hnil hne
      · intro c' text' hc'
        exact absurd hc' hne
    | escaped c =>
      show readBare blank ('\\' :: c :: (chars.flatMap ValueChar.text ++ rest)) = _
      rw [readBare, hih]
      rfl

theorem readQuoted_chars {chars : List ValueChar} {rest : List Char}
    (hplain : ∀ c, .plain c ∈ chars → c ≠ '\'' ∧ c ≠ '\\') :
    readQuoted (chars.flatMap ValueChar.text ++ '\'' :: rest) = some (chars.map ValueChar.char, rest) := by
  induction chars with
  | nil => rfl
  | cons v chars ih =>
    have hih := ih fun c hc => hplain c (List.mem_cons_of_mem _ hc)
    cases v with
    | plain c =>
      obtain ⟨hquote, hslash⟩ := hplain c List.mem_cons_self
      show readQuoted (c :: (chars.flatMap ValueChar.text ++ '\'' :: rest)) = _
      rw [readQuoted, hih]
      · rfl
      · intro hnil
        exact absurd hnil hslash
      · exact hquote
      · intro c' text' hc'
        exact absurd hc' hslash
    | escaped c =>
      show readQuoted ('\\' :: c :: (chars.flatMap ValueChar.text ++ '\'' :: rest)) = _
      rw [readQuoted, hih]
      rfl

/-- No value begins with a blank. -/
theorem Value.dropWhile_text (hquote : blank '\'' = false) (hslash : blank '\\' = false) (v : Value blank)
    (rest : List Char) : (v.text ++ rest).dropWhile blank = v.text ++ rest := by
  cases v with
  | bare first others first_ne plain =>
    cases first with
    | plain c => exact List.dropWhile_cons_of_neg (by simp [(plain c List.mem_cons_self).1])
    | escaped c => exact List.dropWhile_cons_of_neg (by simp [hslash])
  | quoted chars plain => exact List.dropWhile_cons_of_neg (by simp [hquote])

theorem readValue_text (hslash : blank '\\' = false) (v : Value blank) {rest : List Char}
    (hrest : Stops blank rest) : readValue blank (v.text ++ rest) = some (v.chars, rest) := by
  cases v with
  | bare first others first_ne plain =>
    have hread := readBare_chars hslash plain hrest
    have hhead : ∀ text, (first :: others).flatMap ValueChar.text ++ rest ≠ '\'' :: text := by
      intro text heq
      cases first with
      | plain c => exact first_ne (congrArg ValueChar.plain (List.head_eq_of_cons_eq heq))
      | escaped c => exact absurd (List.head_eq_of_cons_eq heq) (by decide)
    show readValue blank ((first :: others).flatMap ValueChar.text ++ rest) = _
    rw [readValue, hread, if_neg (by simp)]
    · rfl
    · exact hhead
  | quoted chars plain =>
    have happend : Value.text (.quoted chars plain : Value blank) ++ rest =
        '\'' :: (chars.flatMap ValueChar.text ++ '\'' :: rest) := by
      simp [Value.text]
    rw [happend, readValue, readQuoted_chars plain]
    rfl

theorem stops_textOf {trailing : List Char} {pairs : List (Pair blank)} (hgap : ∀ p ∈ pairs, p.gap ≠ [])
    (htrailing : ∀ c ∈ trailing, blank c = true) : Stops blank (textOf trailing pairs) := by
  intro c hc
  cases pairs with
  | nil => exact htrailing c (List.mem_of_mem_head? hc)
  | cons p pairs =>
    obtain ⟨b, gap, hb⟩ := List.exists_cons_of_ne_nil (hgap p List.mem_cons_self)
    have heq : b = c := by simpa [textOf, Pair.left, hb] using hc
    exact heq ▸ p.gap_blank b (by simp [hb])

/-- Reading takes off one pair, whatever stands before it. -/
theorem readPairs_cons (hsign : blank '=' = false) (hquote : blank '\'' = false) (hslash : blank '\\' = false)
    (p : Pair blank) {rest : List Char} (hrest : Stops blank rest) (fuel : Nat) :
    readPairs blank (fuel + 1) (p.left ++ '=' :: (p.afterSign ++ (p.value.text ++ rest))) =
      (readPairs blank fuel rest).map ((String.ofList p.keyword, String.ofList p.value.chars) :: ·) := by
  obtain ⟨k, keyword, hk⟩ := List.exists_cons_of_ne_nil p.keyword_ne
  have hkblank : blank k = false := (p.keyword_char k (by simp [hk])).1
  have hkey : ∀ c ∈ p.keyword, (!blank c && c != '=') = true := fun c hc => by
    simp [p.keyword_char c hc]
  have hgap : ∀ text, (p.gap ++ (p.keyword ++ text)).dropWhile blank = p.keyword ++ text := fun text => by
    rw [List.dropWhile_append_of_pos p.gap_blank, hk]
    exact List.dropWhile_cons_of_neg (by simp [hkblank])
  have hstop : ∀ text, (p.beforeSign ++ '=' :: text).takeWhile (fun c => !blank c && c != '=') = [] ∧
      (p.beforeSign ++ '=' :: text).dropWhile (fun c => !blank c && c != '=') = p.beforeSign ++ '=' :: text := by
    intro text
    cases hb : p.beforeSign with
    | nil => simp
    | cons b before => simp [p.before_blank b (by simp [hb])]
  have hbefore : ∀ text, (p.beforeSign ++ '=' :: text).dropWhile blank = '=' :: text := fun text => by
    rw [List.dropWhile_append_of_pos p.before_blank]
    exact List.dropWhile_cons_of_neg (by simp [hsign])
  have hafter : (p.afterSign ++ (p.value.text ++ rest)).dropWhile blank = p.value.text ++ rest := by
    rw [List.dropWhile_append_of_pos p.after_blank, p.value.dropWhile_text hquote hslash]
  rw [Pair.left, List.append_assoc, List.append_assoc, readPairs]
  simp only [hgap, List.takeWhile_append_of_pos hkey, List.dropWhile_append_of_pos hkey, (hstop _).1,
    (hstop _).2, hbefore, hafter, readValue_text hslash p.value hrest, List.append_nil,
    List.append_eq_nil_iff, p.keyword_ne, false_and, if_false]
  exact Option.map_eq_bind.symm

theorem readPairs_textOf (hsign : blank '=' = false) (hquote : blank '\'' = false) (hslash : blank '\\' = false)
    {trailing : List Char} (htrailing : ∀ c ∈ trailing, blank c = true) {pairs : List (Pair blank)}
    (hgap : ∀ p ∈ pairs.tail, p.gap ≠ []) {fuel : Nat} (hfuel : pairs.length < fuel) :
    readPairs blank fuel (textOf trailing pairs) =
      some (pairs.map fun p => (String.ofList p.keyword, String.ofList p.value.chars)) := by
  induction pairs generalizing fuel with
  | nil =>
    obtain ⟨fuel, rfl⟩ := Nat.exists_eq_succ_of_ne_zero (Nat.ne_zero_of_lt hfuel)
    have hnil : trailing.dropWhile blank = [] := List.dropWhile_eq_nil_iff.mpr htrailing
    rw [textOf, readPairs]
    simp [hnil]
  | cons p pairs ih =>
    obtain ⟨fuel, rfl⟩ := Nat.exists_eq_succ_of_ne_zero (Nat.ne_zero_of_lt hfuel)
    have hrest : ∀ q ∈ pairs.tail, q.gap ≠ [] := fun q hq => hgap q (List.mem_of_mem_tail hq)
    have hstops : Stops blank (textOf trailing pairs) := stops_textOf hgap htrailing
    rw [textOf, readPairs_cons hsign hquote hslash p hstops, ih hrest (Nat.lt_of_succ_lt_succ hfuel)]
    rfl

theorem length_le_textOf (trailing : List Char) (pairs : List (Pair blank)) :
    pairs.length ≤ (textOf trailing pairs).length := by
  induction pairs with
  | nil => exact Nat.zero_le _
  | cons p pairs ih =>
    simp only [textOf, List.length_append, List.length_cons]
    omega

/-- The pairs that were written are read. -/
theorem read_text (hsign : blank '=' = false) (hquote : blank '\'' = false) (hslash : blank '\\' = false)
    (s : KeywordString blank) : read blank s.text = some s.settings :=
  readPairs_textOf hsign hquote hslash s.trailing_blank s.gap_ne (Nat.lt_succ_of_le (length_le_textOf _ _))

/-! ### Where the signs stand -/

section Append

variable {α : Type} {xs ys l r : List α} {c : α}

theorem append_eq_append_cons_cases (h : xs ++ ys = l ++ c :: r) :
    (∃ w, xs = l ++ c :: w ∧ r = w ++ ys) ∨ ∃ l', l = xs ++ l' ∧ ys = l' ++ c :: r := by
  rcases List.append_eq_append_iff.mp h with ⟨l', hl, hys⟩ | ⟨w, hxs, hw⟩
  · exact .inr ⟨l', hl, hys⟩
  · cases w with
    | nil => exact .inr ⟨[], by simpa using hxs.symm, hw.symm⟩
    | cons d w =>
      obtain ⟨rfl, hr⟩ := List.cons.inj hw
      exact .inl ⟨w, hxs, hr⟩

theorem append_eq_append_cons (hc : c ∉ xs) (h : xs ++ ys = l ++ c :: r) :
    ∃ l', l = xs ++ l' ∧ ys = l' ++ c :: r := by
  rcases append_eq_append_cons_cases h with ⟨w, hxs, -⟩ | h
  · exact absurd (by simp [hxs]) hc
  · exact h

end Append

theorem textOf_append (trailing : List Char) (ps qs : List (Pair blank)) :
    textOf trailing (ps ++ qs) = textOf [] ps ++ textOf trailing qs := by
  induction ps with
  | nil => rfl
  | cons p ps ih =>
    rw [List.cons_append, textOf, ih, textOf]
    simp only [List.append_assoc, List.cons_append]

/-- An `=` is the sign of a pair, or stands in a value. -/
theorem exists_pair_of_sign (hsign : blank '=' = false) {trailing : List Char}
    (htrailing : ∀ c ∈ trailing, blank c = true) {pairs : List (Pair blank)} {l r : List Char}
    (h : textOf trailing pairs = l ++ '=' :: r) :
    ∃ before p after, pairs = before ++ p :: after ∧
      (l = textOf [] before ++ p.left ∧ r = p.afterSign ++ (p.value.text ++ textOf trailing after) ∨
        ∃ v w, p.value.text = v ++ '=' :: w ∧ l = textOf [] before ++ (p.left ++ '=' :: (p.afterSign ++ v)) ∧
          r = w ++ textOf trailing after) := by
  have hno : ∀ {xs : List Char}, (∀ c ∈ xs, blank c = true) → '=' ∉ xs := fun hxs hmem => by
    rw [hxs _ hmem] at hsign
    cases hsign
  induction pairs generalizing l with
  | nil =>
    have hmem : '=' ∈ trailing := by
      rw [show trailing = l ++ '=' :: r from h]
      simp
    exact absurd hmem (hno htrailing)
  | cons p ps ih =>
    have hleft : '=' ∉ p.left := by
      simp only [Pair.left, List.mem_append, not_or]
      exact ⟨hno p.gap_blank, fun hmem => (p.keyword_char _ hmem).2 rfl, hno p.before_blank⟩
    obtain ⟨l₁, rfl, h₁⟩ := append_eq_append_cons hleft h
    cases l₁ with
    | nil =>
      obtain ⟨-, hr⟩ := List.cons.inj h₁
      exact ⟨[], p, ps, rfl, .inl ⟨by simp [textOf], hr.symm⟩⟩
    | cons c l₁ =>
      obtain ⟨rfl, h₂⟩ := List.cons.inj h₁
      obtain ⟨l₂, rfl, h₃⟩ := append_eq_append_cons (hno p.after_blank) h₂
      rcases append_eq_append_cons_cases h₃ with ⟨w, hvalue, hr⟩ | ⟨l₃, rfl, h₄⟩
      · exact ⟨[], p, ps, rfl, .inr ⟨l₂, w, hvalue, by simp [textOf], hr⟩⟩
      · -- in one of the later pairs
        obtain ⟨before, q, after, rfl, hq⟩ := ih h₄
        refine ⟨p :: before, q, after, rfl, ?_⟩
        rcases hq with ⟨rfl, rfl⟩ | ⟨v, w, hv, rfl, rfl⟩
        · exact .inl ⟨by simp [textOf], rfl⟩
        · exact .inr ⟨v, w, hv, by simp [textOf], rfl⟩

namespace KeywordString

variable {s : KeywordString blank} {before after : List (Pair blank)} {p : Pair blank}

/-- After a value there is a blank, or nothing. -/
theorem stops_after (hs : s.pairs = before ++ p :: after) : Stops blank (textOf s.trailing after) := by
  refine stops_textOf ?_ s.trailing_blank
  intro q hq
  refine s.gap_ne q ?_
  rw [hs]
  cases before with
  | nil => exact hq
  | cons b before => exact List.mem_append_right _ (List.mem_cons_of_mem _ hq)

/-- Before a keyword there is a blank, or nothing. -/
theorem blank_before (hs : s.pairs = before ++ p :: after) :
    ∀ c ∈ (textOf [] before ++ p.gap).getLast?, blank c = true := by
  intro c hc
  rcases List.eq_nil_or_concat p.gap with hgap | ⟨gap, b, hgap⟩
  · cases before with
    | nil => simp [hgap, textOf] at hc
    | cons q before => exact absurd hgap (s.gap_ne p (by simp [hs]))
  · have hb : b = c := by simpa [hgap, List.getLast?_append] using hc
    exact hb ▸ p.gap_blank b (by simp [hgap])

end KeywordString

end RustDbDriver.Lib.Keywords
