import Mathlib

/-!
# The lexical structure of a statement

A scanner over the characters of a statement: it tells code from string literals, quoted identifiers and
comments, and keeps the positions of the parentheses that are open. What quotes there are, whether a
backslash escapes in them and whether block comments nest is left to a `Dialect`; the characters of
`plain` never open or close a quote in it.

Text that scans from the start of a statement scans behind other text as well, with what is open there
below its own (`run_lift`). Neutral characters, of which blanks are some, open and close nothing: they
leave the parentheses as they are and what is inside a literal or a block comment inside
(`run_neutral`).
-/

namespace RustDbDriver.Lib.SqlLex

/-- A kind of quotes; a doubled closer stands for itself. -/
structure Quote (plain : Char → Bool) where
  opener : Char
  closer : Char
  escapes : Bool
  opener_not_plain : plain opener = false
  closer_not_plain : plain closer = false

structure Dialect (plain : Char → Bool) where
  quotes : List (Quote plain)
  nested : Bool
  newline : Char → Bool

variable {plain : Char → Bool}

/-- Where the scanner is: in code, behind its last `-` or `/` or behind a closer; in a literal, or behind
a backslash in it; in a line comment; in a block comment inside of `depth` others, or there behind its
last `*` or `/`. -/
inductive Mode (plain : Char → Bool) where
  | code
  | dash
  | slash
  | closed (q : Quote plain)
  | quoted (q : Quote plain)
  | escaped (q : Quote plain)
  | lineComment
  | block (depth : Nat)
  | blockStar (depth : Nat)
  | blockSlash (depth : Nat)

def Mode.Outside : Mode plain → Prop
  | .code | .dash | .slash | .closed _ => True
  | _ => False

/-- Inside of what does not end with the line. -/
def Mode.Inside : Mode plain → Prop
  | .quoted _ | .escaped _ | .block _ | .blockStar _ | .blockSlash _ => True
  | _ => False

/-- What a character does to the open parentheses. -/
inductive Paren where
  | keeps
  | opens
  | closes

structure State (plain : Char → Bool) where
  mode : Mode plain
  opens : List Nat
  pos : Nat

def State.start : State plain := ⟨.code, [], 0⟩

namespace Dialect

variable (d : Dialect plain)

def quote? (c : Char) : Option (Quote plain) := d.quotes.find? fun q => q.opener == c

def nextCode (c : Char) : Mode plain × Paren :=
  if c = '(' then (.code, .opens)
  else if c = ')' then (.code, .closes)
  else
    match d.quote? c with
    | some q => (.quoted q, .keeps)
    | none => if c = '-' then (.dash, .keeps) else if c = '/' then (.slash, .keeps) else (.code, .keeps)

def next : Mode plain → Char → Mode plain × Paren
  | .code, c => d.nextCode c
  | .dash, c => if c = '-' then (.lineComment, .keeps) else d.nextCode c
  | .slash, c => if c = '*' then (.block 0, .keeps) else d.nextCode c
  | .closed q, c => if c = q.closer then (.quoted q, .keeps) else d.nextCode c
  | .quoted q, c =>
    if c = q.closer then (.closed q, .keeps)
    else if q.escapes && c == '\\' then (.escaped q, .keeps) else (.quoted q, .keeps)
  | .escaped q, _ => (.quoted q, .keeps)
  | .lineComment, c => if d.newline c then (.code, .keeps) else (.lineComment, .keeps)
  | .block depth, c =>
    if c = '*' then (.blockStar depth, .keeps)
    else if d.nested && c == '/' then (.blockSlash depth, .keeps) else (.block depth, .keeps)
  | .blockStar depth, c =>
    if c = '/' then (if depth = 0 then .code else .block (depth - 1), .keeps)
    else if c = '*' then (.blockStar depth, .keeps) else (.block depth, .keeps)
  | .blockSlash depth, c =>
    if c = '*' then (.block (depth + 1), .keeps)
    else if c = '/' then (.blockSlash depth, .keeps) else (.block depth, .keeps)

/-- `none` is a closing parenthesis where none is open. -/
def step (s : State plain) (c : Char) : Option (State plain) :=
  let (mode, paren) := d.next s.mode c
  match paren with
  | .keeps => some ⟨mode, s.opens, s.pos + 1⟩
  | .opens => some ⟨mode, s.pos :: s.opens, s.pos + 1⟩
  | .closes =>
    match s.opens with
    | [] => none
    | _ :: opens => some ⟨mode, opens, s.pos + 1⟩

def run (s : State plain) (text : List Char) : Option (State plain) := text.foldlM d.step s

/-- A statement that closes all its literals, block comments and parentheses, in the right order; its
last line may be a comment. -/
def Complete (text : List Char) : Prop :=
  ∃ s, d.run .start text = some s ∧ s.opens = [] ∧ ¬ s.mode.Inside

def EndsInLineComment (text : List Char) : Prop :=
  ∃ s, d.run .start text = some s ∧ s.mode = .lineComment

end Dialect

variable {d : Dialect plain} {s s' : State plain} {text rest : List Char}

theorem Dialect.run_cons (c : Char) : d.run s (c :: text) = (d.step s c).bind (d.run · text) := by
  simp [Dialect.run, List.foldlM_cons]

theorem Dialect.run_append : d.run s (text ++ rest) = (d.run s text).bind (d.run · rest) := by
  simp [Dialect.run, List.foldlM_append]

/-- There is one way to fail. -/
theorem Dialect.step_eq_none_iff {c : Char} :
    d.step s c = none ↔ (d.next s.mode c).2 = .closes ∧ s.opens = [] := by
  unfold Dialect.step
  dsimp only
  cases (d.next s.mode c).2 <;> cases s.opens <;> simp

theorem Mode.outside_or (m : Mode plain) : m.Outside ∨ m.Inside ∨ m = .lineComment := by
  cases m <;> simp [Mode.Outside, Mode.Inside]

/-! ### Behind other text -/

/-- The state behind `k` characters more, with `below` open in front of them. -/
def State.lift (k : Nat) (below : List Nat) (s : State plain) : State plain :=
  ⟨s.mode, s.opens.map (· + k) ++ below, s.pos + k⟩

theorem step_lift (k : Nat) (below : List Nat) {c : Char} (h : d.step s c = some s') :
    d.step (s.lift k below) c = some (s'.lift k below) := by
  unfold Dialect.step State.lift at *
  dsimp only at *
  cases hparen : (d.next s.mode c).2 with
  | keeps =>
    rw [hparen] at h
    cases h
    simp [Nat.add_right_comm]
  | opens =>
    rw [hparen] at h
    cases h
    simp [Nat.add_right_comm]
  | closes =>
    rw [hparen] at h
    cases hopens : s.opens with
    | nil =>
      rw [hopens] at h
      cases h
    | cons o opens =>
      rw [hopens] at h
      cases h
      simp [Nat.add_right_comm]

theorem run_lift (k : Nat) (below : List Nat) (h : d.run s text = some s') :
    d.run (s.lift k below) text = some (s'.lift k below) := by
  induction text generalizing s with
  | nil =>
    cases h
    rfl
  | cons c text ih =>
    rw [Dialect.run_cons] at h ⊢
    obtain ⟨t, ht, hrun⟩ := Option.bind_eq_some_iff.mp h
    rw [step_lift k below ht, Option.bind_some]
    exact ih hrun

/-- Nothing else happens behind text that leaves nothing open. -/
theorem step_lift_nil (k : Nat) (c : Char) : d.step (s.lift k []) c = (d.step s c).map (State.lift k []) := by
  cases h : d.step s c with
  | some t => exact step_lift k [] h
  | none =>
    obtain ⟨hclose, hopens⟩ := Dialect.step_eq_none_iff.mp h
    exact Dialect.step_eq_none_iff.mpr ⟨hclose, by simp [State.lift, hopens]⟩

theorem run_lift_nil (k : Nat) : d.run (s.lift k []) text = (d.run s text).map (State.lift k []) := by
  induction text generalizing s with
  | nil => rfl
  | cons c text ih =>
    rw [Dialect.run_cons, Dialect.run_cons, step_lift_nil]
    cases d.step s c with
    | none => rfl
    | some t => exact ih

/-! ### Neutral characters -/

/-- A character that code goes on behind. -/
structure Inert (plain : Char → Bool) (c : Char) : Prop where
  plain : plain c = true
  ne_special : c ≠ '(' ∧ c ≠ ')' ∧ c ≠ '-' ∧ c ≠ '/'

/-- A character that opens and closes nothing, a block comment neither. -/
structure Neutral (plain : Char → Bool) (c : Char) : Prop extends Inert plain c where
  ne_star : c ≠ '*'

variable {c : Char}

theorem quote?_eq_none (h : plain c = true) : d.quote? c = none := by
  refine List.find?_eq_none.mpr ?_
  intro q _ heq
  have hq := q.opener_not_plain
  rw [beq_iff_eq.mp heq, h] at hq
  cases hq

theorem ne_closer (h : plain c = true) (q : Quote plain) : c ≠ q.closer := by
  rintro rfl
  have hq := q.closer_not_plain
  rw [h] at hq
  cases hq

theorem nextCode_inert (h : Inert plain c) : d.nextCode c = (.code, .keeps) := by
  obtain ⟨h₁, h₂, h₃, h₄⟩ := h.ne_special
  simp [Dialect.nextCode, quote?_eq_none h.plain, h₁, h₂, h₃, h₄]

theorem next_outside (h : Neutral plain c) {m : Mode plain} (hm : m.Outside) :
    d.next m c = (.code, .keeps) := by
  obtain ⟨-, -, hdash, -⟩ := h.ne_special
  have hcode : d.nextCode c = (.code, .keeps) := nextCode_inert h.toInert
  cases m with
  | code => exact hcode
  | dash => simp [Dialect.next, hdash, hcode]
  | slash => simp [Dialect.next, h.ne_star, hcode]
  | closed q => simp [Dialect.next, ne_closer h.plain q, hcode]
  | _ => exact hm.elim

theorem next_inside (h : Neutral plain c) {m : Mode plain} (hm : m.Inside) :
    (d.next m c).1.Inside ∧ (d.next m c).2 = .keeps := by
  obtain ⟨-, -, -, hslash⟩ := h.ne_special
  cases m with
  | quoted q =>
    simp only [Dialect.next, if_neg (ne_closer h.plain q)]
    split <;> exact ⟨trivial, rfl⟩
  | escaped q => exact ⟨trivial, rfl⟩
  | block depth => simp [Dialect.next, hslash, h.ne_star, Mode.Inside]
  | blockStar depth => simp [Dialect.next, hslash, h.ne_star, Mode.Inside]
  | blockSlash depth => simp [Dialect.next, hslash, h.ne_star, Mode.Inside]
  | _ => exact hm.elim

theorem next_neutral_keeps (h : Neutral plain c) (m : Mode plain) : (d.next m c).2 = .keeps := by
  rcases m.outside_or with hm | hm | rfl
  · rw [next_outside h hm]
  · exact (next_inside h hm).2
  · show (if d.newline c then (Mode.code, Paren.keeps) else (Mode.lineComment, Paren.keeps)).2 = .keeps
    split <;> rfl

theorem step_neutral (h : Neutral plain c) : d.step s c = some ⟨(d.next s.mode c).1, s.opens, s.pos + 1⟩ := by
  simp [Dialect.step, next_neutral_keeps h]

theorem run_neutral (h : ∀ c ∈ text, Neutral plain c) (hrun : d.run s text = some s') :
    s'.opens = s.opens ∧ (s.mode.Inside → s'.mode.Inside) := by
  induction text generalizing s with
  | nil =>
    cases hrun
    exact ⟨rfl, id⟩
  | cons c text ih =>
    have hc := h c List.mem_cons_self
    rw [Dialect.run_cons, step_neutral hc, Option.bind_some] at hrun
    obtain ⟨hopens, hinside⟩ := ih (fun c hc => h c (List.mem_cons_of_mem _ hc)) hrun
    exact ⟨hopens, fun hm => hinside (next_inside hc hm).1⟩

theorem run_code_inert (h : ∀ c ∈ text, Inert plain c) (opens : List Nat) (pos : Nat) :
    d.run ⟨.code, opens, pos⟩ text = some ⟨.code, opens, pos + text.length⟩ := by
  induction text generalizing pos with
  | nil => rfl
  | cons c text ih =>
    have hstep : d.step ⟨.code, opens, pos⟩ c = some ⟨.code, opens, pos + 1⟩ := by
      simp [Dialect.step, Dialect.next, nextCode_inert (h c List.mem_cons_self)]
    rw [Dialect.run_cons, hstep, Option.bind_some, ih (fun c hc => h c (List.mem_cons_of_mem _ hc)),
      List.length_cons, Nat.add_assoc, Nat.add_comm 1]

/-- Outside of literals and comments a closing parenthesis closes the innermost open one. -/
theorem step_close (h : plain ')' = true) (hmode : s.mode.Outside) {o : Nat} {opens : List Nat}
    (hopens : s.opens = o :: opens) : d.step s ')' = some ⟨.code, opens, s.pos + 1⟩ := by
  have hcode : d.nextCode ')' = (.code, .closes) := rfl
  have hnext : d.next s.mode ')' = (.code, .closes) := by
    cases hm : s.mode with
    | code => exact hcode
    | dash => exact hcode
    | slash => exact hcode
    | closed q => rw [Dialect.next, if_neg (ne_closer h q), hcode]
    | _ =>
      rw [hm] at hmode
      exact hmode.elim
  simp [Dialect.step, hnext, hopens]

/-- Behind neutral characters a statement is scanned as on its own. -/
theorem run_start_append {front : List Char} (hfront : ∀ c ∈ front, Neutral plain c) :
    d.run .start (front ++ text) = (d.run .start text).map (State.lift front.length []) := by
  have hstart : d.run .start front = some (State.lift front.length [] .start) := by
    rw [State.start, run_code_inert fun c hc => (hfront c hc).toInert]
    rfl
  rw [Dialect.run_append, hstart, Option.bind_some, run_lift_nil]

theorem endsInLineComment_append {front : List Char} (hfront : ∀ c ∈ front, Neutral plain c) :
    d.EndsInLineComment (front ++ text) ↔ d.EndsInLineComment text := by
  unfold Dialect.EndsInLineComment
  rw [run_start_append hfront]
  constructor
  · rintro ⟨s, hrun, hmode⟩
    obtain ⟨t, ht, rfl⟩ := Option.map_eq_some_iff.mp hrun
    exact ⟨t, ht, hmode⟩
  · rintro ⟨t, ht, hmode⟩
    exact ⟨t.lift front.length [], by rw [ht]; rfl, hmode⟩

/-- A complete statement is complete, but for a comment on its last line, without neutral characters
around it. -/
theorem complete_of_append {front mid tail : List Char} (hfront : ∀ c ∈ front, Neutral plain c)
    (htail : ∀ c ∈ tail, Neutral plain c) (h : d.Complete (front ++ (mid ++ tail))) : d.Complete mid := by
  obtain ⟨s, hrun, hopens, hinside⟩ := h
  rw [run_start_append hfront] at hrun
  obtain ⟨s₀, hs₀, rfl⟩ := Option.map_eq_some_iff.mp hrun
  rw [Dialect.run_append] at hs₀
  obtain ⟨t, ht, hrest⟩ := Option.bind_eq_some_iff.mp hs₀
  obtain ⟨hsame, hstays⟩ := run_neutral htail hrest
  refine ⟨t, ht, ?_, fun hm => hinside (hstays hm)⟩
  rw [← hsame]
  simpa [State.lift] using hopens

end RustDbDriver.Lib.SqlLex
