import Mathlib

/-!
# Bytes, most significant first

`ofBytes` is the number a list of bytes denotes, `toBytes n k` the `n` bytes of `k`; they undo each
other below `256 ^ n`. `hexGroups` prints bytes as lowercase hexadecimal groups with hyphens between
them and `readHexGroups` reads such a text back. `scatter` is the loop that writes one value to each
position of a vector.
-/

namespace RustDbDriver.Lib

/-! ### Numbers -/

/-- The accumulating loop: shift by a byte and take the next one in. -/
def ofBytesFrom (acc : Nat) (bs : List UInt8) : Nat := bs.foldl (fun acc b => acc * 256 + b.toNat) acc

def ofBytes (bs : List UInt8) : Nat := ofBytesFrom 0 bs

/-- The last `n` bytes of `k`. -/
def toBytes : Nat → Nat → List UInt8
  | 0, _ => []
  | n + 1, k => toBytes n (k / 256) ++ [UInt8.ofNat k]

theorem ofBytesFrom_eq (acc : Nat) (bs : List UInt8) :
    ofBytesFrom acc bs = acc * 256 ^ bs.length + ofBytes bs := by
  induction bs generalizing acc with
  | nil => simp [ofBytesFrom, ofBytes]
  | cons b bs ih =>
    have h₁ : ofBytesFrom acc (b :: bs) = ofBytesFrom (acc * 256 + b.toNat) bs := rfl
    have h₂ : ofBytes (b :: bs) = ofBytesFrom (0 * 256 + b.toNat) bs := rfl
    rw [h₁, h₂, ih, ih (0 * 256 + b.toNat), List.length_cons, pow_succ]
    ring

theorem ofBytes_cons (b : UInt8) (bs : List UInt8) :
    ofBytes (b :: bs) = b.toNat * 256 ^ bs.length + ofBytes bs := by
  have h : ofBytes (b :: bs) = ofBytesFrom (0 * 256 + b.toNat) bs := rfl
  rw [h, ofBytesFrom_eq, zero_mul, zero_add]

theorem ofBytes_append_singleton (bs : List UInt8) (b : UInt8) :
    ofBytes (bs ++ [b]) = ofBytes bs * 256 + b.toNat := by
  simp [ofBytes, ofBytesFrom, List.foldl_append]

theorem ofBytes_lt (bs : List UInt8) : ofBytes bs < 256 ^ bs.length := by
  induction bs using List.reverseRecOn with
  | nil => simp [ofBytes, ofBytesFrom]
  | append_singleton bs b ih =>
    rw [ofBytes_append_singleton, List.length_append, List.length_singleton, pow_succ]
    have := b.toNat_lt
    omega

@[simp] theorem length_toBytes (n k : Nat) : (toBytes n k).length = n := by
  induction n generalizing k with
  | zero => rfl
  | succ n ih => simp [toBytes, ih]

theorem ofBytes_toBytes {n k : Nat} (h : k < 256 ^ n) : ofBytes (toBytes n k) = k := by
  induction n generalizing k with
  | zero => simp only [pow_zero] at h; simp [toBytes, ofBytes, ofBytesFrom]; omega
  | succ n ih =>
    have hk : k / 256 < 256 ^ n := by
      rw [pow_succ] at h
      omega
    have hb : (UInt8.ofNat k).toNat = k % 256 := by simp
    rw [toBytes, ofBytes_append_singleton, ih hk, hb]
    omega

theorem ofBytes_inj {as bs : List UInt8} (hlen : as.length = bs.length) (h : ofBytes as = ofBytes bs) :
    as = bs := by
  induction as generalizing bs with
  | nil => exact (List.length_eq_zero_iff.mp hlen.symm).symm
  | cons a as ih =>
    cases bs with
    | nil => simp at hlen
    | cons b bs =>
      have hl : as.length = bs.length := by simpa using hlen
      rw [ofBytes_cons, ofBytes_cons, hl] at h
      have ha := ofBytes_lt as
      have hb := ofBytes_lt bs
      rw [hl] at ha
      have hab : a.toNat = b.toNat := by
        have h₁ := congrArg (· / 256 ^ bs.length) h
        simpa [Nat.add_div_of_dvd_right, Nat.mul_div_cancel, Nat.div_eq_of_lt ha,
          Nat.div_eq_of_lt hb] using h₁
      rw [hab, Nat.add_left_cancel_iff] at h
      rw [UInt8.toNat_inj.mp hab, ih hl h]

/-! ### Hexadecimal text -/

/-- The lowercase digit of `n < 16`. -/
def hexDigit (n : Nat) : Char := if n < 10 then Char.ofNat (48 + n) else Char.ofNat (87 + n)

def readHexDigit (c : Char) : Option Nat :=
  if 48 ≤ c.toNat ∧ c.toNat ≤ 57 then some (c.toNat - 48)
  else if 97 ≤ c.toNat ∧ c.toNat ≤ 102 then some (c.toNat - 87)
  else if 65 ≤ c.toNat ∧ c.toNat ≤ 70 then some (c.toNat - 55)
  else none

def hexByte (b : UInt8) : List Char := [hexDigit (b.toNat / 16), hexDigit (b.toNat % 16)]

/-- Prints the bytes in groups of the given sizes, with a hyphen between two groups. -/
def hexGroups : List Nat → List UInt8 → List Char
  | [], _ => []
  | [n], bs => (bs.take n).flatMap hexByte
  | n :: ns, bs => (bs.take n).flatMap hexByte ++ '-' :: hexGroups ns (bs.drop n)

def readHexBytes : Nat → List Char → Option (List UInt8 × List Char)
  | 0, text => some ([], text)
  | n + 1, c :: d :: text => do
    let hi ← readHexDigit c
    let lo ← readHexDigit d
    let (bs, rest) ← readHexBytes n text
    return (UInt8.ofNat (hi * 16 + lo) :: bs, rest)
  | _ + 1, _ => none

/-- Reads groups of the given sizes; nothing may be left. -/
def readHexGroups : List Nat → List Char → Option (List UInt8)
  | [], text => if text = [] then some [] else none
  | [n], text => do
    let (bs, rest) ← readHexBytes n text
    if rest = [] then some bs else none
  | n :: ns, text => do
    let (bs, rest) ← readHexBytes n text
    match rest with
    | '-' :: rest => return bs ++ (← readHexGroups ns rest)
    | _ => none

theorem readHexDigit_hexDigit {n : Nat} (h : n < 16) : readHexDigit (hexDigit n) = some n := by
  have : ∀ n : Fin 16, readHexDigit (hexDigit n) = some n.val := by decide
  exact this ⟨n, h⟩

theorem readHexBytes_append (bs : List UInt8) (rest : List Char) :
    readHexBytes bs.length (bs.flatMap hexByte ++ rest) = some (bs, rest) := by
  induction bs with
  | nil => rfl
  | cons b bs ih =>
    have hb := b.toNat_lt
    have hbyte : UInt8.ofNat (b.toNat / 16 * 16 + b.toNat % 16) = b := by
      rw [Nat.div_add_mod']
      exact UInt8.ofNat_toNat
    have hhi := readHexDigit_hexDigit (show b.toNat / 16 < 16 by omega)
    have hlo := readHexDigit_hexDigit (show b.toNat % 16 < 16 by omega)
    simp only [List.flatMap_cons, hexByte, List.length_cons, List.cons_append, List.nil_append,
      readHexBytes, hhi, hlo, Option.bind_eq_bind, Option.bind_some, ih]
    rw [hbyte]
    rfl

theorem readHexGroups_hexGroups (ns : List Nat) (bs : List UInt8) (h : bs.length = ns.sum) :
    readHexGroups ns (hexGroups ns bs) = some bs := by
  induction ns generalizing bs with
  | nil => rw [List.length_eq_zero_iff.mp h]; rfl
  | cons n ns ih =>
    rw [List.sum_cons] at h
    have hn : (bs.take n).length = n := by simp; omega
    cases ns with
    | nil =>
      have hbs : bs.take n = bs := List.take_of_length_le (by simp at h; omega)
      have hread := readHexBytes_append (bs.take n) []
      rw [hn, List.append_nil, hbs] at hread
      simp [readHexGroups, hexGroups, hbs, hread]
    | cons m ns =>
      have hread := readHexBytes_append (bs.take n) ('-' :: hexGroups (m :: ns) (bs.drop n))
      rw [hn] at hread
      have hrest := ih (bs.drop n) (by rw [List.length_drop]; omega)
      simp [readHexGroups, hexGroups, hread, hrest]

theorem hexDigit_ne_quote {n : Nat} (h : n < 16) : hexDigit n ≠ '\'' := by
  have : ∀ n : Fin 16, hexDigit n ≠ '\'' := by decide
  exact this ⟨n, h⟩

theorem quote_notMem_hexGroups (ns : List Nat) (bs : List UInt8) : '\'' ∉ hexGroups ns bs := by
  have hbytes : ∀ bs : List UInt8, '\'' ∉ bs.flatMap hexByte := by
    intro bs hmem
    obtain ⟨b, -, hb⟩ := List.mem_flatMap.mp hmem
    have hlt := b.toNat_lt
    rcases List.mem_cons.mp hb with hc | hb
    · exact hexDigit_ne_quote (show b.toNat / 16 < 16 by omega) hc.symm
    · exact hexDigit_ne_quote (show b.toNat % 16 < 16 by omega) (List.mem_singleton.mp hb).symm
  induction ns generalizing bs with
  | nil => simp [hexGroups]
  | cons n ns ih =>
    cases ns with
    | nil => exact hbytes _
    | cons m ns =>
      rw [hexGroups]
      simp only [List.mem_append, List.mem_cons, not_or]
      exact ⟨hbytes _, by decide, ih (bs.drop n)⟩
      simp

/-! ### Writing a vector position by position -/

/-- Writes `f i` to position `σ i` for every `i` of the list. -/
def scatter {α ι : Type} {n : Nat} (σ : ι → Fin n) (f : ι → α) (is : List ι) (init : Vector α n) :
    Vector α n :=
  is.foldl (fun out i => out.set (σ i) (f i)) init

theorem scatter_get {α ι : Type} {n : Nat} {σ : ι → Fin n} (hσ : Function.Injective σ) (f : ι → α)
    {is : List ι} (init : Vector α n) {j : ι} (hj : j ∈ is ∨ init[σ j] = f j) :
    (scatter σ f is init)[σ j] = f j := by
  induction is generalizing init with
  | nil => exact hj.resolve_left (by simp)
  | cons i is ih =>
    refine ih _ ?_
    by_cases hji : i = j
    · subst hji
      exact .inr (by simp)
    · refine hj.imp (fun hmem => ?_) fun h => ?_
      · rcases List.mem_cons.mp hmem with rfl | hmem
        · exact absurd rfl hji
        · exact hmem
      · have hne : (σ i).val ≠ (σ j).val := fun h => hji (hσ (Fin.ext h))
        rw [← h]
        exact Vector.getElem_set_ne _ _ hne

end RustDbDriver.Lib
