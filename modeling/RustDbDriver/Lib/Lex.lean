import RustDbDriver.Lib.Bytes

/-!
# Byte strings in lexicographic order

Byte strings compare by their first difference, a proper prefix first. On strings of one length that
is the order of the numbers they denote (`octets_lt_iff`), and printing them as hexadecimal groups
keeps it (`codes_hexGroups_lt_iff`), as digits come before letters and every byte takes two of them.
-/

namespace RustDbDriver.Lib

/-- Bytes, as numbers. -/
def octets (bs : List UInt8) : List Nat := bs.map UInt8.toNat

/-- The bytes of a text in UTF-8, as numbers. -/
def textOctets (s : String) : List Nat := octets s.toUTF8.data.toList

@[simp] theorem octets_nil : octets [] = [] := rfl

@[simp] theorem octets_cons (b : UInt8) (bs : List UInt8) : octets (b :: bs) = b.toNat :: octets bs := rfl

@[simp] theorem octets_append (as bs : List UInt8) : octets (as ++ bs) = octets as ++ octets bs :=
  List.map_append

@[simp] theorem length_octets (bs : List UInt8) : (octets bs).length = bs.length := List.length_map _

/-! ### Concatenation -/

section Append

variable {α : Type} [LinearOrder α] {as bs cs ds : List α}

theorem append_lt_append_iff (h : as.length = bs.length) :
    as ++ cs < bs ++ ds ↔ as < bs ∨ as = bs ∧ cs < ds := by
  induction as generalizing bs with
  | nil =>
    rw [List.length_eq_zero_iff.mp h.symm]
    simp
  | cons a as ih =>
    cases bs with
    | nil => simp at h
    | cons b bs =>
      have hih := ih (Nat.succ.inj h)
      rw [List.cons_append, List.cons_append, List.cons_lt_cons_iff, List.cons_lt_cons_iff, hih,
        List.cons.injEq]
      tauto

theorem cons_lt_cons_iff_of_eq {a b : α} (h : a = b → (as < bs ↔ as ≤ cs)) :
    a :: as < b :: bs ↔ a :: as ≤ b :: cs := by
  rw [← not_lt (a := b :: cs), List.cons_lt_cons_iff, List.cons_lt_cons_iff]
  rcases lt_trichotomy a b with hlt | heq | hgt
  · simp [hlt, hlt.not_gt, hlt.ne']
  · simp [heq, h heq]
  · simp [hgt, hgt.not_gt, hgt.ne']

/-- Whether `as` comes before a longer string is settled by `cs` of its own length if, wherever `as` and
`cs` still agree, the longer string also goes on as `cs` does. -/
theorem lt_iff_le_of_agree (hlen : as.length = cs.length) (hlt : as.length < bs.length)
    (h : ∀ k < as.length, as.take k = cs.take k → bs.take (k + 1) = cs.take (k + 1)) :
    as < bs ↔ as ≤ cs := by
  induction as generalizing bs cs with
  | nil =>
    rw [List.length_eq_zero_iff.mp hlen.symm]
    obtain ⟨b, bs, rfl⟩ := List.exists_cons_of_length_pos hlt
    simp
  | cons a as ih =>
    obtain ⟨b, bs, rfl⟩ := List.exists_cons_of_length_pos (Nat.zero_lt_of_lt hlt)
    obtain ⟨c, cs, rfl⟩ := List.exists_cons_of_length_pos (hlen.symm.trans_gt (Nat.succ_pos as.length))
    obtain rfl : b = c := by simpa using h 0 (Nat.succ_pos _) rfl
    refine cons_lt_cons_iff_of_eq ?_
    rintro rfl
    refine ih (Nat.succ.inj hlen) (Nat.lt_of_succ_lt_succ hlt) ?_
    intro k hk hagree
    have hnext := h (k + 1) (Nat.succ_lt_succ hk) (by rw [List.take_succ_cons, List.take_succ_cons, hagree])
    rw [List.take_succ_cons, List.take_succ_cons] at hnext
    exact List.tail_eq_of_cons_eq hnext

end Append

/-! ### Numbers -/

theorem octets_lt_iff {as bs : List UInt8} (h : as.length = bs.length) :
    octets as < octets bs ↔ ofBytes as < ofBytes bs := by
  induction as generalizing bs with
  | nil =>
    rw [List.length_eq_zero_iff.mp h.symm]
    simp
  | cons a as ih =>
    cases bs with
    | nil => simp at h
    | cons b bs =>
      have hlen : as.length = bs.length := Nat.succ.inj h
      have ha := ofBytes_lt as
      have hb := ofBytes_lt bs
      rw [octets_cons, octets_cons, List.cons_lt_cons_iff, ih hlen, ofBytes_cons, ofBytes_cons, hlen]
      rw [hlen] at ha
      generalize 256 ^ bs.length = base at ha hb
      constructor
      · rintro (hlt | ⟨heq, hlt⟩)
        · have : (a.toNat + 1) * base ≤ b.toNat * base := Nat.mul_le_mul_right _ hlt
          rw [Nat.succ_mul] at this
          omega
        · rw [heq]
          omega
      · intro hlt
        rcases Nat.lt_trichotomy a.toNat b.toNat with hab | hab | hab
        · exact .inl hab
        · rw [hab] at hlt
          exact .inr ⟨hab, by omega⟩
        · have : (b.toNat + 1) * base ≤ a.toNat * base := Nat.mul_le_mul_right _ hab
          rw [Nat.succ_mul] at this
          omega

/-! ### Hexadecimal text -/

/-- The code points of a text. -/
def codes (text : List Char) : List Nat := text.map Char.toNat

@[simp] theorem codes_cons (c : Char) (text : List Char) : codes (c :: text) = c.toNat :: codes text := rfl

@[simp] theorem codes_append (as bs : List Char) : codes (as ++ bs) = codes as ++ codes bs :=
  List.map_append

/-- A text of ASCII characters has a byte for each. -/
theorem textOctets_ofList {text : List Char} (h : ∀ c ∈ text, c.toNat < 128) :
    textOctets (String.ofList text) = codes text := by
  have hutf8 : (String.ofList text).toUTF8.data.toList = text.flatMap String.utf8EncodeChar := by
    simp [List.utf8Encode]
  rw [textOctets, hutf8]
  clear hutf8
  induction text with
  | nil => rfl
  | cons c text ih =>
    have hc : c.toNat < 128 := h c List.mem_cons_self
    have hsize : c.utf8Size = 1 := by
      unfold Char.utf8Size
      rw [if_pos]
      show c.toNat ≤ 127
      omega
    have hcode : c.val.toUInt8.toNat = c.toNat := by
      rw [UInt32.toNat_toUInt8]
      exact Nat.mod_eq_of_lt (show c.toNat < 256 by omega)
    rw [List.flatMap_cons, String.utf8EncodeChar_eq_singleton hsize, List.singleton_append, octets_cons,
      ih fun d hd => h d (List.mem_cons_of_mem _ hd), hcode]
    rfl

section Hex

variable {m n : Nat}

theorem hexDigit_lt_iff (hm : m < 16) (hn : n < 16) :
    (hexDigit m).toNat < (hexDigit n).toNat ↔ m < n := by
  have : ∀ m n : Fin 16, (hexDigit m).toNat < (hexDigit n).toNat ↔ m.val < n.val := by decide
  exact this ⟨m, hm⟩ ⟨n, hn⟩

theorem hexDigit_inj (hm : m < 16) (hn : n < 16) : (hexDigit m).toNat = (hexDigit n).toNat ↔ m = n := by
  have hlt := hexDigit_lt_iff hm hn
  have hgt := hexDigit_lt_iff hn hm
  omega

theorem hexDigit_ascii (hn : n < 16) : (hexDigit n).toNat < 128 := by
  have : ∀ n : Fin 16, (hexDigit n).toNat < 128 := by decide
  exact this ⟨n, hn⟩

theorem codes_hexByte (b : UInt8) :
    codes (hexByte b) = [(hexDigit (b.toNat / 16)).toNat, (hexDigit (b.toNat % 16)).toNat] := rfl

theorem codes_hexByte_lt_iff (a b : UInt8) : codes (hexByte a) < codes (hexByte b) ↔ a.toNat < b.toNat := by
  have ha := a.toNat_lt
  have hb := b.toNat_lt
  simp only [codes_hexByte, List.cons_lt_cons_iff, List.not_lt_nil, and_false, or_false]
  rw [hexDigit_lt_iff (by omega) (by omega), hexDigit_inj (by omega) (by omega),
    hexDigit_lt_iff (by omega) (by omega)]
  omega

theorem codes_hexByte_inj (a b : UInt8) : codes (hexByte a) = codes (hexByte b) ↔ a.toNat = b.toNat := by
  have ha := a.toNat_lt
  have hb := b.toNat_lt
  simp only [codes_hexByte, List.cons.injEq, and_true]
  rw [hexDigit_inj (by omega) (by omega), hexDigit_inj (by omega) (by omega)]
  omega

variable {as bs : List UInt8}

theorem length_codes_flatMap (as : List UInt8) : (codes (as.flatMap hexByte)).length = 2 * as.length := by
  induction as with
  | nil => rfl
  | cons a as ih =>
    rw [List.flatMap_cons, codes_append, List.length_append, ih, List.length_cons, codes_hexByte]
    simp only [List.length_cons, List.length_nil]
    omega

theorem codes_flatMap_lt_iff (h : as.length = bs.length) :
    codes (as.flatMap hexByte) < codes (bs.flatMap hexByte) ↔ octets as < octets bs := by
  induction as generalizing bs with
  | nil =>
    rw [List.length_eq_zero_iff.mp h.symm]
    simp [codes]
  | cons a as ih =>
    cases bs with
    | nil => simp at h
    | cons b bs =>
      rw [List.flatMap_cons, List.flatMap_cons, codes_append, codes_append,
        append_lt_append_iff (by simp only [codes_hexByte, List.length_cons, List.length_nil]),
        codes_hexByte_lt_iff, codes_hexByte_inj, ih (Nat.succ.inj h), octets_cons, octets_cons,
        List.cons_lt_cons_iff]

theorem codes_flatMap_inj (h : as.length = bs.length) :
    codes (as.flatMap hexByte) = codes (bs.flatMap hexByte) ↔ octets as = octets bs := by
  have hlt := codes_flatMap_lt_iff h
  have hgt := codes_flatMap_lt_iff h.symm
  constructor
  · intro heq
    rcases lt_trichotomy (octets as) (octets bs) with ho | ho | ho
    · exact absurd heq (hlt.mpr ho).ne
    · exact ho
    · exact absurd heq (hgt.mpr ho).ne'
  · intro heq
    rcases lt_trichotomy (codes (as.flatMap hexByte)) (codes (bs.flatMap hexByte)) with ho | ho | ho
    · exact absurd heq (hlt.mp ho).ne
    · exact ho
    · exact absurd heq (hgt.mp ho).ne'

theorem hexGroups_cons_cons (n m : Nat) (ns : List Nat) (bs : List UInt8) :
    hexGroups (n :: m :: ns) bs =
      (bs.take n).flatMap hexByte ++ '-' :: hexGroups (m :: ns) (bs.drop n) := by
  rw [hexGroups]
  simp

/-- Hexadecimal groups of one layout compare as the bytes they print. -/
theorem codes_hexGroups_lt_iff (ns : List Nat) (ha : as.length = ns.sum) (hb : bs.length = ns.sum) :
    codes (hexGroups ns as) < codes (hexGroups ns bs) ↔ octets as < octets bs := by
  induction ns generalizing as bs with
  | nil =>
    rw [List.length_eq_zero_iff.mp ha, List.length_eq_zero_iff.mp hb]
    simp
  | cons n ns ih =>
    rw [List.sum_cons] at ha hb
    have hlen : (as.take n).length = (bs.take n).length := by simp; omega
    cases ns with
    | nil =>
      rw [List.sum_nil, Nat.add_zero] at ha hb
      rw [hexGroups, hexGroups, codes_flatMap_lt_iff hlen, List.take_of_length_le ha.le,
        List.take_of_length_le hb.le]
    | cons m ns =>
      have hrest : codes (hexGroups (m :: ns) (as.drop n)) < codes (hexGroups (m :: ns) (bs.drop n)) ↔
          octets (as.drop n) < octets (bs.drop n) := by
        refine ih ?_ ?_
        · rw [List.length_drop]
          omega
        · rw [List.length_drop]
          omega
      have hsplit : octets as < octets bs ↔ octets (as.take n) < octets (bs.take n) ∨
          octets (as.take n) = octets (bs.take n) ∧ octets (as.drop n) < octets (bs.drop n) := by
        rw [← append_lt_append_iff (by simpa using hlen), ← octets_append, ← octets_append,
          List.take_append_drop, List.take_append_drop]
      rw [hexGroups_cons_cons, hexGroups_cons_cons, codes_append, codes_append, append_lt_append_iff
        (by rw [length_codes_flatMap, length_codes_flatMap, hlen]), codes_flatMap_lt_iff hlen,
        codes_flatMap_inj hlen, hsplit, ← hrest, codes_cons, codes_cons, List.cons_lt_cons_iff]
      simp only [lt_irrefl, false_or, true_and]

theorem length_flatMap_hexByte (bs : List UInt8) : (bs.flatMap hexByte).length = 2 * bs.length := by
  have h := length_codes_flatMap bs
  rwa [codes, List.length_map] at h

theorem le_length_hexGroups (ns : List Nat) {bs : List UInt8} (h : bs.length = ns.sum) :
    2 * bs.length ≤ (hexGroups ns bs).length := by
  induction ns generalizing bs with
  | nil =>
    rw [h]
    simp
  | cons n ns ih =>
    rw [List.sum_cons] at h
    cases ns with
    | nil =>
      rw [List.sum_nil, Nat.add_zero] at h
      rw [hexGroups, List.take_of_length_le h.le, length_flatMap_hexByte]
    | cons m ns =>
      have hdrop : (bs.drop n).length = (m :: ns).sum := by
        rw [List.length_drop]
        omega
      have hrest := ih hdrop
      rw [hexGroups_cons_cons, List.length_append, length_flatMap_hexByte, List.length_cons,
        List.length_take]
      rw [List.length_drop] at hrest
      omega

/-- The first bytes settle at least twice as many characters. -/
theorem take_hexGroups_append (ns : List Nat) (as bs cs : List UInt8) :
    (hexGroups ns (as ++ bs)).take (2 * as.length) = (hexGroups ns (as ++ cs)).take (2 * as.length) := by
  induction ns generalizing as with
  | nil => rfl
  | cons n ns ih =>
    rcases Nat.lt_or_ge n as.length with hn | hn
    · -- the first group is printed from `as` alone
      have htake (ds : List UInt8) : (as ++ ds).take n = as.take n := List.take_append_of_le_length hn.le
      have hdrop (ds : List UInt8) : (as ++ ds).drop n = as.drop n ++ ds := List.drop_append_of_le_length hn.le
      cases ns with
      | nil => simp only [hexGroups, htake]
      | cons m ns =>
        have hlen : ((as.take n).flatMap hexByte).length = 2 * n := by
          rw [length_flatMap_hexByte, List.length_take]
          omega
        have hrest := congrArg (List.take (2 * as.length - 2 * n - 1)) (ih (as.drop n))
        rw [List.take_take, List.take_take, List.length_drop, Nat.min_eq_left (by omega)] at hrest
        rw [hexGroups_cons_cons, hexGroups_cons_cons, htake, htake, hdrop, hdrop, List.take_append,
          List.take_append, hlen, List.take_cons (by omega), List.take_cons (by omega), hrest]
    · -- the first group begins with `as`
      have hprefix (ds : List UInt8) : ∃ text, hexGroups (n :: ns) (as ++ ds) = as.flatMap hexByte ++ text := by
        have htake : (as ++ ds).take n = as ++ ds.take (n - as.length) := by
          rw [List.take_append, List.take_of_length_le hn]
        cases ns with
        | nil => exact ⟨(ds.take (n - as.length)).flatMap hexByte, by rw [hexGroups, htake, List.flatMap_append]⟩
        | cons m ns =>
          refine ⟨(ds.take (n - as.length)).flatMap hexByte ++ '-' :: hexGroups (m :: ns) ((as ++ ds).drop n), ?_⟩
          rw [hexGroups_cons_cons, htake, List.flatMap_append, List.append_assoc]
      obtain ⟨bs', hbs⟩ := hprefix bs
      obtain ⟨cs', hcs⟩ := hprefix cs
      rw [hbs, hcs, ← length_flatMap_hexByte, List.take_left, List.take_left]

theorem ascii_hexGroups (ns : List Nat) (bs : List UInt8) : ∀ c ∈ hexGroups ns bs, c.toNat < 128 := by
  have hbytes : ∀ bs : List UInt8, ∀ c ∈ bs.flatMap hexByte, c.toNat < 128 := by
    intro bs c hc
    obtain ⟨b, -, hb⟩ := List.mem_flatMap.mp hc
    have hlt := b.toNat_lt
    rcases List.mem_cons.mp hb with rfl | hb
    · exact hexDigit_ascii (by omega)
    · rw [List.mem_singleton.mp hb]
      exact hexDigit_ascii (by omega)
  induction ns generalizing bs with
  | nil => simp [hexGroups]
  | cons n ns ih =>
    cases ns with
    | nil => exact hbytes _
    | cons m ns =>
      intro c hc
      rw [hexGroups_cons_cons] at hc
      rcases List.mem_append.mp hc with hc | hc
      · exact hbytes _ c hc
      · rcases List.mem_cons.mp hc with rfl | hc
        · decide
        · exact ih (bs.drop n) c hc

end Hex

end RustDbDriver.Lib
