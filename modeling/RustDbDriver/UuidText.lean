import RustDbDriver.Lib.Lex
import RustDbDriver.UuidRange

/-!
# UUID ranges over text and binary columns

Where a backend compares strings byte by byte, a literal is the bytes of its text. The canonical texts
stand in the order of the UUIDs (`textKey_lt_iff`), so the ranges tile a column of texts. A column of
the sixteen raw bytes is compared with the same texts: there `rawKey_lt_textKey_iff` says that a key is
below its own text exactly up to `OWN_TEXT`, the sixteen bytes that a text can begin with itself. A
range would have to start above and end below it.
-/

namespace RustDbDriver
open Lib

namespace Uuid

/-- The canonical text, as a string column compares it. -/
def textKey (u : Uuid) : List Nat := textOctets (toString u)

/-- The sixteen bytes, as a binary column compares them. -/
def rawKey (u : Uuid) : List Nat := octets u.bytes.toList

theorem textKey_eq (u : Uuid) : textKey u = codes (hexGroups GROUPS u.bytes.toList) :=
  textOctets_ofList (ascii_hexGroups _ _)

theorem rawKey_lt_iff (u v : Uuid) : rawKey u < rawKey v ↔ u.asU128 < v.asU128 :=
  octets_lt_iff (by simp)

/-- Canonical texts stand in the order of the UUIDs. -/
theorem textKey_lt_iff (u v : Uuid) : textKey u < textKey v ↔ u.asU128 < v.asU128 := by
  rw [textKey_eq, textKey_eq, codes_hexGroups_lt_iff GROUPS (by simp [GROUPS]) (by simp [GROUPS])]
  exact rawKey_lt_iff u v

theorem textKey_le_iff (u v : Uuid) : textKey u ≤ textKey v ↔ u.asU128 ≤ v.asU128 := by
  rw [← not_lt, textKey_lt_iff, not_lt]

theorem rawKey_le_iff (u v : Uuid) : rawKey u ≤ rawKey v ↔ u.asU128 ≤ v.asU128 := by
  rw [← not_lt, rawKey_lt_iff, not_lt]

/-! ### Raw bytes against texts -/

/-- The bytes of `33333333-3333-33`, with which the text of the UUID of these bytes begins. -/
def OWN_TEXT : List UInt8 :=
  [0x33, 0x33, 0x33, 0x33, 0x33, 0x33, 0x33, 0x33, 0x2d, 0x33, 0x33, 0x33, 0x33, 0x2d, 0x33, 0x33]

theorem take_text_ownText : (codes (hexGroups GROUPS OWN_TEXT)).take 16 = octets OWN_TEXT := by decide

/-- A byte is the first digit of its own text, or further from `3` than that. -/
theorem first_digit (b : UInt8) : b = 0x33 ∨
    b.toNat < 0x33 ∧ b.toNat < (hexDigit (b.toNat / 16)).toNat ∨
    0x33 < b.toNat ∧ (hexDigit (b.toNat / 16)).toNat < b.toNat := by
  have h : ∀ n : Fin 256, n = 0x33 ∨ n.val < 0x33 ∧ n.val < (hexDigit (n.val / 16)).toNat ∨
      0x33 < n.val ∧ (hexDigit (n.val / 16)).toNat < n.val := by decide +kernel
  rcases h ⟨b.toNat, b.toNat_lt⟩ with heq | hne
  · exact .inl (UInt8.toNat_inj.mp (congrArg Fin.val heq))
  · exact .inr hne

theorem octets_injective : Function.Injective octets :=
  List.map_injective_iff.mpr fun _ _ h => UInt8.toNat_inj.mp h

/-- The text goes on as `OWN_TEXT` wherever the bytes up to there do. -/
theorem take_text_of_agree {bs : List UInt8} {k : Nat} (hk : 0 < k) (hk' : k < 16)
    (hagree : bs.take k = OWN_TEXT.take k) :
    (codes (hexGroups GROUPS bs)).take (k + 1) = (octets OWN_TEXT).take (k + 1) := by
  have hlen : (OWN_TEXT.take k).length = k := by
    rw [List.length_take]
    simp only [OWN_TEXT, List.length_cons, List.length_nil]
    omega
  have h := take_hexGroups_append GROUPS (OWN_TEXT.take k) (bs.drop k) (OWN_TEXT.drop k)
  rw [List.take_append_drop, ← hagree, List.take_append_drop, hagree, hlen] at h
  have htake := congrArg (List.take (k + 1)) h
  rw [List.take_take, List.take_take, Nat.min_eq_left (by omega)] at htake
  calc (codes (hexGroups GROUPS bs)).take (k + 1)
      = codes ((hexGroups GROUPS bs).take (k + 1)) := List.map_take.symm
    _ = codes ((hexGroups GROUPS OWN_TEXT).take (k + 1)) := by rw [htake]
    _ = ((codes (hexGroups GROUPS OWN_TEXT)).take 16).take (k + 1) := by
      rw [List.take_take, Nat.min_eq_left (by omega)]
      exact List.map_take
    _ = (octets OWN_TEXT).take (k + 1) := by rw [take_text_ownText]

theorem rawKey_lt_length_textKey (u : Uuid) : u.rawKey.length < u.textKey.length := by
  have hlen : u.bytes.toList.length = 16 := by simp
  have := le_length_hexGroups GROUPS hlen
  rw [textKey_eq, rawKey, length_octets, codes, List.length_map]
  omega

/-- A key is below its own text exactly up to `OWN_TEXT`. -/
theorem rawKey_lt_textKey_iff (u : Uuid) : rawKey u < textKey u ↔ rawKey u ≤ octets OWN_TEXT := by
  have hlonger := rawKey_lt_length_textKey u
  rw [textKey_eq, rawKey] at hlonger ⊢
  have hlen : u.bytes.toList.length = 16 := by simp
  generalize u.bytes.toList = bs at hlen hlonger
  obtain ⟨b, bs, rfl⟩ := List.exists_cons_of_length_pos (show 0 < bs.length by omega)
  obtain ⟨text, htext⟩ : ∃ text, codes (hexGroups GROUPS (b :: bs)) =
      (hexDigit (b.toNat / 16)).toNat :: text := ⟨_, rfl⟩
  rcases first_digit b with rfl | ⟨hlt, hdigit⟩ | ⟨hgt, hdigit⟩
  · refine lt_iff_le_of_agree (by rw [length_octets, hlen]; rfl) hlonger ?_
    intro k hk hagree
    rw [length_octets, hlen] at hk
    have hbytes : (0x33 :: bs).take k = OWN_TEXT.take k := octets_injective (by
      rwa [octets, octets, List.map_take, List.map_take])
    rcases Nat.eq_zero_or_pos k with rfl | hpos
    · rfl
    · exact take_text_of_agree hpos hk hbytes
  · have hown : octets (b :: bs) < octets OWN_TEXT := List.cons_lt_cons_iff.mpr (.inl hlt)
    rw [htext]
    exact ⟨fun _ => hown.le, fun _ => List.cons_lt_cons_iff.mpr (.inl hdigit)⟩
  · have hown : octets OWN_TEXT < octets (b :: bs) := List.cons_lt_cons_iff.mpr (.inl hgt)
    have htext' : (hexDigit (b.toNat / 16)).toNat :: text < octets (b :: bs) :=
      List.cons_lt_cons_iff.mpr (.inl hdigit)
    rw [htext]
    exact ⟨fun h => absurd h htext'.not_gt, fun h => absurd h hown.not_ge⟩

end Uuid

namespace Partition

/-! ### A column of texts -/

/-- The predicates, where literals compare as the bytes of their text, hold the strings from the text
of `min` to the text of `max`. -/
theorem countP_uuidPlan_text {min max : Uuid} {n : Nat} (hn : 0 < n) (hle : min.asU128 ≤ max.asU128) (x : List Nat) :
    (uuidPlan min max .lexical n).countP (·.hasKey (fun s => some (textOctets s)) x) =
      if min.textKey ≤ x ∧ x ≤ max.textKey then 1 else 0 := by
  have hmono : ∀ u v, uuidToKey u .lexical ≤ uuidToKey v .lexical → u.textKey ≤ v.textKey :=
    fun u v h => (Uuid.textKey_le_iff u v).mpr h
  exact countP_uuidPlan_of_mono (fun s => some (textOctets s)) Uuid.textKey (fun _ => rfl) hmono hn hle x

/-- On a column of canonical texts under a binary collation, the predicates of `by_uuid_range` hold the
texts of the UUIDs between `min` and `max` exactly once and no other, and the texts stand in the order
of the UUIDs. -/
theorem byUuidRange_tiles_text (baseSql keyColumn : String) (min max : Uuid) (partitions : UInt32)
    (hn : 1 ≤ partitions) (hle : min.asU128 ≤ max.asU128) :
    (∃ parts, byUuidRange baseSql keyColumn min max partitions = some parts ∧
      ∀ u : Uuid, parts.countP (fun p => (Statement.read (clean baseSql) keyColumn "" p.sql).any
          (·.hasKey (fun s => some (textOctets s)) (textOctets (toString u)))) =
        if min.asU128 ≤ u.asU128 ∧ u.asU128 ≤ max.asU128 then 1 else 0) ∧
    ∀ u v : Uuid, textOctets (toString u) < textOctets (toString v) ↔
      uuidToKey u .lexical < uuidToKey v .lexical := by
  have hn₀ : 0 < partitions.toNat := UInt32.le_iff_toNat_le.mp hn
  refine ⟨⟨_, byUuidRangeOrdered_eq baseSql keyColumn "" hn₀ hle, ?_⟩, Uuid.textKey_lt_iff⟩
  intro u
  have hcount := countP_uuidPlan_text hn₀ hle u.textKey
  simp only [Uuid.textKey_le_iff] at hcount
  rw [countP_toPartition quotable_uuidPlan]
  exact hcount

theorem byUuidRange_tiles_text_all :
    (∃ parts, byUuidRange "SELECT id FROM t" "id" Uuid.nil Uuid.max 4294967295 = some parts ∧
      ∀ u : Uuid, parts.countP (fun p => (Statement.read (clean "SELECT id FROM t") "id" "" p.sql).any
          (·.hasKey (fun s => some (textOctets s)) (textOctets (toString u)))) =
        if Uuid.nil.asU128 ≤ u.asU128 ∧ u.asU128 ≤ Uuid.max.asU128 then 1 else 0) ∧
    ∀ u v : Uuid, textOctets (toString u) < textOctets (toString v) ↔
      uuidToKey u .lexical < uuidToKey v .lexical :=
  byUuidRange_tiles_text "SELECT id FROM t" "id" Uuid.nil Uuid.max 4294967295 (by decide) (by decide)

/-! ### A column of raw bytes -/

/-- On a column of raw bytes, compared with the bytes of the texts, the predicates of `by_uuid_range`
never hold every key between `min` and `max` exactly once: they miss `min` or `max` itself. -/
theorem byUuidRange_binary_misses (baseSql keyColumn : String) (min max : Uuid) (partitions : UInt32)
    (hn : 1 ≤ partitions) (hle : min.asU128 ≤ max.asU128) :
    ∃ parts, byUuidRange baseSql keyColumn min max partitions = some parts ∧
      ¬ ∀ u : Uuid, octets min.bytes.toList ≤ octets u.bytes.toList →
        octets u.bytes.toList ≤ octets max.bytes.toList →
        parts.countP (fun p => (Statement.read (clean baseSql) keyColumn "" p.sql).any
          (·.hasKey (fun s => some (textOctets s)) (octets u.bytes.toList))) = 1 := by
  have hn₀ : 0 < partitions.toNat := UInt32.le_iff_toNat_le.mp hn
  refine ⟨_, byUuidRangeOrdered_eq baseSql keyColumn "" hn₀ hle, ?_⟩
  intro hall
  have hraw : min.rawKey ≤ max.rawKey := (Uuid.rawKey_le_iff min max).mpr hle
  have hmin := hall min le_rfl hraw
  have hmax := hall max hraw le_rfl
  rw [countP_toPartition quotable_uuidPlan, countP_uuidPlan_text hn₀ hle] at hmin hmax
  have hmin' : min.textKey ≤ min.rawKey := by
    by_contra h
    rw [if_neg fun hc => h hc.1] at hmin
    cases hmin
  have hmax' : max.rawKey ≤ max.textKey := by
    by_contra h
    rw [if_neg fun hc => h hc.2] at hmax
    cases hmax
  have habove : octets Uuid.OWN_TEXT < min.rawKey := by
    rw [← not_le, ← Uuid.rawKey_lt_textKey_iff]
    exact hmin'.not_gt
  have hne : max.rawKey ≠ max.textKey :=
    fun heq => (Uuid.rawKey_lt_length_textKey max).ne (congrArg List.length heq)
  have hbelow : max.rawKey ≤ octets Uuid.OWN_TEXT :=
    (Uuid.rawKey_lt_textKey_iff max).mp (lt_of_le_of_ne hmax' hne)
  exact absurd (hraw.trans hbelow) habove.not_ge

theorem byUuidRange_binary_misses_all :
    ∃ parts, byUuidRange "SELECT id FROM t" "id" Uuid.nil Uuid.max 4 = some parts ∧
      ¬ ∀ u : Uuid, octets Uuid.nil.bytes.toList ≤ octets u.bytes.toList →
        octets u.bytes.toList ≤ octets Uuid.max.bytes.toList →
        parts.countP (fun p => (Statement.read (clean "SELECT id FROM t") "id" "" p.sql).any
          (·.hasKey (fun s => some (textOctets s)) (octets u.bytes.toList))) = 1 :=
  byUuidRange_binary_misses "SELECT id FROM t" "id" Uuid.nil Uuid.max 4 (by decide) (by decide)

/-- Over the whole space in four ranges, no predicate holds sixteen zero bytes. -/
theorem byUuidRange_binary_misses_nil :
    ∃ parts, byUuidRange "SELECT id FROM t" "id" Uuid.nil Uuid.max 4 = some parts ∧
      octets Uuid.nil.bytes.toList ≤ octets Uuid.max.bytes.toList ∧
      parts.countP (fun p => (Statement.read (clean "SELECT id FROM t") "id" "" p.sql).any
        (·.hasKey (fun s => some (textOctets s)) (octets Uuid.nil.bytes.toList))) = 0 := by
  refine ⟨_, byUuidRangeOrdered_eq _ _ "" (by decide) (by decide), by decide, ?_⟩
  rw [countP_toPartition quotable_uuidPlan, countP_uuidPlan_text (by decide) (by decide)]
  decide

end Partition
end RustDbDriver
