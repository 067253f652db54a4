import RustDbDriver.Lib.Checked
import RustDbDriver.Lib.Lex

/-!
# UUIDs and the keys backends order them by

A `Uuid` is its 16 bytes. `uuidToKey` maps it to the unsigned 128-bit number a backend compares it
as, `keyToUuid` goes back; `uuidToKey_keyToUuid` is what the range splitting rests on: a key that was
turned into a literal compares as itself. `Uuid.read` is how a backend reads such a literal.

.NET compares two `SqlGuid`s over their `ToByteArray()` layout, in which the first three groups are
byte-reversed, at the indices of `COMPARE_ORDER`, and the first difference decides. The key of
`uuid_to_key` for SQL Server reads the same bytes off the canonical layout (`map_toByteArray`), most
significant first, so it compares the same way.
-/

namespace RustDbDriver
open Lib

structure Uuid where
  bytes : Vector UInt8 16
deriving DecidableEq

/-- `u128::to_be_bytes`. -/
def toBeBytes (k : Nat) : Vector UInt8 16 := ⟨(toBytes 16 k).toArray, by simp⟩

namespace Uuid

def asU128 (u : Uuid) : Nat := ofBytes u.bytes.toList
def fromU128 (k : Nat) : Uuid := ⟨toBeBytes k⟩
def nil : Uuid := ⟨Vector.replicate 16 0⟩
def max : Uuid := ⟨Vector.replicate 16 0xff⟩

def GROUPS : List Nat := [4, 2, 2, 2, 6]

/-- `Display`: the canonical text, lowercase with hyphens. -/
instance : ToString Uuid := ⟨fun u => String.ofList (hexGroups GROUPS u.bytes.toList)⟩

def read (s : String) : Option Uuid :=
  match readHexGroups GROUPS s.toList with
  | some bs => if h : bs.length = 16 then some ⟨⟨bs.toArray, by simpa using h⟩⟩ else none
  | none => none

theorem read_toString (u : Uuid) : read (toString u) = some u := by
  have hread := readHexGroups_hexGroups GROUPS u.bytes.toList (by simp [GROUPS])
  have hstr : (toString u).toList = hexGroups GROUPS u.bytes.toList := by simp [toString]
  rw [read, hstr, hread]
  obtain ⟨⟨arr, harr⟩⟩ := u
  simp [Vector.toList, harr]

theorem quote_notMem_toString (u : Uuid) : '\'' ∉ (toString u).toList := by
  have hstr : (toString u).toList = hexGroups GROUPS u.bytes.toList := by simp [toString]
  rw [hstr]
  exact quote_notMem_hexGroups _ _

end Uuid

/-- How a backend sorts and compares UUID values. -/
inductive UuidOrder where
  /-- Canonical big-endian 128-bit ordering. -/
  | lexical
  /-- The native ordering of SQL Server's `uniqueidentifier`. -/
  | sqlServer
deriving DecidableEq, Repr

/-- Canonical byte indices in `uniqueidentifier` significance order, most significant first. -/
def SQLSERVER_ORDER : Vector (Fin 16) 16 := #v[10, 11, 12, 13, 14, 15, 8, 9, 7, 6, 5, 4, 3, 2, 1, 0]

/-- Map a UUID to the unsigned 128-bit sort key the chosen backend orders by. -/
def uuidToKey (u : Uuid) (order : UuidOrder) : Nat :=
  match order with
  | .lexical => u.asU128
  | .sqlServer =>
    let b := u.bytes
    SQLSERVER_ORDER.toList.foldl (fun key idx => (key <<< 8) % 2 ^ 128 ||| b[idx].toNat) 0

def keyToUuid (key : Nat) (order : UuidOrder) : Uuid :=
  match order with
  | .lexical => Uuid.fromU128 key
  | .sqlServer =>
    let kb := toBeBytes key
    ⟨scatter (fun i : Fin 16 => SQLSERVER_ORDER[i]) (fun i => kb[i]) (List.finRange 16)
      (Vector.replicate 16 0)⟩

theorem toList_toBeBytes (k : Nat) : (toBeBytes k).toList = toBytes 16 k := by
  simp [toBeBytes, Vector.toList]

/-- The shift-and-or loop of `uuid_to_key` loses no bit as long as the bytes still to come fit. -/
theorem shiftOr_eq (b : Vector UInt8 16) (idxs : List (Fin 16)) (key : Nat)
    (h : (key + 1) * 256 ^ idxs.length ≤ 2 ^ 128) :
    idxs.foldl (fun key idx => (key <<< 8) % 2 ^ 128 ||| b[idx].toNat) key =
      ofBytesFrom key (idxs.map fun idx => b[idx]) := by
  induction idxs generalizing key with
  | nil => rfl
  | cons idx idxs ih =>
    have hb : b[idx].toNat < 256 := b[idx].toNat_lt
    have hroom : (key * 256 + b[idx].toNat + 1) * 256 ^ idxs.length ≤ 2 ^ 128 := by
      calc (key * 256 + b[idx].toNat + 1) * 256 ^ idxs.length
          ≤ ((key + 1) * 256) * 256 ^ idxs.length := Nat.mul_le_mul_right _ (by omega)
        _ = (key + 1) * 256 ^ (idxs.length + 1) := by ring
        _ ≤ 2 ^ 128 := h
    have hkey : key * 256 < 2 ^ 128 := by
      have : (key * 256 + b[idx].toNat + 1) * 1 ≤ 2 ^ 128 :=
        (Nat.mul_le_mul_left _ (Nat.pow_pos (by decide))).trans hroom
      omega
    have hstep : ((key <<< 8) % 2 ^ 128 ||| b[idx].toNat) = key * 256 + b[idx].toNat := by
      rw [Nat.shiftLeft_eq, Nat.mod_eq_of_lt hkey, ← Nat.shiftLeft_eq key 8,
        ← Nat.shiftLeft_add_eq_or_of_lt (by simpa using hb), Nat.shiftLeft_eq]
    rw [List.foldl_cons, hstep, ih _ hroom]
    rfl

theorem uuidToKey_sqlServer (u : Uuid) :
    uuidToKey u .sqlServer = ofBytes (SQLSERVER_ORDER.toList.map fun idx => u.bytes[idx]) :=
  shiftOr_eq u.bytes SQLSERVER_ORDER.toList 0 (by decide)

theorem SQLSERVER_ORDER_injective : Function.Injective fun i : Fin 16 => SQLSERVER_ORDER[i] := by
  decide

theorem uuidToKey_lt (u : Uuid) (order : UuidOrder) : uuidToKey u order < 2 ^ 128 := by
  have hpow : 256 ^ 16 = 2 ^ 128 := by norm_num
  cases order with
  | lexical =>
    have := ofBytes_lt u.bytes.toList
    rwa [Vector.length_toList, hpow] at this
  | sqlServer =>
    rw [uuidToKey_sqlServer]
    have := ofBytes_lt (SQLSERVER_ORDER.toList.map fun idx => u.bytes[idx])
    rwa [List.length_map, Vector.length_toList, hpow] at this

theorem map_scattered (kb : Vector UInt8 16) :
    (SQLSERVER_ORDER.toList.map fun idx =>
      (scatter (fun i : Fin 16 => SQLSERVER_ORDER[i]) (fun i => kb[i]) (List.finRange 16)
        (Vector.replicate 16 0))[idx]) = kb.toList := by
  refine List.ext_getElem (by simp) ?_
  intro i h₁ h₂
  have hi : i < 16 := by simpa using h₂
  have hget := scatter_get SQLSERVER_ORDER_injective (fun i : Fin 16 => kb[i])
    (Vector.replicate 16 0) (.inl (List.mem_finRange (⟨i, hi⟩ : Fin 16)))
  simpa using hget

/-- A key that was turned into a UUID compares as itself. -/
theorem uuidToKey_keyToUuid {key : Nat} (h : key < 2 ^ 128) (order : UuidOrder) :
    uuidToKey (keyToUuid key order) order = key := by
  have hk : key < 256 ^ 16 := h.trans_eq (by norm_num)
  cases order with
  | lexical =>
    show ofBytes (toBeBytes key).toList = key
    rw [toList_toBeBytes, ofBytes_toBytes hk]
  | sqlServer =>
    rw [uuidToKey_sqlServer]
    show ofBytes (SQLSERVER_ORDER.toList.map fun idx => (scatter _ _ _ _)[idx]) = key
    rw [map_scattered, toList_toBeBytes, ofBytes_toBytes hk]

theorem SQLSERVER_ORDER_surjective (j : Fin 16) : j ∈ SQLSERVER_ORDER.toList := by
  revert j; decide

theorem uuidToKey_injective (order : UuidOrder) : Function.Injective (uuidToKey · order) := by
  rintro ⟨u⟩ ⟨v⟩ h
  cases order with
  | lexical =>
    have hbytes : u.toList = v.toList := ofBytes_inj (by simp) h
    rw [Vector.toList_inj.mp hbytes]
  | sqlServer =>
    simp only [uuidToKey_sqlServer] at h
    have hbytes := List.map_inj_left.mp (ofBytes_inj (by simp) h)
    congr 1
    exact Vector.ext fun j hj => hbytes ⟨j, hj⟩ (SQLSERVER_ORDER_surjective _)

theorem keyToUuid_uuidToKey (u : Uuid) (order : UuidOrder) :
    keyToUuid (uuidToKey u order) order = u :=
  uuidToKey_injective order (uuidToKey_keyToUuid (uuidToKey_lt u order) order)

/-! ### The order of `SqlGuid` -/

namespace SqlGuid

/-- `ToByteArray()`: the groups of 4, 2 and 2 bytes are little-endian. -/
def toByteArray (u : Uuid) : Vector UInt8 16 :=
  let b := u.bytes.toList
  ⟨((b.take 4).reverse ++ ((b.drop 4).take 2).reverse ++ ((b.drop 6).take 2).reverse ++ b.drop 8).toArray,
    by simp [b]⟩

def COMPARE_ORDER : List (Fin 16) := [10, 11, 12, 13, 14, 15, 8, 9, 6, 7, 4, 5, 0, 1, 2, 3]

/-- Compares two layouts at the given indices in turn. -/
def precedesAt (x y : Vector UInt8 16) : List (Fin 16) → Bool
  | [] => false
  | i :: is => if x[i] = y[i] then precedesAt x y is else decide (x[i] < y[i])

def precedes (u v : Uuid) : Bool := precedesAt (toByteArray u) (toByteArray v) COMPARE_ORDER

theorem precedesAt_iff (x y : Vector UInt8 16) (is : List (Fin 16)) :
    precedesAt x y is = true ↔ octets (is.map fun i => x[i]) < octets (is.map fun i => y[i]) := by
  induction is with
  | nil => simp [precedesAt]
  | cons i is ih =>
    rw [List.map_cons, List.map_cons, octets_cons, octets_cons, List.cons_lt_cons_iff, UInt8.toNat_inj,
      ← UInt8.lt_iff_toNat_lt, precedesAt]
    split
    · next heq => simp [heq, ih]
    · next hne =>
      constructor
      · intro hlt
        exact .inl (of_decide_eq_true hlt)
      · rintro (hlt | ⟨heq, -⟩)
        · exact decide_eq_true hlt
        · exact absurd heq hne

/-- The bytes `SqlGuid` compares are those of the canonical layout at `SQLSERVER_ORDER`. -/
theorem map_toByteArray (u : Uuid) :
    (COMPARE_ORDER.map fun i => (toByteArray u)[i]) = SQLSERVER_ORDER.toList.map fun i => u.bytes[i] := by
  obtain ⟨⟨⟨bs⟩, hlen⟩⟩ := u
  match bs, hlen with
  | [_, _, _, _, _, _, _, _, _, _, _, _, _, _, _, _], _ => rfl

theorem precedes_iff (u v : Uuid) :
    precedes u v = true ↔ uuidToKey u .sqlServer < uuidToKey v .sqlServer := by
  rw [precedes, precedesAt_iff, map_toByteArray, map_toByteArray, octets_lt_iff (by simp),
    uuidToKey_sqlServer, uuidToKey_sqlServer]

/-- The key of SQL Server stands in the order of `SqlGuid`, and in both orders keys and UUIDs are the
same thing. -/
theorem uuidToKey_isOrderIso (u v : Uuid) (key : Nat) (hkey : key < 2 ^ 128) (order : UuidOrder) :
    (uuidToKey u .sqlServer < uuidToKey v .sqlServer ↔ precedes u v = true) ∧
      uuidToKey u order < 2 ^ 128 ∧ keyToUuid (uuidToKey u order) order = u ∧
      uuidToKey (keyToUuid key order) order = key :=
  ⟨(precedes_iff u v).symm, uuidToKey_lt u order, keyToUuid_uuidToKey u order,
    uuidToKey_keyToUuid hkey order⟩

theorem uuidToKey_isOrderIso_max :
    (uuidToKey Uuid.nil .sqlServer < uuidToKey Uuid.max .sqlServer ↔ precedes Uuid.nil Uuid.max = true) ∧
      uuidToKey Uuid.nil .sqlServer < 2 ^ 128 ∧
      keyToUuid (uuidToKey Uuid.nil .sqlServer) .sqlServer = Uuid.nil ∧
      uuidToKey (keyToUuid (2 ^ 128 - 1) .sqlServer) .sqlServer = 2 ^ 128 - 1 :=
  uuidToKey_isOrderIso Uuid.nil Uuid.max (2 ^ 128 - 1) (by decide) .sqlServer

end SqlGuid

end RustDbDriver
