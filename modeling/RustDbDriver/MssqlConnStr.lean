import RustDbDriver.Lib.Assign
import RustDbDriver.Lib.Collect
import RustDbDriver.Lib.Scan
import RustDbDriver.PostgresTls

/-!
# The connection string of SQL Server

`parse_mssql_conn_str` reads `key=value` segments between semicolons into the variables of
`MssqlSettings`, one segment after the other. A segment of one setting writes the variables of that
setting only (`written`), so a variable holds what the last segment that writes it says. A `Server`
segment always writes the host and writes the port only if it has a comma: the port of an earlier one
may be left over (`parse_withoutOverridden_iff`).
-/

namespace RustDbDriver
open Lib.Assign Lib.Pieces Lib.Scan RustDbDriver.Partition

/-! ### Strings -/

/-- `str::split_once`: what stands before and behind the first `c`. -/
def splitOnce (c : Char) : List Char → Option (List Char × List Char)
  | [] => none
  | x :: xs =>
    if x = c then some ([], xs)
    else (splitOnce c xs).map fun (before, behind) => (x :: before, behind)

/-- `str::rsplit_once`: what stands before and behind the last `c`. -/
def rsplitOnce (c : Char) (xs : List Char) : Option (List Char × List Char) :=
  (splitOnce c xs.reverse).map fun (behind, before) => (before.reverse, behind.reverse)

/-- `trim_start_matches("tcp:")` -/
def trimStartTcp : List Char → List Char
  | 't' :: 'c' :: 'p' :: ':' :: rest => trimStartTcp rest
  | xs => xs

/-- `str::parse::<u16>` -/
def parseU16 (xs : List Char) : Option UInt16 :=
  let digits := match xs with
    | '+' :: digits => digits
    | _ => xs
  match nat digits with
  | some (n, []) => if n < 2 ^ 16 then some (UInt16.ofNat n) else none
  | _ => none

/-! ### The parser -/

/-- The settings the parser knows, whatever they are called. -/
inductive MssqlSetting where
  | server
  | database
  | userId
  | password
  | trustServerCertificate
  | encrypt
deriving DecidableEq, Repr

def MssqlSetting.ofKey : String → Option MssqlSetting
  | "server" | "datasource" => some .server
  | "database" | "initialcatalog" => some .database
  | "userid" | "uid" | "user" => some .userId
  | "password" | "pwd" => some .password
  | "trustservercertificate" => some .trustServerCertificate
  | "encrypt" => some .encrypt
  | _ => none

@[ext]
structure MssqlSettings where
  host : String := "localhost"
  port : UInt16 := 1433
  database : String := ""
  username : String := ""
  password : String := ""
  trustCert : Bool := false
  encrypt : Bool := true
deriving DecidableEq, Repr

namespace MssqlSettings

/-- The arms of the match on the key. -/
def assign (s : MssqlSettings) : Option (MssqlSetting × List Char) → MssqlSettings
  | none => s
  | some (.server, val) =>
    let v := trimStartTcp (trim isWhitespace val)
    match rsplitOnce ',' v with
    | some (h, p) =>
      { s with
        host := String.ofList (trim isWhitespace h)
        port := (parseU16 (trim isWhitespace p)).getD 1433 }
    | none => { s with host := String.ofList v }
  | some (.database, val) => { s with database := String.ofList (trim isWhitespace val) }
  | some (.userId, val) => { s with username := String.ofList (trim isWhitespace val) }
  | some (.password, val) => { s with password := String.ofList (trim isWhitespace val) }
  | some (.trustServerCertificate, val) =>
    { s with trustCert := eqIgnoreAsciiCase (trim isWhitespace val) "true".toList }
  | some (.encrypt, val) =>
    { s with encrypt := !eqIgnoreAsciiCase (trim isWhitespace val) "false".toList }

def config (s : MssqlSettings) : DatabaseConfig :=
  { DatabaseConfig.mssql s.host s.port s.database (.sqlPassword ⟨s.username, s.password⟩) with
    tls := s.encrypt
    trustCert := s.trustCert
    pool := .upTo 1 }

end MssqlSettings

section Parse

-- `str::to_lowercase`
variable (toLowercase : String → String)

/-- `key.trim().to_lowercase().replace(' ', "")` -/
def normalizeKey (key : List Char) : String :=
  String.ofList ((toLowercase (String.ofList (trim isWhitespace key))).toList.filter (· ≠ ' '))

/-- What a segment assigns, if it is not empty and the parser knows its key. -/
def parseSegment (part : List Char) : Except String (Option (MssqlSetting × List Char)) :=
  let part := trim isWhitespace part
  if part = [] then .ok none
  else
    match splitOnce '=' part with
    | none =>
      let text := String.ofList part
      .error s!"invalid connection string segment: {text}"
    | some (key, val) => .ok ((MssqlSetting.ofKey (normalizeKey toLowercase key)).map (·, val))

def parseSegments (s : MssqlSettings) (parts : List (List Char)) : Except String MssqlSettings :=
  parts.foldlM (fun s part => (parseSegment toLowercase part).map s.assign) s

def parseMssqlConnStr (connStr : String) : Except String DatabaseConfig :=
  (parseSegments toLowercase {} (connStr.toList.splitOn ';')).map MssqlSettings.config

end Parse

/-- `str::to_lowercase` on the characters of ASCII. -/
def toAsciiLowercase (s : String) : String := String.ofList (s.toList.map Char.toLower)

/-- The configuration of a host and a port without credentials. -/
def bareConfig (host : String) (port : UInt16) : DatabaseConfig :=
  { DatabaseConfig.mssql host port "" (.sqlPassword ⟨"", ""⟩) with pool := .upTo 1 }

example : parseMssqlConnStr toAsciiLowercase " SERVER = tcp:db,1500 ;;x=y; Data  Source=db,1600" =
    .ok (bareConfig "db" 1600) := by decide

/-! ### The loop -/

/-- What an assignment writes to a variable of the setting `k`. -/
def written {C : Type} (k : MssqlSetting) (read : List Char → Option C)
    (op : Option (MssqlSetting × List Char)) : Option C :=
  op.bind fun (k', val) => if k' = k then read val else none

def serverHost (val : List Char) : String :=
  let v := trimStartTcp (trim isWhitespace val)
  match rsplitOnce ',' v with
  | some (h, _) => String.ofList (trim isWhitespace h)
  | none => String.ofList v

/-- The port of a server, if it has a comma. -/
def serverPort (val : List Char) : Option UInt16 :=
  (rsplitOnce ',' (trimStartTcp (trim isWhitespace val))).map fun (_, p) =>
    (parseU16 (trim isWhitespace p)).getD 1433

def trimmed (val : List Char) : String := String.ofList (trim isWhitespace val)

section Loop

variable {toLowercase : String → String} {s : MssqlSettings} {parts : List (List Char)}

theorem parseSegments_eq_ok_iff {s' : MssqlSettings} :
    parseSegments toLowercase s parts = .ok s' ↔
      ∃ ops, List.Forall₂ (fun part op => parseSegment toLowercase part = .ok op) parts ops ∧
        s' = ops.foldl MssqlSettings.assign s := by
  induction parts generalizing s with
  | nil =>
    constructor
    · intro h
      cases h
      exact ⟨[], .nil, rfl⟩
    · rintro ⟨ops, hops, rfl⟩
      cases hops
      rfl
  | cons part parts ih =>
    have hcons : parseSegments toLowercase s (part :: parts) =
        ((parseSegment toLowercase part).map s.assign).bind fun s => parseSegments toLowercase s parts :=
      List.foldlM_cons
    rw [hcons]
    cases hpart : parseSegment toLowercase part with
    | error e =>
      constructor
      · intro h
        cases h
      · rintro ⟨ops, hops, -⟩
        cases hops with
        | cons hop _ =>
          rw [hpart] at hop
          cases hop
    | ok op =>
      show parseSegments toLowercase (s.assign op) parts = .ok s' ↔ _
      rw [ih]
      constructor
      · rintro ⟨ops, hops, rfl⟩
        exact ⟨op :: ops, .cons hpart hops, rfl⟩
      · rintro ⟨ops, hops, rfl⟩
        cases hops with
        | cons hop hops =>
          rw [hpart] at hop
          cases hop
          exact ⟨_, hops, rfl⟩

theorem assign_server (s : MssqlSettings) (val : List Char) :
    s.assign (some (.server, val)) =
      { s with host := serverHost val, port := (serverPort val).getD s.port } := by
  simp only [MssqlSettings.assign, serverHost, serverPort]
  cases rsplitOnce ',' (trimStartTcp (trim isWhitespace val)) <;> rfl

theorem foldl_assign_view {C : Type} (view : MssqlSettings → C) (k : MssqlSetting)
    (read : List Char → Option C)
    (h : ∀ s k' val, view (MssqlSettings.assign s (some (k', val))) =
      (if k' = k then read val else none).getD (view s))
    (ops : List (Option (MssqlSetting × List Char))) (s : MssqlSettings) :
    view (ops.foldl MssqlSettings.assign s) = ((ops.filterMap (written k read)).getLast?).getD (view s) := by
  refine foldl_view ?_ ops s
  rintro s (_ | ⟨k', val⟩)
  · rfl
  · exact h s k' val

/-- Every variable holds what was last written to it. -/
theorem foldl_assign (ops : List (Option (MssqlSetting × List Char))) (s : MssqlSettings) :
    ops.foldl MssqlSettings.assign s =
      { host := ((ops.filterMap (written .server fun val => some (serverHost val))).getLast?).getD s.host
        port := ((ops.filterMap (written .server serverPort)).getLast?).getD s.port
        database := ((ops.filterMap (written .database fun val => some (trimmed val))).getLast?).getD s.database
        username := ((ops.filterMap (written .userId fun val => some (trimmed val))).getLast?).getD s.username
        password := ((ops.filterMap (written .password fun val => some (trimmed val))).getLast?).getD s.password
        trustCert := ((ops.filterMap (written .trustServerCertificate fun val =>
          some (eqIgnoreAsciiCase (trim isWhitespace val) "true".toList))).getLast?).getD s.trustCert
        encrypt := ((ops.filterMap (written .encrypt fun val =>
          some (!eqIgnoreAsciiCase (trim isWhitespace val) "false".toList))).getLast?).getD s.encrypt } := by
  have h {C : Type} (view : MssqlSettings → C) (k : MssqlSetting) (read : List Char → Option C)
      (hview : ∀ s k' val, view (MssqlSettings.assign s (some (k', val))) =
        (if k' = k then read val else none).getD (view s)) :=
    foldl_assign_view view k read hview ops s
  apply MssqlSettings.ext
  · exact h MssqlSettings.host .server _ fun s k val => by cases k <;> first | rfl | rw [assign_server]; rfl
  · exact h MssqlSettings.port .server _ fun s k val => by cases k <;> first | rfl | rw [assign_server]; rfl
  · exact h MssqlSettings.database .database _ fun s k val => by
      cases k <;> first | rfl | rw [assign_server]; rfl
  · exact h MssqlSettings.username .userId _ fun s k val => by
      cases k <;> first | rfl | rw [assign_server]; rfl
  · exact h MssqlSettings.password .password _ fun s k val => by
      cases k <;> first | rfl | rw [assign_server]; rfl
  · exact h MssqlSettings.trustCert .trustServerCertificate _ fun s k val => by
      cases k <;> first | rfl | rw [assign_server]; rfl
  · exact h MssqlSettings.encrypt .encrypt _ fun s k val => by
      cases k <;> first | rfl | rw [assign_server]; rfl

end Loop

/-! ### Overridden segments -/

section Overridden

variable (toLowercase : String → String)

def isSetting (k : MssqlSetting) (part : List Char) : Bool :=
  match parseSegment toLowercase part with
  | .ok (some (k', _)) => k' = k
  | _ => false

/-- The string without the segments of `k` that another segment of `k` follows. -/
def withoutOverridden (k : MssqlSetting) (connStr : String) : String :=
  String.ofList ([';'].intercalate (keepLast (isSetting toLowercase k) (connStr.toList.splitOn ';')))

/-- What the `Server` segments say about the port, one after the other. -/
def serverPorts (connStr : String) : List (Option UInt16) :=
  (connStr.toList.splitOn ';').filterMap fun part =>
    match parseSegment toLowercase part with
    | .ok (some (.server, val)) => some (serverPort val)
    | _ => none

/-- The last `Server` segment names a port, or those before it leave the port at its default. -/
def PortSettled (connStr : String) : Prop :=
  (∃ p, (serverPorts toLowercase connStr).getLast? = some (some p)) ∨
    ∀ p, (serverPorts toLowercase connStr).reduceOption.getLast? = some p → p = 1433

variable {toLowercase} {k : MssqlSetting} {ops : List (Option (MssqlSetting × List Char))}

def assigns (k : MssqlSetting) (op : Option (MssqlSetting × List Char)) : Bool := op.any fun (k', _) => k' = k

/-- The segments of another setting do not write the variable. -/
theorem filterMap_keepLast_of_ne {C : Type} {k k' : MssqlSetting} (hk : k' ≠ k) (read : List Char → Option C) :
    (keepLast (assigns k) ops).filterMap (written k' read) = ops.filterMap (written k' read) := by
  apply filterMap_keepLast_of_disjoint
  rintro (_ | ⟨j, val⟩) hj
  · rfl
  · have hj' : j = k := by simpa [assigns] using hj
    simp [written, hj', Ne.symm hk]

/-- A variable that every segment of its setting writes. -/
theorem getLast?_written_keepLast {C : Type} (k k' : MssqlSetting) (read : List Char → C) :
    ((keepLast (assigns k) ops).filterMap (written k' fun val => some (read val))).getLast? =
      (ops.filterMap (written k' fun val => some (read val))).getLast? := by
  by_cases hk : k' = k
  · subst hk
    apply getLast?_keepLast
    rintro (_ | ⟨k, val⟩)
    · rfl
    · by_cases heq : k = k' <;> simp [assigns, written, heq]
  · rw [filterMap_keepLast_of_ne hk]

theorem filterMap_serverPort (ops : List (Option (MssqlSetting × List Char))) :
    ops.filterMap (written .server serverPort) =
      (ops.filterMap (written .server fun val => some (serverPort val))).reduceOption := by
  rw [List.reduceOption, List.filterMap_filterMap]
  congr 1
  funext op
  rcases op with _ | ⟨k, val⟩
  · rfl
  · by_cases hk : k = .server <;> simp [written, hk]

/-- Whether the last entry, or the last that is not empty, makes a difference. -/
theorem getLast?_join_eq_iff {C : Type} (d : C) (cs : List (Option C)) :
    (cs.getLast?.toList.reduceOption.getLast?).getD d = (cs.reduceOption.getLast?).getD d ↔
      (∃ c, cs.getLast? = some (some c)) ∨ ∀ c, cs.reduceOption.getLast? = some c → c = d := by
  rcases List.eq_nil_or_concat cs with rfl | ⟨cs, (_ | c), rfl⟩
  · simp
  · cases hlast : cs.reduceOption.getLast? with
    | none => simp [List.concat_eq_append, List.reduceOption_append, hlast]
    | some c => simp [List.concat_eq_append, List.reduceOption_append, hlast, eq_comm]
  · simp [List.concat_eq_append, List.reduceOption_append]

theorem getLast?_serverPort_keepLast :
    ((keepLast (assigns .server) ops).filterMap (written .server serverPort)).getLast? =
      ((ops.filterMap
        (written .server fun val => some (serverPort val))).getLast?.toList).reduceOption.getLast? := by
  have hlast := @getLast?_written_keepLast ops _ .server .server serverPort
  rw [filterMap_serverPort, ← hlast, filterMap_keepLast_of_only]
  · cases ((ops.filter (assigns .server)).getLast?).bind
      (written .server fun val => some (serverPort val)) <;> rfl
  · rintro (_ | ⟨k, val⟩) c hc
    · cases hc
    · by_cases hk : k = .server
      · simp [assigns, hk]
      · simp [written, hk] at hc

/-- Only the port can tell whether overridden segments were there. -/
theorem foldl_assign_keepLast (s : MssqlSettings) :
    (keepLast (assigns k) ops).foldl MssqlSettings.assign s =
      { ops.foldl MssqlSettings.assign s with
        port := (((keepLast (assigns k) ops).filterMap (written .server serverPort)).getLast?).getD s.port } := by
  rw [foldl_assign, foldl_assign]
  simp only [getLast?_written_keepLast]

theorem config_foldl_keepLast_iff (s : MssqlSettings) :
    ((keepLast (assigns k) ops).foldl MssqlSettings.assign s).config =
        (ops.foldl MssqlSettings.assign s).config ↔
      (k = .server →
        (∃ p, (ops.filterMap (written .server fun val => some (serverPort val))).getLast? = some (some p)) ∨
        ∀ p, (ops.filterMap
          (written .server fun val => some (serverPort val))).reduceOption.getLast? = some p → p = s.port) := by
  rw [← getLast?_join_eq_iff]
  have hport : (ops.foldl MssqlSettings.assign s).port =
      ((ops.filterMap
        (written .server fun val => some (serverPort val))).reduceOption.getLast?).getD s.port := by
    rw [foldl_assign, filterMap_serverPort]
  constructor
  · rintro h rfl
    have heq := congrArg DatabaseConfig.port h
    rw [foldl_assign_keepLast, getLast?_serverPort_keepLast] at heq
    exact heq.trans hport
  · intro h
    rw [foldl_assign_keepLast]
    congr 1
    apply MssqlSettings.ext <;> try rfl
    show Option.getD _ _ = (ops.foldl MssqlSettings.assign s).port
    rw [hport]
    by_cases hk : k = .server
    · rw [hk, getLast?_serverPort_keepLast, h hk]
    · rw [filterMap_keepLast_of_ne (Ne.symm hk), filterMap_serverPort]

/-! ### Segments of a string -/

theorem splitOn_intercalate_keepLast (p : List Char → Bool) (text : List Char) :
    ([';'].intercalate (keepLast p (text.splitOn ';'))).splitOn ';' = keepLast p (text.splitOn ';') := by
  apply List.splitOn_intercalate
  · intro part hpart
    obtain ⟨l, r, -, hsep, -⟩ := exists_append_of_mem_splitOnP (mem_of_mem_keepLast hpart)
    intro hmem
    simpa using hsep ';' hmem
  · exact keepLast_ne_nil (List.splitOn_ne_nil ';' text)

theorem isSetting_eq {part : List Char} {op : Option (MssqlSetting × List Char)}
    (h : parseSegment toLowercase part = .ok op) : isSetting toLowercase k part = assigns k op := by
  unfold isSetting assigns
  rw [h]
  rcases op with _ | ⟨k', val⟩ <;> rfl

theorem serverPorts_eq {connStr : String}
    (h : List.Forall₂ (fun part op => parseSegment toLowercase part = .ok op)
      (connStr.toList.splitOn ';') ops) :
    serverPorts toLowercase connStr = ops.filterMap (written .server fun val => some (serverPort val)) := by
  unfold serverPorts
  generalize connStr.toList.splitOn ';' = parts at h
  induction h with
  | nil => rfl
  | @cons part op parts ops hop hops ih =>
    rw [List.filterMap_cons, List.filterMap_cons, ih, hop]
    rcases op with _ | ⟨k, val⟩
    · rfl
    · cases k <;> rfl

end Overridden

/-- Dropping the overridden segments of a setting leaves the configuration as it was, except for those of
`Server` where the port is neither settled by the last one nor left at its default by those before it. -/
theorem parse_withoutOverridden_iff (toLowercase : String → String) (connStr : String)
    (config : DatabaseConfig) (hparse : parseMssqlConnStr toLowercase connStr = .ok config)
    (k : MssqlSetting) :
    parseMssqlConnStr toLowercase (withoutOverridden toLowercase k connStr) = .ok config ↔
      (k = .server → PortSettled toLowercase connStr) := by
  unfold parseMssqlConnStr at hparse
  cases hsegments : parseSegments toLowercase {} (connStr.toList.splitOn ';') with
  | error e => rw [hsegments] at hparse; cases hparse
  | ok s =>
    rw [hsegments] at hparse
    cases hparse
    obtain ⟨ops, hops, rfl⟩ := parseSegments_eq_ok_iff.mp hsegments
    have hdrop : parseMssqlConnStr toLowercase (withoutOverridden toLowercase k connStr) =
        .ok ((keepLast (assigns k) ops).foldl MssqlSettings.assign {}).config := by
      have hkept := forall₂_keepLast (fun part op hop => isSetting_eq (k := k) hop) hops
      unfold parseMssqlConnStr withoutOverridden
      rw [String.toList_ofList, splitOn_intercalate_keepLast, parseSegments_eq_ok_iff.mpr ⟨_, hkept, rfl⟩]
      rfl
    rw [PortSettled, serverPorts_eq hops, hdrop, Except.ok.injEq]
    exact config_foldl_keepLast_iff {}

theorem parse_withoutOverridden_settled :
    parseMssqlConnStr toAsciiLowercase
        (withoutOverridden toAsciiLowercase .server "Server=a,1500;Server=b,1600") =
          .ok (bareConfig "b" 1600) ↔
      (MssqlSetting.server = .server → PortSettled toAsciiLowercase "Server=a,1500;Server=b,1600") :=
  parse_withoutOverridden_iff toAsciiLowercase "Server=a,1500;Server=b,1600" (bareConfig "b" 1600) (by decide)
    .server

/-- The port of the first server is kept for the second. -/
theorem parse_port_left_over :
    parseMssqlConnStr toAsciiLowercase "Server=a,1500;Server=b" = .ok (bareConfig "b" 1500) ∧
      withoutOverridden toAsciiLowercase .server "Server=a,1500;Server=b" = "Server=b" ∧
      parseMssqlConnStr toAsciiLowercase "Server=b" = .ok (bareConfig "b" 1433) ∧
      ¬ ∀ k config, parseMssqlConnStr toAsciiLowercase "Server=a,1500;Server=b" = .ok config →
        parseMssqlConnStr toAsciiLowercase
          (withoutOverridden toAsciiLowercase k "Server=a,1500;Server=b") = .ok config := by
  have hparse : parseMssqlConnStr toAsciiLowercase "Server=a,1500;Server=b" = .ok (bareConfig "b" 1500) := by
    decide
  have hdrop : withoutOverridden toAsciiLowercase .server "Server=a,1500;Server=b" = "Server=b" := by decide
  have hbare : parseMssqlConnStr toAsciiLowercase "Server=b" = .ok (bareConfig "b" 1433) := by decide
  refine ⟨hparse, hdrop, hbare, ?_⟩
  intro h
  have hsame := h .server _ hparse
  rw [hdrop, hbare] at hsame
  exact absurd hsame (by decide)

/-! ### What a string comes to -/

/-- A segment that is not blank and has no `=`. -/
def Malformed (part : List Char) : Prop := trim isWhitespace part ≠ [] ∧ '=' ∉ trim isWhitespace part

theorem splitOnce_eq_none_iff {c : Char} {xs : List Char} : splitOnce c xs = none ↔ c ∉ xs := by
  induction xs with
  | nil => simp [splitOnce]
  | cons x xs ih =>
    unfold splitOnce
    split
    · next h => simp [h]
    · next h => simp [ih, Ne.symm h]

section Meaning

variable {toLowercase : String → String} {part : List Char} {parts : List (List Char)} {s : MssqlSettings}

theorem parseSegment_eq_error_iff {e : String} : parseSegment toLowercase part = .error e ↔
    Malformed part ∧ e = "invalid connection string segment: " ++ String.ofList (trim isWhitespace part) := by
  unfold parseSegment Malformed
  dsimp only
  by_cases hblank : trim isWhitespace part = []
  · simp [hblank]
  · rw [if_neg hblank]
    cases hsplit : splitOnce '=' (trim isWhitespace part) with
    | none => simp [hblank, splitOnce_eq_none_iff.mp hsplit, eq_comm, toString]
    | some keyval =>
      have hmem : '=' ∈ trim isWhitespace part := by
        by_contra hnot
        rw [splitOnce_eq_none_iff.mpr hnot] at hsplit
        cases hsplit
      simp [hmem]

theorem exists_parseSegment_iff : (∃ op, parseSegment toLowercase part = .ok op) ↔ ¬ Malformed part := by
  cases hpart : parseSegment toLowercase part with
  | ok op =>
    refine iff_of_true ⟨op, rfl⟩ ?_
    intro hmal
    have herr : parseSegment toLowercase part = .error _ := parseSegment_eq_error_iff.mpr ⟨hmal, rfl⟩
    rw [hpart] at herr
    cases herr
  | error e => simpa using (parseSegment_eq_error_iff.mp hpart).1

theorem parseSegments_eq : parseSegments toLowercase s parts =
    (parts.mapM (parseSegment toLowercase)).map fun ops => ops.foldl MssqlSettings.assign s :=
  Lib.foldlM_map_eq

/-- What is written to a variable of a setting stands in the segments of that setting. -/
theorem filterMap_written {C : Type} {k : MssqlSetting} {read : List Char → Option C}
    {ops : List (Option (MssqlSetting × List Char))}
    (h : List.Forall₂ (fun part op => parseSegment toLowercase part = .ok op) parts ops) :
    ops.filterMap (written k read) =
      (parts.filter (isSetting toLowercase k)).filterMap fun part =>
        ((parseSegment toLowercase part).toOption).bind (written k read) := by
  induction h with
  | nil => rfl
  | @cons part op parts ops hop hops ih =>
    have hread : ((parseSegment toLowercase part).toOption).bind (written k read) = written k read op := by
      rw [hop]
      rfl
    rw [List.filterMap_cons, ih, List.filter_cons, isSetting_eq hop]
    cases hassigns : assigns k op with
    | true =>
      rw [if_pos rfl, List.filterMap_cons, hread]
    | false =>
      have hnone : written k read op = none := by
        rcases op with _ | ⟨k', val⟩
        · rfl
        · have hk : k' ≠ k := by simpa [assigns] using hassigns
          simp [written, hk]
      rw [hnone, if_neg (by simp)]

end Meaning

/-- A connection string is refused exactly if one of its segments is not blank and has no `=`, and the error
names the first such segment. -/
theorem parse_eq_error_iff (toLowercase : String → String) (connStr e : String) :
    parseMssqlConnStr toLowercase connStr = .error e ↔
      ∃ front part rest, connStr.toList.splitOn ';' = front ++ part :: rest ∧ (∀ p ∈ front, ¬ Malformed p) ∧
        Malformed part ∧
        e = "invalid connection string segment: " ++ String.ofList (trim isWhitespace part) := by
  have herr : parseMssqlConnStr toLowercase connStr = .error e ↔
      (connStr.toList.splitOn ';').mapM (parseSegment toLowercase) = .error e := by
    rw [parseMssqlConnStr, parseSegments_eq]
    cases (connStr.toList.splitOn ';').mapM (parseSegment toLowercase) <;> simp [Except.map]
  rw [herr, Lib.mapM_eq_error_iff]
  simp only [exists_parseSegment_iff, parseSegment_eq_error_iff]

/-- A string whose segments can all be read means the same as one with the same segments of each setting, in the
same order: segments of different settings can change places, and those of no setting, or blank, can come and
go. -/
theorem parse_reordered (toLowercase : String → String) (connStr connStr' : String) (config : DatabaseConfig)
    (hparse : parseMssqlConnStr toLowercase connStr = .ok config)
    (hread : ∀ part ∈ connStr'.toList.splitOn ';', ¬ Malformed part)
    (hsame : ∀ k, (connStr'.toList.splitOn ';').filter (isSetting toLowercase k) =
      (connStr.toList.splitOn ';').filter (isSetting toLowercase k)) :
    parseMssqlConnStr toLowercase connStr' = .ok config := by
  obtain ⟨ops', hops'⟩ : ∃ ops, (connStr'.toList.splitOn ';').mapM (parseSegment toLowercase) = .ok ops :=
    Lib.exists_mapM_ok fun part hpart => exists_parseSegment_iff.mpr (hread part hpart)
  unfold parseMssqlConnStr at hparse ⊢
  cases hsegments : parseSegments toLowercase {} (connStr.toList.splitOn ';') with
  | error e =>
    rw [hsegments] at hparse
    cases hparse
  | ok s =>
    rw [hsegments] at hparse
    cases hparse
    obtain ⟨ops, hops, rfl⟩ := parseSegments_eq_ok_iff.mp hsegments
    have hwritten {C : Type} (k : MssqlSetting) (read : List Char → Option C) :
        ops'.filterMap (written k read) = ops.filterMap (written k read) := by
      rw [filterMap_written hops, filterMap_written (Lib.mapM_eq_ok_iff.mp hops'), hsame k]
    rw [parseSegments_eq, hops', foldl_assign]
    simp only [Except.map, foldl_assign, hwritten]

instance (part : List Char) : Decidable (Malformed part) := by
  unfold Malformed; infer_instance

/-- What is known and what is not, in another order. -/
theorem parse_reordered_swapped :
    parseMssqlConnStr toAsciiLowercase ";Encrypt=false;App=x; Server=db,1500" =
      .ok { bareConfig "db" 1500 with tls := false } := by
  refine parse_reordered toAsciiLowercase " Server=db,1500;Encrypt=false" _ _ (by decide) (by decide) ?_
  intro k
  cases k <;> decide

end RustDbDriver
