import RustDbDriver.MssqlConnStr

/-!
# Rendered connection strings

`MssqlTarget` is what a connection string of SQL Server is to say, and `MssqlTarget.Renders` the strings
that say it: a segment for every setting under any of its names, in any order, with blanks, empty
segments and unknown segments anywhere. The parser reads every such string as the target
(`parse_of_renders`).
-/

namespace RustDbDriver
open Lib.Assign Lib.Pieces Lib.Scan RustDbDriver.Partition

/-! ### Targets -/

/-- A value that can stand in a segment as it is. -/
structure Tidy (v : List Char) : Prop where
  semicolon_notMem : ';' ∉ v
  head : ∀ c ∈ v.head?, isWhitespace c = false
  last : ∀ c ∈ v.getLast?, isWhitespace c = false

structure MssqlTarget where
  host : String
  port : UInt16
  database : String
  username : String
  password : String
  trustCert : Bool
  tls : Bool
  host_tidy : Tidy host.toList
  host_not_tcp : ¬ "tcp:".toList <+: host.toList
  database_tidy : Tidy database.toList
  username_tidy : Tidy username.toList
  password_tidy : Tidy password.toList

/-- The names of a setting, without case and blanks. -/
def MssqlSetting.names : MssqlSetting → List String
  | .server => ["server", "datasource"]
  | .database => ["database", "initialcatalog"]
  | .userId => ["userid", "uid", "user"]
  | .password => ["password", "pwd"]
  | .trustServerCertificate => ["trustservercertificate"]
  | .encrypt => ["encrypt"]

/-- `v` with whitespace around it. -/
def Padded (v text : List Char) : Prop :=
  ∃ front back, text = front ++ (v ++ back) ∧ (∀ c ∈ front, isWhitespace c = true) ∧
    ∀ c ∈ back, isWhitespace c = true

/-- A name of the setting in any case, with spaces in it and whitespace around it. -/
def MssqlSetting.Spells (k : MssqlSetting) (text : List Char) : Prop :=
  ∃ inner, Padded inner text ∧
    ∃ name ∈ k.names, (inner.filter (· ≠ ' ')).map Char.toLower = name.toList

namespace MssqlTarget

variable (t : MssqlTarget)

/-- The values that say what `t` is to have of a setting. -/
def Says : MssqlSetting → List Char → Prop
  | .server, v => ∃ protocol ∈ ["", "tcp:"],
    v = protocol.toList ++ (t.host.toList ++ ',' :: (toString t.port.toNat).toList)
  | .database, v => v = t.database.toList
  | .userId, v => v = t.username.toList
  | .password, v => v = t.password.toList
  | .trustServerCertificate, v => v.map Char.toLower = (toString t.trustCert).toList
  | .encrypt, v => v.map Char.toLower = (toString t.tls).toList

/-- A segment: of a setting, empty, or of a key that the parser does not know. -/
inductive SegmentOf (toLowercase : String → String) : Option MssqlSetting → List Char → Prop where
  | setting {k : MssqlSetting} {key v value : List Char} : k.Spells key → t.Says k v → Padded v value →
      SegmentOf toLowercase (some k) (key ++ '=' :: value)
  | empty {text : List Char} : (∀ c ∈ text, isWhitespace c = true) → SegmentOf toLowercase none text
  | unknown {key value : List Char} : '=' ∉ key → ';' ∉ key → ';' ∉ value →
      MssqlSetting.ofKey (normalizeKey toLowercase key) = none →
      SegmentOf toLowercase none (key ++ '=' :: value)

/-- A string of segments among which there is one for every setting. -/
def Renders (toLowercase : String → String) (connStr : String) : Prop :=
  ∃ (kinds : List (Option MssqlSetting)) (parts : List (List Char)),
    connStr.toList = [';'].intercalate parts ∧ List.Forall₂ (t.SegmentOf toLowercase) kinds parts ∧
      ∀ k, some k ∈ kinds

end MssqlTarget

/-- `str::to_lowercase` on the characters of ASCII. -/
def LowercasesAscii (toLowercase : String → String) : Prop :=
  ∀ s : String, (∀ c ∈ s.toList, c.toNat < 128) → toLowercase s = toAsciiLowercase s

/-! ### Keys -/

section Keys

variable {toLowercase : String → String} {k : MssqlSetting}

theorem ofKey_of_mem_names {name : String} (h : name ∈ k.names) : MssqlSetting.ofKey name = some k := by
  cases k <;> simp [MssqlSetting.names] at h
  all_goals rcases h with rfl | rfl | rfl <;> rfl

theorem isLower_of_mem_names {name : String} (h : name ∈ k.names) : ∀ c ∈ name.toList, c.isLower = true := by
  have hall : name.toList.all Char.isLower = true := by
    cases k <;> simp [MssqlSetting.names] at h
    all_goals rcases h with rfl | rfl | rfl <;> decide
  exact List.all_eq_true.mp hall

theorem isAlpha_bounds {c : Char} (h : c.isAlpha = true) : 65 ≤ c.toNat ∧ c.toNat ≤ 122 := by
  simp only [Char.isAlpha, Char.isUpper, Char.isLower, Bool.or_eq_true, Bool.and_eq_true, decide_eq_true_eq,
    UInt32.le_iff_toNat_le] at h
  change (65 ≤ c.toNat ∧ c.toNat ≤ 90) ∨ (97 ≤ c.toNat ∧ c.toNat ≤ 122) at h
  omega

theorem isWhitespace_of_isAlpha {c : Char} (h : c.isAlpha = true) : isWhitespace c = false := by
  have hc := isAlpha_bounds h
  simp only [isWhitespace, decide_eq_false_iff_not]
  omega

/-- What a name is spelled with: letters and spaces. -/
theorem isAlpha_or_space {inner : List Char} {name : String} (hname : name ∈ k.names)
    (h : (inner.filter (· ≠ ' ')).map Char.toLower = name.toList) :
    ∀ c ∈ inner, c.isAlpha = true ∨ c = ' ' := by
  intro c hc
  by_cases hspace : c = ' '
  · exact .inr hspace
  · refine .inl ?_
    have hmem : c.toLower ∈ name.toList := by
      rw [← h]
      exact List.mem_map_of_mem (List.mem_filter.mpr ⟨hc, by simpa using hspace⟩)
    rw [← Char.isLower_toLower_eq_isAlpha]
    exact isLower_of_mem_names hname _ hmem

theorem spells_chars {key : List Char} (h : k.Spells key) :
    ∀ c ∈ key, c.isAlpha = true ∨ isWhitespace c = true := by
  obtain ⟨inner, ⟨front, back, rfl, hfront, hback⟩, name, hname, hinner⟩ := h
  intro c hc
  rcases List.mem_append.mp hc with hc | hc
  · exact .inr (hfront c hc)
  rcases List.mem_append.mp hc with hc | hc
  · rcases isAlpha_or_space hname hinner c hc with halpha | rfl
    · exact .inl halpha
    · exact .inr rfl
  · exact .inr (hback c hc)

theorem notMem_of_spells {key : List Char} (h : k.Spells key) {d : Char} (hd : d.isAlpha = false)
    (hd' : isWhitespace d = false) : d ∉ key := by
  intro hmem
  rcases spells_chars h d hmem with halpha | hspace
  · rw [hd] at halpha
    cases halpha
  · rw [hd'] at hspace
    cases hspace

/-- The spaces of a name are gone after trimming and removing them, wherever they stood. -/
theorem filter_trim_of_spells {inner key : List Char} (hpad : Padded inner key)
    (hinner : ∀ c ∈ inner, c.isAlpha = true ∨ c = ' ') :
    (trim isWhitespace key).filter (· ≠ ' ') = inner.filter (· ≠ ' ') ∧
      ∀ c ∈ trim isWhitespace key, c.isAlpha = true ∨ c = ' ' := by
  obtain ⟨front, back, rfl, hfront, hback⟩ := hpad
  obtain ⟨left, right, hcut, hleft, hright⟩ := trim_split isWhitespace inner
  obtain ⟨hhead, hlast⟩ := ends_trim isWhitespace inner
  have hfront' : ∀ c ∈ front ++ left, isWhitespace c = true := by
    intro c hc
    rcases List.mem_append.mp hc with hc | hc
    · exact hfront c hc
    · exact hleft c hc
  have hback' : ∀ c ∈ right ++ back, isWhitespace c = true := by
    intro c hc
    rcases List.mem_append.mp hc with hc | hc
    · exact hright c hc
    · exact hback c hc
  have hkey : front ++ (inner ++ back) = (front ++ left) ++ (trim isWhitespace inner ++ (right ++ back)) := by
    conv_lhs => rw [hcut]
    simp only [List.append_assoc]
  -- whitespace among letters and spaces is spaces
  have hspaces : ∀ cs : List Char, (∀ c ∈ cs, c ∈ inner) → (∀ c ∈ cs, isWhitespace c = true) →
      cs.filter (· ≠ ' ') = [] := by
    intro cs hmem hblank
    rw [List.filter_eq_nil_iff]
    intro c hc
    rcases hinner c (hmem c hc) with halpha | rfl
    · exact absurd (hblank c hc) (by simp [isWhitespace_of_isAlpha halpha])
    · simp
  have hleft' := hspaces left (fun c hc => hcut ▸ List.mem_append_left _ hc) hleft
  have hright' := hspaces right
    (fun c hc => hcut ▸ List.mem_append_right _ (List.mem_append_right _ hc)) hright
  rw [hkey, trim_append_of_ends hfront' hhead hlast hback']
  constructor
  · conv_rhs => rw [hcut, List.filter_append, List.filter_append, hleft', hright']
    simp
  · intro c hc
    refine hinner c ?_
    rw [hcut]
    exact List.mem_append_right _ (List.mem_append_left _ hc)

theorem ofKey_of_spells (hlower : LowercasesAscii toLowercase) {key : List Char} (h : k.Spells key) :
    MssqlSetting.ofKey (normalizeKey toLowercase key) = some k := by
  obtain ⟨inner, hpad, name, hname, hinner⟩ := h
  obtain ⟨hfilter, hchars⟩ := filter_trim_of_spells hpad (isAlpha_or_space hname hinner)
  have hascii : ∀ c ∈ (String.ofList (trim isWhitespace key)).toList, c.toNat < 128 := by
    rw [String.toList_ofList]
    intro c hc
    rcases hchars c hc with halpha | rfl
    · have := isAlpha_bounds halpha
      omega
    · decide
  -- lowering moves no character to or from the space
  have hcomm : ((trim isWhitespace key).map Char.toLower).filter (· ≠ ' ') =
      ((trim isWhitespace key).filter (· ≠ ' ')).map Char.toLower := by
    rw [List.filter_map]
    congr 1
    refine List.filter_congr ?_
    intro c hc
    rcases hchars c hc with halpha | rfl
    · have hlow : c.toLower.isLower = true := by rw [Char.isLower_toLower_eq_isAlpha, halpha]
      have hne : c ≠ ' ' := by
        rintro rfl
        cases halpha
      have hne' : c.toLower ≠ ' ' := by
        intro heq
        rw [heq] at hlow
        cases hlow
      simp [hne, hne']
    · rfl
  have hkey : normalizeKey toLowercase key = name := by
    rw [normalizeKey, hlower _ hascii, toAsciiLowercase, String.toList_ofList, String.toList_ofList, hcomm,
      hfilter, hinner, String.ofList_toList]
  rw [hkey]
  exact ofKey_of_mem_names hname

end Keys

/-! ### Values -/

section Values

theorem padded_self (v : List Char) : Padded v v := ⟨[], [], by simp⟩

theorem trim_of_padded {v text : List Char} (h : Padded v text) (hv : Tidy v) :
    trim isWhitespace text = v := by
  obtain ⟨front, back, rfl, hfront, hback⟩ := h
  exact trim_append_of_ends hfront hv.head hv.last hback

theorem splitOnce_append {c : Char} {before : List Char} (h : c ∉ before) (behind : List Char) :
    splitOnce c (before ++ c :: behind) = some (before, behind) := by
  induction before with
  | nil => simp [splitOnce]
  | cons x before ih =>
    have hx : x ≠ c := fun heq => h (by simp [heq])
    rw [List.cons_append, splitOnce, if_neg hx, ih fun hc => h (List.mem_cons_of_mem _ hc)]
    rfl

theorem rsplitOnce_append {c : Char} {behind : List Char} (before : List Char) (h : c ∉ behind) :
    rsplitOnce c (before ++ c :: behind) = some (before, behind) := by
  have hrev : (before ++ c :: behind).reverse = behind.reverse ++ c :: before.reverse := by simp
  rw [rsplitOnce, hrev, splitOnce_append fun hc => h (List.mem_reverse.mp hc)]
  simp

theorem trimStartTcp_of_not_prefix {xs : List Char} (h : ¬ "tcp:".toList <+: xs) : trimStartTcp xs = xs := by
  unfold trimStartTcp
  split
  · next rest => exact absurd ⟨rest, rfl⟩ h
  · rfl

variable {t : MssqlTarget}

theorem isDigit_of_mem_port {c : Char} (hc : c ∈ (toString t.port.toNat).toList) : c.isDigit = true := by
  have hdigits : (toString t.port.toNat).toList = Nat.toDigits 10 t.port.toNat := by simp
  rw [hdigits] at hc
  exact Nat.isDigit_of_mem_toDigits (by decide) (by decide) hc

theorem isDigit_bounds {c : Char} (h : c.isDigit = true) : 48 ≤ c.toNat ∧ c.toNat ≤ 57 := by
  simpa [Char.isDigit, UInt32.le_iff_toNat_le] using h

theorem tidy_port : Tidy (toString t.port.toNat).toList where
  semicolon_notMem h := absurd (isDigit_of_mem_port h) (by decide)
  head c hc := by
    have := isDigit_bounds (isDigit_of_mem_port (List.mem_of_mem_head? hc))
    simp only [isWhitespace, decide_eq_false_iff_not]
    omega
  last c hc := by
    have := isDigit_bounds (isDigit_of_mem_port (List.mem_of_mem_getLast? hc))
    simp only [isWhitespace, decide_eq_false_iff_not]
    omega

theorem parseU16_port : parseU16 (toString t.port.toNat).toList = some t.port := by
  have hnat : nat (toString t.port.toNat).toList = some (t.port.toNat, []) := by
    simpa using nat_toString_append t.port.toNat not_startsWithDigit_nil
  have hplus : '+' ∉ (toString t.port.toNat).toList := fun h => absurd (isDigit_of_mem_port h) (by decide)
  unfold parseU16
  split
  · next digits heq => exact absurd (heq ▸ List.mem_cons_self) hplus
  · dsimp only
    rw [hnat]
    simp [t.port.toNat_lt]

/-- Without the protocol, the host and the port of a server are what stands before and behind the last
comma. -/
theorem trimStartTcp_server {protocol : String} (h : protocol ∈ ["", "tcp:"]) :
    trimStartTcp (protocol.toList ++ (t.host.toList ++ ',' :: (toString t.port.toNat).toList)) =
      t.host.toList ++ ',' :: (toString t.port.toNat).toList := by
  have hnot : ¬ "tcp:".toList <+: t.host.toList ++ ',' :: (toString t.port.toNat).toList := by
    rintro ⟨rest, hrest⟩
    obtain ⟨w, hw, -⟩ := exists_prefix_of_append_eq hrest (by simp)
    exact t.host_not_tcp ⟨w, hw.symm⟩
  simp only [List.mem_cons, List.not_mem_nil, or_false] at h
  rcases h with rfl | rfl
  · exact trimStartTcp_of_not_prefix hnot
  · exact trimStartTcp_of_not_prefix hnot

theorem rsplitOnce_server :
    rsplitOnce ',' (t.host.toList ++ ',' :: (toString t.port.toNat).toList) =
      some (t.host.toList, (toString t.port.toNat).toList) :=
  rsplitOnce_append _ fun h => absurd (isDigit_of_mem_port h) (by decide)

theorem server_of_said {val : List Char} (h : t.Says .server (trim isWhitespace val)) :
    serverHost val = t.host ∧ serverPort val = some t.port := by
  obtain ⟨protocol, hprotocol, hval⟩ := h
  have hhost : trim isWhitespace t.host.toList = t.host.toList :=
    trim_of_padded (padded_self _) t.host_tidy
  have hport : trim isWhitespace (toString t.port.toNat).toList = (toString t.port.toNat).toList :=
    trim_of_padded (padded_self _) tidy_port
  unfold serverHost serverPort
  simp only [hval, trimStartTcp_server hprotocol, rsplitOnce_server, hhost, hport, parseU16_port,
    String.ofList_toList, Option.map_some, Option.getD_some, and_self]

/-! ### What a value consists of -/

theorem tidy_server {protocol : String} (h : protocol ∈ ["", "tcp:"]) :
    Tidy (protocol.toList ++ (t.host.toList ++ ',' :: (toString t.port.toNat).toList)) := by
  have hport := @tidy_port t
  have hne : (toString t.port.toNat).toList ≠ [] := by simp [Nat.toDigits_ne_nil]
  obtain ⟨c, hc⟩ : ∃ c, (toString t.port.toNat).toList.getLast? = some c :=
    ⟨_, List.getLast?_eq_some_getLast hne⟩
  simp only [List.mem_cons, List.not_mem_nil, or_false] at h
  constructor
  · intro hmem
    simp only [List.mem_append, List.mem_cons] at hmem
    rcases hmem with hmem | hmem | hmem | hmem
    · rcases h with rfl | rfl <;> simp at hmem
    · exact t.host_tidy.semicolon_notMem hmem
    · cases hmem
    · exact hport.semicolon_notMem hmem
  · intro d hd
    rcases h with rfl | rfl
    · rw [show "".toList = [] from rfl, List.nil_append, List.head?_append] at hd
      cases hhead : t.host.toList.head? with
      | none =>
        rw [hhead] at hd
        cases hd
        rfl
      | some e =>
        rw [hhead] at hd
        cases hd
        exact t.host_tidy.head d hhead
    · cases hd
      rfl
  · intro d hd
    rw [List.getLast?_append, List.getLast?_append, List.getLast?_cons, hc] at hd
    cases hd
    exact hport.last _ hc

theorem tidy_of_isAlpha {v : List Char} (h : ∀ c ∈ v, c.isAlpha = true) : Tidy v where
  semicolon_notMem hmem := absurd (h _ hmem) (by decide)
  head c hc := isWhitespace_of_isAlpha (h c (List.mem_of_mem_head? hc))
  last c hc := isWhitespace_of_isAlpha (h c (List.mem_of_mem_getLast? hc))

theorem tidy_flag {b : Bool} {v : List Char} (h : v.map Char.toLower = (toString b).toList) : Tidy v := by
  apply tidy_of_isAlpha
  intro c hc
  have hmem : c.toLower ∈ (toString b).toList := by
    rw [← h]
    exact List.mem_map_of_mem hc
  have hlow : (toString b).toList.all Char.isLower = true := by cases b <;> decide
  rw [← Char.isLower_toLower_eq_isAlpha]
  exact List.all_eq_true.mp hlow _ hmem

theorem tidy_of_said {k : MssqlSetting} {v : List Char} (h : t.Says k v) : Tidy v := by
  cases k with
  | server =>
    obtain ⟨protocol, hprotocol, rfl⟩ := h
    exact tidy_server hprotocol
  | database => exact h ▸ t.database_tidy
  | userId => exact h ▸ t.username_tidy
  | password => exact h ▸ t.password_tidy
  | trustServerCertificate => exact tidy_flag h
  | encrypt => exact tidy_flag h

end Values

/-! ### Segments -/

section Segments

variable {toLowercase : String → String} {t : MssqlTarget}

theorem parseSegment_append {key : List Char} (hkey : '=' ∉ key) (value : List Char) :
    parseSegment toLowercase (key ++ '=' :: value) =
      .ok ((MssqlSetting.ofKey (normalizeKey toLowercase key)).map (·, value.rdropWhile isWhitespace)) := by
  have hsign : isWhitespace '=' = false := by simp [isWhitespace]
  have hkey' : '=' ∉ key.dropWhile isWhitespace := fun h => hkey ((List.dropWhile_suffix _).subset h)
  have hnorm : normalizeKey toLowercase (key.dropWhile isWhitespace) = normalizeKey toLowercase key := by
    rw [normalizeKey, normalizeKey, trim_dropWhile]
  unfold parseSegment
  simp only [trim_append_cons key '=' hsign, splitOnce_append hkey', hnorm]
  rw [if_neg (by simp)]

/-- A segment assigns to its setting what the target says, and has no semicolon. -/
theorem parseSegment_of_segmentOf (hlower : LowercasesAscii toLowercase) {kind : Option MssqlSetting}
    {part : List Char} (h : t.SegmentOf toLowercase kind part) :
    (∃ op, parseSegment toLowercase part = .ok op ∧ (∀ k, kind = some k → ∃ val, op = some (k, val)) ∧
      ∀ k val, op = some (k, val) → t.Says k (trim isWhitespace val)) ∧ ';' ∉ part := by
  cases h with
  | @setting k key v value hkey hsaid hvalue =>
    have htidy := tidy_of_said hsaid
    have hval : trim isWhitespace (value.rdropWhile isWhitespace) = v := by
      rw [trim_rdropWhile, trim_of_padded hvalue htidy]
    constructor
    · have hsign : '=' ∉ key := notMem_of_spells hkey (by decide) (by simp [isWhitespace])
      refine ⟨_, parseSegment_append hsign value, ?_, ?_⟩
      · intro k' hk'
        cases hk'
        rw [ofKey_of_spells hlower hkey]
        exact ⟨_, rfl⟩
      · intro k' val hop
        rw [ofKey_of_spells hlower hkey] at hop
        cases hop
        rw [hval]
        exact hsaid
    · obtain ⟨front, back, rfl, hfront, hback⟩ := hvalue
      have hsemi : isWhitespace ';' = false := by simp [isWhitespace]
      simp only [List.mem_append, List.mem_cons]
      rintro (hmem | hmem | hmem | hmem | hmem)
      · exact notMem_of_spells hkey (by decide) hsemi hmem
      · cases hmem
      · exact absurd (hfront _ hmem) (by simp [hsemi])
      · exact htidy.semicolon_notMem hmem
      · exact absurd (hback _ hmem) (by simp [hsemi])
  | empty hblank =>
    have htrim : trim isWhitespace part = [] := by
      have h := @trim_append_of_ends _ isWhitespace part [] [] hblank (by simp) (by simp) (by simp)
      simpa using h
    constructor
    · refine ⟨none, ?_, by simp, by simp⟩
      unfold parseSegment
      simp only [htrim, if_true]
    · intro hmem
      exact absurd (hblank _ hmem) (by simp [isWhitespace])
  | @unknown key value hsign hkey hvalue hunknown =>
    constructor
    · refine ⟨_, parseSegment_append hsign value, by simp, ?_⟩
      intro k val hop
      rw [hunknown] at hop
      cases hop
    · simp only [List.mem_append, List.mem_cons]
      rintro (hmem | hmem | hmem)
      · exact hkey hmem
      · cases hmem
      · exact hvalue hmem

theorem exists_ops (hlower : LowercasesAscii toLowercase) {kinds : List (Option MssqlSetting)}
    {parts : List (List Char)} (h : List.Forall₂ (t.SegmentOf toLowercase) kinds parts) :
    ∃ ops, List.Forall₂ (fun part op => parseSegment toLowercase part = .ok op) parts ops ∧
      (∀ k, some k ∈ kinds → ∃ val, some (k, val) ∈ ops) ∧
      (∀ k val, some (k, val) ∈ ops → t.Says k (trim isWhitespace val)) ∧ ∀ part ∈ parts, ';' ∉ part := by
  induction h with
  | nil => exact ⟨[], .nil, by simp, by simp, by simp⟩
  | @cons kind part kinds parts hpart _ ih =>
    obtain ⟨⟨op, hop, hkind, hsaid⟩, hsemi⟩ := parseSegment_of_segmentOf hlower hpart
    obtain ⟨ops, hops, hkinds, hall, hsemis⟩ := ih
    refine ⟨op :: ops, .cons hop hops, ?_, ?_, ?_⟩
    · intro k hk
      rcases List.mem_cons.mp hk with hk | hk
      · obtain ⟨val, rfl⟩ := hkind k hk.symm
        exact ⟨val, List.mem_cons_self⟩
      · obtain ⟨val, hval⟩ := hkinds k hk
        exact ⟨val, List.mem_cons_of_mem _ hval⟩
    · intro k val hmem
      rcases List.mem_cons.mp hmem with hmem | hmem
      · exact hsaid k val hmem.symm
      · exact hall k val hmem
    · intro p hp
      rcases List.mem_cons.mp hp with rfl | hp
      · exact hsemi
      · exact hsemis p hp

/-- Whatever the order, a variable of a setting ends with what the target says of it. -/
theorem getLast?_written {C : Type} {ops : List (Option (MssqlSetting × List Char))} {k : MssqlSetting}
    {read : List Char → Option C} {c : C} (hk : ∃ val, some (k, val) ∈ ops)
    (hall : ∀ k val, some (k, val) ∈ ops → t.Says k (trim isWhitespace val))
    (hread : ∀ val, t.Says k (trim isWhitespace val) → read val = some c) :
    (ops.filterMap (written k read)).getLast? = some c := by
  obtain ⟨val, hval⟩ := hk
  have hmem : c ∈ ops.filterMap (written k read) :=
    List.mem_filterMap.mpr ⟨_, hval, by simpa [written] using hread val (hall k val hval)⟩
  refine getLast?_eq_of_forall (List.ne_nil_of_mem hmem) ?_
  intro d hd
  obtain ⟨op, hop, hwritten⟩ := List.mem_filterMap.mp hd
  rcases op with _ | ⟨k', val'⟩
  · cases hwritten
  · by_cases hk' : k' = k
    · subst hk'
      have hd' : read val' = some d := by simpa [written] using hwritten
      rw [hread val' (hall k' val' hop)] at hd'
      exact (Option.some.inj hd').symm
    · simp [written, hk'] at hwritten

theorem flag_of_said {b : Bool} {val : List Char}
    (h : (trim isWhitespace val).map Char.toLower = (toString b).toList) :
    eqIgnoreAsciiCase (trim isWhitespace val) "true".toList = b ∧
      (!eqIgnoreAsciiCase (trim isWhitespace val) "false".toList) = b := by
  rw [eqIgnoreAsciiCase, eqIgnoreAsciiCase, h]
  cases b <;> decide

theorem trimmed_of_said {val : List Char} {text : String} (h : trim isWhitespace val = text.toList) :
    trimmed val = text := by
  rw [trimmed, h, String.ofList_toList]

theorem foldl_assign_of_said {ops : List (Option (MssqlSetting × List Char))}
    (hk : ∀ k, ∃ val, some (k, val) ∈ ops)
    (hall : ∀ k val, some (k, val) ∈ ops → t.Says k (trim isWhitespace val)) (s : MssqlSettings) :
    ops.foldl MssqlSettings.assign s =
      ⟨t.host, t.port, t.database, t.username, t.password, t.trustCert, t.tls⟩ := by
  have hhost := getLast?_written (hk .server) hall fun val hval => congrArg some (server_of_said hval).1
  have hport := getLast?_written (hk .server) hall fun val hval => (server_of_said hval).2
  have hdatabase := getLast?_written (hk .database) hall fun val hval => congrArg some (trimmed_of_said hval)
  have husername := getLast?_written (hk .userId) hall fun val hval => congrArg some (trimmed_of_said hval)
  have hpassword := getLast?_written (hk .password) hall fun val hval => congrArg some (trimmed_of_said hval)
  have htrust := getLast?_written (hk .trustServerCertificate) hall
    fun val hval => congrArg some (flag_of_said hval).1
  have htls := getLast?_written (hk .encrypt) hall fun val hval => congrArg some (flag_of_said hval).2
  rw [foldl_assign, hhost, hport, hdatabase, husername, hpassword, htrust, htls]
  rfl

end Segments

/-! ### A rendering -/

def sampleTarget : MssqlTarget where
  host := "db"
  port := 1500
  database := "app"
  username := "sa"
  password := "a=b,c"
  trustCert := true
  tls := false
  host_tidy := tidy_of_isAlpha (List.all_eq_true.mp (by decide))
  host_not_tcp := by decide
  database_tidy := tidy_of_isAlpha (List.all_eq_true.mp (by decide))
  username_tidy := tidy_of_isAlpha (List.all_eq_true.mp (by decide))
  password_tidy := ⟨by decide, by simp [isWhitespace], by simp [isWhitespace]⟩

theorem segmentOf_name {t : MssqlTarget} {k : MssqlSetting} {v value : List Char} (key : List Char)
    (name : String) (hname : name ∈ k.names) (hkey : (key.filter (· ≠ ' ')).map Char.toLower = name.toList)
    (hsaid : t.Says k v) (hvalue : Padded v value) :
    t.SegmentOf toAsciiLowercase (some k) (key ++ '=' :: value) :=
  .setting ⟨key, padded_self key, name, hname, hkey⟩ hsaid hvalue

def sampleString : String :=
  "ENCRYPT=False; ;Pwd=a=b,c;User ID=sa;app=x;Data Source=tcp:db,1500;Database= app;" ++
    "TrustServerCertificate=TRUE"

theorem sampleTarget_renders : sampleTarget.Renders toAsciiLowercase sampleString := by
  refine ⟨[some .encrypt, none, some .password, some .userId, none, some .server, some .database,
    some .trustServerCertificate], ["ENCRYPT=False".toList, " ".toList, "Pwd=a=b,c".toList,
    "User ID=sa".toList, "app=x".toList, "Data Source=tcp:db,1500".toList, "Database= app".toList,
    "TrustServerCertificate=TRUE".toList], rfl, ?_, by rintro (_ | _) <;> decide⟩
  refine .cons ?_ (.cons ?_ (.cons ?_ (.cons ?_ (.cons ?_ (.cons ?_ (.cons ?_ (.cons ?_ .nil)))))))
  · exact @segmentOf_name _ .encrypt "False".toList _ "ENCRYPT".toList "encrypt" (by decide) (by decide) rfl
      (padded_self _)
  · exact .empty (by simp [isWhitespace])
  · exact @segmentOf_name _ .password "a=b,c".toList _ "Pwd".toList "pwd" (by decide) (by decide) rfl
      (padded_self _)
  · exact @segmentOf_name _ .userId "sa".toList _ "User ID".toList "userid" (by decide) (by decide) rfl
      (padded_self _)
  · exact @MssqlTarget.SegmentOf.unknown _ _ "app".toList "x".toList (by decide) (by decide) (by decide)
      (by decide)
  · exact @segmentOf_name _ .server "tcp:db,1500".toList _ "Data Source".toList "datasource" (by decide)
      (by decide) ⟨"tcp:", by decide, rfl⟩ (padded_self _)
  · exact @segmentOf_name _ .database "app".toList _ "Database".toList "database" (by decide) (by decide) rfl
      ⟨" ".toList, [], rfl, by simp [isWhitespace], by simp⟩
  · exact @segmentOf_name _ .trustServerCertificate "TRUE".toList _ "TrustServerCertificate".toList
      "trustservercertificate" (by decide) (by decide) rfl (padded_self _)

/-! ### Reading a rendering -/

/-- Every rendering of a target is read as the target. -/
theorem parse_of_renders (toLowercase : String → String) (hlower : LowercasesAscii toLowercase)
    (t : MssqlTarget) (connStr : String) (h : t.Renders toLowercase connStr) :
    ∃ config, parseMssqlConnStr toLowercase connStr = .ok config ∧ config.host = t.host ∧
      config.port = t.port ∧ config.database = t.database ∧
      config.auth = .sqlPassword ⟨t.username, t.password⟩ ∧ config.trustCert = t.trustCert ∧
      config.tls = t.tls := by
  obtain ⟨kinds, parts, hstr, hparts, hkinds⟩ := h
  obtain ⟨ops, hops, hk, hall, hsemi⟩ := exists_ops hlower hparts
  have hne : parts ≠ [] := by
    rintro rfl
    cases hparts
    exact absurd (hkinds .server) (by simp)
  have hsplit : connStr.toList.splitOn ';' = parts := by
    rw [hstr, List.splitOn_intercalate ';' hsemi hne]
  refine ⟨(ops.foldl MssqlSettings.assign {}).config, ?_, ?_⟩
  · rw [parseMssqlConnStr, hsplit, parseSegments_eq_ok_iff.mpr ⟨ops, hops, rfl⟩]
    rfl
  · rw [foldl_assign_of_said (fun k => hk k (hkinds k)) hall]
    exact ⟨rfl, rfl, rfl, rfl, rfl, rfl⟩

theorem parse_sampleTarget :
    ∃ config, parseMssqlConnStr toAsciiLowercase sampleString = .ok config ∧ config.host = "db" ∧
      config.port = 1500 ∧ config.database = "app" ∧ config.auth = .sqlPassword ⟨"sa", "a=b,c"⟩ ∧
      config.trustCert = true ∧ config.tls = false :=
  parse_of_renders toAsciiLowercase (fun _ _ => rfl) sampleTarget sampleString sampleTarget_renders

end RustDbDriver
