import RustDbDriver.Config
import RustDbDriver.Lib.Keywords
import RustDbDriver.Lib.Pieces
import RustDbDriver.Partition

/-!
# TLS to PostgreSQL

`PostgresConnector` looks for `sslmode=disable` among the pieces of the connection string between `?`,
`&` and spaces. A client reads the string pair by pair. `disableTls_text_iff` says what the pieces find in
a string of pairs: a pair that is `SpelledOut`, or a value that has such a piece `Carried` in it.
-/

namespace RustDbDriver
open Lib.Keywords Lib.Pieces RustDbDriver.Partition

/-! ### The driver -/

/-- What `create_pool` is told about TLS. -/
inductive PgTls where
  | noTls
  | rustls (acceptAnyCert : Bool)
deriving DecidableEq, Repr

structure PgPoolConfig where
  host : Option String
  port : Option UInt16
  dbname : Option String
  user : Option String
  password : Option String
  url : Option String
  applicationName : Option String
  maxSize : Nat
  createTimeout : Option Nat
  waitTimeout : Option Nat
  recycleTimeout : Option Nat
deriving DecidableEq, Repr

namespace PostgresDriver

def buildPgTls (trustCert : Bool) : PgTls := .rustls trustCert

def poolConfig (config : DatabaseConfig) : PgPoolConfig where
  host := some config.host
  port := some config.port
  dbname := some config.database
  user := match config.auth with
    | .sqlPassword auth => some auth.username
    | _ => none
  password := match config.auth with
    | .sqlPassword auth => some auth.password
    | _ => none
  url := match config.auth with
    | .connectionString cs => some cs
    | _ => none
  applicationName := config.applicationName
  maxSize := config.pool.maxConnections.toNat
  createTimeout := some config.pool.connectTimeout
  waitTimeout := some config.pool.connectTimeout
  recycleTimeout := config.pool.idleTimeout

def tls (config : DatabaseConfig) : PgTls :=
  if config.tls then buildPgTls config.trustCert else .noTls

def connect {Pool : Type} (createPool : PgPoolConfig → PgTls → Except String Pool) (config : DatabaseConfig) :
    Except DbError Pool :=
  (createPool (poolConfig config) (tls config)).mapError .config

end PostgresDriver

/-! ### The connector -/

def eqIgnoreAsciiCase (xs ys : List Char) : Bool := xs.map Char.toLower == ys.map Char.toLower

namespace PostgresConnector

/-- Where `conn_str.split` cuts. -/
def separator (c : Char) : Bool := c == '?' || c == '&' || c == ' '

def disableTls (connStr : String) : Bool :=
  (connStr.toList.splitOnP separator).any fun p =>
    eqIgnoreAsciiCase (trim isWhitespace p) "sslmode=disable".toList

def config (connStr : String) (maxConnections : UInt32) : DatabaseConfig :=
  { DatabaseConfig.postgres "" 5432 "" (.connectionString connStr) with
    tls := !disableTls connStr
    trustCert := true
    pool := .upTo maxConnections }

theorem tls_config_eq (connStr : String) (maxConnections : UInt32) :
    PostgresDriver.tls (config connStr maxConnections) =
      if disableTls connStr then .noTls else .rustls true := by
  cases h : disableTls connStr <;> simp [PostgresDriver.tls, PostgresDriver.buildPgTls, config, h]

theorem tls_config (connStr : String) (maxConnections : UInt32) :
    PostgresDriver.tls (config connStr maxConnections) = .noTls ↔ disableTls connStr = true := by
  rw [tls_config_eq]
  cases disableTls connStr <;> simp

/-- The pool is created without TLS, or with TLS to whatever certificate the server has. -/
theorem connect_config {Pool : Type} (createPool : PgPoolConfig → PgTls → Except String Pool)
    (connStr : String) (maxConnections : UInt32) :
    PostgresDriver.connect createPool (config connStr maxConnections) =
      (createPool (PostgresDriver.poolConfig (config connStr maxConnections))
        (if disableTls connStr then .noTls else .rustls true)).mapError .config := by
  rw [PostgresDriver.connect, tls_config_eq]

/-! ### Pieces that turn TLS off -/

def isSslmode (k : List Char) : Bool := eqIgnoreAsciiCase k "sslmode".toList

def isDisable (d : List Char) : Bool := eqIgnoreAsciiCase d "disable".toList

theorem isUpper_bounds {c : Char} (h : c.isUpper = true) : 65 ≤ c.toNat ∧ c.toNat ≤ 90 := by
  simpa [Char.isUpper, UInt32.le_iff_toNat_le] using h

/-- What stands in `sslmode=disable`, in any case, neither cuts nor is trimmed. -/
theorem inner_of_toLower_mem {c : Char} (h : c.toLower ∈ "sslmode=disable".toList) :
    separator c = false ∧ isWhitespace c = false := by
  by_cases hupper : c.isUpper = true
  · have hc := isUpper_bounds hupper
    have hne : ∀ d : Char, d.toNat < 65 → c ≠ d := fun d hd heq => by
      rw [heq] at hc
      omega
    constructor
    · simp [separator, hne]
    · simp only [isWhitespace, decide_eq_false_iff_not]
      omega
  · rw [Char.toLower_eq_of_not_isUpper hupper] at h
    have hall : ∀ d ∈ "sslmode=disable".toList, separator d = false ∧ isWhitespace d = false := by
      simp [separator, isWhitespace]
    exact hall c h

theorem toLower_eq_sign {c : Char} (h : c.toLower = '=') : c = '=' := by
  have halpha : c.isAlpha = false := by
    rw [← Char.isLower_toLower_eq_isAlpha, h]
    rfl
  have hupper : ¬ c.isUpper = true := fun hc => by simp [Char.isAlpha, hc] at halpha
  rwa [Char.toLower_eq_of_not_isUpper hupper] at h

theorem eqIgnoreAsciiCase_append_iff {xs ys zs : List Char} {d : Char} (hd : d.toLower = d)
    (hinj : ∀ c : Char, c.toLower = d → c = d) :
    eqIgnoreAsciiCase xs (ys ++ d :: zs) = true ↔
      ∃ k l, xs = k ++ d :: l ∧ eqIgnoreAsciiCase k ys = true ∧ eqIgnoreAsciiCase l zs = true := by
  simp only [eqIgnoreAsciiCase, beq_iff_eq, List.map_append, List.map_cons]
  constructor
  · intro h
    obtain ⟨k, rest, rfl, hk, hrest⟩ := List.map_eq_append_iff.mp h
    obtain ⟨c, l, rfl, hc, hl⟩ := List.map_eq_cons_iff.mp hrest
    rw [hd] at hc
    exact ⟨k, l, by rw [hinj c hc], hk, hl⟩
  · rintro ⟨k, l, rfl, hk, hl⟩
    rw [List.map_append, List.map_cons, hk, hl]

theorem isPiece_iff {p : List Char} : eqIgnoreAsciiCase p "sslmode=disable".toList = true ↔
    ∃ k d, p = k ++ '=' :: d ∧ isSslmode k = true ∧ isDisable d = true :=
  @eqIgnoreAsciiCase_append_iff p "sslmode".toList "disable".toList '=' rfl fun _ => toLower_eq_sign

theorem disableTls_iff (text : List Char) : disableTls (String.ofList text) = true ↔
    ∃ l k d r, text = (l ++ k) ++ '=' :: (d ++ r) ∧ isSslmode k = true ∧ isDisable d = true ∧
      opens separator isWhitespace l = true ∧ closes separator isWhitespace r = true := by
  have hinner : ∀ p, eqIgnoreAsciiCase p "sslmode=disable".toList = true →
      ∀ c ∈ p, separator c = false ∧ isWhitespace c = false := by
    intro p hp c hc
    refine inner_of_toLower_mem ?_
    have hmem := List.mem_map_of_mem (f := Char.toLower) hc
    rw [beq_iff_eq.mp hp] at hmem
    exact hmem
  rw [disableTls, String.toList_ofList, any_trim_splitOnP_iff hinner]
  constructor
  · rintro ⟨l, p, r, rfl, hp, hl, hr⟩
    obtain ⟨k, d, rfl, hk, hd⟩ := isPiece_iff.mp hp
    exact ⟨l, k, d, r, by simp, hk, hd, hl, hr⟩
  · rintro ⟨l, k, d, r, rfl, hk, hd, hl, hr⟩
    exact ⟨l, k ++ '=' :: d, r, by simp, isPiece_iff.mpr ⟨k, d, rfl, hk, hd⟩, hl, hr⟩

/-! ### Strings of pairs -/

section Text

variable (s : KeywordString isWhitespace)

/-- A pair of the string has `sslmode` right before its sign and `disable` right after it, bare. What else
there may be of its keyword and its value is behind a separator. -/
def SpelledOut : Prop :=
  ∃ before p after, s.pairs = before ++ p :: after ∧ p.beforeSign = [] ∧ p.afterSign = [] ∧
    ∃ x k d w, p.keyword = x ++ k ∧ p.value.text = d ++ w ∧ isSslmode k = true ∧ isDisable d = true ∧
      opens separator isWhitespace (textOf [] before ++ (p.gap ++ x)) = true ∧
      closes separator isWhitespace (w ++ textOf s.trailing after) = true

/-- A value of the string has `sslmode=disable` in its text, with a separator before it, and one or the end of
the string after it. -/
def Carried : Prop :=
  ∃ before p after, s.pairs = before ++ p :: after ∧
    ∃ x k d w, p.value.text = x ++ (k ++ '=' :: (d ++ w)) ∧ isSslmode k = true ∧ isDisable d = true ∧
      opens separator isWhitespace (textOf [] before ++ (p.left ++ '=' :: (p.afterSign ++ x))) = true ∧
      closes separator isWhitespace (w ++ textOf s.trailing after) = true

variable {s}

theorem disableTls_of_spelledOut (h : SpelledOut s) : disableTls (String.ofList s.text) = true := by
  obtain ⟨before, p, after, hs, hbefore, hafter, x, k, d, w, hkey, hvalue, hk, hd, hl, hr⟩ := h
  refine (disableTls_iff s.text).mpr ⟨_, k, d, _, ?_, hk, hd, hl, hr⟩
  rw [KeywordString.text, hs, textOf_append, textOf, Pair.left, hbefore, hafter, hkey, hvalue]
  simp

theorem disableTls_of_carried (h : Carried s) : disableTls (String.ofList s.text) = true := by
  obtain ⟨before, p, after, hs, x, k, d, w, hvalue, hk, hd, hl, hr⟩ := h
  refine (disableTls_iff s.text).mpr ⟨_, k, d, _, ?_, hk, hd, hl, hr⟩
  rw [KeywordString.text, hs, textOf_append, textOf, hvalue]
  simp

theorem toLower_mem_of_word {c : Char} {k : List Char} (hk : isSslmode k = true ∨ isDisable k = true)
    (hc : c ∈ k) : c.toLower ∈ "sslmode=disable".toList ∧ c.toLower ≠ '=' := by
  have hmem : c.toLower ∈ k.map Char.toLower := List.mem_map_of_mem hc
  rcases hk with hk | hk <;> rw [beq_iff_eq.mp hk] at hmem
  · have hall : ∀ d ∈ "sslmode".toList.map Char.toLower, d ∈ "sslmode=disable".toList ∧ d ≠ '=' := by simp
    exact hall _ hmem
  · have hall : ∀ d ∈ "disable".toList.map Char.toLower, d ∈ "sslmode=disable".toList ∧ d ≠ '=' := by simp
    exact hall _ hmem

/-- Neither word goes over a blank or a sign. -/
theorem notMem_word {b : Char} {k : List Char} (hk : isSslmode k = true ∨ isDisable k = true)
    (hb : isWhitespace b = true ∨ b = '=') : b ∉ k := by
  intro hmem
  obtain ⟨hin, hne⟩ := toLower_mem_of_word hk hmem
  rcases hb with hb | rfl
  · rw [(inner_of_toLower_mem hin).2] at hb
    cases hb
  · exact hne rfl

theorem word_ne_nil {k : List Char} (hk : isSslmode k = true ∨ isDisable k = true) : k ≠ [] := by
  rintro rfl
  rcases hk with hk | hk
  · exact absurd hk (by decide)
  · exact absurd hk (by decide)

section Split

variable {before after : List (Pair isWhitespace)} {p : Pair isWhitespace} {l k d r : List Char}

theorem spelledOut_of_sign (hs : s.pairs = before ++ p :: after) (hk : isSslmode k = true)
    (hd : isDisable d = true) (hl : opens separator isWhitespace l = true)
    (hr : closes separator isWhitespace r = true) (hleft : l ++ k = textOf [] before ++ p.left)
    (hright : d ++ r = p.afterSign ++ (p.value.text ++ textOf s.trailing after)) : SpelledOut s := by
  have hbefore : p.beforeSign = [] := by
    rcases List.eq_nil_or_concat p.beforeSign with hnil | ⟨bs, b, hb⟩
    · exact hnil
    · have hlast : ∀ x ∈ (textOf [] before ++ p.left).getLast?, x ∉ k := by
        intro x hx
        obtain rfl : b = x := by simpa [Pair.left, hb, List.getLast?_append] using hx
        exact notMem_word (.inl hk) (.inl (p.before_blank b (by simp [hb])))
      obtain ⟨x, hnil, -⟩ := exists_suffix_of_append_eq (hleft.trans (List.append_nil _).symm) hlast
      exact absurd (List.append_eq_nil_iff.mp hnil.symm).2 (word_ne_nil (.inl hk))
  have hafter : p.afterSign = [] := by
    cases hb : p.afterSign with
    | nil => rfl
    | cons b bs =>
      have hhead : ∀ x ∈ (p.afterSign ++ (p.value.text ++ textOf s.trailing after)).head?, x ∉ d := by
        intro x hx
        obtain rfl : b = x := by simpa [hb] using hx
        exact notMem_word (.inr hd) (.inl (p.after_blank b (by simp [hb])))
      obtain ⟨w, hnil, -⟩ := exists_prefix_of_append_eq (hright.trans (List.nil_append _).symm) hhead
      exact absurd (List.append_eq_nil_iff.mp hnil.symm).1 (word_ne_nil (.inr hd))
  rw [Pair.left, hbefore, List.append_nil, ← List.append_assoc] at hleft
  rw [hafter, List.nil_append] at hright
  obtain ⟨x, hkey, rfl⟩ := exists_suffix_of_append_eq hleft
    fun c hc => notMem_word (.inl hk) (.inl (s.blank_before hs c hc))
  obtain ⟨w, hvalue, rfl⟩ := exists_prefix_of_append_eq hright
    fun c hc => notMem_word (.inr hd) (.inl (s.stops_after hs c hc))
  rw [List.append_assoc] at hl
  exact ⟨before, p, after, hs, hbefore, hafter, x, k, d, w, hkey, hvalue, hk, hd, hl, hr⟩

theorem carried_of_sign {v w : List Char} (hs : s.pairs = before ++ p :: after) (hk : isSslmode k = true)
    (hd : isDisable d = true) (hl : opens separator isWhitespace l = true)
    (hr : closes separator isWhitespace r = true) (hvalue : p.value.text = v ++ '=' :: w)
    (hleft : l ++ k = textOf [] before ++ (p.left ++ '=' :: (p.afterSign ++ v)))
    (hright : d ++ r = w ++ textOf s.trailing after) : Carried s := by
  have hlast : ∀ x ∈ (textOf [] before ++ (p.left ++ '=' :: p.afterSign)).getLast?, x ∉ k := by
    intro x hx
    rcases List.eq_nil_or_concat p.afterSign with hnil | ⟨bs, b, hb⟩
    · obtain rfl : '=' = x := by simpa [hnil, List.getLast?_append] using hx
      exact notMem_word (.inl hk) (.inr rfl)
    · obtain rfl : b = x := by simpa [hb, List.getLast?_append, List.getLast?_cons] using hx
      exact notMem_word (.inl hk) (.inl (p.after_blank b (by simp [hb])))
  have hcut : l ++ k = (textOf [] before ++ (p.left ++ '=' :: p.afterSign)) ++ v := by
    rw [hleft]
    simp
  obtain ⟨x, rfl, rfl⟩ := exists_suffix_of_append_eq hcut hlast
  obtain ⟨w, rfl, rfl⟩ := exists_prefix_of_append_eq hright
    fun c hc => notMem_word (.inr hd) (.inl (s.stops_after hs c hc))
  refine ⟨before, p, after, hs, x, k, d, w, by rw [hvalue, List.append_assoc], hk, hd, ?_, hr⟩
  simpa using hl

end Split

theorem disableTls_text_iff : disableTls (String.ofList s.text) = true ↔ SpelledOut s ∨ Carried s := by
  constructor
  · intro h
    obtain ⟨l, k, d, r, htext, hk, hd, hl, hr⟩ := (disableTls_iff s.text).mp h
    have hsign : isWhitespace '=' = false := by decide
    obtain ⟨before, p, after, hs, ⟨hleft, hright⟩ | ⟨v, w, hvalue, hleft, hright⟩⟩ :=
      exists_pair_of_sign hsign s.trailing_blank htext
    · exact .inl (spelledOut_of_sign hs hk hd hl hr hleft hright)
    · exact .inr (carried_of_sign hs hk hd hl hr hvalue hleft hright)
  · rintro (h | h)
    · exact disableTls_of_spelledOut h
    · exact disableTls_of_carried h

end Text

/-! ### The last `sslmode` -/

def lastSslmode (settings : List (String × String)) : Option String := settings.reverse.lookup "sslmode"

section Pairs

variable (s : KeywordString isWhitespace)

/-- The string asks for no TLS, in a spelling that no piece matches. -/
def Missed : Prop := lastSslmode s.settings = some "disable" ∧ ¬ SpelledOut s ∧ ¬ Carried s

/-- The string does not ask for no TLS, but has a piece that does. -/
def Forged : Prop := lastSslmode s.settings ≠ some "disable" ∧ (SpelledOut s ∨ Carried s)

/-- TLS is off exactly if a client reads `disable` as the last `sslmode`, unless the string is missed or
forged. -/
theorem noTls_iff_lastSslmode_iff (maxConnections : UInt32) :
    (PostgresDriver.tls (config (String.ofList s.text) maxConnections) = .noTls ↔
        (read isWhitespace s.text).bind lastSslmode = some "disable") ↔
      ¬ Missed s ∧ ¬ Forged s := by
  have hread : read isWhitespace s.text = some s.settings := read_text (by decide) (by decide) (by decide) s
  rw [tls_config, disableTls_text_iff, hread, Option.bind_some, Missed, Forged]
  tauto

end Pairs

/-! ### Both kinds of failure -/

/-- `keyword='value'` after `gap`. -/
def quotedPair (gap keyword value : List Char) (hgap : gap.all isWhitespace = true) (hne : keyword ≠ [])
    (hkey : (keyword.all fun c => !isWhitespace c && c != '=') = true)
    (hvalue : (value.all fun c => c != '\'' && c != '\\') = true) : Pair isWhitespace where
  gap := gap
  keyword := keyword
  beforeSign := []
  afterSign := []
  value := .quoted (value.map .plain) (by simpa using hvalue)
  keyword_ne := hne
  keyword_char := by simpa using hkey
  gap_blank := by simpa using hgap
  before_blank := by simp
  after_blank := by simp

def missedString : KeywordString isWhitespace where
  pairs := [quotedPair [] "user".toList "app".toList rfl (by decide) rfl rfl,
    quotedPair [' '] "sslmode".toList "disable".toList rfl (by decide) rfl rfl]
  trailing := []
  gap_ne := by simp [quotedPair]
  trailing_blank := by simp

def forgedString : KeywordString isWhitespace where
  pairs := [quotedPair [] "password".toList "x sslmode=disable y".toList rfl (by decide) rfl rfl]
  trailing := []
  gap_ne := by simp
  trailing_blank := by simp

/-- A quoted `disable` is missed, and TLS stays on; a password that has a piece in it turns it off. -/
theorem noTls_missed_forged :
    (String.ofList missedString.text = "user='app' sslmode='disable'" ∧
      (read isWhitespace missedString.text).bind lastSslmode = some "disable" ∧
      PostgresDriver.tls (config "user='app' sslmode='disable'" 1) = .rustls true) ∧
    (String.ofList forgedString.text = "password='x sslmode=disable y'" ∧
      (read isWhitespace forgedString.text).bind lastSslmode = none ∧
      PostgresDriver.tls (config "password='x sslmode=disable y'" 1) = .noTls) := by
  constructor
  · exact ⟨rfl, rfl, rfl⟩
  · exact ⟨rfl, rfl, rfl⟩

end PostgresConnector
end RustDbDriver
