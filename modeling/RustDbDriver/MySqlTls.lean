import RustDbDriver.Config
import RustDbDriver.Row

/-!
# TLS to MySQL

`buildMysqlOpts` sets the mode that `tls` and `trust_cert` ask for, whatever the connection string says.
The configuration of `MySqlConnector` asks for none, so every string it is given ends up without TLS
(`buildMysqlOpts_config`).
-/

namespace RustDbDriver

inductive MySqlSslMode where
  | disabled
  | preferred
  | required
  | verifyCa
  | verifyIdentity
deriving DecidableEq, Repr

namespace MySqlSslMode

def strictness : MySqlSslMode → Nat
  | .disabled => 0
  | .preferred => 1
  | .required => 2
  | .verifyCa => 3
  | .verifyIdentity => 4

theorem strictness_injective : Function.Injective strictness := by
  intro a b h
  cases a <;> cases b <;> first | rfl | cases h

instance : LinearOrder MySqlSslMode := LinearOrder.lift' strictness strictness_injective

theorem le_disabled_iff {mode : MySqlSslMode} : mode ≤ .disabled ↔ mode = .disabled := by
  constructor
  · intro h
    exact strictness_injective (Nat.le_zero.mp h)
  · rintro rfl
    exact le_rfl

end MySqlSslMode

structure MySqlConnectOptions (Others : Type) where
  host : String
  port : UInt16
  database : Option String
  username : String
  password : Option String
  sslMode : MySqlSslMode
  others : Others

/-- The client's options: the defaults, and what a URL sets. `sslModeOf` is the `ssl-mode` that a URL
states. -/
structure MySqlClient where
  Others : Type
  new : MySqlConnectOptions Others
  fromStr : String → Except String (MySqlConnectOptions Others)
  sslModeOf : String → Option MySqlSslMode
  sslMode_fromStr : ∀ {cs opts}, fromStr cs = .ok opts → opts.sslMode = (sslModeOf cs).getD new.sslMode

/-! ### The driver -/

namespace MySqlDriver

variable (client : MySqlClient)

def sslMode (config : DatabaseConfig) : MySqlSslMode :=
  match config.tls, config.trustCert with
  | false, _ => .disabled
  | true, true => .required
  | true, false => .verifyIdentity

def buildMysqlOpts (config : DatabaseConfig) : Except DbError (MySqlConnectOptions client.Others) :=
  let opts : Except DbError (MySqlConnectOptions client.Others) :=
    match config.connectionString with
    | some cs => (client.fromStr cs).mapError .config
    | none =>
      match config.auth with
      | .sqlPassword auth => .ok { client.new with
          host := config.host
          port := config.port
          database := some config.database
          username := auth.username
          password := some auth.password }
      | .none => .ok { client.new with
          host := config.host
          port := config.port
          database := some config.database }
      | _ => .error (.notSupported "MySQL only supports SQL password auth")
  opts.map fun opts => { opts with sslMode := sslMode config }

theorem exists_of_map_eq_ok {ε α β : Type} {x : Except ε α} {f : α → β} {b : β} (h : x.map f = .ok b) :
    ∃ a, x = .ok a ∧ f a = b := by
  cases x with
  | error e => cases h
  | ok a => exact ⟨a, rfl, Except.ok.inj h⟩

variable {client} in
/-- The mode is the one the configuration asks for, wherever the options come from. -/
theorem sslMode_of_buildMysqlOpts {config : DatabaseConfig} {opts : MySqlConnectOptions client.Others}
    (h : buildMysqlOpts client config = .ok opts) : opts.sslMode = sslMode config := by
  obtain ⟨given, -, rfl⟩ := exists_of_map_eq_ok h
  rfl

end MySqlDriver

/-! ### The connector -/

namespace MySqlConnector

variable (client : MySqlClient)

def config (connStr : String) (maxConnections : UInt32) : DatabaseConfig :=
  { (DatabaseConfig.mysql "" 3306 "" .none).withConnectionString connStr with pool := .upTo maxConnections }

/-- A string is accepted as the client accepts it, and without TLS. -/
theorem buildMysqlOpts_config (connStr : String) (maxConnections : UInt32) :
    MySqlDriver.buildMysqlOpts client (config connStr maxConnections) =
      ((client.fromStr connStr).mapError .config).map fun opts => { opts with sslMode := .disabled } := by
  rfl

/-- The options are at least as strict as the string exactly if it states no `ssl-mode`, or `DISABLED`. -/
theorem sslMode_kept_iff (connStr : String) (maxConnections : UInt32)
    {given : MySqlConnectOptions client.Others} (haccepted : client.fromStr connStr = .ok given) :
    (∃ opts, MySqlDriver.buildMysqlOpts client (config connStr maxConnections) = .ok opts ∧
        ∀ mode, client.sslModeOf connStr = some mode → mode ≤ opts.sslMode) ↔
      client.sslModeOf connStr = none ∨ client.sslModeOf connStr = some .disabled := by
  have hopts := buildMysqlOpts_config client connStr maxConnections
  rw [haccepted] at hopts
  constructor
  · rintro ⟨opts, hok, hle⟩
    have hmode : opts.sslMode = .disabled := MySqlDriver.sslMode_of_buildMysqlOpts hok
    cases hstated : client.sslModeOf connStr with
    | none => exact .inl rfl
    | some mode =>
      have hmode' := hle mode hstated
      rw [hmode, MySqlSslMode.le_disabled_iff] at hmode'
      exact .inr (congrArg some hmode')
  · intro hstated
    refine ⟨_, hopts, ?_⟩
    intro mode hmode
    rw [hmode] at hstated
    rcases hstated with hnone | hdisabled
    · cases hnone
    · exact (Option.some.inj hdisabled).le

/-- A string that asks for more than `DISABLED` is connected with less than the client read in it. -/
theorem sslMode_lt_given (connStr : String) (maxConnections : UInt32)
    {given : MySqlConnectOptions client.Others} (haccepted : client.fromStr connStr = .ok given)
    {mode : MySqlSslMode} (hstated : client.sslModeOf connStr = some mode) (hne : mode ≠ .disabled) :
    ∃ opts, MySqlDriver.buildMysqlOpts client (config connStr maxConnections) = .ok opts ∧
      opts.sslMode < given.sslMode := by
  have hopts := buildMysqlOpts_config client connStr maxConnections
  rw [haccepted] at hopts
  refine ⟨_, hopts, ?_⟩
  rw [client.sslMode_fromStr haccepted, hstated, Option.getD_some]
  exact lt_of_not_ge fun hle => hne (MySqlSslMode.le_disabled_iff.mp hle)

/-! ### A string that asks for TLS -/

/-- A client that knows three URLs of one database. -/
def shopClient : MySqlClient where
  Others := Unit
  new := ⟨"localhost", 3306, none, "root", none, .preferred, ()⟩
  fromStr cs :=
    if cs = "mysql://app@db/shop" then .ok ⟨"db", 3306, some "shop", "app", none, .preferred, ()⟩
    else if cs = "mysql://app@db/shop?ssl-mode=REQUIRED" then
      .ok ⟨"db", 3306, some "shop", "app", none, .required, ()⟩
    else if cs = "mysql://app@db/shop?ssl-mode=DISABLED" then
      .ok ⟨"db", 3306, some "shop", "app", none, .disabled, ()⟩
    else .error "relative URL without a base"
  sslModeOf cs :=
    if cs = "mysql://app@db/shop?ssl-mode=REQUIRED" then some .required
    else if cs = "mysql://app@db/shop?ssl-mode=DISABLED" then some .disabled
    else none
  sslMode_fromStr := by
    intro cs opts h
    split_ifs at h with hplain hrequired hdisabled
    · cases h
      rw [if_neg (by simp [hplain]), if_neg (by simp [hplain])]
      rfl
    · cases h
      rw [if_pos hrequired]
      rfl
    · cases h
      rw [if_neg (by simp [hdisabled]), if_pos hdisabled]
      rfl

theorem sslMode_kept_shop :
    (∃ opts, MySqlDriver.buildMysqlOpts shopClient (config "mysql://app@db/shop?ssl-mode=DISABLED" 1) =
        .ok opts ∧
        ∀ mode, shopClient.sslModeOf "mysql://app@db/shop?ssl-mode=DISABLED" = some mode →
          mode ≤ opts.sslMode) ↔
      shopClient.sslModeOf "mysql://app@db/shop?ssl-mode=DISABLED" = none ∨
        shopClient.sslModeOf "mysql://app@db/shop?ssl-mode=DISABLED" = some .disabled :=
  sslMode_kept_iff shopClient "mysql://app@db/shop?ssl-mode=DISABLED" 1 rfl

/-- `ssl-mode=REQUIRED` ends up without TLS. -/
theorem sslMode_weakened_required :
    (∃ given, shopClient.fromStr "mysql://app@db/shop?ssl-mode=REQUIRED" = .ok given) ∧
    shopClient.sslModeOf "mysql://app@db/shop?ssl-mode=REQUIRED" = some .required ∧
    ∃ opts, MySqlDriver.buildMysqlOpts shopClient (config "mysql://app@db/shop?ssl-mode=REQUIRED" 1) = .ok opts ∧
      opts.sslMode < .required := by
  refine ⟨⟨_, rfl⟩, rfl, _, rfl, ?_⟩
  decide

end MySqlConnector
end RustDbDriver
