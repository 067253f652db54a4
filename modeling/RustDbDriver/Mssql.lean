import RustDbDriver.AzureCredential
import RustDbDriver.Binding
import RustDbDriver.ClientRows
import RustDbDriver.MssqlRendering

/-!
# Connections to SQL Server

`MssqlDriver::connect` checks what it needs for the pool and the tokens, and leaves the rest to
`new_client`, which opens a connection whenever the pool wants one. What the network and the client library do
is a `Net`; `newClient_iff` says when `new_client` opens a connection with which settings. What the pool does is
an `MssqlPool`, of which `MssqlPool.Documented` says that its connections are opened by `new_client`.
-/

namespace RustDbDriver
open Lib

/-! ### The client library's settings -/

inductive EncryptionLevel where
  | off
  | required
deriving DecidableEq, Repr

inductive AuthMethod where
  | none
  | sqlServer (user password : String)
  | aadToken (token : String)
deriving DecidableEq, Repr

/-- `tiberius::Config`, in what is set of it. -/
structure TiberiusConfig where
  host : String
  port : UInt16
  database : String
  trustCert : Bool
  encryption : EncryptionLevel
  authentication : AuthMethod
  applicationName : Option String
deriving DecidableEq, Repr

/-- What a connection meets on its way. -/
structure Net where
  Addr : Type
  Stream : Type
  Client : Type
  lookupHost : String → Except String (List Addr)
  connectTcp : Addr → Except String Stream
  setNodelay : Stream → Except String Unit
  connectTds : TiberiusConfig → Stream → Except String Client

/-- Open a connection to the first address of a name. -/
def Net.connect (net : Net) (addrStr : String) (config : TiberiusConfig) : Except DbError net.Client := do
  let addrs ← (net.lookupHost addrStr).mapError .connection
  match addrs.head? with
  | none => .error (.connection s!"cannot resolve {addrStr}")
  | some addr =>
    let stream ← (net.connectTcp addr).mapError .connection
    (net.setNodelay stream).mapError .connection
    (net.connectTds config stream).mapError .backend

theorem error_of_bind {ε α β : Type} {x : Except ε α} {f : α → Except ε β} {e : ε} (h : x >>= f = .error e) :
    x = .error e ∨ ∃ a, f a = .error e := by
  cases x with
  | error e' =>
    cases h
    exact .inl rfl
  | ok a => exact .inr ⟨a, h⟩

theorem error_of_mapError {ε ε' α : Type} {x : Except ε α} {f : ε → ε'} {e : ε'} (h : x.mapError f = .error e) :
    ∃ e₀, f e₀ = e := by
  cases x with
  | error e₀ => exact ⟨e₀, Except.error.inj h⟩
  | ok a => cases h

/-- Opening a connection has errors of its own, none of them for want of a way to log in. -/
theorem Net.connect_ne_auth (net : Net) {addrStr msg : String} {config : TiberiusConfig} :
    net.connect addrStr config ≠ .error (.auth msg) := by
  intro h
  unfold Net.connect at h
  rcases error_of_bind h with h | ⟨addrs, h⟩
  · exact nomatch error_of_mapError h
  · cases addrs with
    | nil => cases h
    | cons addr addrs =>
      rcases error_of_bind h with h | ⟨stream, h⟩
      · exact nomatch error_of_mapError h
      · rcases error_of_bind h with h | ⟨u, h⟩
        · exact nomatch error_of_mapError h
        · exact nomatch error_of_mapError h

/-! ### The manager -/

structure MssqlManager (C : Type) where
  dbConfig : DatabaseConfig
  tokenProvider : Option (AzureTokenProvider C)

namespace MssqlManager

variable {C : Type} (m : MssqlManager C)

/-- The token of the provider; `getToken` is what `get_token` returns. -/
def aadToken (getToken : AzureTokenProvider C → Except DbError String) : Except DbError AuthMethod :=
  match m.tokenProvider with
  | none => .error (.auth "no token provider configured")
  | some p => (getToken p).map .aadToken

def authMethod (getToken : AzureTokenProvider C → Except DbError String) : Except DbError AuthMethod :=
  match m.dbConfig.auth with
  | .sqlPassword auth => .ok (.sqlServer auth.username auth.password)
  | .azureDefaultCredential => m.aadToken getToken
  | .azureClientSecret .. => m.aadToken getToken
  | .azureManagedIdentity _ => m.aadToken getToken
  | .none => .ok .none
  | _ => .error (.notSupported "unsupported auth method for MSSQL")

def tiberiusConfig (auth : AuthMethod) : TiberiusConfig where
  host := m.dbConfig.host
  port := m.dbConfig.port
  database := m.dbConfig.database
  trustCert := m.dbConfig.trustCert
  encryption := if m.dbConfig.tls then .required else .off
  authentication := auth
  applicationName := m.dbConfig.applicationName

def newClient (getToken : AzureTokenProvider C → Except DbError String) (net : Net) :
    Except DbError net.Client := do
  let auth ← m.authMethod getToken
  net.connect s!"{m.dbConfig.host}:{m.dbConfig.port}" (m.tiberiusConfig auth)

end MssqlManager

/-! ### The driver -/

structure MssqlDriver (C : Type) where
  manager : MssqlManager C
  maxSize : Nat

namespace MssqlDriver

variable {C : Type}

/-- A token provider, in a build with the feature for it. -/
def withAzureAuth (azureAuth : Bool) (provider : Except DbError (AzureTokenProvider C)) :
    Except DbError (Option (AzureTokenProvider C)) :=
  if azureAuth then provider.map some else .error (.notSupported "azure-auth feature not enabled")

def tokenProvider (azureAuth : Bool) (azure : AzureIdentity C) :
    AuthConfig → Except DbError (Option (AzureTokenProvider C))
  | .azureDefaultCredential => withAzureAuth azureAuth (AzureTokenProvider.defaultCredential azure DB_SCOPE)
  | .azureClientSecret tenantId clientId clientSecret =>
    withAzureAuth azureAuth (AzureTokenProvider.clientSecret azure tenantId clientId clientSecret DB_SCOPE)
  | .azureManagedIdentity clientId =>
    withAzureAuth azureAuth (AzureTokenProvider.managedIdentity azure clientId DB_SCOPE)
  | _ => .ok none

/-- `build` is the pool's builder, for a `max_size`. -/
def connect (azureAuth : Bool) (azure : AzureIdentity C) (build : Nat → Except String Unit)
    (config : DatabaseConfig) : Except DbError (MssqlDriver C) := do
  let provider ← tokenProvider azureAuth azure config.auth
  (build config.pool.maxConnections.toNat).mapError .config
  return ⟨⟨config, provider⟩, config.pool.maxConnections.toNat⟩

variable {azureAuth : Bool} {azure : AzureIdentity C} {build : Nat → Except String Unit}
  {config : DatabaseConfig} {driver : MssqlDriver C}

theorem connect_eq_ok (h : connect azureAuth azure build config = .ok driver) :
    driver.maxSize = config.pool.maxConnections.toNat ∧ driver.manager.dbConfig = config ∧
      tokenProvider azureAuth azure config.auth = .ok driver.manager.tokenProvider := by
  unfold connect at h
  cases hprovider : tokenProvider azureAuth azure config.auth with
  | error e =>
    rw [hprovider] at h
    cases h
  | ok provider =>
    rw [hprovider] at h
    cases hbuild : build config.pool.maxConnections.toNat with
    | error e =>
      rw [hbuild] at h
      cases h
    | ok u =>
      rw [hbuild] at h
      cases h
      exact ⟨rfl, rfl, rfl⟩

/-- The ways to log in that `new_client` knows. -/
def Supported : AuthConfig → Prop
  | .connectionString _ => False
  | .motherDuck _ => False
  | _ => True

theorem exists_of_withAzureAuth {provider : Except DbError (AzureTokenProvider C)}
    {p : Option (AzureTokenProvider C)} (h : withAzureAuth azureAuth provider = .ok p) : ∃ q, p = some q := by
  unfold withAzureAuth at h
  split at h
  · cases provider with
    | error e => cases h
    | ok q =>
      cases h
      exact ⟨q, rfl⟩
  · cases h

/-- The ways to log in that take a token. -/
def UsesTokens : AuthConfig → Prop
  | .azureDefaultCredential => True
  | .azureClientSecret .. => True
  | .azureManagedIdentity _ => True
  | _ => False

theorem supported_of_usesTokens {auth : AuthConfig} (h : UsesTokens auth) : Supported auth := by
  cases auth with
  | connectionString cs => exact h
  | motherDuck token => exact h
  | _ => trivial

/-- A driver that needs tokens has a provider for them. -/
theorem authMethod_of_usesTokens (h : connect azureAuth azure build config = .ok driver)
    (htokens : UsesTokens config.auth) :
    ∃ p, ∀ getToken, driver.manager.authMethod getToken = (getToken p).map .aadToken := by
  obtain ⟨-, hconfig, hprovider⟩ := connect_eq_ok h
  have haad (hp : ∃ p, driver.manager.tokenProvider = some p) :
      ∃ p, ∀ getToken, driver.manager.aadToken getToken = (getToken p).map AuthMethod.aadToken := by
    obtain ⟨p, hp⟩ := hp
    exact ⟨p, fun getToken => by rw [MssqlManager.aadToken, hp]⟩
  unfold MssqlManager.authMethod
  rw [hconfig]
  cases hauth : config.auth with
  | azureDefaultCredential =>
    rw [hauth] at hprovider
    exact haad (exists_of_withAzureAuth hprovider)
  | azureClientSecret t c s =>
    rw [hauth] at hprovider
    exact haad (exists_of_withAzureAuth hprovider)
  | azureManagedIdentity c =>
    rw [hauth] at hprovider
    exact haad (exists_of_withAzureAuth hprovider)
  | _ =>
    rw [hauth] at htokens
    cases htokens

theorem authMethod_cases (h : connect azureAuth azure build config = .ok driver) :
    (Supported config.auth ∧
      ((∃ p, ∀ getToken, driver.manager.authMethod getToken = (getToken p).map .aadToken) ∨
        ∃ auth, ∀ getToken, driver.manager.authMethod getToken = .ok auth)) ∨
    (¬ Supported config.auth ∧ ∀ getToken, driver.manager.authMethod getToken =
      .error (.notSupported "unsupported auth method for MSSQL")) := by
  by_cases htokens : UsesTokens config.auth
  · exact .inl ⟨supported_of_usesTokens htokens, .inl (authMethod_of_usesTokens h htokens)⟩
  · obtain ⟨-, hconfig, -⟩ := connect_eq_ok h
    unfold MssqlManager.authMethod
    rw [hconfig]
    cases hauth : config.auth with
    | none => exact .inl ⟨trivial, .inr ⟨_, fun _ => rfl⟩⟩
    | sqlPassword auth => exact .inl ⟨trivial, .inr ⟨_, fun _ => rfl⟩⟩
    | connectionString cs => exact .inr ⟨id, fun _ => rfl⟩
    | motherDuck token => exact .inr ⟨id, fun _ => rfl⟩
    | _ => exact absurd (hauth ▸ trivial) htokens

/-- A network on which everything goes well. -/
def openNet : Net where
  Addr := Unit
  Stream := Unit
  Client := TiberiusConfig
  lookupHost _ := .ok [()]
  connectTcp _ := .ok ()
  setNodelay _ := .ok ()
  connectTds config _ := .ok config

/-- A driver that has connected can open a connection exactly if `new_client` knows the way to log in, which
`connect` did not look at; and it never lacks a token provider. -/
theorem newClient_iff (azureAuth : Bool) (azure : AzureIdentity C) (build : Nat → Except String Unit)
    (config : DatabaseConfig) (driver : MssqlDriver C) (h : connect azureAuth azure build config = .ok driver) :
    ((∃ getToken net client, driver.manager.newClient getToken net = .ok client) ↔ Supported config.auth) ∧
    ∀ getToken net, driver.manager.newClient getToken net = .error (.auth "no token provider configured") →
      ∃ p, getToken p = .error (.auth "no token provider configured") := by
  unfold MssqlManager.newClient
  rcases authMethod_cases h with ⟨hsupported, ⟨p, hauth⟩ | ⟨auth, hauth⟩⟩ | ⟨hnot, hauth⟩
  · refine ⟨iff_of_true ⟨fun _ => .ok "", openNet, ?_⟩ hsupported, ?_⟩
    · rw [hauth]
      exact ⟨_, rfl⟩
    · intro getToken net herr
      rw [hauth] at herr
      cases htoken : getToken p with
      | error e =>
        rw [htoken] at herr
        cases herr
        exact ⟨p, htoken⟩
      | ok token =>
        rw [htoken] at herr
        exact absurd herr net.connect_ne_auth
  · refine ⟨iff_of_true ⟨fun _ => .ok "", openNet, ?_⟩ hsupported, ?_⟩
    · rw [hauth]
      exact ⟨_, rfl⟩
    · intro getToken net herr
      rw [hauth] at herr
      exact absurd herr net.connect_ne_auth
  · refine ⟨iff_of_false ?_ hnot, ?_⟩
    · rintro ⟨getToken, net, client, hclient⟩
      rw [hauth] at hclient
      cases hclient
    · intro getToken net herr
      rw [hauth] at herr
      cases herr

/-- A host without credentials. -/
def noAzure : AzureIdentity Unit := ⟨.error "", fun _ => .error "", .error "", fun _ _ _ => .error ""⟩

theorem newClient_iff_password :
    ∃ driver : MssqlDriver Unit,
      connect false noAzure (fun _ => .ok ()) (bareConfig "db" 1433) = .ok driver ∧
      ((∃ getToken net client, driver.manager.newClient getToken net = .ok client) ↔
        Supported (bareConfig "db" 1433).auth) ∧
      ∀ getToken net, driver.manager.newClient getToken net = .error (.auth "no token provider configured") →
        ∃ p, getToken p = .error (.auth "no token provider configured") :=
  ⟨_, rfl, newClient_iff false noAzure (fun _ => .ok ()) (bareConfig "db" 1433) _ rfl⟩

end MssqlDriver

/-! ### Queries -/

/-- What `pool.get()` fails with. -/
inductive PoolError where
  | timeout
  /-- `Manager::create` failed. -/
  | backend (e : DbError)
  | other (text : String)
deriving DecidableEq, Repr

/-- A pool and the connections it hands out, as the queries of one call meet them: what `get` comes to for query
`i`, and what its connection answers to a statement. -/
structure MssqlPool where
  get : Nat → Except PoolError Unit
  query : Nat → String → List Param → Except String (List (Except String QueryItem))

/-- What is documented of a pool: it hands out connections that `Manager::create` has opened, and a backend's
error is one of `Manager::create`. -/
structure MssqlPool.Documented {C : Type} (pool : MssqlPool) (manager : MssqlManager C) : Prop where
  opened : ∀ i, pool.get i = .ok () → ∃ getToken net client, manager.newClient getToken net = .ok client
  backend : ∀ i e, pool.get i = .error (.backend e) →
    ∃ getToken net, manager.newClient getToken net = .error e

/-- The items of an answer, with the errors that `run_query` makes of the client's. -/
def queryItems (stream : List (Except String QueryItem)) : List (Except DbError QueryItem) :=
  stream.map fun item => item.mapError .backend

theorem exists_foldlM_step (fromSql : FromSql) (items : List QueryItem) (s : Reading) :
    ∃ s', (items.map Except.ok).foldlM (Reading.step fromSql) s = .ok s' := by
  induction items generalizing s with
  | nil => exact ⟨s, rfl⟩
  | cons item items ih =>
    rw [List.map_cons, List.foldlM_cons]
    cases item <;> exact ih _

namespace MssqlDriver

section Queries

variable (chrono : Chrono) (fromSql : FromSql) (poolText : PoolError → String)

/-- `MssqlDriver::query`; `poolText` is the `Display` of a pool's error. -/
def driver (pool : MssqlPool) : DbDriver where
  query i sql params := do
    (pool.get i).mapError fun e => .pool (poolText e)
    let stream ← (pool.query i sql (bindParams chrono params)).mapError .backend
    runQuery fromSql (queryItems stream)

/-- Why a query fails: it gets no connection, the statement is refused, or its stream has an error, of which the
first one is reported. -/
inductive Fails (pool : MssqlPool) (i : Nat) (p : Partition) : DbError → Prop where
  | get {e : PoolError} : pool.get i = .error e → Fails pool i p (.pool (poolText e))
  | query {text : String} : pool.get i = .ok () →
    pool.query i p.sql (bindParams chrono p.params) = .error text → Fails pool i p (.backend text)
  | stream {items : List QueryItem} {text : String} {rest : List (Except String QueryItem)} : pool.get i = .ok () →
    pool.query i p.sql (bindParams chrono p.params) = .ok (items.map .ok ++ .error text :: rest) →
    Fails pool i p (.backend text)

theorem runQuery_stream_error (items : List QueryItem) (text : String) (rest : List (Except String QueryItem)) :
    runQuery fromSql (queryItems (items.map Except.ok ++ Except.error text :: rest)) = .error (.backend text) := by
  have hitems : queryItems (items.map Except.ok ++ Except.error text :: rest) =
      items.map Except.ok ++ .error (.backend text) :: queryItems rest := by
    rw [queryItems, List.map_append, List.map_map, List.map_cons]
    rfl
  rw [hitems, runQuery, foldlM_step_error]
  rfl

theorem runQuery_stream_ok (items : List QueryItem) :
    ∃ rows, runQuery fromSql (queryItems (items.map Except.ok)) = .ok rows := by
  obtain ⟨s, hs⟩ := exists_foldlM_step fromSql items {}
  have hitems : queryItems (items.map Except.ok) = items.map Except.ok := by
    rw [queryItems, List.map_map]
    rfl
  exact ⟨s.rows, by rw [hitems, runQuery, hs]; rfl⟩

theorem query_eq_error_iff {pool : MssqlPool} {i : Nat} {p : Partition} {err : DbError} :
    (driver chrono fromSql poolText pool).query i p.sql p.params = .error err ↔
      Fails chrono poolText pool i p err := by
  show ((pool.get i).mapError fun e => DbError.pool (poolText e)).bind (fun _ =>
    ((pool.query i p.sql (bindParams chrono p.params)).mapError DbError.backend).bind fun stream =>
      runQuery fromSql (queryItems stream)) = _ ↔ _
  simp only [bind_eq_error_iff, mapError_eq_error_iff, mapError_eq_ok_iff]
  constructor
  · rintro (⟨e, hget, rfl⟩ | ⟨⟨⟩, hget, ⟨text, hquery, rfl⟩ | ⟨stream, hquery, h⟩⟩)
    · exact .get hget
    · exact .query hget hquery
    · cases hall : Futures.tryCollect stream with
      | ok items =>
        obtain rfl := Futures.tryCollect_eq_ok_iff.mp hall
        obtain ⟨rows, hrows⟩ := runQuery_stream_ok fromSql items
        exact nomatch hrows.symm.trans h
      | error text =>
        obtain ⟨items, rest, rfl⟩ := Futures.tryCollect_eq_error_iff.mp hall
        obtain rfl := Except.error.inj ((runQuery_stream_error fromSql items text rest).symm.trans h)
        exact .stream hget hquery
  · rintro (hget | ⟨hget, hquery⟩ | ⟨hget, hquery⟩)
    · exact .inl ⟨_, hget, rfl⟩
    · exact .inr ⟨(), hget, .inl ⟨_, hquery, rfl⟩⟩
    · exact .inr ⟨(), hget, .inr ⟨_, hquery, runQuery_stream_error fromSql ..⟩⟩

end Queries

variable {C : Type}

/-- A driver with a way to log in that `new_client` does not know connects, and never runs a statement: whatever
the pool does, no query gets a connection, and a call of `query_partitioned` returns an error of the pool, which is
that of `new_client` if it is the backend's. -/
theorem unsupported_never_queries (azureAuth : Bool) (azure : AzureIdentity C) (build : Nat → Except String Unit)
    (config : DatabaseConfig) (hauth : ¬ Supported config.auth)
    (hbuild : build config.pool.maxConnections.toNat = .ok ()) :
    ∃ mssql, connect azureAuth azure build config = .ok mssql ∧
      ∀ (chrono : Chrono) (fromSql : FromSql) (poolText : PoolError → String) (pool : MssqlPool),
        pool.Documented mssql.manager →
        (∀ i, pool.get i ≠ .ok ()) ∧
        ∀ (partitions : List Partition) (σ : Futures.Schedule) (result : Except DbError (List Row)),
          partitions ≠ [] →
          (driver chrono fromSql poolText pool).queryPartitioned partitions σ = some result →
          ∃ i e, i < partitions.length ∧ pool.get i = .error e ∧ result = .error (.pool (poolText e)) ∧
            ∀ e', e = .backend e' → e' = .notSupported "unsupported auth method for MSSQL" := by
  have hprovider : tokenProvider azureAuth azure config.auth = .ok none := by
    cases h : config.auth with
    | connectionString cs => rfl
    | motherDuck token => rfl
    | _ => exact absurd (by rw [h]; trivial) hauth
  have hconnect : connect azureAuth azure build config =
      .ok ⟨⟨config, none⟩, config.pool.maxConnections.toNat⟩ := by
    unfold connect
    rw [hprovider, hbuild]
    rfl
  refine ⟨_, hconnect, ?_⟩
  intro chrono fromSql poolText pool hpool
  have hunknown : ∀ getToken net, (⟨config, none⟩ : MssqlManager C).newClient getToken net =
      .error (.notSupported "unsupported auth method for MSSQL") := by
    intro getToken net
    rcases authMethod_cases hconnect with ⟨hsupported, -⟩ | ⟨-, hmethod⟩
    · exact absurd hsupported hauth
    · rw [MssqlManager.newClient, hmethod]
      rfl
  have hnone : ∀ i, pool.get i ≠ .ok () := by
    intro i hget
    obtain ⟨getToken, net, client, hclient⟩ := hpool.opened i hget
    exact nomatch (hunknown getToken net).symm.trans hclient
  refine ⟨hnone, ?_⟩
  intro partitions σ result hne hresult
  -- every query fails where it asks for a connection
  have hquery : ∀ i sql params, ∃ e, pool.get i = .error e ∧
      (driver chrono fromSql poolText pool).query i sql params = .error (.pool (poolText e)) := by
    intro i sql params
    cases hget : pool.get i with
    | ok u => exact absurd hget (hnone i)
    | error e => exact ⟨e, rfl, (query_eq_error_iff (p := ⟨sql, params⟩) chrono fromSql poolText).mpr (.get hget)⟩
  rcases DbDriver.queryPartitioned_results hresult with ⟨outs, -, houts⟩ | ⟨err, rfl, i, herr⟩
  · have hlen : 0 < partitions.length := List.length_pos_iff.mpr hne
    obtain ⟨e, -, he⟩ := hquery 0 partitions[0].sql partitions[0].params
    exact nomatch he.symm.trans (houts ⟨0, hlen⟩)
  · obtain ⟨e, hget, he⟩ := hquery i partitions[i].sql partitions[i].params
    refine ⟨i, e, i.isLt, hget, he.symm.trans herr ▸ rfl, ?_⟩
    rintro e' rfl
    obtain ⟨getToken, net, hbackend⟩ := hpool.backend i e' hget
    exact Except.error.inj (hbackend.symm.trans (hunknown getToken net))

/-- A driver for a service that is not SQL Server. -/
def motherDuck : MssqlDriver Unit :=
  ⟨⟨{ bareConfig "db" 1433 with auth := .motherDuck "token" }, none⟩, 1⟩

/-- The pool of such a driver, in which every connection fails. -/
def refusingPool : MssqlPool where
  get _ := .error (.backend (.notSupported "unsupported auth method for MSSQL"))
  query _ _ _ := .ok []

theorem refusingPool_documented : refusingPool.Documented motherDuck.manager where
  opened _ h := nomatch h
  backend _ e h := by
    cases h
    exact ⟨fun _ => .ok "", openNet, rfl⟩

theorem unsupported_never_queries_motherDuck :
    (∀ i, refusingPool.get i ≠ .ok ()) ∧
      ∀ result, (driver .gregorian .failing (fun _ => "no connection") refusingPool).queryPartitioned
          [.new "SELECT 1"] [.complete 0, .poll] = some result →
        ∃ i e, i < 1 ∧ refusingPool.get i = .error e ∧ result = .error (.pool "no connection") ∧
          ∀ e', e = .backend e' → e' = .notSupported "unsupported auth method for MSSQL" := by
  obtain ⟨mssql, hconnect, hnever⟩ := unsupported_never_queries false noAzure (fun _ => .ok ())
    motherDuck.manager.dbConfig id rfl
  cases hconnect
  obtain ⟨hnone, hresult⟩ :=
    hnever .gregorian .failing (fun _ => "no connection") refusingPool refusingPool_documented
  exact ⟨hnone, fun result => hresult [.new "SELECT 1"] [.complete 0, .poll] result (List.cons_ne_nil _ _)⟩

end MssqlDriver

/-! ### `mssql_query` -/

namespace MssqlConnector

variable {C : Type}

/-- What `MssqlDriver::connect` comes to for a connection string. -/
def connected (toLowercase : String → String) (azureAuth : Bool) (azure : AzureIdentity C)
    (build : Nat → Except String Unit) (connStr : String) (maxConnections : UInt32) :
    Except String (MssqlDriver C) := do
  let config ← parseMssqlConnStr toLowercase connStr
  let pool := { config.pool with minConnections := 0, maxConnections := maxConnections }
  (MssqlDriver.connect azureAuth azure build { config with pool := pool }).mapError toString

end MssqlConnector

namespace MssqlTarget

/-- What a connection to the target is opened with. -/
def tiberiusConfig (t : MssqlTarget) : TiberiusConfig where
  host := t.host
  port := t.port
  database := t.database
  trustCert := t.trustCert
  encryption := if t.tls then .required else .off
  authentication := .sqlServer t.username t.password
  applicationName := none

theorem parse_eq {toLowercase : String → String} (hlower : LowercasesAscii toLowercase) {t : MssqlTarget}
    {connStr : String} (h : t.Renders toLowercase connStr) :
    parseMssqlConnStr toLowercase connStr =
      .ok (MssqlSettings.config ⟨t.host, t.port, t.database, t.username, t.password, t.trustCert, t.tls⟩) := by
  obtain ⟨kinds, parts, hstr, hparts, hkinds⟩ := h
  obtain ⟨ops, hops, hk, hall, hsemi⟩ := exists_ops hlower hparts
  have hne : parts ≠ [] := by
    rintro rfl
    cases hparts
    exact absurd (hkinds .server) (by simp)
  have hsplit : connStr.toList.splitOn ';' = parts := by
    rw [hstr, List.splitOn_intercalate ';' hsemi hne]
  rw [parseMssqlConnStr, hsplit, parseSegments_eq_ok_iff.mpr ⟨ops, hops, rfl⟩,
    foldl_assign_of_said (fun k => hk k (hkinds k)) hall]
  rfl

end MssqlTarget

/-- A call of `mssql_query` with a string that says a target opens all its connections to that target, as the
target says, over a pool of the size it is given; and it asks for no token. -/
theorem MssqlConnector.opens_target {C : Type} (toLowercase : String → String)
    (hlower : LowercasesAscii toLowercase) (t : MssqlTarget) (connStr : String)
    (h : t.Renders toLowercase connStr) (azureAuth : Bool) (azure : AzureIdentity C)
    (build : Nat → Except String Unit) (maxConnections : UInt32) :
    ∃ driver : MssqlDriver C, driver.maxSize = maxConnections.toNat ∧
      MssqlConnector.connected toLowercase azureAuth azure build connStr maxConnections =
        ((build maxConnections.toNat).mapError fun e => toString (DbError.config e)).map (fun _ => driver) ∧
      ∀ getToken net, driver.manager.newClient getToken net =
        net.connect s!"{t.host}:{t.port}" t.tiberiusConfig := by
  refine ⟨⟨⟨{ MssqlSettings.config ⟨t.host, t.port, t.database, t.username, t.password, t.trustCert, t.tls⟩ with
    pool := .upTo maxConnections }, none⟩, maxConnections.toNat⟩, rfl, ?_, fun _ _ => rfl⟩
  rw [MssqlConnector.connected, MssqlTarget.parse_eq hlower h]
  show (MssqlDriver.connect azureAuth azure build _).mapError toString = _
  unfold MssqlDriver.connect
  show Except.mapError toString (((build maxConnections.toNat).mapError DbError.config).bind _) = _
  cases build maxConnections.toNat with
  | error e => rfl
  | ok u => rfl

theorem MssqlConnector.opens_sampleTarget :
    ∃ driver : MssqlDriver Unit, driver.maxSize = 4 ∧
      MssqlConnector.connected toAsciiLowercase false MssqlDriver.noAzure (fun _ => .ok ()) sampleString 4 =
        ((Except.ok () : Except String Unit).mapError fun e => toString (DbError.config e)).map (fun _ => driver) ∧
      ∀ getToken net, driver.manager.newClient getToken net =
        net.connect s!"{sampleTarget.host}:{sampleTarget.port}" sampleTarget.tiberiusConfig :=
  MssqlConnector.opens_target toAsciiLowercase (fun _ _ => rfl) sampleTarget sampleString sampleTarget_renders
    false MssqlDriver.noAzure (fun _ => .ok ()) 4

/-- A call of `mssql_query`, whenever its queries come to their results, in which the cut points of a window of UUIDs
step back over no key, in the order of SQL Server: it fails because the driver does not connect or a query fails,
or DuckDB reads the rows the call is about, once each, in the columns of the base query, or without any column
where there are no rows. -/
theorem MssqlConnector.mssqlQuery_delivers {C : Type} (chrono : Chrono) (fromSql : FromSql)
    (poolText : PoolError → String) (pool : MssqlDriver C → MssqlPool) (toLowercase : String → String)
    (azureAuth : Bool) (azure : AzureIdentity C) (build : Nat → Except String Unit)
    (parseUuid : String → Option Uuid) (fuel : Nat) (hfuel : 2 ^ 32 ≤ fuel) (bind : BindInfo) (base : BaseResult)
    (hsteps : bind.NoStepsBack parseUuid .mssql base) (cols : List Column)
    (hcols : ∀ r ∈ base.rows, r.columns = cols)
    (hanswers : ∀ mssql, MssqlConnector.connected toLowercase azureAuth azure build bind.connStr
        (RemoteVTab.maxConnections (bind.planned parseUuid)) = .ok mssql →
      bind.Answered parseUuid Backend.mssql.uuidOrder base
        (MssqlDriver.driver chrono fromSql poolText (pool mssql)))
    (connect : BackendConnector)
    (hconnect : connect.Runs (fun mssql => MssqlDriver.driver chrono fromSql poolText (pool mssql))
      (MssqlConnector.connected toLowercase azureAuth azure build)) :
    let connection := MssqlConnector.connected toLowercase azureAuth azure build bind.connStr
      (RemoteVTab.maxConnections (bind.planned parseUuid))
    (∃ text, RemoteVTab.bind parseUuid fuel connect bind = some (.error text) ∧
      ConnectorFails connection (fun mssql => MssqlDriver.Fails chrono poolText (pool mssql))
        (bind.planned parseUuid) text) ∨
    ∃ bound, RemoteVTab.bind parseUuid fuel connect bind = some (.ok bound) ∧
      (∀ text, ¬ ConnectorFails connection (fun mssql => MssqlDriver.Fails chrono poolText (pool mssql))
        (bind.planned parseUuid) text) ∧
      RemoteVTab.Delivers bound cols (bind.wanted parseUuid Backend.mssql.uuidOrder base) :=
  delivers_of_answers hfuel hsteps hcols
    (fun _ _ _ _ => MssqlDriver.query_eq_error_iff chrono fromSql poolText) hanswers hconnect

namespace MssqlConnector

/-- A table of two numbers. -/
def idSet : ResultSet where
  columns := [⟨"id", "Int8", .i64⟩]
  rows := [[.i64 (some 1)], [.i64 (some 2)]]
  typed := by simp [ColumnData.kind]

def idPool : MssqlPool := ⟨fun _ => .ok (), fun _ _ _ => .ok (idSet.items.map .ok)⟩

/-- The rows of the table, as the result of the base query. -/
def idResult : BaseResult := ⟨idSet.toRows .failing, fun _ => none, fun _ => none⟩

def wholeTable : BindInfo := { connStr := "Server=db", query := "SELECT id FROM t" }

def idConnected : String → UInt32 → Except String (MssqlDriver Unit) :=
  connected toAsciiLowercase false MssqlDriver.noAzure fun _ => .ok ()

def idDriver : MssqlDriver Unit → DbDriver := fun _ => MssqlDriver.driver .gregorian .failing (fun _ => "") idPool

theorem mssqlQuery_delivers_wholeTable :
    (∃ text, RemoteVTab.bind Uuid.read (2 ^ 32) (promptConnector idDriver idConnected) wholeTable =
        some (.error text) ∧
      ConnectorFails (idConnected "Server=db" 1) (fun _ => MssqlDriver.Fails .gregorian (fun _ => "") idPool)
        [.new "SELECT id FROM t"] text) ∨
    ∃ bound, RemoteVTab.bind Uuid.read (2 ^ 32) (promptConnector idDriver idConnected) wholeTable =
        some (.ok bound) ∧
      (∀ text, ¬ ConnectorFails (idConnected "Server=db" 1)
        (fun _ => MssqlDriver.Fails .gregorian (fun _ => "") idPool) [.new "SELECT id FROM t"] text) ∧
      RemoteVTab.Delivers bound [⟨"id", "Int8", true⟩]
        (wholeTable.wanted Uuid.read Backend.mssql.uuidOrder idResult) := by
  refine mssqlQuery_delivers .gregorian .failing (fun _ => "") (fun _ => idPool) toAsciiLowercase false
    MssqlDriver.noAzure (fun _ => .ok ()) Uuid.read (2 ^ 32) le_rfl wholeTable idResult nofun
    [⟨"id", "Int8", true⟩] ?_ ?_ _ (promptConnector_runs _ _)
  · intro r hr
    obtain ⟨cells, -, rfl⟩ := List.mem_map.mp hr
    rfl
  · rintro mssql - i p out hp hquery
    obtain rfl := List.mem_singleton.mp (List.mem_of_getElem? hp)
    obtain rfl : idResult.rows = out := Except.ok.inj hquery
    exact .of_eq (by simp [BaseResult.answer, Partition.new, read_query, wholeTable])

end MssqlConnector
end RustDbDriver
