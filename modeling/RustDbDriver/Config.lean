import Mathlib

/-!
# Connection settings

The configuration a driver connects with. Durations are in seconds.
-/

namespace RustDbDriver

structure SqlAuth where
  username : String
  password : String
deriving DecidableEq, Repr

inductive AuthConfig where
  | none
  | sqlPassword (auth : SqlAuth)
  | azureDefaultCredential
  | azureClientSecret (tenantId clientId clientSecret : String)
  | azureManagedIdentity (clientId : Option String)
  | connectionString (cs : String)
  | motherDuck (token : String)
deriving DecidableEq, Repr

structure PoolConfig where
  minConnections : UInt32
  maxConnections : UInt32
  connectTimeout : Nat
  idleTimeout : Option Nat
  maxLifetime : Option Nat
deriving DecidableEq, Repr

def PoolConfig.default : PoolConfig where
  minConnections := 1
  maxConnections := 10
  connectTimeout := 30
  idleTimeout := some 600
  maxLifetime := some 1800

inductive BackendType where
  | postgres
  | mysql
  | mssql
deriving DecidableEq, Repr

structure DatabaseConfig where
  backend : BackendType
  host : String
  port : UInt16
  database : String
  auth : AuthConfig
  pool : PoolConfig
  tls : Bool
  trustCert : Bool
  connectionString : Option String
  applicationName : Option String
  connectTimeout : Nat
deriving DecidableEq, Repr

namespace DatabaseConfig

/-- What the three constructors share: they differ in the backend, and in whether it is asked for TLS. -/
def new (backend : BackendType) (tls : Bool) (host : String) (port : UInt16) (database : String)
    (auth : AuthConfig) : DatabaseConfig where
  backend := backend
  host := host
  port := port
  database := database
  auth := auth
  pool := .default
  tls := tls
  trustCert := false
  connectionString := none
  applicationName := none
  connectTimeout := 30

def postgres : String → UInt16 → String → AuthConfig → DatabaseConfig := new .postgres false

def mysql : String → UInt16 → String → AuthConfig → DatabaseConfig := new .mysql false

def mssql : String → UInt16 → String → AuthConfig → DatabaseConfig := new .mssql true

def withConnectionString (config : DatabaseConfig) (cs : String) : DatabaseConfig :=
  { config with connectionString := some cs }

end DatabaseConfig

/-- The pool that the connectors ask for. -/
def PoolConfig.upTo (maxConnections : UInt32) : PoolConfig :=
  { PoolConfig.default with minConnections := 0, maxConnections := maxConnections }

end RustDbDriver
