import RustDbDriver.Chrono
import RustDbDriver.Lib.Cuts
import RustDbDriver.Lib.Lex
import RustDbDriver.Lib.Scan
import RustDbDriver.Lib.Futures
import RustDbDriver.Lib.Runs
import RustDbDriver.Lib.Pieces
import RustDbDriver.Lib.Keywords
import RustDbDriver.AzureToken
import RustDbDriver.TokenOrder
import RustDbDriver.Statement
import RustDbDriver.Partition
import RustDbDriver.Clean
import RustDbDriver.Plan
import RustDbDriver.IntRange
import RustDbDriver.UuidRange
import RustDbDriver.Offset
import RustDbDriver.Strategy
import RustDbDriver.UuidBackends
import RustDbDriver.UuidText
import RustDbDriver.Uuid
import RustDbDriver.Convert
import RustDbDriver.ResultSets
import RustDbDriver.TimeRange
import RustDbDriver.TimeTiling
import RustDbDriver.Config
import RustDbDriver.PostgresTls
import RustDbDriver.MySqlTls
import RustDbDriver.Balance
import RustDbDriver.Chunks
import RustDbDriver.Lib.Blocks
import RustDbDriver.Lib.Even
import RustDbDriver.Binding
import RustDbDriver.RoundTrip
import RustDbDriver.MssqlConnStr
import RustDbDriver.MssqlRendering
import RustDbDriver.Wrapper
import RustDbDriver.Lib.Collect
import RustDbDriver.TableFunction
import RustDbDriver.AzureCredential
import RustDbDriver.Mssql
import RustDbDriver.MssqlLogin
import RustDbDriver.ClientRows
import RustDbDriver.KeyedRows
import RustDbDriver.Postgres
import RustDbDriver.MySql
