import Maestro.Go
import Maestro.Json
import Maestro.Encoding
import Maestro.Crypto
import Maestro.Scheduler.Graph
import Maestro.Scheduler.Lemmas.Basic
import Maestro.Scheduler.Lemmas.Traversal
import Maestro.Scheduler.Lemmas.Rounds
import Maestro.Scheduler.Lemmas.Scores
import Maestro.Scheduler.Theorems
import Maestro.Scheduler.Repr
import Maestro.Scheduler.Condition
import Maestro.Model.Sql
import Maestro.Model.Table
import Maestro.Model.Parents
import Maestro.Model.Lemmas.Parents
import Maestro.Model.Dependencies
import Maestro.Model.Job
import Maestro.Model.Run
import Maestro.Model.Lemmas.Run
import Maestro.Model.Cycle
import Maestro.Model.Ticker
import Maestro.Model.Submit
import Maestro.Dbsync.Reader
import Maestro.Dbsync.Stream
import Maestro.Dbsync.Where
import Maestro.Dbsync.Select
import Maestro.Dbsync.Schema
import Maestro.Db.TableRec
import Maestro.Db.Users
import Maestro.Ui.Token
import Maestro.Import
import Maestro.System.State
import Maestro.System.Step
import Maestro.System.Lemmas.Frame
import Maestro.System.Lemmas.Jobs
import Maestro.System.Lemmas.Events
import Maestro.System.Waits
import Maestro.System.Watch
import Maestro.System.ImportJob
import Maestro.System.Runs
import Maestro.System.Assemble
import Maestro.Auth.Store
import Maestro.Auth.Step
import Maestro.Auth.Invariant
import Maestro.Auth.Theorems
import Maestro.Auth.Tables
