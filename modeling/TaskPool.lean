import TaskPool.Json.Reader
import TaskPool.Settings.Document
import TaskPool.Settings.Reader
import TaskPool.Tally
import TaskPool.Log.Sinks
import TaskPool.Task
import TaskPool.Queue.Traffic
import TaskPool.Queue.Session
import TaskPool.Pool.World
import TaskPool.Session.Report
import TaskPool.Text.Outline
import TaskPool.Proofs.Queue.Delivery
import TaskPool.Proofs.Queue.Wakeup
import TaskPool.Proofs.Pool.Shutdown
import TaskPool.Proofs.Settings.RoundTrip
import TaskPool.Proofs.Settings.Described
import TaskPool.Proofs.Pool.Balance
import TaskPool.Proofs.Pool.Confluence
import TaskPool.Proofs.Pool.OneLife
import TaskPool.Proofs.Pool.Standstill
import TaskPool.Proofs.Pool.Roster
import TaskPool.Proofs.Pool.Recruiting
import TaskPool.Proofs.Pool.Inert
import TaskPool.Proofs.Pool.Listeners
import TaskPool.Proofs.Pool.Isolation
import TaskPool.Proofs.Pool.Sequential
import TaskPool.Proofs.Pool.Log
import TaskPool.Proofs.Settings.Building
import TaskPool.Proofs.Json.Shape
import TaskPool.Proofs.Settings.Restated
import TaskPool.Proofs.Pool.Register
import TaskPool.Proofs.Pool.Awaited
import TaskPool.Proofs.Json.Decided
import TaskPool.Proofs.Json.Decided.Lexemes
import TaskPool.Proofs.Json.Decided.Values
import TaskPool.Proofs.Settings.Decided
import TaskPool.Proofs.Settings.Position
import TaskPool.Proofs.Settings.Rules
import TaskPool.Proofs.Settings.Spacing
import TaskPool.Proofs.Log.Filtering
import TaskPool.Proofs.Text.Lexemes
import TaskPool.Proofs.Text.Outlines
import TaskPool.Proofs.Text.Spans
import TaskPool.Proofs.Text.Identity
import TaskPool.Proofs.Pool.Nested
import TaskPool.Proofs.Number.Words
import TaskPool.Proofs.Tally
