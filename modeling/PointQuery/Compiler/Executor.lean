import PointQuery.Aggregate
import PointQuery.Compiler.Basic
/-!
# Executors

An executor runs statements on a pool of connections. What it hands to the database is decided here:
which statement each call issues. Running it needs a server and is not part of the model, so the
pool is one that is closed, and every statement meets the same fault.
-/

namespace PointQuery

/-- An executor for the databases of one dialect. -/
structure Executor where
  dialect : Dialect
deriving DecidableEq

/-- A call of an executor. -/
inductive ExecutorCall where
  | rowCount
  | hasRows
  | allRows
  | firstRow
  | aggregate (a : Aggregate)
  | distanceSummary
deriving DecidableEq

/-- Why a call gives no rows. -/
inductive ExecutionError where
  /-- The query could not be compiled. -/
  | query (error : QueryError)
  /-- The pool was closed before the statement could be run. -/
  | poolClosed
deriving DecidableEq

/-- The wording of an error. -/
def ExecutionError.message : ExecutionError → String
  | query error => error.message
  | poolClosed => "database error: attempted to acquire a connection on a closed pool"

namespace Executor

/-- The name of the driver, from which a compiler for this executor takes its dialect. -/
def driver (e : Executor) : String :=
  match e.dialect with
  | .mysql => "mysql"
  | .postgresql => "pgsql"

/-- A compiler for a query to be run by the executor. -/
def compiler (e : Executor) (query : Sql.Query) (table : Table) : Compiler :=
  { query, table, driver := e.driver }

end Executor

namespace ExecutorCall

/-- The name under which a call is reported. Asking whether there are rows counts them. -/
def name : ExecutorCall → String
  | rowCount => "count"
  | hasRows => "count"
  | allRows => "fetch_all"
  | firstRow => "fetch_optional"
  | aggregate _ => "aggregate"
  | distanceSummary => "distance_stats"

/-- The expression of a call that computes one row; none for the calls that fetch rows. -/
def expression? (call : ExecutorCall) (c : Compiler) : Except QueryError (Option String) :=
  match call with
  | rowCount | hasRows => .ok (some Aggregate.rowCount)
  | allRows | firstRow => .ok none
  | aggregate a => c.dialect.map fun d => some (a.toDouble d)
  | distanceSummary => c.dialect.map fun d => some (Aggregate.distanceSummary d)

/-- The statement that a call issues. The compiler's own driver decides the dialect, whatever the
executor is. -/
def statement (call : ExecutorCall) (c : Compiler) : Except QueryError Statement := do
  match ← call.expression? c with
  | some expression => (c.inScalarMode fun inner => (inner.compileScalar expression, inner)).1
  | none => c.compile

/-- What making the statement of a call reports. -/
def events (call : ExecutorCall) (c : Compiler) : List Event :=
  match call.expression? c with
  | .ok (some expression) => c.scalarEvents expression
  | .ok none => c.statementEvents c.mode c.query
  | .error _ => []

end ExecutorCall

/-- What a call on a closed pool comes to: the error, and the statement issued, if there was one. -/
def Executor.callClosed (e : Executor) (call : ExecutorCall) (c : Compiler) :
    ExecutionError × Option Event :=
  match call.statement c with
  | .error error => (.query error, none)
  | .ok statement => (.poolClosed, some (.issued call.name e.driver statement.sql))

end PointQuery
