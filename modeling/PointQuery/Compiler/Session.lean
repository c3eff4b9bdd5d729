import PointQuery.Compiler.Executor
import PointQuery.Sql.Equality
/-!
# Sessions

A session is a sequence of actions on a compiler. Each action answers and leaves the compiler in a
new state, and the session goes on even if it failed. Scalar scopes nest, and each restores the mode
that it found.
-/

namespace PointQuery

open Sql

/-! ## Actions -/

/-- What an executor does with the statement of a scalar query. -/
inductive Conduct where
  | succeeds
  | fails
  | panics
deriving DecidableEq, Inhabited

/-- An action on a compiler. -/
inductive Action where
  | search (search : Search)
  | searchNear (origin column : String) (radius : Binary64) (unit : DistanceUnit)
  | compile
  | compileIn (mode : ProjectionMode)
  | compileScalar (expression : String)
  | runScalar (expression : String) (conduct : Conduct)
  /-- Goes through actions in scalar mode. -/
  | scope (actions : List Action)
  | edit (edits : List Edit)
  | reset (query : Query)
  | configure (config : Config)
  | call (executor : Executor) (call : ExecutorCall)
  /-- Renders the query as it is. -/
  | render
  /-- Renders the scalar query. -/
  | renderScalar (expression : String)
  /-- Looks at the compiler. -/
  | inspect

/-- What an action answers, the compiler before and after it, and what was reported. -/
structure Report (A : Type) where
  answer : A
  before : Compiler
  after : Compiler
  events : List Event

/-- The answer to an action. -/
inductive Answer where
  | done
  | failed (error : QueryError)
  | statement (statement : Statement)
  | rendered (fragment : Fragment)
  /-- The executor failed on this statement. -/
  | refused (sql : String)
  | panicked
  | reports (inner : List (Report Answer))
  | state (compiler : Compiler)
  | called (error : ExecutionError) (issued : Option Event)

namespace Answer

/-- The answer of an action that compiles. -/
def ofCompiled : Except QueryError Statement → Answer
  | .ok compiled => .statement compiled
  | .error error => .failed error

/-- The answer of an executor to the statement that it is given. -/
def ofConduct (conduct : Conduct) (given : Statement) : Answer :=
  match conduct with
  | .succeeds => .statement given
  | .fails => .refused given.sql
  | .panics => .panicked

end Answer

/-- Whether an action left another query behind than it found. -/
def Report.changed {A : Type} (r : Report A) : Bool := !r.before.query.ieeeEq r.after.query

/-! ## Running -/

namespace Compiler

/-- The report of an action that leaves the compiler as it was. -/
def answering (c : Compiler) (answer : Answer) (events : List Event) : Report Answer :=
  ⟨answer, c, c, events⟩

/-- The report of an operation, which changes the compiler or fails. -/
def operating (c : Compiler) (operation : Operation Unit) (events : List Event) : Report Answer :=
  match operation.run c with
  | .ok _ after => ⟨.done, c, after, events⟩
  | .error error after => ⟨.failed error, c, after, events⟩

mutual

/-- Goes through one action. -/
def run (c : Compiler) : Action → Report Answer
  | .search search => c.operating (Compiler.search search) (c.searchEvents search)
  | .searchNear origin column radius unit =>
    c.operating (Compiler.searchNear origin column radius unit)
      (c.searchNearEvents origin column radius unit)
  | .compile => c.answering (.ofCompiled c.compile) (c.statementEvents c.mode c.query)
  | .compileIn mode =>
    c.answering (.ofCompiled (c.compileIn mode)) (c.statementEvents mode c.query)
  | .compileScalar expression =>
    c.answering (.ofCompiled (c.compileScalar expression)) (c.compileScalarEvents expression)
  | .runScalar expression conduct =>
    let (result, after) := c.runScalar expression (Answer.ofConduct conduct)
    let answer :=
      match result with
      | .ok answer => answer
      | .error error => .failed error
    ⟨answer, c, after, c.scalarEvents expression⟩
  | .scope actions =>
    let (reports, after) := c.inScalarMode fun inner => runAll inner actions
    ⟨.reports reports, c, after, []⟩
  | .edit edits => ⟨.done, c, { c with query := c.query.editAll edits }, []⟩
  | .reset query => ⟨.done, c, { c with query }, []⟩
  | .configure config =>
    let after := { c with config }
    ⟨.state after, c, after, []⟩
  | .call executor call =>
    let (error, issued) := executor.callClosed call c
    c.answering (.called error issued) (call.events c ++ issued.toList)
  | .render => c.answering (.rendered c.query.render) []
  | .renderScalar expression => c.answering (.rendered (c.scalarForm expression).render) []
  | .inspect => c.answering (.state c) []

/-- Goes through actions one after another. -/
def runAll (c : Compiler) : List Action → List (Report Answer) × Compiler
  | [] => ([], c)
  | action :: actions =>
    let report := run c action
    let (reports, after) := runAll report.after actions
    (report :: reports, after)

end

end Compiler

end PointQuery
