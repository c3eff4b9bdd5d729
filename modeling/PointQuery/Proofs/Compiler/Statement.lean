import PointQuery.Compiler.Session
/-!
# The statement of a query

Compiling fails only if the driver is not supported; the statement is otherwise the text of the
projected query, with the placeholders of the dialect, and its values. Scalar queries and the calls
of executors come to statements of the same kind, in suppressed mode where one row is computed.
-/

namespace PointQuery

open Sql

namespace Compiler

variable {c : Compiler} {d : Dialect}

/-- The query whose text a compiled statement is. -/
def projected (c : Compiler) (d : Dialect) (mode : ProjectionMode) (q : Query) : Query :=
  (c.projection d).project c.config.projectionStyle mode (q.readingFrom c.table.name)

theorem statement_eq (hd : c.dialect = .ok d) (mode : ProjectionMode) (q : Query) :
    c.statement mode q = .ok ⟨d.writePlaceholders (c.projected d mode q).render.sql,
      (c.projected d mode q).render.params⟩ := by
  rw [statement, hd]
  rfl

theorem statement_error {e : QueryError} (hd : c.dialect = .error e) (mode : ProjectionMode)
    (q : Query) : c.statement mode q = .error e := by
  rw [statement, hd]
  rfl

/-! ## Scalar queries and calls -/

theorem compileScalar_suppressed (c : Compiler) (expression : String) :
    ({ c with mode := .suppressed } : Compiler).compileScalar expression =
      c.statement .suppressed (c.scalarForm expression) := rfl

/-- What a statement reports does not depend on the current mode. -/
theorem statementEvents_mode (c : Compiler) (mode : ProjectionMode) :
    ({ c with mode } : Compiler).statementEvents = c.statementEvents := by
  funext mode' q
  have hdialect : ({ c with mode } : Compiler).dialect = c.dialect := rfl
  have hstatement : ({ c with mode } : Compiler).statement = c.statement := rfl
  have hprojection : ({ c with mode } : Compiler).projection = c.projection := rfl
  simp only [statementEvents, hdialect, hstatement, hprojection]

theorem compileScalarEvents_suppressed (c : Compiler) (expression : String) :
    ({ c with mode := .suppressed } : Compiler).compileScalarEvents expression =
      c.statementEvents .suppressed (c.scalarForm expression) := by
  have hform : ({ c with mode := .suppressed } : Compiler).scalarForm = c.scalarForm := rfl
  rw [compileScalarEvents, statementEvents_mode, hform]

theorem scalarEvents_eq (c : Compiler) (expression : String) :
    c.scalarEvents expression = c.statementEvents .suppressed (c.scalarForm expression) := by
  simp only [scalarEvents, inScalarMode]
  exact compileScalarEvents_suppressed c expression

/-- A scalar query is handed to its executor as it compiles in suppressed mode; the compiler is left
as it was. -/
theorem runScalar_eq {A : Type} (c : Compiler) (expression : String) (execute : Statement → A) :
    c.runScalar expression execute =
      ((c.statement .suppressed (c.scalarForm expression)).map execute, c) := by
  rw [← compileScalar_suppressed]
  rfl

/-- A call issues the query in the current mode, or a scalar query in suppressed mode. -/
theorem call_statement_eq (call : ExecutorCall) (c : Compiler) :
    call.statement c =
      match call.expression? c with
      | .error e => .error e
      | .ok none => c.statement c.mode c.query
      | .ok (some expression) => c.statement .suppressed (c.scalarForm expression) := by
  rw [ExecutorCall.statement]
  rcases call.expression? c with e | _ | expression
  · rfl
  · simp only [bind, Except.bind, compile, compileIn]
  · simp only [bind, Except.bind, inScalarMode]
    exact compileScalar_suppressed c expression

end Compiler

/-- What an executor answers to the result of compiling a scalar query: as it conducts itself if it
is given a statement, and otherwise with the error. -/
def Answer.ofHanded (conduct : Conduct) : Except QueryError Statement → Answer
  | .ok given => .ofConduct conduct given
  | .error e => .failed e

theorem Compiler.run_runScalar (c : Compiler) (expression : String) (conduct : Conduct) :
    c.run (.runScalar expression conduct) =
      ⟨.ofHanded conduct (c.statement .suppressed (c.scalarForm expression)), c, c,
        c.statementEvents .suppressed (c.scalarForm expression)⟩ := by
  rw [run, runScalar_eq, scalarEvents_eq]
  cases c.statement .suppressed (c.scalarForm expression) with
  | ok given => rfl
  | error e => rfl

end PointQuery
