import PointQuery.Compiler.Session
import PointQuery.Proofs.Compiler.Statement
import PointQuery.Proofs.Search.Outcome
import PointQuery.Proofs.Values.Query
/-!
# Sessions that differ in their values

Two sessions whose actions differ in nothing but bound values, radii and origins go the same way:
each action answers alike in both, and leaves compilers that are alike. `alike_run` is one action,
`alike_runAll` a whole session.
-/

namespace PointQuery

open Sql

variable (R : Value → Value → Prop)

/-! ## What may differ -/

/-- Statements with the same text, and related values in the same places. -/
structure Statement.Alike (s s' : Statement) : Prop where
  sql : s.sql = s'.sql
  params : List.Forall₂ R s.params s'.params

/-- Results of compiling: the same error, or statements that are alike. -/
inductive CompiledAlike : Except QueryError Statement → Except QueryError Statement → Prop where
  | error (e : QueryError) : CompiledAlike (.error e) (.error e)
  | ok {s s' : Statement} : s.Alike R s' → CompiledAlike (.ok s) (.ok s')

/-- Compilers whose queries are alike, and that are otherwise the same. -/
structure Compiler.Alike (c c' : Compiler) : Prop where
  query : c.query.Alike R c'.query
  table : c.table = c'.table
  driver : c.driver = c'.driver
  config : c.config = c'.config
  mode : c.mode = c'.mode

/-- Errors of one kind: equal, but for an origin that cannot be read, which they quote. -/
inductive QueryError.SameKind : QueryError → QueryError → Prop where
  | refl (e : QueryError) : SameKind e e
  | malformedOrigin (s s' : String) : SameKind (.malformedOrigin s) (.malformedOrigin s')

/-- Outcomes of an operation: both are successes or both are failures of one kind, and the compilers
that they leave are alike. -/
inductive OutcomeAlike : EStateM.Result QueryError Compiler Unit →
    EStateM.Result QueryError Compiler Unit → Prop where
  | ok {c c' : Compiler} : c.Alike R c' → OutcomeAlike (.ok () c) (.ok () c')
  | error {e e' : QueryError} {c c' : Compiler} :
      e.SameKind e' → c.Alike R c' → OutcomeAlike (.error e c) (.error e' c')

/-- Texts of origins that can both be read, the origins being related, or that both cannot. -/
inductive OriginsAlike (text text' : String) : Prop where
  | read {o o' : Coordinate} : Coordinate.parse text = .ok o → Coordinate.parse text' = .ok o' →
      o.Alike R o' → OriginsAlike text text'
  | unread {e e' : QueryError} : Coordinate.parse text = .error e →
      Coordinate.parse text' = .error e' → OriginsAlike text text'

mutual

/-- Actions that differ in nothing but their values. -/
def actionAlike : Action → Action → Prop
  | .search s, other => ∃ s', other = .search s' ∧ s.Alike R s'
  | .searchNear origin column radius unit, other =>
    ∃ origin' radius', other = .searchNear origin' column radius' unit ∧
      OriginsAlike R origin origin' ∧ R (.float radius) (.float radius')
  | .scope actions, other => ∃ actions', other = .scope actions' ∧ actionsAlike actions actions'
  | .edit edits, other => ∃ edits', other = .edit edits' ∧ List.Forall₂ (Edit.Alike R) edits edits'
  | .reset query, other => ∃ query', other = .reset query' ∧ query.Alike R query'
  | action, other => other = action

/-- Sequences of such actions. -/
def actionsAlike : List Action → List Action → Prop
  | [], others => others = []
  | action :: actions, others =>
    ∃ action' actions', others = action' :: actions' ∧ actionAlike action action' ∧
      actionsAlike actions actions'

end

mutual

/-- Answers of the same kind: the same errors, and the same text with related values. -/
inductive Answer.Alike : Answer → Answer → Prop where
  | done : Answer.Alike .done .done
  | failed {e e' : QueryError} : e.SameKind e' → Answer.Alike (.failed e) (.failed e')
  | statement {s s' : Statement} : s.Alike R s' → Answer.Alike (.statement s) (.statement s')
  | rendered {f f' : Fragment} : f.Alike R f' → Answer.Alike (.rendered f) (.rendered f')
  | refused (sql : String) : Answer.Alike (.refused sql) (.refused sql)
  | panicked : Answer.Alike .panicked .panicked
  | reports {inner inner' : List (Report Answer)} :
      List.Forall₂ Report.Alike inner inner' → Answer.Alike (.reports inner) (.reports inner')
  | state {c c' : Compiler} : c.Alike R c' → Answer.Alike (.state c) (.state c')
  | called (e : ExecutionError) (issued : Option Event) :
      Answer.Alike (.called e issued) (.called e issued)

/-- Reports with such answers, from compilers that are alike to compilers that are alike. -/
inductive Report.Alike : Report Answer → Report Answer → Prop where
  | mk {answer answer' : Answer} {before before' after after' : Compiler}
      {events events' : List Event} :
      Answer.Alike answer answer' → before.Alike R before' → after.Alike R after' →
        Report.Alike ⟨answer, before, after, events⟩ ⟨answer', before', after', events'⟩

end

variable {R}

theorem Report.Alike.after {r r' : Report Answer} (h : r.Alike R r') :
    r.after.Alike R r'.after := by
  cases h with
  | mk _ _ after => exact after

namespace Compiler.Alike

variable {c c' : Compiler} {q q' : Query}

theorem dialect_eq (h : c.Alike R c') : c.dialect = c'.dialect := by
  rw [dialect, dialect, h.driver]

theorem withQuery (h : c.Alike R c') (hq : q.Alike R q') :
    Compiler.Alike R { c with query := q } { c' with query := q' } :=
  { h with query := hq }

theorem withMode (h : c.Alike R c') (mode : ProjectionMode) :
    Compiler.Alike R { c with mode } { c' with mode } :=
  { h with mode := rfl }

/-! ## Compiling -/

/-- **Alike queries are compiled alike**: to the same text, or not at all. -/
theorem statement (h : c.Alike R c') (mode : ProjectionMode) (hq : q.Alike R q') :
    CompiledAlike R (c.statement mode q) (c'.statement mode q') := by
  have hdialect := h.dialect_eq
  cases hd : c.dialect with
  | error e =>
      rw [hd] at hdialect
      rw [statement_error hd, statement_error hdialect.symm]
      exact .error e
  | ok d =>
      rw [hd] at hdialect
      have hprojected : (c.projected d mode q).Alike R (c'.projected d mode q') := by
        rw [projected, projected, projection, projection, h.table, h.config]
        exact Projection.alike_project _ _ mode (hq.readingFrom _)
      have hrender := hprojected.render
      rw [statement_eq hd, statement_eq hdialect.symm, hrender.sql]
      exact .ok ⟨rfl, hrender.params⟩

theorem scalarForm (h : c.Alike R c') (expression : String) :
    (c.scalarForm expression).Alike R (c'.scalarForm expression) := by
  have hq := h.query.readingFrom c.table.name
  have hselect : List.Forall₂ (itemAlike R) [.raw expression] [.raw expression] :=
    .cons (alike_expression (.raw expression) none) .nil
  rw [Compiler.scalarForm, Compiler.scalarForm, ← h.table, hq.keepsRows_eq]
  split
  · exact { hq with select := hselect, orderBy := rfl, limit := rfl, offset := rfl }
  · exact
      { select := hselect
        source := alike_derivedSource hq scalarAlias
        joins := rfl
        condition := .none
        groupBy := rfl
        orderBy := rfl
        limit := rfl
        offset := rfl
        distinct := rfl
        unions := by
          show unionsAlike R [] []
          rw [unionsAlike] }

/-! ## Searching -/

theorem checkSearch_eq (h : c.Alike R c') {s s' : Search} (hs : s.column = s'.column) :
    c.checkSearch s = c'.checkSearch s' := by
  rw [checkSearch, checkSearch, h.dialect_eq, hs]

theorem fillSource (h : c.Alike R c') : c.fillSource.Alike R c'.fillSource := by
  refine h.withQuery ?_
  rw [h.table]
  exact h.query.readingFrom _

theorem search (h : c.Alike R c') {s s' : Search} (hs : s.Alike R s') :
    OutcomeAlike R ((Compiler.search s).run c) ((Compiler.search s').run c') := by
  rw [search_run, search_run, h.checkSearch_eq hs.column]
  split
  · exact .ok (h.fillSource.withQuery (hs.restrict h.fillSource.query))
  · exact .error (.refl _) h

theorem searchNear (h : c.Alike R c') {origin origin' : String} (ho : OriginsAlike R origin origin')
    (column : String) {radius radius' : Binary64} (hr : R (.float radius) (.float radius'))
    (unit : DistanceUnit) :
    OutcomeAlike R ((Compiler.searchNear origin column radius unit).run c)
      ((Compiler.searchNear origin' column radius' unit).run c') := by
  rw [searchNear_run, searchNear_run]
  cases ho with
  | read hp hp' halike =>
      rw [hp, hp']
      exact h.search ⟨rfl, rfl, halike, hr⟩
  | unread hp hp' =>
      rw [hp, hp', h.config]
      cases c'.config.originPolicy with
      | ignore => exact .ok h
      | reject => exact .error (.malformedOrigin _ _) h

theorem operating (h : c.Alike R c') {op op' : Operation Unit} {events events' : List Event}
    (hop : OutcomeAlike R (op.run c) (op'.run c')) :
    Report.Alike R (c.operating op events) (c'.operating op' events') := by
  rw [Compiler.operating, Compiler.operating]
  -- the outcomes as such: what the operations do is said by the hypothesis
  revert hop
  generalize op.run c = r
  generalize op'.run c' = r'
  intro hop
  cases hop with
  | ok hafter => exact ⟨.done, h, hafter⟩
  | error hkind hafter => exact ⟨.failed hkind, h, hafter⟩

end Compiler.Alike

/-! ## Answers -/

section

variable {r r' : Except QueryError Statement} {c c' : Compiler}

theorem CompiledAlike.answer (h : CompiledAlike R r r') :
    Answer.Alike R (.ofCompiled r) (.ofCompiled r') := by
  cases h with
  | error e => exact .failed (.refl e)
  | ok hs => exact .statement hs

/-- Whatever an executor does with alike statements, the answers are alike. -/
theorem CompiledAlike.handed (h : CompiledAlike R r r') (conduct : Conduct) :
    Answer.Alike R (.ofHanded conduct r) (.ofHanded conduct r') := by
  cases h with
  | error e => exact .failed (.refl e)
  | @ok s s' hs =>
      cases conduct with
      | succeeds => exact .statement hs
      | fails =>
          show Answer.Alike R (.refused s.sql) (.refused s'.sql)
          rw [hs.sql]
          exact .refused s'.sql
      | panics => exact .panicked

/-- What a call issues does not depend on the values. -/
theorem Executor.callClosed_eq (h : c.Alike R c') (executor : Executor) (call : ExecutorCall) :
    executor.callClosed call c = executor.callClosed call c' := by
  have hexpression : call.expression? c = call.expression? c' := by
    cases call with
    | rowCount => rfl
    | hasRows => rfl
    | allRows => rfl
    | firstRow => rfl
    | aggregate a => rw [ExecutorCall.expression?, ExecutorCall.expression?, h.dialect_eq]
    | distanceSummary => rw [ExecutorCall.expression?, ExecutorCall.expression?, h.dialect_eq]
  have hstatement : CompiledAlike R (call.statement c) (call.statement c') := by
    rw [Compiler.call_statement_eq, Compiler.call_statement_eq, hexpression]
    split
    · exact .error _
    · rw [h.mode]
      exact h.statement _ h.query
    · exact h.statement _ (h.scalarForm _)
  rw [callClosed, callClosed]
  revert hstatement
  generalize call.statement c = r
  generalize call.statement c' = r'
  intro hstatement
  cases hstatement with
  | error e => rfl
  | ok hs => simp only [hs.sql]

end

/-! ## Running -/

theorem Compiler.Alike.answering {c c' : Compiler} {answer answer' : Answer}
    {events events' : List Event} (h : c.Alike R c') (ha : Answer.Alike R answer answer') :
    Report.Alike R (c.answering answer events) (c'.answering answer' events') :=
  ⟨ha, h, h⟩

mutual

/-- **One action goes the same way in both sessions.** -/
theorem alike_run : ∀ (action : Action) {action' : Action} {c c' : Compiler}, c.Alike R c' →
    actionAlike R action action' → Report.Alike R (c.run action) (c'.run action')
  | .search s, _, _, _, h, ha => by
    obtain ⟨s', rfl, hs⟩ := ha
    rw [Compiler.run, Compiler.run]
    exact h.operating (h.search hs)
  | .searchNear origin column radius unit, _, _, _, h, ha => by
    obtain ⟨origin', radius', rfl, ho, hr⟩ := ha
    rw [Compiler.run, Compiler.run]
    exact h.operating (h.searchNear ho column hr unit)
  | .compile, _, c, c', h, ha => by
    obtain rfl : _ = Action.compile := ha
    rw [Compiler.run, Compiler.run, Compiler.compile, Compiler.compile, Compiler.compileIn,
      Compiler.compileIn, h.mode]
    exact h.answering (h.statement _ h.query).answer
  | .compileIn mode, _, c, c', h, ha => by
    obtain rfl : _ = Action.compileIn mode := ha
    rw [Compiler.run, Compiler.run, Compiler.compileIn, Compiler.compileIn]
    exact h.answering (h.statement mode h.query).answer
  | .compileScalar expression, _, c, c', h, ha => by
    obtain rfl : _ = Action.compileScalar expression := ha
    rw [Compiler.run, Compiler.run, Compiler.compileScalar, Compiler.compileScalar, h.mode]
    exact h.answering (h.statement _ (h.scalarForm expression)).answer
  | .runScalar expression conduct, _, c, c', h, ha => by
    obtain rfl : _ = Action.runScalar expression conduct := ha
    have hcompile := h.statement .suppressed (h.scalarForm expression)
    rw [Compiler.run_runScalar, Compiler.run_runScalar]
    exact ⟨hcompile.handed conduct, h, h⟩
  | .scope actions, _, c, c', h, ha => by
    obtain ⟨actions', rfl, hactions⟩ := ha
    -- the inner session starts in suppressed mode, and the mode of before is put back after it
    obtain ⟨hreports, hlast⟩ := alike_runAll actions (h.withMode .suppressed) hactions
    rw [Compiler.run, Compiler.run, Compiler.inScalarMode, Compiler.inScalarMode, h.mode]
    exact ⟨.reports hreports, h, hlast.withMode _⟩
  | .edit edits, _, c, c', h, ha => by
    obtain ⟨edits', rfl, hedits⟩ := ha
    rw [Compiler.run, Compiler.run]
    exact ⟨.done, h, h.withQuery (h.query.editAll hedits)⟩
  | .reset query, _, c, c', h, ha => by
    obtain ⟨query', rfl, hquery⟩ := ha
    rw [Compiler.run, Compiler.run]
    exact ⟨.done, h, h.withQuery hquery⟩
  | .configure config, _, c, c', h, ha => by
    obtain rfl : _ = Action.configure config := ha
    have hafter : Compiler.Alike R { c with config } { c' with config } := { h with config := rfl }
    rw [Compiler.run, Compiler.run]
    exact ⟨.state hafter, h, hafter⟩
  | .call executor call, _, c, c', h, ha => by
    obtain rfl : _ = Action.call executor call := ha
    rw [Compiler.run, Compiler.run, Executor.callClosed_eq h]
    exact h.answering (.called _ _)
  | .render, _, c, c', h, ha => by
    obtain rfl : _ = Action.render := ha
    rw [Compiler.run, Compiler.run]
    exact h.answering (.rendered h.query.render)
  | .renderScalar expression, _, c, c', h, ha => by
    obtain rfl : _ = Action.renderScalar expression := ha
    have hform := h.scalarForm expression
    rw [Compiler.run, Compiler.run]
    exact h.answering (.rendered hform.render)
  | .inspect, _, c, c', h, ha => by
    obtain rfl : _ = Action.inspect := ha
    rw [Compiler.run, Compiler.run]
    exact h.answering (.state h)

/-- **A session goes the same way in both**, action by action. -/
theorem alike_runAll : ∀ (actions : List Action) {actions' : List Action} {c c' : Compiler},
    c.Alike R c' → actionsAlike R actions actions' →
      List.Forall₂ (Report.Alike R) (c.runAll actions).1 (c'.runAll actions').1 ∧
        (c.runAll actions).2.Alike R (c'.runAll actions').2
  | [], _, c, c', h, ha => by
    obtain rfl : _ = [] := ha
    rw [Compiler.runAll, Compiler.runAll]
    exact ⟨.nil, h⟩
  | action :: actions, _, c, c', h, ha => by
    obtain ⟨action', actions', rfl, haction, hactions⟩ := ha
    have hfirst := alike_run action h haction
    obtain ⟨hreports, hlast⟩ := alike_runAll actions hfirst.after hactions
    rw [Compiler.runAll, Compiler.runAll]
    exact ⟨.cons hfirst hreports, hlast⟩

end

end PointQuery
