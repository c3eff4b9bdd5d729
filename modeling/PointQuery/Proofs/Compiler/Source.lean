import Mathlib.Data.List.Forall2
import PointQuery.Proofs.Compiler.Scopes
import PointQuery.Proofs.Search.Sequence
/-!
# A query without a source

A query without a source reads the table of its compiler. The source is filled in at three places:
for good by a search that takes effect, and on a copy by a scalar query and by a statement. Filling
it in beforehand makes no difference: `run_fillSource` says so of one action and `steps_fillSource`
of a session. What a search has filled in stays, as no action takes the source away, so from then on
the two sessions are one.
-/

namespace PointQuery

open Sql

namespace Sql

/-- Whether a change leaves alone what a query reads from. -/
def Edit.keepsSource : Edit → Bool
  | .readTable .. => false
  | .readDerived .. => false
  | _ => true

namespace Query

variable {q : Query} {e : Edit} {source : Source Query}

theorem source_edit (h : e.keepsSource = true) (q : Query) : (q.edit e).source = q.source := by
  cases e with
  | readTable | readDerived => cases h
  | _ => rfl

theorem readingFrom_of_source (h : q.source = some source) (table : String) :
    q.readingFrom table = q := by
  rw [readingFrom, h]

theorem readingFrom_of_none (h : q.source = none) (table : String) :
    q.readingFrom table = q.edit (.readTable table none) := by
  rw [readingFrom, h]
  rfl

/-- A source that is filled in is not filled in again. -/
theorem readingFrom_readingFrom (q : Query) (table : String) :
    (q.readingFrom table).readingFrom table = q.readingFrom table := by
  cases h : q.source with
  | some source => rw [readingFrom_of_source h, readingFrom_of_source h]
  | none => rw [readingFrom_of_none h]; rfl

/-- A change to another clause can be made before the source is filled in or after. -/
theorem edit_readingFrom (h : e.keepsSource = true) (q : Query) (table : String) :
    (q.readingFrom table).edit e = (q.edit e).readingFrom table := by
  cases hs : q.source with
  | some source =>
      rw [readingFrom_of_source hs, readingFrom_of_source ((source_edit h q).trans hs)]
  | none =>
      rw [readingFrom_of_none hs, readingFrom_of_none ((source_edit h q).trans hs)]
      cases e with
      | readTable | readDerived => cases h
      | _ => rfl

theorem editAll_readingFrom {edits : List Edit} (h : edits.all Edit.keepsSource = true) (q : Query)
    (table : String) :
    (q.readingFrom table).editAll edits = (q.editAll edits).readingFrom table := by
  induction edits generalizing q with
  | nil => rfl
  | cons e edits ih =>
      obtain ⟨he, hedits⟩ := Bool.and_eq_true_iff.mp h
      show ((q.readingFrom table).edit e).editAll edits = _
      rw [edit_readingFrom he, ih hedits]
      rfl

end Query

end Sql

mutual

/-- Whether an action answers without showing the query as it is, and leaves alone what it reads
from, but for searches. -/
def Action.keepsSource : Action → Bool
  | .edit edits => edits.all Edit.keepsSource
  | .scope actions => Action.keepsSourceAll actions
  | .reset _ => false
  | .configure _ => false
  | .render => false
  | .inspect => false
  | _ => true

/-- The same of all actions of a list. -/
def Action.keepsSourceAll : List Action → Bool
  | [] => true
  | action :: actions => Action.keepsSource action && Action.keepsSourceAll actions

end

/-! ## Sessions step by step -/

mutual

/-- What there is to report of an answer: of the answer of a scope, what was done inside. -/
def Answer.steps : Answer → Report Answer → List (Report Answer)
  | .reports inner, _ => Report.stepsAll inner
  | _, whole => [whole]

/-- The reports of the steps of an action: a scope is taken apart into those of what was done
inside. -/
def Report.steps : Report Answer → List (Report Answer)
  | ⟨answer, before, after, events⟩ => answer.steps ⟨answer, before, after, events⟩

/-- The reports of the steps of a session, one after another. -/
def Report.stepsAll : List (Report Answer) → List (Report Answer)
  | [] => []
  | report :: reports => Report.steps report ++ Report.stepsAll reports

end

/-- The report with the source filled in before and after. -/
def Report.fillSource (r : Report Answer) : Report Answer :=
  { r with before := r.before.fillSource, after := r.after.fillSource }

/-- The same step, taken by a compiler whose source is filled in: the answer, what is reported and
the scalar queries are the same. -/
structure Report.SameStep (r r' : Report Answer) : Prop where
  answer : r'.answer = r.answer
  events : r'.events = r.events
  scalarForm : ∀ expression, r'.after.scalarForm expression = r.after.scalarForm expression
  before : r'.before = r.before.fillSource
  after : r'.after = r.after.fillSource

namespace Compiler

variable {c : Compiler}

/-! ## One action -/

theorem fillSource_fillSource (c : Compiler) : c.fillSource.fillSource = c.fillSource := by
  rw [fillSource, fillSource, Query.readingFrom_readingFrom]

@[simp] theorem dialect_fillSource (c : Compiler) : c.fillSource.dialect = c.dialect := rfl

@[simp] theorem projection_fillSource (c : Compiler) : c.fillSource.projection = c.projection := rfl

@[simp] theorem table_fillSource (c : Compiler) : c.fillSource.table = c.table := rfl

@[simp] theorem config_fillSource (c : Compiler) : c.fillSource.config = c.config := rfl

@[simp] theorem mode_fillSource (c : Compiler) : c.fillSource.mode = c.mode := rfl

@[simp] theorem query_fillSource (c : Compiler) :
    c.fillSource.query = c.query.readingFrom c.table.name := rfl

/-- A statement does not depend on the query that is held. -/
@[simp] theorem statement_fillSource (c : Compiler) : c.fillSource.statement = c.statement := rfl

@[simp] theorem statementEvents_fillSource (c : Compiler) :
    c.fillSource.statementEvents = c.statementEvents := by
  funext mode q
  simp only [statementEvents, dialect_fillSource, statement_fillSource, projection_fillSource,
    config_fillSource, table_fillSource]

/-- A statement of a query is that of the query with the source filled in. -/
@[simp] theorem statement_readingFrom (c : Compiler) (mode : ProjectionMode) (q : Query) :
    c.statement mode (q.readingFrom c.table.name) = c.statement mode q := by
  rw [statement, statement, Query.readingFrom_readingFrom]

@[simp] theorem statementEvents_readingFrom (c : Compiler) (mode : ProjectionMode) (q : Query) :
    c.statementEvents mode (q.readingFrom c.table.name) = c.statementEvents mode q := by
  rw [statementEvents, statementEvents, statement_readingFrom, Query.readingFrom_readingFrom]

@[simp] theorem compileIn_fillSource (c : Compiler) : c.fillSource.compileIn = c.compileIn := by
  funext mode
  rw [compileIn, compileIn, statement_fillSource, query_fillSource, statement_readingFrom]

@[simp] theorem compile_fillSource (c : Compiler) : c.fillSource.compile = c.compile := by
  rw [compile, compile, compileIn_fillSource, mode_fillSource]

@[simp] theorem scalarForm_fillSource (c : Compiler) : c.fillSource.scalarForm = c.scalarForm := by
  funext expression
  rw [scalarForm, scalarForm, query_fillSource, table_fillSource, Query.readingFrom_readingFrom]

@[simp] theorem compileScalar_fillSource (c : Compiler) :
    c.fillSource.compileScalar = c.compileScalar := by
  funext expression
  rw [compileScalar, compileScalar, statement_fillSource, scalarForm_fillSource, mode_fillSource]

@[simp] theorem compileScalarEvents_fillSource (c : Compiler) :
    c.fillSource.compileScalarEvents = c.compileScalarEvents := by
  funext expression
  rw [compileScalarEvents, compileScalarEvents, statementEvents_fillSource, scalarForm_fillSource,
    mode_fillSource]

@[simp] theorem checkSearch_fillSource (c : Compiler) : c.fillSource.checkSearch = c.checkSearch :=
  rfl

@[simp] theorem searchEvents_fillSource (c : Compiler) :
    c.fillSource.searchEvents = c.searchEvents := by
  funext s
  rw [searchEvents, searchEvents, checkSearch_fillSource]

@[simp] theorem searchNearEvents_fillSource (c : Compiler) :
    c.fillSource.searchNearEvents = c.searchNearEvents := by
  funext origin column radius unit
  simp only [searchNearEvents, searchEvents_fillSource, config_fillSource]

theorem expression?_fillSource (call : ExecutorCall) (c : Compiler) :
    call.expression? c.fillSource = call.expression? c := by
  cases call with
  | rowCount | hasRows | allRows | firstRow => rfl
  | aggregate | distanceSummary => simp only [ExecutorCall.expression?, dialect_fillSource]

theorem callClosed_fillSource (executor : Executor) (call : ExecutorCall) (c : Compiler) :
    executor.callClosed call c.fillSource = executor.callClosed call c := by
  have hstatement : call.statement c.fillSource = call.statement c := by
    rw [call_statement_eq, call_statement_eq, expression?_fillSource]
    simp only [statement_fillSource, scalarForm_fillSource, query_fillSource, mode_fillSource,
      statement_readingFrom]
  rw [Executor.callClosed, Executor.callClosed, hstatement]

theorem callEvents_fillSource (call : ExecutorCall) (c : Compiler) :
    call.events c.fillSource = call.events c := by
  rw [ExecutorCall.events, ExecutorCall.events, expression?_fillSource]
  simp only [scalarEvents_eq, statementEvents_fillSource, scalarForm_fillSource, query_fillSource, mode_fillSource,
    statementEvents_readingFrom]

theorem answering_fillSource (c : Compiler) (answer : Answer) (events : List Event) :
    c.fillSource.answering answer events = (c.answering answer events).fillSource := rfl

theorem operating_search_fillSource (s : Search) (c : Compiler) (events : List Event) :
    c.fillSource.operating (search s) events = (c.operating (search s) events).fillSource := by
  rw [operating, operating, search_run, search_run, checkSearch_fillSource, fillSource_fillSource]
  cases c.checkSearch s with
  | error e => rfl
  | ok d => rfl

theorem operating_searchNear_fillSource (origin column : String) (radius : Binary64)
    (unit : DistanceUnit) (c : Compiler) (events : List Event) :
    c.fillSource.operating (searchNear origin column radius unit) events =
      (c.operating (searchNear origin column radius unit) events).fillSource := by
  rw [operating_searchNear, operating_searchNear, config_fillSource]
  cases Coordinate.parse origin with
  | ok o => exact operating_search_fillSource _ c events
  | error e =>
      cases c.config.originPolicy with
      | reject => rfl
      | ignore => rfl

/-- **An action reports the same where the source is filled in**, but for the compiler itself, whose
source is filled in before and after. -/
theorem run_fillSource {action : Action} (hflat : ∀ actions, action ≠ .scope actions)
    (hkeeps : action.keepsSource = true) (c : Compiler) :
    c.fillSource.run action = (c.run action).fillSource := by
  cases action with
  | scope actions => exact absurd rfl (hflat actions)
  | reset | configure | render | inspect => cases hkeeps
  | search s =>
      rw [run, run, searchEvents_fillSource]
      exact operating_search_fillSource s c _
  | searchNear origin column radius unit =>
      rw [run, run, searchNearEvents_fillSource]
      exact operating_searchNear_fillSource origin column radius unit c _
  | runScalar expression conduct =>
      rw [run_runScalar, run_runScalar, statement_fillSource, scalarForm_fillSource,
        statementEvents_fillSource, Report.fillSource]
  | edit edits =>
      have hedits : (c.fillSource.query).editAll edits =
          (c.query.editAll edits).readingFrom c.table.name :=
        Query.editAll_readingFrom hkeeps c.query c.table.name
      rw [run, run, hedits]
      rfl
  | call executor call =>
      rw [run, run, callClosed_fillSource, callEvents_fillSource]
      rcases executor.callClosed call c with ⟨error, issued⟩
      exact c.answering_fillSource _ _
  | compile | compileIn | compileScalar | renderScalar =>
      rw [run, run, ← answering_fillSource]
      simp

/-! ## The steps of a session -/

theorem steps_run {action : Action} (hflat : ∀ actions, action ≠ .scope actions) (c : Compiler) :
    (c.run action).steps = [c.run action] := by
  have hanswer := (answer_run hflat c).1
  -- the report as such: what the action does is said by the hypothesis
  revert hanswer
  generalize c.run action = r
  intro hanswer
  obtain ⟨answer, before, after, events⟩ := r
  cases answer with
  | reports inner => exact absurd rfl (hanswer inner)
  | _ => rfl

theorem steps_run_scope (c : Compiler) (actions : List Action) :
    (c.run (.scope actions)).steps =
      Report.stepsAll (({ c with mode := .suppressed } : Compiler).runAll actions).1 := by
  rw [run]
  rfl

theorem stepsAll_runAll (c : Compiler) (action : Action) (actions : List Action) :
    Report.stepsAll (c.runAll (action :: actions)).1 =
      (c.run action).steps ++ Report.stepsAll ((c.run action).after.runAll actions).1 := by
  rw [runAll, Report.stepsAll]

theorem runAll_cons_after (c : Compiler) (action : Action) (actions : List Action) :
    (c.runAll (action :: actions)).2 = ((c.run action).after.runAll actions).2 := by
  rw [runAll]

/-- **A session reports the same, step by step, where the source is filled in**, but for the
compiler itself, whose source is filled in before and after each step. -/
theorem steps_fillSource :
    (∀ action : Action, action.keepsSource = true → ∀ c : Compiler,
      (c.fillSource.run action).steps = (c.run action).steps.map Report.fillSource ∧
        (c.fillSource.run action).after = (c.run action).after.fillSource) ∧
    ∀ actions, Action.keepsSourceAll actions = true → ∀ c : Compiler,
      Report.stepsAll (c.fillSource.runAll actions).1 =
          (Report.stepsAll (c.runAll actions).1).map Report.fillSource ∧
        (c.fillSource.runAll actions).2 = (c.runAll actions).2.fillSource := by
  refine Action.induction ?_ ?_ ?_ ?_
  · intro _ c
    rw [runAll, runAll]
    exact ⟨rfl, rfl⟩
  · intro action actions hfirst hrest hkeeps c
    rw [Action.keepsSourceAll, Bool.and_eq_true] at hkeeps
    obtain ⟨hsteps, hafter⟩ := hfirst hkeeps.1 c
    obtain ⟨hstepsAll, hlast⟩ := hrest hkeeps.2 (c.run action).after
    constructor
    · rw [stepsAll_runAll, stepsAll_runAll, List.map_append, hsteps, hafter, hstepsAll]
    · rw [runAll_cons_after, runAll_cons_after, hafter, hlast]
  · intro actions hinside hkeeps c
    rw [Action.keepsSource] at hkeeps
    -- the mode has no part in what is filled in
    obtain ⟨hsteps, hlast⟩ := hinside hkeeps { c with mode := .suppressed }
    constructor
    · rw [steps_run_scope, steps_run_scope, ← hsteps]
      rfl
    · rw [run_scope, run_scope]
      exact congrArg (fun x : Compiler => { x with mode := c.mode }) hlast
  · intro action hflat hkeeps c
    rw [steps_run hflat, steps_run hflat, run_fillSource hflat hkeeps]
    exact ⟨rfl, rfl⟩

theorem sameStep_fillSource (r : Report Answer) : r.SameStep r.fillSource where
  answer := rfl
  events := rfl
  scalarForm := fun expression => by
    show r.after.fillSource.scalarForm expression = _
    rw [scalarForm_fillSource]
  before := rfl
  after := rfl

/-! ## A source that stays -/

/-- The query has a source, so that none is filled in. -/
def Sourced (c : Compiler) : Prop := c.fillSource = c

theorem sourced_fillSource (c : Compiler) : c.fillSource.Sourced := c.fillSource_fillSource

theorem Sourced.withMode (h : c.Sourced) (mode : ProjectionMode) :
    Compiler.Sourced { c with mode } := by
  have hmode := congrArg (fun x : Compiler => ({ x with mode } : Compiler)) h
  exact hmode

/-- A search that takes effect leaves a source. -/
theorem TakesEffect.sourced {c c' : Compiler} (h : c.TakesEffect c') : c'.Sourced := by
  obtain ⟨s, d, -, rfl⟩ := h.exists_restrict
  rfl

/-- No action of a session takes the source away. -/
theorem Sourced.runAll (h : c.Sourced) {actions : List Action}
    (hkeeps : Action.keepsSourceAll actions = true) :
    (∀ r ∈ Report.stepsAll (c.runAll actions).1, r.after.Sourced) ∧
      (c.runAll actions).2.Sourced := by
  obtain ⟨hsteps, hafter⟩ := steps_fillSource.2 actions hkeeps c
  rw [h] at hsteps hafter
  refine ⟨fun r hr => ?_, hafter.symm⟩
  rw [hsteps] at hr
  obtain ⟨r', -, rfl⟩ := List.mem_map.mp hr
  exact r'.after.sourced_fillSource

/-- From a step on that leaves a source, all steps do, and so does the session. -/
theorem sourced_steps :
    (∀ action : Action, action.keepsSource = true → ∀ c : Compiler,
      (c.run action).steps.Pairwise (fun r s => r.after.Sourced → s.after.Sourced) ∧
        ∀ r ∈ (c.run action).steps, r.after.Sourced → (c.run action).after.Sourced) ∧
    ∀ actions, Action.keepsSourceAll actions = true → ∀ c : Compiler,
      (Report.stepsAll (c.runAll actions).1).Pairwise
          (fun r s => r.after.Sourced → s.after.Sourced) ∧
        ∀ r ∈ Report.stepsAll (c.runAll actions).1, r.after.Sourced →
          (c.runAll actions).2.Sourced := by
  refine Action.induction ?_ ?_ ?_ ?_
  · intro _ c
    rw [runAll, Report.stepsAll]
    exact ⟨.nil, by simp⟩
  · intro action actions hfirst hrest hkeeps c
    rw [Action.keepsSourceAll, Bool.and_eq_true] at hkeeps
    obtain ⟨hsteps, hafter⟩ := hfirst hkeeps.1 c
    obtain ⟨hstepsAll, hlast⟩ := hrest hkeeps.2 (c.run action).after
    -- a source left inside the first action is there when the others start
    rw [stepsAll_runAll, runAll_cons_after, List.pairwise_append]
    refine ⟨⟨hsteps, hstepsAll, fun r hr s hs hr' => ?_⟩, fun r hr hr' => ?_⟩
    · exact ((hafter r hr hr').runAll hkeeps.2).1 s hs
    · rcases List.mem_append.mp hr with hr | hr
      · exact ((hafter r hr hr').runAll hkeeps.2).2
      · exact hlast r hr hr'
  · intro actions hinside hkeeps c
    rw [Action.keepsSource] at hkeeps
    obtain ⟨hsteps, hlast⟩ := hinside hkeeps { c with mode := .suppressed }
    rw [steps_run_scope, run_scope]
    exact ⟨hsteps, fun r hr hr' => (hlast r hr hr').withMode c.mode⟩
  · intro action hflat hkeeps c
    rw [steps_run hflat]
    refine ⟨List.pairwise_singleton _ _, fun r hr hr' => ?_⟩
    rwa [List.mem_singleton.mp hr] at hr'

/-- The steps after one that leaves a source leave one too. -/
theorem sourced_later {actions : List Action} (hkeeps : Action.keepsSourceAll actions = true)
    {i j : Nat} {r s : Report Answer} (hij : i ≤ j)
    (hr : (Report.stepsAll (c.runAll actions).1)[i]? = some r)
    (hs : (Report.stepsAll (c.runAll actions).1)[j]? = some s) (h : r.after.Sourced) :
    s.after.Sourced := by
  obtain ⟨hi, rfl⟩ := List.getElem?_eq_some_iff.mp hr
  obtain ⟨hj, rfl⟩ := List.getElem?_eq_some_iff.mp hs
  rcases Nat.eq_or_lt_of_le hij with rfl | hlt
  · exact h
  · exact List.pairwise_iff_getElem.mp (sourced_steps.2 actions hkeeps c).1 i j hi hj hlt h

/-! ## Two sessions -/

/-- **A query without a source behaves as one that reads the table of its compiler.** Take a
compiler whose query has no source, and the same with the query that reads the table, and go through
the same session in both: searches, changes to other clauses, statements, scalar queries, calls of
executors and scalar scopes of all these. Step by step, inside scopes too, both answer and report
the same, and their scalar queries are the same. Some searches may fail or be left out; but from the
first on that takes effect, the two compilers are equal, and so are their queries. -/
theorem unsourced_sameSteps {actions : List Action} (hsource : c.query.source = none)
    (hkeeps : Action.keepsSourceAll actions = true) :
    let c' : Compiler := { c with query := c.query.edit (.readTable c.table.name none) }
    let steps := Report.stepsAll (c.runAll actions).1
    let steps' := Report.stepsAll (c'.runAll actions).1
    List.Forall₂ Report.SameStep steps steps' ∧
      ∀ (i : Nat) (r : Report Answer), steps[i]? = some r → r.before.TakesEffect r.after →
        (∀ j, i ≤ j → steps'[j]?.map Report.after = steps[j]?.map Report.after) ∧
        (c'.runAll actions).2 = (c.runAll actions).2 := by
  intro c' steps steps'
  have hfilled : c' = c.fillSource := by
    rw [fillSource, Query.readingFrom_of_none hsource]
  obtain ⟨hall, hlast⟩ := steps_fillSource.2 actions hkeeps c
  rw [← hfilled] at hall hlast
  have hsteps : steps' = steps.map Report.fillSource := hall
  constructor
  · rw [hsteps, List.forall₂_map_right_iff, List.forall₂_same]
    intro r _
    exact sameStep_fillSource r
  · intro i r hr heffect
    have hsourced : r.after.Sourced := heffect.sourced
    have hend := (sourced_steps.2 actions hkeeps c).2 r (List.mem_of_getElem? hr) hsourced
    refine ⟨fun j hij => ?_, hlast.trans hend⟩
    rw [hsteps, List.getElem?_map]
    cases hs : steps[j]? with
    | none => rfl
    | some s =>
        have hlater : s.after.Sourced := sourced_later hkeeps hij hr hs hsourced
        exact congrArg some hlater

/-- Mills, of which nothing is asked yet. -/
def mills : Compiler where
  query := {}
  table := ⟨"mills", [⟨"id", "int", false⟩, ⟨"geom", "point", false⟩]⟩
  driver := "pgsql"

/-- A search that is left out and one that fails; a scope with a count, which the executor fails,
and a search that takes effect; then a change and a statement. -/
def millVisit : List Action :=
  [.searchNear "here" "geom" (.ofInt 5) .kilometer,
    .searchNear "10, 20" "no column" (.ofInt 5) .kilometer,
    .scope [.runScalar "COUNT(*)" .fails, .searchNear "10, 20" "geom" (.ofInt 5) .kilometer],
    .edit [.limit 3], .compile]

theorem mills_sameSteps :
    mills.query.source = none ∧ Action.keepsSourceAll millVisit = true ∧
      let c' : Compiler := { mills with query := mills.query.edit (.readTable "mills" none) }
      let steps := Report.stepsAll (mills.runAll millVisit).1
      let steps' := Report.stepsAll (c'.runAll millVisit).1
      List.Forall₂ Report.SameStep steps steps' ∧
        ∀ (i : Nat) (r : Report Answer), steps[i]? = some r → r.before.TakesEffect r.after →
          (∀ j, i ≤ j → steps'[j]?.map Report.after = steps[j]?.map Report.after) ∧
          (c'.runAll millVisit).2 = (mills.runAll millVisit).2 := by
  have hsource : mills.query.source = none := rfl
  have hkeeps : Action.keepsSourceAll millVisit = true := by decide
  exact ⟨hsource, hkeeps, unsourced_sameSteps hsource hkeeps⟩

example :
    (Report.stepsAll (mills.runAll millVisit).1).map (fun r => r.after.query.source.isSome) =
      [false, false, false, true, true, true] := by decide +kernel

end Compiler

end PointQuery
