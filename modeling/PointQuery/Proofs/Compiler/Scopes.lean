import PointQuery.Proofs.Compiler.Statement
import PointQuery.Proofs.Search.Outcome
/-!
# Scalar scopes

A scalar scope is held by a guard: taking it saves the mode and suppresses points, dropping it puts
the saved mode back. The reports of a session are nested as its scopes are, so they show the
compiler at every point, inside scopes too. `course_runAll` goes along them, and `mode_points` says
which mode there is where.
-/

namespace PointQuery

open Sql

/-! ## Actions and what they keep -/

section

variable {P : Action → Prop} {Q : List Action → Prop}

mutual

theorem Action.induction_action (nil : Q [])
    (cons : ∀ action actions, P action → Q actions → Q (action :: actions))
    (scope : ∀ actions, Q actions → P (.scope actions))
    (flat : ∀ action, (∀ actions, action ≠ .scope actions) → P action) (action : Action) :
    P action := by
  cases action with
  | scope actions => exact scope actions (Action.induction_list nil cons scope flat actions)
  | _ => exact flat _ (by simp)

theorem Action.induction_list (nil : Q [])
    (cons : ∀ action actions, P action → Q actions → Q (action :: actions))
    (scope : ∀ actions, Q actions → P (.scope actions))
    (flat : ∀ action, (∀ actions, action ≠ .scope actions) → P action) (actions : List Action) :
    Q actions := by
  cases actions with
  | nil => exact nil
  | cons action actions =>
      exact cons action actions (Action.induction_action nil cons scope flat action)
        (Action.induction_list nil cons scope flat actions)

end

/-- Induction over actions and lists of them: a scope holds a list of actions, all others none. -/
theorem Action.induction (nil : Q [])
    (cons : ∀ action actions, P action → Q actions → Q (action :: actions))
    (scope : ∀ actions, Q actions → P (.scope actions))
    (flat : ∀ action, (∀ actions, action ≠ .scope actions) → P action) :
    (∀ action, P action) ∧ ∀ actions, Q actions :=
  ⟨Action.induction_action nil cons scope flat, Action.induction_list nil cons scope flat⟩

end

namespace Compiler

theorem operating_search_after (c : Compiler) (s : Search) (events : List Event) :
    ∃ query, (c.operating (search s) events).after = { c with query } := by
  rw [operating, search_run]
  cases c.checkSearch s with
  | ok d => exact ⟨(restrict s d c.fillSource).query, rfl⟩
  | error e => exact ⟨c.query, rfl⟩

/-- A search near an origin that can be read is the search itself. -/
theorem operating_searchNear (c : Compiler) (origin column : String) (radius : Binary64)
    (unit : DistanceUnit) (events : List Event) :
    c.operating (searchNear origin column radius unit) events =
      match Coordinate.parse origin with
      | .ok o => c.operating (search ⟨o, column, radius, unit⟩) events
      | .error _ =>
        match c.config.originPolicy with
        | .reject => c.answering (.failed (.malformedOrigin origin)) events
        | .ignore => c.answering .done events := by
  have hrun := searchNear_run origin column radius unit c
  cases ho : Coordinate.parse origin with
  | ok o =>
      rw [ho] at hrun
      show _ = c.operating (search ⟨o, column, radius, unit⟩) events
      rw [operating, hrun, operating]
  | error e =>
      rw [ho] at hrun
      rw [operating, hrun]
      cases c.config.originPolicy with
      | reject => rfl
      | ignore => rfl

theorem operating_searchNear_after (c : Compiler) (origin column : String) (radius : Binary64)
    (unit : DistanceUnit) (events : List Event) :
    ∃ query, (c.operating (searchNear origin column radius unit) events).after =
      { c with query } := by
  rw [operating_searchNear]
  cases Coordinate.parse origin with
  | ok o => exact operating_search_after c ⟨o, column, radius, unit⟩ events
  | error e =>
      cases c.config.originPolicy with
      | reject => exact ⟨c.query, rfl⟩
      | ignore => exact ⟨c.query, rfl⟩

/-- The compiler as it is inside a scope. -/
def suppressed (c : Compiler) : Compiler := { c with mode := .suppressed }

/-- A scope puts the mode back that it found. -/
theorem run_scope (c : Compiler) (actions : List Action) :
    c.run (.scope actions) =
      ⟨.reports (c.suppressed.runAll actions).1, c,
        { (c.suppressed.runAll actions).2 with mode := c.mode }, []⟩ := by
  rw [run]
  rfl

/-- An action changes nothing but the query and the settings, and so does a session; the mode is as
it was. -/
theorem keeps_after :
    (∀ (action : Action) (c : Compiler),
      ∃ query config, (c.run action).after = { c with query, config }) ∧
    ∀ (actions : List Action) (c : Compiler),
      ∃ query config, (c.runAll actions).2 = { c with query, config } := by
  refine Action.induction ?_ ?_ ?_ ?_
  · intro c
    exact ⟨c.query, c.config, by rw [runAll]⟩
  · intro action actions hfirst hrest c
    obtain ⟨query, config, hafter⟩ := hfirst c
    obtain ⟨query', config', hlast⟩ := hrest (c.run action).after
    refine ⟨query', config', ?_⟩
    rw [runAll, hlast, hafter]
  · intro actions hinside c
    obtain ⟨query, config, hlast⟩ := hinside c.suppressed
    refine ⟨query, config, ?_⟩
    rw [run_scope, hlast]
    rfl
  · intro action hflat c
    cases action with
    | scope actions => exact absurd rfl (hflat actions)
    | search s =>
        obtain ⟨query, hafter⟩ := operating_search_after c s (c.searchEvents s)
        exact ⟨query, c.config, by rw [run, hafter]⟩
    | searchNear origin column radius unit =>
        obtain ⟨query, hafter⟩ := operating_searchNear_after c origin column radius unit
          (c.searchNearEvents origin column radius unit)
        exact ⟨query, c.config, by rw [run, hafter]⟩
    | edit edits => exact ⟨c.query.editAll edits, c.config, by rw [run]⟩
    | reset query => exact ⟨query, c.config, by rw [run]⟩
    | configure config => exact ⟨c.query, config, by rw [run]⟩
    | runScalar expression conduct => exact ⟨c.query, c.config, by rw [run_runScalar]⟩
    | _ => exact ⟨c.query, c.config, by rw [run]; rfl⟩

/-- A report begins with the compiler that it is about. -/
theorem run_before (c : Compiler) (action : Action) : (c.run action).before = c := by
  have hoperating (operation : Operation Unit) (events : List Event) :
      (c.operating operation events).before = c := by
    rw [operating]
    cases operation.run c with
    | ok => rfl
    | error => rfl
  cases action with
  | search | searchNear =>
      rw [run]
      exact hoperating _ _
  | scope actions => rw [run_scope]
  | runScalar expression conduct => rw [run_runScalar]
  | edit | reset | configure => rw [run]
  | _ =>
      rw [run]
      rfl

/-- What an action answers that is no scope: no reports, and if it shows a compiler, one in the mode
that it found. -/
theorem answer_run {action : Action} (hflat : ∀ actions, action ≠ .scope actions) (c : Compiler) :
    (∀ inner, (c.run action).answer ≠ .reports inner) ∧
      ∀ shown, (c.run action).answer = .state shown → shown.mode = c.mode := by
  have hoperating (operation : Operation Unit) (events : List Event) :
      (∀ inner, (c.operating operation events).answer ≠ .reports inner) ∧
        ∀ shown, (c.operating operation events).answer = .state shown → shown.mode = c.mode := by
    rw [operating]
    cases operation.run c with
    | ok => simp
    | error => simp
  have hcompiled (r : Except QueryError Statement) :
      (∀ inner, Answer.ofCompiled r ≠ .reports inner) ∧
        ∀ shown, Answer.ofCompiled r = .state shown → shown.mode = c.mode := by
    cases r with
    | ok => simp [Answer.ofCompiled]
    | error => simp [Answer.ofCompiled]
  cases action with
  | scope actions => exact absurd rfl (hflat actions)
  | search | searchNear =>
      rw [run]
      exact hoperating _ _
  | compile | compileIn | compileScalar =>
      rw [run, answering]
      dsimp only
      exact hcompiled _
  | runScalar expression conduct =>
      rw [run_runScalar]
      rcases c.statement .suppressed (c.scalarForm expression) with e | given
      · simp [Answer.ofHanded]
      · cases conduct with
        | succeeds | fails | panics => simp [Answer.ofHanded, Answer.ofConduct]
  | configure =>
      rw [run]
      refine ⟨by simp, ?_⟩
      rintro shown ⟨⟩
      rfl
  | inspect =>
      rw [run]
      refine ⟨by simp [answering], ?_⟩
      rintro shown ⟨⟩
      rfl
  | _ =>
      rw [run]
      simp [answering]

end Compiler

/-! ## Going along the reports -/

mutual

/-- The compilers that an answer shows, each with the number of scopes that are open there. -/
def Answer.points (scopes : Nat) : Answer → List (Nat × Compiler)
  | .reports inner => Report.pointsAll (scopes + 1) inner
  | .state shown => [(scopes, shown)]
  | _ => []

/-- The compilers that a report shows: before the action, inside its scope if it opens one, in its
answer, and after. -/
def Report.points (scopes : Nat) : Report Answer → List (Nat × Compiler)
  | ⟨answer, before, after, _⟩ => (scopes, before) :: (answer.points scopes ++ [(scopes, after)])

/-- The compilers that the reports of a session show, in the order of its points. -/
def Report.pointsAll (scopes : Nat) : List (Report Answer) → List (Nat × Compiler)
  | [] => []
  | report :: reports => Report.points scopes report ++ Report.pointsAll scopes reports

end

/-- Whether an action opens a scope: for the actions inside it, or to hand over a scalar query. -/
def Action.opens (c : Compiler) : Action → Bool
  | .scope _ => true
  | .runScalar .. => true
  | .call _ request => (request.expression? c).toOption.join.isSome
  | _ => false

namespace Compiler

/-- The course of a session: the compiler that it starts with, its actions, their reports, and the
compiler that it ends with. Mode, table and driver stay as they are all along. -/
inductive Course : Compiler → List Action → List (Report Answer) → Compiler → Prop where
  /-- There is nothing left to do. -/
  | done {c : Compiler} : Course c [] [] c
  /-- Inside a scope points are suppressed. To close it puts the mode back that held when it was
  opened; what the actions inside made of the query and the settings stays. -/
  | scope {c last : Compiler} {inside actions : List Action} {inner reports : List (Report Answer)}
      {query : Query} {config : Config}
      (hinside : Course c.suppressed inside inner
        ({ c with query, config } : Compiler).suppressed)
      (hrest : Course { c with query, config } actions reports last) :
      Course c (.scope inside :: actions)
        (⟨.reports inner, c, { c with query, config }, []⟩ :: reports) last
  /-- A scalar query is compiled in a scope of its own, and answered by its executor. -/
  | scalar {c last : Compiler} {expression : String} {conduct : Conduct} {actions : List Action}
      {reports : List (Report Answer)} (hrest : Course c actions reports last) :
      Course c (.runScalar expression conduct :: actions)
        (⟨.ofHanded conduct (c.suppressed.compileScalar expression), c, c,
          c.suppressed.compileScalarEvents expression⟩ :: reports) last
  /-- So it is with a call that computes one row: it fails to compile, or at the database. -/
  | call {c last : Compiler} {executor : Executor} {request : ExecutorCall} {expression : String}
      {error : ExecutionError} {issued : Option Event} {actions : List Action}
      {reports : List (Report Answer)}
      (hscalar : request.expression? c = .ok (some expression))
      (hgiven : request.statement c = c.suppressed.compileScalar expression)
      (hclosed : executor.callClosed request c = (error, issued))
      (hrest : Course c actions reports last) :
      Course c (.call executor request :: actions)
        (⟨.called error issued, c, c,
          c.suppressed.compileScalarEvents expression ++ issued.toList⟩ :: reports) last
  /-- Any other action opens no scope, and changes the query and the settings alone. -/
  | flat {c last : Compiler} {action : Action} {actions : List Action}
      {reports : List (Report Answer)} {query : Query} {config : Config}
      (hopens : action.opens c = false) (hbefore : (c.run action).before = c)
      (hafter : (c.run action).after = { c with query, config })
      (hrest : Course { c with query, config } actions reports last) :
      Course c (action :: actions) (c.run action :: reports) last

/-- What a scalar query reports is what compiling it reports inside a scope. -/
theorem scalarEvents_suppressed (c : Compiler) (expression : String) :
    c.scalarEvents expression = c.suppressed.compileScalarEvents expression := by
  simp only [scalarEvents, inScalarMode, suppressed]

theorem run_scalar (c : Compiler) (expression : String) (conduct : Conduct) :
    c.run (.runScalar expression conduct) =
      ⟨.ofHanded conduct (c.suppressed.compileScalar expression), c, c,
        c.suppressed.compileScalarEvents expression⟩ := by
  rw [run_runScalar, suppressed, compileScalar_suppressed, compileScalarEvents_suppressed]

theorem run_call {c : Compiler} (executor : Executor) {request : ExecutorCall} {expression : String}
    (h : request.expression? c = .ok (some expression)) :
    c.run (.call executor request) =
      ⟨.called (executor.callClosed request c).1 (executor.callClosed request c).2, c, c,
        c.suppressed.compileScalarEvents expression ++
          (executor.callClosed request c).2.toList⟩ := by
  simp only [run, ExecutorCall.events, h, scalarEvents_suppressed, answering]

/-- An action that is no scope is one step of the course. -/
theorem Course.cons {c last : Compiler} {action : Action} {actions : List Action}
    {reports : List (Report Answer)} (hflat : ∀ inside, action ≠ .scope inside)
    (hrest : Course (c.run action).after actions reports last) :
    Course c (action :: actions) (c.run action :: reports) last := by
  have hplain (hopens : action.opens c = false) :
      Course c (action :: actions) (c.run action :: reports) last := by
    obtain ⟨query, config, hafter⟩ := keeps_after.1 action c
    exact .flat hopens (run_before c action) hafter (hafter ▸ hrest)
  cases action with
  | scope inside => exact absurd rfl (hflat inside)
  | runScalar expression conduct =>
      rw [run_scalar] at hrest ⊢
      exact .scalar hrest
  | call executor request =>
      cases hscalar : request.expression? c with
      | error e => exact hplain (by rw [Action.opens, hscalar]; rfl)
      | ok scalar =>
          cases scalar with
          | none => exact hplain (by rw [Action.opens, hscalar]; rfl)
          | some expression =>
              have hgiven : request.statement c = c.suppressed.compileScalar expression := by
                rw [call_statement_eq, hscalar, suppressed, compileScalar_suppressed]
              rw [run_call executor hscalar] at hrest ⊢
              exact .call hscalar hgiven rfl hrest
  | _ => exact hplain rfl

/-- The reports of a session, and the compiler that it leaves, are those of its course. -/
theorem course_runAll :
    (∀ (action : Action) (c : Compiler) (actions : List Action) (reports : List (Report Answer))
      (last : Compiler), Course (c.run action).after actions reports last →
        Course c (action :: actions) (c.run action :: reports) last) ∧
    ∀ (actions : List Action) (c : Compiler),
      Course c actions (c.runAll actions).1 (c.runAll actions).2 := by
  refine Action.induction ?_ ?_ ?_ ?_
  · intro c
    rw [runAll]
    exact .done
  · intro action actions hfirst hrest c
    rw [runAll]
    exact hfirst c actions _ _ (hrest _)
  · intro inside hinside c actions reports last hrest
    obtain ⟨query, config, hlast⟩ := keeps_after.2 inside c.suppressed
    have hcourse := hinside c.suppressed
    rw [hlast] at hcourse
    rw [run_scope, hlast] at hrest ⊢
    exact .scope hcourse hrest
  · intro action hflat c actions reports last hrest
    exact .cons hflat hrest

/-- Points are suppressed where a scope is open, and nowhere else, if it is so at the beginning. -/
theorem mode_points :
    (∀ (action : Action) (c : Compiler) (scopes : Nat), (c.mode = .suppressed ↔ 0 < scopes) →
      ∀ point ∈ (c.run action).points scopes, point.2.mode = .suppressed ↔ 0 < point.1) ∧
    ∀ (actions : List Action) (c : Compiler) (scopes : Nat), (c.mode = .suppressed ↔ 0 < scopes) →
      ∀ point ∈ Report.pointsAll scopes (c.runAll actions).1,
        point.2.mode = .suppressed ↔ 0 < point.1 := by
  refine Action.induction ?_ ?_ ?_ ?_
  · intro c scopes _ point hpoint
    rw [runAll, Report.pointsAll] at hpoint
    cases hpoint
  · intro action actions hfirst hrest c scopes hmode point hpoint
    rw [runAll, Report.pointsAll] at hpoint
    rcases List.mem_append.mp hpoint with h | h
    · exact hfirst c scopes hmode point h
    · obtain ⟨query, config, hafter⟩ := keeps_after.1 action c
      refine hrest (c.run action).after scopes ?_ point h
      rw [hafter]
      exact hmode
  · intro inside hinside c scopes hmode point hpoint
    rw [run_scope, Report.points, Answer.points] at hpoint
    rcases List.mem_cons.mp hpoint with rfl | hpoint
    · exact hmode
    rcases List.mem_append.mp hpoint with h | h
    · exact hinside c.suppressed (scopes + 1) (by simp [suppressed]) point h
    · obtain rfl := List.mem_singleton.mp h
      exact hmode
  · intro action hflat c scopes hmode point hpoint
    obtain ⟨hreports, hshown⟩ := answer_run hflat c
    obtain ⟨query, config, hafter⟩ := keeps_after.1 action c
    have hbefore := run_before c action
    -- the report as such: what the action does is said by the hypotheses
    revert hreports hshown hafter hbefore hpoint
    generalize c.run action = r
    obtain ⟨answer, before, after, events⟩ := r
    intro hpoint hreports hshown hafter hbefore
    simp only at hreports hshown hafter hbefore
    subst before
    rw [Report.points] at hpoint
    rcases List.mem_cons.mp hpoint with rfl | hpoint
    · exact hmode
    rcases List.mem_append.mp hpoint with h | h
    · cases answer with
      | reports inner => exact absurd rfl (hreports inner)
      | state shown =>
          obtain rfl := List.mem_singleton.mp h
          rw [hshown shown rfl]
          exact hmode
      | _ => cases h
    · obtain rfl := List.mem_singleton.mp h
      rw [hafter]
      exact hmode

/-! ## Exactly scoped -/

/-- Scalar mode is exactly scoped in a session. -/
structure Scoped (c : Compiler) (actions : List Action) : Prop where
  /-- Every scope is closed again, with the mode restored and all else kept, and scalar queries are
  compiled in scopes of their own. -/
  course : Course c actions (c.runAll actions).1 (c.runAll actions).2
  /-- At every point, points are suppressed if and only if a scope is open. -/
  mode : ∀ point ∈ Report.pointsAll 0 (c.runAll actions).1,
    point.2.mode = .suppressed ↔ 0 < point.1
  /-- In the end there is the mode of the beginning. -/
  restored : (c.runAll actions).2.mode = c.mode

/-- A scalar query hands over what it compiles to in scalar mode, and changes nothing. -/
structure HandsOver (c : Compiler) (expression : String) (given : Except QueryError Statement) :
    Prop where
  /-- In scalar mode points are suppressed, whatever is done in it. Afterwards the mode is as it
  was; all else is as it was left. -/
  inside : ∀ (A : Type) (body : Compiler → A × Compiler),
    c.inScalarMode body =
      ((body c.suppressed).1, { (body c.suppressed).2 with mode := c.mode })
  /-- It is in scalar mode that the query is compiled and its executor runs. -/
  executor : ∀ (A : Type) (execute : Statement → A),
    c.runScalar expression execute =
      c.inScalarMode fun inner => ((inner.compileScalar expression).map execute, inner)
  /-- The outcome is that of the executor, if there is a statement to give it, and otherwise the
  error. -/
  outcome : ∀ (A : Type) (execute : Statement → A),
    c.runScalar expression execute = (given.map execute, c)
  /-- So is the answer in a session, whether the executor succeeds, fails or panics. -/
  answer : ∀ conduct, (c.run (.runScalar expression conduct)).answer = .ofHanded conduct given ∧
    (c.run (.runScalar expression conduct)).after = c

theorem handsOver (c : Compiler) (expression : String) :
    c.HandsOver expression (c.suppressed.compileScalar expression) := by
  refine ⟨?_, ?_, ?_, ?_⟩
  · intro A body
    rw [inScalarMode, suppressed]
  · intro A execute
    rw [runScalar]
  · intro A execute
    rw [runScalar_eq, suppressed, compileScalar_suppressed]
  · intro conduct
    rw [run_scalar]
    simp only [and_self]

/-- Kiosks, of which nothing is asked yet. -/
def kiosks : Compiler where
  query := {}
  table := ⟨"kiosks", [⟨"id", "int", false⟩, ⟨"geom", "point", false⟩]⟩
  driver := "mysql"

/-- A scope with a search and a scope inside, in which an executor panics; then a count on a closed
pool. -/
def kioskVisit : List Action :=
  [.scope
    [.searchNear "10, 20" "geom" (.ofInt 5) .kilometer,
      .scope [.runScalar "COUNT(*)" .panics, .edit [.limit 3]], .compile],
    .call ⟨.mysql⟩ .rowCount]

example :
    (Report.pointsAll 0 (kiosks.runAll kioskVisit).1).map (fun point => (point.1, point.2.mode)) =
      [(0, .normal), (1, .suppressed), (1, .suppressed), (1, .suppressed), (2, .suppressed),
        (2, .suppressed), (2, .suppressed), (2, .suppressed), (1, .suppressed), (1, .suppressed),
        (1, .suppressed), (0, .normal), (0, .normal), (0, .normal)] := by decide +kernel

end Compiler

end PointQuery
