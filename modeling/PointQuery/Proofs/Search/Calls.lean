import PointQuery.Proofs.Compiler.Scopes
import PointQuery.Proofs.Search.Stack
/-!
# Sessions of searches

Whether a search takes effect is settled before the query is looked at. So a session of searches
answers the same whatever the query is, and what it makes of the query is a fold over its calls:
`runAll_searches`. The fold comes to a stack of the searches that take effect.
-/

namespace PointQuery

open Sql

/-- Whether an action asks for a search. -/
def Action.isSearch : Action → Bool
  | .search _ => true
  | .searchNear .. => true
  | _ => false

/-- The search that an action makes: the one that it gives, or the one from the origin that it gives
as text, if that can be read. -/
def Action.search? : Action → Option Search
  | .search s => some s
  | .searchNear origin column radius unit =>
    (Coordinate.parse origin).toOption.map fun o => ⟨o, column, radius, unit⟩
  | _ => none

namespace Compiler

variable {c : Compiler} {call : Action} {calls : List Action} {s : Search}

/-- What a call makes of a query: the query inside the search, if there is one and it passes its
checks. -/
def queryAfter (c : Compiler) (q : Query) (call : Action) : Query :=
  match call.search? with
  | none => q
  | some s =>
    match c.checkSearch s with
    | .ok d => s.restrict d (q.readingFrom c.table.name)
    | .error _ => q

theorem queryAfter_of_search (hs : call.search? = some s) (c : Compiler) (q : Query) :
    c.queryAfter q call =
      match c.checkSearch s with
      | .ok d => s.restrict d (q.readingFrom c.table.name)
      | .error _ => q := by
  rw [queryAfter, hs]

/-- A call takes effect: its origin can be read and its search passes the checks. -/
def Effective (c : Compiler) (call : Action) : Prop :=
  ∃ s d, call.search? = some s ∧ c.checkSearch s = .ok d

/-- A call leaves the query alone, or puts it inside a search that is the same for all queries. -/
theorem queryAfter_cases (c : Compiler) (call : Action) :
    (¬ c.Effective call ∧ ∀ q, c.queryAfter q call = q) ∨
      ∃ (s : Search) (d : Dialect),
        ∀ q, c.queryAfter q call = s.restrict d (q.readingFrom c.table.name) := by
  cases hs : call.search? with
  | none =>
      refine .inl ⟨?_, fun q => by rw [queryAfter, hs]⟩
      rintro ⟨s, d, hs', -⟩
      rw [hs] at hs'
      cases hs'
  | some s =>
      cases hc : c.checkSearch s with
      | ok d => exact .inr ⟨s, d, fun q => by rw [queryAfter_of_search hs, hc]⟩
      | error e =>
          refine .inl ⟨?_, fun q => by rw [queryAfter_of_search hs, hc]⟩
          rintro ⟨s', d, hs', hc'⟩
          rw [hs] at hs'
          cases hs'
          rw [hc] at hc'
          cases hc'

/-! ## One call -/

theorem operating_search (c : Compiler) (s : Search) (events : List Event) :
    c.operating (search s) events =
      match c.checkSearch s with
      | .ok d => ⟨.done, c, restrict s d c.fillSource, events⟩
      | .error e => c.answering (.failed e) events := by
  rw [operating, search_run]
  cases c.checkSearch s with
  | ok d => rfl
  | error e => rfl

/-- A call whose origin can be read runs its search. -/
theorem run_of_search? (hs : call.search? = some s) (c : Compiler) :
    ∃ events, c.run call = c.operating (search s) events := by
  cases call with
  | search s' =>
      cases hs
      exact ⟨_, by rw [run]⟩
  | searchNear origin column radius unit =>
      cases hparse : Coordinate.parse origin with
      | ok o =>
          rw [Action.search?, hparse] at hs
          cases hs
          exact ⟨_, by rw [run, operating_searchNear, hparse]⟩
      | error e =>
          rw [Action.search?, hparse] at hs
          cases hs
  | _ => cases hs

/-- A call answers the same whatever the query is, and changes nothing else. -/
theorem run_of_isSearch (h : call.isSearch = true) (c : Compiler) (q : Query) :
    (({ c with query := q } : Compiler).run call).answer = (c.run call).answer ∧
      (({ c with query := q } : Compiler).run call).after =
        { c with query := c.queryAfter q call } := by
  cases hs : call.search? with
  | some s =>
      have hcheck : ({ c with query := q } : Compiler).checkSearch s = c.checkSearch s := rfl
      obtain ⟨events, hrun⟩ := run_of_search? hs c
      obtain ⟨events', hrun'⟩ := run_of_search? hs { c with query := q }
      rw [hrun, hrun', operating_search, operating_search, hcheck, queryAfter_of_search hs]
      cases c.checkSearch s with
      | ok d => exact ⟨rfl, rfl⟩
      | error e => exact ⟨rfl, rfl⟩
  | none =>
      have hnone : c.queryAfter q call = q := by rw [queryAfter, hs]
      rw [hnone]
      cases call with
      | search s => cases hs
      | searchNear origin column radius unit =>
          have hconfig : ({ c with query := q } : Compiler).config = c.config := rfl
          rw [run, run, operating_searchNear, operating_searchNear, hconfig]
          cases hparse : Coordinate.parse origin with
          | ok o =>
              rw [Action.search?, hparse] at hs
              cases hs
          | error e =>
              cases c.config.originPolicy with
              | reject => exact ⟨rfl, rfl⟩
              | ignore => exact ⟨rfl, rfl⟩
      | _ => cases h

/-- A call whose origin can be read takes effect if it is done. -/
theorem effective_of_done (hs : call.search? = some s) (hdone : (c.run call).answer = .done) :
    c.Effective call := by
  cases hc : c.checkSearch s with
  | ok d => exact ⟨s, d, hs, hc⟩
  | error e =>
      obtain ⟨events, hrun⟩ := run_of_search? hs c
      rw [hrun, operating_search, hc] at hdone
      cases hdone

/-! ## Any number of calls -/

/-- **A session of searches** answers the same whatever the query is, each call as it would by
itself, and makes of the query what the calls make of it one after another. -/
theorem runAll_searches (h : ∀ call ∈ calls, call.isSearch = true) (c : Compiler) (q : Query) :
    (({ c with query := q } : Compiler).runAll calls).1.map Report.answer =
        calls.map (fun call => (c.run call).answer) ∧
      (({ c with query := q } : Compiler).runAll calls).2 =
        { c with query := calls.foldl c.queryAfter q } := by
  induction calls generalizing q with
  | nil => exact ⟨by rw [runAll]; rfl, by rw [runAll]; rfl⟩
  | cons call calls ih =>
      obtain ⟨hcall, hcalls⟩ := List.forall_mem_cons.mp h
      obtain ⟨hanswer, hafter⟩ := run_of_isSearch hcall c q
      obtain ⟨hanswers, hlast⟩ := ih hcalls (c.queryAfter q call)
      rw [runAll, hafter]
      exact ⟨by rw [List.map_cons, List.map_cons, hanswer, hanswers], hlast⟩

theorem exists_stack_queryAfter {d : Dialect} (hd : c.dialect = .ok d) (call : Action) :
    ∃ searches, ∀ q, c.queryAfter q call = Search.stack d c.table.name q searches := by
  cases hs : call.search? with
  | none => exact ⟨[], fun q => by rw [queryAfter, hs, Search.stack]⟩
  | some s =>
      cases hc : c.checkSearch s with
      | error e => exact ⟨[], fun q => by rw [queryAfter_of_search hs, hc, Search.stack]⟩
      | ok d' =>
          obtain rfl : d' = d := by
            have hdialect := (checkSearch_eq_ok hc).1
            rw [hd] at hdialect
            exact (Except.ok.inj hdialect).symm
          exact ⟨[s], fun q => by rw [queryAfter_of_search hs, hc, Search.stack, Search.stack]⟩

/-- What a session makes of a query is a stack of searches, the same for all queries. -/
theorem exists_stack_foldl {d : Dialect} (hd : c.dialect = .ok d) (calls : List Action) :
    ∃ searches, ∀ q, calls.foldl c.queryAfter q = Search.stack d c.table.name q searches := by
  induction calls with
  | nil => exact ⟨[], fun _ => rfl⟩
  | cons call calls ih =>
      obtain ⟨first, hfirst⟩ := exists_stack_queryAfter hd call
      obtain ⟨later, hlater⟩ := ih
      exact ⟨later ++ first, fun q => by rw [List.foldl_cons, hlater, hfirst, stack_append]⟩

end Compiler

end PointQuery
