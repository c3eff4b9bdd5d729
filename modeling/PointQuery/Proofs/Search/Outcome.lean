import PointQuery.Compiler.Basic
/-!
# The outcome of a search

A search checks its origin, the dialect of the connection and its column, in this order, before it
touches the compiler; after the checks nothing can fail. `search_run` and `searchNear_run` give the
outcome in terms of the checks, and `Search.outer` spells out, clause by clause, what a search makes
of a query.
-/

namespace PointQuery

open Sql

/-! ## The checks -/

/-- An attribute is made of letters, digits, underscores and at most one point. -/
theorem Attribute.forall_of_isAttribute {P : Char → Prop} (hrest : ∀ c, isIdentifierRest c → P c)
    (hdot : P '.') {cs : List Char} (h : isAttribute cs) : ∀ c ∈ cs, P c := by
  have hident : ∀ {ds : List Char}, isIdentifier ds → ∀ c ∈ ds, P c := by
    intro ds hd
    cases ds with
    | nil => simp [isIdentifier] at hd
    | cons d ds =>
        simp only [isIdentifier, Bool.and_eq_true, List.all_eq_true] at hd
        refine List.forall_mem_cons.mpr ⟨hrest d ?_, fun c hc => hrest c (hd.2 c hc)⟩
        have hstart := hd.1
        simp only [isIdentifierStart, isIdentifierRest, Char.isAlphanum, Bool.or_eq_true]
          at hstart ⊢
        exact hstart.imp_left .inl
  rw [← List.takeWhile_append_dropWhile (p := (· ≠ '.')) (l := cs), List.forall_mem_append]
  unfold isAttribute at h
  split at h
  · rename_i hd
    rw [hd]
    exact ⟨hident h, by simp⟩
  · rename_i dot column hd
    obtain ⟨ht, hc⟩ := Bool.and_eq_true_iff.mp h
    obtain rfl : dot = '.' := by
      have hhead := List.head?_dropWhile_not (· ≠ '.') cs
      rw [hd] at hhead
      simpa using hhead
    rw [hd]
    exact ⟨hident ht, List.forall_mem_cons.mpr ⟨hdot, hident hc⟩⟩

theorem Coordinate.eq_of_parse_error {s : String} {e : QueryError}
    (h : Coordinate.parse s = .error e) : e = .malformedOrigin s := by
  unfold Coordinate.parse at h
  split at h
  · split at h
    · cases h
    · exact (Except.error.inj h).symm
  · exact (Except.error.inj h).symm

theorem Dialect.eq_of_ofDriver_error {driver : String} {e : QueryError}
    (h : Dialect.ofDriver driver = .error e) : e = .unsupportedDialect driver := by
  simp only [Dialect.ofDriver] at h
  split at h
  · cases h
  · split at h
    · cases h
    · exact (Except.error.inj h).symm

namespace Compiler

variable {c c' : Compiler} {s : Search} {d : Dialect}

theorem checkSearch_unsupported {e : QueryError} (h : c.dialect = .error e) :
    c.checkSearch s = .error (.unsupportedDialect c.driver) := by
  rw [checkSearch, h, Dialect.eq_of_ofDriver_error h]
  rfl

theorem checkSearch_invalid (hd : c.dialect = .ok d)
    (ha : ¬ Attribute.isAttribute s.column.toList) :
    c.checkSearch s = .error (.invalidAttribute s.column) := by
  rw [checkSearch, hd, Attribute.validate, if_neg ha]
  rfl

theorem checkSearch_ok (hd : c.dialect = .ok d) (ha : Attribute.isAttribute s.column.toList) :
    c.checkSearch s = .ok d := by
  rw [checkSearch, hd, Attribute.validate, if_pos ha]
  rfl

/-- The checks pass only for a supported driver and an attribute. -/
theorem checkSearch_eq_ok (h : c.checkSearch s = .ok d) :
    c.dialect = .ok d ∧ Attribute.isAttribute s.column.toList := by
  cases hd : c.dialect with
  | error e => rw [checkSearch_unsupported hd] at h; cases h
  | ok d' =>
      by_cases ha : Attribute.isAttribute s.column.toList
      · rw [checkSearch_ok hd ha] at h
        cases h
        exact ⟨rfl, ha⟩
      · rw [checkSearch_invalid hd ha] at h
        cases h

/-! ## Running a search -/

/-- An operation that starts by looking at the compiler goes on with the one that it is run on. -/
theorem run_get_bind {A : Type} (f : Compiler → Operation A) (c : Compiler) :
    (get >>= f).run c = (f c).run c := rfl

/-- A search that passes its checks succeeds, and one that does not leaves the compiler alone. -/
theorem search_run (s : Search) (c : Compiler) :
    (search s).run c =
      match c.checkSearch s with
      | .ok d => .ok () (restrict s d c.fillSource)
      | .error e => .error e c := by
  rw [search, run_get_bind]
  cases c.checkSearch s with
  | ok d => rfl
  | error e => rfl

/-- A search near an origin that can be read is the search itself; one that cannot be read fails or
is left out, as the settings say. -/
theorem searchNear_run (origin column : String) (radius : Binary64) (unit : DistanceUnit)
    (c : Compiler) :
    (searchNear origin column radius unit).run c =
      match Coordinate.parse origin with
      | .ok o => (search ⟨o, column, radius, unit⟩).run c
      | .error _ =>
        match c.config.originPolicy with
        | .reject => .error (.malformedOrigin origin) c
        | .ignore => .ok () c := by
  rw [searchNear]
  cases h : Coordinate.parse origin with
  | ok o => rfl
  | error e =>
      obtain rfl := Coordinate.eq_of_parse_error h
      simp only [run_get_bind]
      cases c.config.originPolicy with
      | ignore => rfl
      | reject => rfl

theorem search_ok {c' : Compiler} (h : (search s).run c = .ok () c') :
    ∃ d, c.dialect = .ok d ∧ Attribute.isAttribute s.column.toList ∧
      c' = restrict s d c.fillSource := by
  rw [search_run] at h
  cases hc : c.checkSearch s with
  | error e => rw [hc] at h; cases h
  | ok d =>
      rw [hc] at h
      cases h
      obtain ⟨hd, ha⟩ := checkSearch_eq_ok hc
      exact ⟨d, hd, ha, rfl⟩

/-- A search near an origin that succeeds was left out, or is a search that succeeds. -/
theorem searchNear_ok {origin column : String} {radius : Binary64} {unit : DistanceUnit}
    {c' : Compiler} (h : (searchNear origin column radius unit).run c = .ok () c') :
    c' = c ∨ ∃ o, (search ⟨o, column, radius, unit⟩).run c = .ok () c' := by
  rw [searchNear_run] at h
  split at h
  · rename_i o _
    exact .inr ⟨o, h⟩
  · split at h
    · cases h
    · cases h
      exact .inl rfl

end Compiler

/-! ## The shape of a success -/

/-- The derived table of a search: the query as it was, reading from the table if it had no source,
with the distance after all that it selects. -/
def Search.inner (s : Search) (d : Dialect) (table : String) (q : Query) : Query :=
  let selected : List Item :=
    match q.select with
    | [] => [.column "*" none]
    | items => items
  { q with
    select := selected ++ [.expression (s.distance d) (some "_distance")]
    source := some (q.source.getD (.table table none)) }

/-- What a search makes of a query: all that is left outside is the filter and the ordering. -/
def Search.outer (s : Search) (d : Dialect) (table : String) (q : Query) : Query where
  select := [.column "distance.*" none]
  source := some (.derived (s.inner d table q) "distance")
  joins := []
  condition := some ⟨"_distance < ?", [.float s.radius]⟩
  groupBy := []
  orderBy := [⟨"_distance", .ascending⟩]
  limit := none
  offset := none
  distinct := false
  unions := []

theorem restrict_readingFrom (s : Search) (d : Dialect) (table : String) (q : Query) :
    s.restrict d (q.readingFrom table) = s.outer d table q := by
  obtain ⟨select, source, joins, condition, groupBy, orderBy, limit, offset, distinct, unions⟩ := q
  cases source <;> cases select <;> rfl

/-- **A search near an origin changes the query as a whole or nothing at all.** An origin that
cannot be read decides first, whatever the driver and the column are; then the driver; then the
column. In each of these cases the compiler is left as it was. Otherwise the search succeeds, as it
does with the origin read, and changes nothing but the query, which becomes `Search.outer`. -/
theorem searchNear_all_or_nothing (c : Compiler) (origin column : String) (radius : Binary64)
    (unit : DistanceUnit) :
    let outcome := (Compiler.searchNear origin column radius unit).run c
    ((∀ o, Coordinate.parse origin ≠ .ok o) →
      (c.config.originPolicy = .reject → outcome = .error (.malformedOrigin origin) c) ∧
      (c.config.originPolicy = .ignore → outcome = .ok () c)) ∧
    ∀ o, Coordinate.parse origin = .ok o →
      ((∀ d, Dialect.ofDriver c.driver ≠ .ok d) →
        outcome = .error (.unsupportedDialect c.driver) c) ∧
      ∀ d, Dialect.ofDriver c.driver = .ok d →
        (¬ Attribute.isAttribute column.toList → outcome = .error (.invalidAttribute column) c) ∧
        (Attribute.isAttribute column.toList →
          outcome = (Compiler.search ⟨o, column, radius, unit⟩).run c ∧
          outcome = .ok ()
            { c with query := Search.outer ⟨o, column, radius, unit⟩ d c.table.name c.query }) := by
  intro outcome
  have hrun : outcome = _ := Compiler.searchNear_run origin column radius unit c
  constructor
  · intro hparse
    cases hp : Coordinate.parse origin with
    | ok o => exact absurd hp (hparse o)
    | error e =>
        rw [hp] at hrun
        constructor
        · intro hpolicy
          rw [hrun, hpolicy]
        · intro hpolicy
          rw [hrun, hpolicy]
  · intro o hp
    rw [hp] at hrun
    have hsearch : outcome = _ := hrun.trans (Compiler.search_run _ c)
    constructor
    · intro hdriver
      cases hd : c.dialect with
      | ok d => exact absurd hd (hdriver d)
      | error e => rw [hsearch, Compiler.checkSearch_unsupported hd]
    · intro d hd
      constructor
      · intro ha
        rw [hsearch, Compiler.checkSearch_invalid hd ha]
      · intro ha
        refine ⟨hrun, ?_⟩
        rw [hsearch, Compiler.checkSearch_ok hd ha, ← restrict_readingFrom]
        rfl

end PointQuery
