import Mathlib.Data.List.Basic
import PointQuery.Proofs.Search.Outcome
/-!
# A search of a union

The queries of a union have to select equally many items each. `Query.arity?` is that number,
through members inside members. A search adds the distance to the select list of the first query
only and leaves the members as they are, so it takes the agreement away from every union that has
it: `search_arity_iff`.
-/

namespace PointQuery

open Sql

/-! ## The arity of a union -/

mutual

/-- How many items a query and the members of its union all select, if they agree. -/
def Sql.Query.arity? : Query → Option Nat
  | { select, unions, .. } =>
    if membersSelect select.length unions then some select.length else none

/-- Whether every member, with the union that it is itself, selects so many items. -/
def Sql.membersSelect (n : Nat) : List (UnionMember Query) → Bool
  | [] => true
  | ⟨_, query⟩ :: members => query.arity? == some n && membersSelect n members

end

section

variable {q : Query} {members : List (UnionMember Query)} {m n : Nat}

theorem membersSelect_iff :
    membersSelect n members = true ↔ ∀ u ∈ members, u.query.arity? = some n := by
  induction members with
  | nil => simp [membersSelect]
  | cons u members ih =>
      obtain ⟨all, query⟩ := u
      simp [membersSelect, ih]

theorem arity?_eq_some_iff :
    q.arity? = some n ↔ q.select.length = n ∧ ∀ u ∈ q.unions, u.query.arity? = some n := by
  obtain ⟨select, source, joins, condition, groupBy, orderBy, limit, offset, distinct, unions⟩ := q
  rw [Query.arity?, Option.ite_none_right_eq_some, membersSelect_iff, Option.some.injEq]
  constructor
  · rintro ⟨hmembers, rfl⟩
    exact ⟨rfl, hmembers⟩
  · rintro ⟨rfl, hmembers⟩
    exact ⟨hmembers, rfl⟩

/-- The members of a union agree on at most one number. -/
theorem unions_eq_nil_of_arities (h : ∀ u ∈ q.unions, u.query.arity? = some m)
    (h' : ∀ u ∈ q.unions, u.query.arity? = some n) (hne : m ≠ n) : q.unions = [] := by
  by_contra hunions
  obtain ⟨u, hu⟩ := List.exists_mem_of_ne_nil _ hunions
  have heq := h u hu
  rw [h' u hu] at heq
  exact hne (Option.some.inj heq).symm

end

/-! ## The union inside a search -/

section

variable {q : Query} {s : Search} {d : Dialect} {table : String} {n : Nat}

theorem unions_inner (s : Search) (d : Dialect) (table : String) (q : Query) :
    (s.inner d table q).unions = q.unions := rfl

/-- The distance is one more item; an empty select list becomes a star first. -/
theorem length_select_inner (s : Search) (d : Dialect) (table : String) (q : Query) :
    (s.inner d table q).select.length = max q.select.length 1 + 1 := by
  rw [Search.inner]
  cases q.select with
  | nil => rfl
  | cons item items => simp

/-- The union inside a search agrees only if its members were wider than the query by one. -/
theorem arity?_inner_iff :
    (s.inner d table q).arity? = some n ↔
      max q.select.length 1 + 1 = n ∧ ∀ u ∈ q.unions, u.query.arity? = some n := by
  rw [arity?_eq_some_iff, length_select_inner, unions_inner]

/-- A union that agrees does so inside a search only if it has no members. -/
theorem arity?_inner_isSome_iff (h : q.arity? = some n) :
    (s.inner d table q).arity?.isSome ↔ q.unions = [] := by
  obtain ⟨hlength, hmembers⟩ := arity?_eq_some_iff.mp h
  rw [Option.isSome_iff_exists]
  constructor
  · rintro ⟨m, hm⟩
    obtain ⟨hinner, hmembers'⟩ := arity?_inner_iff.mp hm
    exact unions_eq_nil_of_arities hmembers' hmembers (by omega)
  · intro hnil
    exact ⟨_, arity?_inner_iff.mpr ⟨rfl, by simp [hnil]⟩⟩

end

namespace Compiler

/-- **A search takes the agreement of a union away.** A valid search of a query that agrees with all
its members on the number of items, by its request or by the text of its origin, moves the union
into the derived table `distance` with the same members in the same order. The first query there
selects one item more than it did, or two if it had none; the members select what they did. So the
union agrees again if and only if it has no members at all. -/
theorem search_arity_iff (c : Compiler) (s : Search) {d : Dialect} {n : Nat}
    (hd : c.dialect = .ok d) (ha : Attribute.isAttribute s.column.toList)
    (hn : c.query.arity? = some n) :
    ∃ c' inner,
      (search s).run c = .ok () c' ∧
      (∀ origin, Coordinate.parse origin = .ok s.origin →
        (searchNear origin s.column s.radius s.unit).run c = .ok () c') ∧
      c'.query.source = some (.derived inner "distance") ∧ c'.query.unions = [] ∧
      inner.unions = c.query.unions ∧
      inner.select.length = max n 1 + 1 ∧
      (∀ member ∈ inner.unions, member.query.arity? = some n) ∧
      (inner.arity?.isSome ↔ c.query.unions = []) := by
  obtain ⟨hlength, hmembers⟩ := arity?_eq_some_iff.mp hn
  have hsearch : (search s).run c =
      .ok () { c with query := s.outer d c.table.name c.query } := by
    rw [search_run, checkSearch_ok hd ha, ← restrict_readingFrom]
    rfl
  have hnear : ∀ origin, Coordinate.parse origin = .ok s.origin →
      (searchNear origin s.column s.radius s.unit).run c =
        .ok () { c with query := s.outer d c.table.name c.query } := by
    intro origin ho
    rw [searchNear_run, ho]
    exact hsearch
  have hinner : (s.inner d c.table.name c.query).select.length = max n 1 + 1 := by
    rw [length_select_inner, hlength]
  exact ⟨_, _, hsearch, hnear, rfl, rfl, rfl, hinner, hmembers, arity?_inner_isSome_iff hn⟩

end Compiler

/-- The springs on record, and those of an older record. -/
def springsAndArchive : Compiler where
  query :=
    { select := [.plain "id"]
      source := some (.table "springs" none)
      unions := [⟨false, { select := [.plain "id"], source := some (.table "archive" none) }⟩] }
  table := ⟨"springs", [⟨"id", "int", false⟩, ⟨"geom", "point", false⟩]⟩
  driver := "mysql"

theorem springs_dialect : springsAndArchive.dialect = .ok .mysql := by decide +kernel

/-- The springs around a place. -/
def springsNearby : Search := { origin := ⟨.ofInt 10, .ofInt 20⟩, column := "geom" }

theorem springs_search_arity_iff :
    let c := springsAndArchive
    let s := springsNearby
    c.dialect = .ok .mysql ∧ Attribute.isAttribute s.column.toList ∧ c.query.arity? = some 1 ∧
      ∃ c' inner,
        (Compiler.search s).run c = .ok () c' ∧
        (∀ origin, Coordinate.parse origin = .ok s.origin →
          (Compiler.searchNear origin s.column s.radius s.unit).run c = .ok () c') ∧
        c'.query.source = some (.derived inner "distance") ∧ c'.query.unions = [] ∧
        inner.unions = c.query.unions ∧
        inner.select.length = 2 ∧
        (∀ member ∈ inner.unions, member.query.arity? = some 1) ∧
        (inner.arity?.isSome ↔ c.query.unions = []) := by
  intro c s
  have ha : Attribute.isAttribute s.column.toList := by decide
  have hn : c.query.arity? = some 1 := by decide
  exact ⟨springs_dialect, ha, hn, Compiler.search_arity_iff c s springs_dialect ha hn⟩

/-- A union of two lists of one column each, which a search makes one of two items and one. -/
theorem springs_search_disagree :
    let c := springsAndArchive
    c.query.unions ≠ [] ∧ c.query.arity? = some 1 ∧
      (∀ item ∈ c.query.select, item.wildcard? = none) ∧
      (∀ member ∈ c.query.unions, ∀ item ∈ member.query.select, item.wildcard? = none) ∧
      ∃ c' inner, (Compiler.search springsNearby).run c = .ok () c' ∧
        c'.query.source = some (.derived inner "distance") ∧
        inner.select.length = 2 ∧
        inner.unions.map (fun member => member.query.select.length) = [1] ∧
        inner.arity? = none := by
  intro c
  have ha : Attribute.isAttribute springsNearby.column.toList := by decide
  have hrun : (Compiler.search springsNearby).run c =
      .ok () (Compiler.restrict springsNearby .mysql c.fillSource) := by
    rw [Compiler.search_run, Compiler.checkSearch_ok springs_dialect ha]
  exact ⟨List.cons_ne_nil _ _, by decide, by decide, by decide, _, _, hrun, rfl, rfl, rfl,
    by decide⟩

end PointQuery
