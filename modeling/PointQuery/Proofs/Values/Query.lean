import PointQuery.Compiler.Basic
import PointQuery.Proofs.Projection.Chain
import PointQuery.Proofs.Values.Relation
/-!
# What is made of queries that differ in their values

Editing, searching and projecting keep queries alike: none of them looks at a bound value. What they
look at is named first, and is the same in both queries: the kind of the source, the names that a
level sees, whether a list is empty and which wildcard an item is.
-/

namespace PointQuery

open Sql

variable {R : Value → Value → Prop} {q q' : Query}

/-! ## Items and sources -/

theorem alike_column (name : String) (label : Option String) :
    itemAlike R (.column name label) (.column name label) := by
  rw [itemAlike]

theorem alike_expression {f f' : Fragment} (h : f.Alike R f') (label : Option String) :
    itemAlike R (.expression f label) (.expression f' label) := by
  rw [itemAlike]
  exact ⟨f', rfl, h⟩

theorem wildcard?_eq_of_alike {item item' : Item} (h : itemAlike R item item') :
    item.wildcard? = item'.wildcard? := by
  cases item with
  | column name label =>
      rw [itemAlike] at h
      rw [h]
  | expression f label =>
      rw [itemAlike] at h
      obtain ⟨f', rfl, -⟩ := h
      rfl
  | subquery q label =>
      rw [itemAlike] at h
      obtain ⟨q', rfl, -⟩ := h
      rfl

theorem isEmpty_of_forall₂ {A B : Type} {P : A → B → Prop} {xs : List A} {ys : List B}
    (h : List.Forall₂ P xs ys) : xs.isEmpty = ys.isEmpty := by
  cases h with
  | nil => rfl
  | cons => rfl

theorem alike_tableSource (name : String) (label : Option String) :
    sourceAlike R (some (.table name label)) (some (.table name label)) := by
  rw [sourceAlike]

theorem alike_derivedSource (h : q.Alike R q') (label : String) :
    sourceAlike R (some (.derived q label)) (some (.derived q' label)) := by
  rw [sourceAlike]
  exact ⟨q', rfl, queryAlike_iff.mpr h⟩

namespace Sql.Query.Alike

/-- Queries that are alike both read nothing, the same table, or derived tables that are alike. -/
theorem source_cases (h : q.Alike R q') :
    (q.source = none ∧ q'.source = none) ∨
    (∃ name label, q.source = some (.table name label) ∧ q'.source = some (.table name label)) ∨
    ∃ inner inner' label, q.source = some (.derived inner label) ∧
      q'.source = some (.derived inner' label) ∧ inner.Alike R inner' := by
  have hsource := h.source
  rcases hq : q.source with _ | ⟨name, label⟩ | ⟨inner, label⟩
  · rw [hq, sourceAlike] at hsource
    exact .inl ⟨rfl, hsource⟩
  · rw [hq, sourceAlike] at hsource
    exact .inr (.inl ⟨name, label, rfl, hsource⟩)
  · rw [hq, sourceAlike] at hsource
    obtain ⟨inner', hq', hinner⟩ := hsource
    exact .inr (.inr ⟨inner, inner', label, rfl, hq', queryAlike_iff.mp hinner⟩)

theorem readsDerived_eq (h : q.Alike R q') : q.readsDerived = q'.readsDerived := by
  rw [readsDerived, readsDerived, derivedLabel?, derivedLabel?]
  rcases h.source_cases with ⟨hs, hs'⟩ | ⟨_, _, hs, hs'⟩ | ⟨_, _, _, hs, hs', -⟩
  · rw [hs, hs']
  · rw [hs, hs']
  · rw [hs, hs']

theorem visible_eq (h : q.Alike R q') (table : Table) :
    Visible.ofLevel q table = Visible.ofLevel q' table := by
  have halias : q.sourceAlias table.name = q'.sourceAlias table.name := by
    rw [sourceAlias, sourceAlias]
    rcases h.source_cases with ⟨hs, hs'⟩ | ⟨_, _, hs, hs'⟩ | ⟨_, _, _, hs, hs', -⟩
    · rw [hs, hs']
    · rw [hs, hs']
    · rw [hs, hs']
  rw [Visible.ofLevel, Visible.ofLevel, halias, joinAliases, joinAliases, h.joins]

theorem keepsRows_eq (h : q.Alike R q') : Compiler.keepsRows q = Compiler.keepsRows q' := by
  rw [Compiler.keepsRows, Compiler.keepsRows, h.distinct, h.groupBy,
    isEmpty_of_unionsAlike h.unions]

/-! ## Searching -/

theorem readingFrom (h : q.Alike R q') (table : String) :
    (q.readingFrom table).Alike R (q'.readingFrom table) := by
  rw [Query.readingFrom, Query.readingFrom]
  rcases h.source_cases with ⟨hs, hs'⟩ | ⟨_, _, hs, hs'⟩ | ⟨_, _, _, hs, hs', -⟩
  · rw [hs, hs']
    exact { h with source := alike_tableSource table none }
  · rw [hs, hs']
    exact h
  · rw [hs, hs']
    exact h

end Sql.Query.Alike

/-- Origins whose texts and numbers are related. -/
structure Coordinate.Alike (R : Value → Value → Prop) (o o' : Coordinate) : Prop where
  text : R (.text o.wellKnownText) (.text o'.wellKnownText)
  lat : R (.float o.lat) (.float o'.lat)
  lng : R (.float o.lng) (.float o'.lng)

/-- Searches for the same column in the same unit, with related origins and radii. -/
structure Search.Alike (R : Value → Value → Prop) (s s' : Search) : Prop where
  column : s.column = s'.column
  unit : s.unit = s'.unit
  origin : s.origin.Alike R s'.origin
  radius : R (.float s.radius) (.float s'.radius)

/-- The text of a distance does not depend on the origin, in any dialect. -/
theorem Dialect.alike_distance (d : Dialect) (column : String) {o o' : Coordinate}
    (h : o.Alike R o') : (d.distance column o).Alike R (d.distance column o') := by
  cases d with
  | mysql =>
      have hpoint : (Dialect.mysql.point o).Alike R (Dialect.mysql.point o') :=
        ⟨rfl, .cons h.text .nil⟩
      exact ((Fragment.Alike.raw _).append hpoint).append (.raw ")")
  | postgresql =>
      have hpoint : (Dialect.postgresql.point o).Alike R (Dialect.postgresql.point o') :=
        ⟨rfl, .cons h.lat (.cons h.lng .nil)⟩
      exact ((Fragment.Alike.raw _).append hpoint).append (.raw ")")

namespace Search.Alike

variable {s s' : Search} {d : Dialect}

theorem distance (h : s.Alike R s') (d : Dialect) :
    (s.distance d).Alike R (s'.distance d) := by
  rw [Search.distance, Search.distance, h.column, h.unit]
  exact (d.alike_distance _ h.origin).scaled _

theorem measure (h : s.Alike R s') (hq : q.Alike R q') :
    (s.measure d q).Alike R (s'.measure d q') := by
  have hlast := alike_expression (h.distance d) (some distanceColumn)
  have hselect : List.Forall₂ (itemAlike R) (if q.select.isEmpty then [.plain "*"] else q.select)
      (if q'.select.isEmpty then [.plain "*"] else q'.select) := by
    rw [isEmpty_of_forall₂ hq.select]
    split
    · exact .cons (alike_column "*" none) .nil
    · exact hq.select
  exact { hq with select := List.rel_append hselect (.cons hlast .nil) }

theorem restrict (h : s.Alike R s') (hq : q.Alike R q') :
    (s.restrict d q).Alike R (s'.restrict d q') where
  select := .cons (alike_column _ none) .nil
  source := alike_derivedSource (h.measure hq) distanceAlias
  joins := rfl
  condition := .some (Fragment.Alike.compare distanceColumn "<" h.radius)
  groupBy := rfl
  orderBy := rfl
  limit := rfl
  offset := rfl
  distinct := rfl
  unions := by
    show unionsAlike R [] []
    rw [unionsAlike]

end Search.Alike

/-! ## Projecting -/

namespace Projection

variable {p : Projection} {v : Visible} {item item' : Item}

theorem alike_expandColumn (c : Column) :
    itemAlike R (p.expandColumn v c) (p.expandColumn v c) := by
  rw [expandColumn]
  split
  · exact alike_expression (.raw _) _
  · exact alike_column _ none

theorem alike_wildcards (names : List String) :
    List.Forall₂ (itemAlike R) (names.map SelectItem.wildcardOf)
      (names.map SelectItem.wildcardOf) :=
  forall₂_map_self (fun _ => alike_column _ none) names

theorem alike_expand (h : itemAlike R item item') (w : Wildcard) :
    List.Forall₂ (itemAlike R) (p.expand v item w) (p.expand v item' w) := by
  rw [expand, expand]
  split
  · exact .cons h .nil
  · refine List.rel_append (forall₂_map_self alike_expandColumn p.table.columns) ?_
    split
    · exact alike_wildcards v.joined
    · exact .nil

theorem alike_namedColumn (name : String) (label : Option String) :
    itemAlike R (p.namedColumn name label) (p.namedColumn name label) := by
  rw [namedColumn]
  split
  · split
    · exact alike_expression (.raw _) _
    · exact alike_column name label
  · exact alike_column name label

theorem alike_projectItem (style : ProjectionStyle) (h : itemAlike R item item') :
    List.Forall₂ (itemAlike R) (p.projectItem v style item) (p.projectItem v style item') := by
  rw [projectItem.eq_def, projectItem.eq_def, wildcard?_eq_of_alike h]
  split
  · split
    · cases style with
      | additive => exact .cons h .nil
      | replace => exact alike_expand h _
    · exact .cons h .nil
  · -- no wildcard: only a column may change, and a column binds no values
    cases item with
    | column name label =>
        rw [itemAlike] at h
        rw [h]
        exact .cons (alike_namedColumn name label) .nil
    | expression f label =>
        have hitem := h
        rw [itemAlike] at h
        obtain ⟨f', rfl, -⟩ := h
        exact .cons hitem .nil
    | subquery q label =>
        have hitem := h
        rw [itemAlike] at h
        obtain ⟨q', rfl, -⟩ := h
        exact .cons hitem .nil

theorem alike_pointCasts : List.Forall₂ (itemAlike R) p.pointCasts p.pointCasts :=
  forall₂_map_self (fun _ => alike_expression (.raw _) _) _

theorem any_ownsItem_eq {items items' : List Item} (h : List.Forall₂ (itemAlike R) items items') :
    items.any v.ownsItem = items'.any v.ownsItem := by
  induction h with
  | nil => rfl
  | cons hitem _ ih =>
      rw [List.any_cons, List.any_cons, ih, Visible.ownsItem, Visible.ownsItem,
        wildcard?_eq_of_alike hitem]

theorem alike_projectSelect (style : ProjectionStyle) {items items' : List Item}
    (h : List.Forall₂ (itemAlike R) items items') :
    List.Forall₂ (itemAlike R) (p.projectSelect v style items)
      (p.projectSelect v style items') := by
  have hrequested : List.Forall₂ (itemAlike R) (v.requested items) (v.requested items') := by
    rw [Visible.requested, Visible.requested, isEmpty_of_forall₂ h]
    split
    · exact alike_wildcards (v.primary :: v.joined)
    · exact h
  rw [projectSelect, projectSelect, any_ownsItem_eq hrequested]
  refine List.rel_append ?_ ?_
  · exact List.rel_flatMap hrequested fun _ _ hitem => alike_projectItem style hitem
  · split
    · exact alike_pointCasts
    · exact .nil

theorem alike_projectLevel (style : ProjectionStyle) (h : q.Alike R q') :
    (p.projectLevel style q).Alike R (p.projectLevel style q') := by
  rw [projectLevel, projectLevel, h.visible_eq]
  exact { h with select := alike_projectSelect style h.select }

end Projection

/-- A change of the innermost level keeps queries alike if it does so on a single level. -/
theorem Sql.Query.Alike.mapInnermost {f : Query → Query}
    (hf : ∀ {q q' : Query}, q.Alike R q' → (f q).Alike R (f q')) (h : q.Alike R q') :
    (q.mapInnermost f).Alike R (q'.mapInnermost f) := by
  induction q using Query.chain_induction generalizing q' with
  | level q hlevel =>
      rw [Query.mapInnermost_of_level hlevel,
        Query.mapInnermost_of_level (h.readsDerived_eq ▸ hlevel)]
      exact hf h
  | derived q inner label hs ih =>
      -- the other query reads a derived table too, and the two inner queries are alike
      rcases h.source_cases with ⟨hn, -⟩ | ⟨_, _, ht, -⟩ | ⟨_, inner', _, hd, hs', hinner⟩
      · simp [hs] at hn
      · simp [hs] at ht
      · obtain ⟨rfl, rfl⟩ : inner = _ ∧ label = _ := by simpa [hs] using hd
        rw [Query.mapInnermost_of_derived hs, Query.mapInnermost_of_derived hs']
        exact { h with source := alike_derivedSource (ih hinner) label }

/-- **Projecting keeps queries alike**, whatever the style and the mode. -/
theorem Projection.alike_project (p : Projection) (style : ProjectionStyle) (mode : ProjectionMode)
    (h : q.Alike R q') : (p.project style mode q).Alike R (p.project style mode q') := by
  rw [project.eq_def, project.eq_def, h.readsDerived_eq]
  split
  · exact h
  · split
    · exact h.mapInnermost fun hq => alike_projectLevel .replace hq
    · cases mode with
      | normal => exact alike_projectLevel style h
      | suppressed => exact h

/-! ## Editing -/

/-- Edits of the same clause that differ in nothing but bound values, and those in the same places
are related. -/
def Sql.Edit.Alike (R : Value → Value → Prop) : Edit → Edit → Prop
  | .addSelect item, other => ∃ item', other = .addSelect item' ∧ itemAlike R item item'
  | .readDerived q label, other => ∃ q', other = .readDerived q' label ∧ q.Alike R q'
  | .setCondition f, other => ∃ f', other = .setCondition f' ∧ f.Alike R f'
  | .andCondition f, other => ∃ f', other = .andCondition f' ∧ f.Alike R f'
  | .union all q, other => ∃ q', other = .union all q' ∧ q.Alike R q'
  | edit, other => other = edit

theorem unionsAlike_append {members members' : List (UnionMember Query)}
    (hmembers : unionsAlike R members members') (all : Bool) (h : q.Alike R q') :
    unionsAlike R (members ++ [⟨all, q⟩]) (members' ++ [⟨all, q'⟩]) := by
  induction members generalizing members' with
  | nil =>
      rw [unionsAlike] at hmembers
      rw [hmembers, List.nil_append, List.nil_append, unionsAlike]
      refine ⟨q', [], rfl, queryAlike_iff.mpr h, ?_⟩
      rw [unionsAlike]
  | cons member members ih =>
      rw [unionsAlike] at hmembers
      obtain ⟨first, rest, rfl, hfirst, hrest⟩ := hmembers
      rw [List.cons_append, List.cons_append, unionsAlike]
      exact ⟨first, _, rfl, hfirst, ih hrest⟩

namespace Sql.Query.Alike

theorem andCondition (h : q.Alike R q') {f f' : Fragment} (hf : f.Alike R f') :
    (q.andCondition f).Alike R (q'.andCondition f') := by
  refine { h with condition := .some ?_ }
  have hcondition := h.condition
  generalize q.condition = old at hcondition ⊢
  generalize q'.condition = old' at hcondition ⊢
  cases hcondition with
  | none => exact hf
  | some hold => exact hold.paren.and hf.paren

/-- **Editing keeps queries alike.** -/
theorem edit (h : q.Alike R q') {e e' : Edit} (he : e.Alike R e') :
    (q.edit e).Alike R (q'.edit e') := by
  cases e with
  | select columns =>
      obtain rfl : e' = .select columns := he
      exact { h with select := forall₂_map_self (fun name => alike_column name none) columns }
  | addSelect item =>
      obtain ⟨item', rfl, hitem⟩ := he
      exact { h with select := List.rel_append h.select (.cons hitem .nil) }
  | readTable name label =>
      obtain rfl : e' = .readTable name label := he
      exact { h with source := alike_tableSource name label }
  | readDerived inner label =>
      obtain ⟨inner', rfl, hinner⟩ := he
      exact { h with source := alike_derivedSource hinner label }
  | join kind table condition =>
      obtain rfl : e' = .join kind table condition := he
      exact { h with joins := congrArg (· ++ _) h.joins }
  | setCondition f =>
      obtain ⟨f', rfl, hf⟩ := he
      exact { h with condition := .some hf }
  | andCondition f =>
      obtain ⟨f', rfl, hf⟩ := he
      exact h.andCondition hf
  | groupBy columns =>
      obtain rfl : e' = .groupBy columns := he
      exact { h with groupBy := rfl }
  | orderBy spec =>
      obtain rfl : e' = .orderBy spec := he
      exact { h with orderBy := congrArg (· ++ _) h.orderBy }
  | limit count =>
      obtain rfl : e' = .limit count := he
      exact { h with limit := rfl }
  | offset count =>
      obtain rfl : e' = .offset count := he
      exact { h with offset := rfl }
  | distinct =>
      obtain rfl : e' = .distinct := he
      exact { h with distinct := rfl }
  | union all other =>
      obtain ⟨other', rfl, hother⟩ := he
      exact { h with unions := unionsAlike_append h.unions all hother }

theorem editAll (h : q.Alike R q') {es es' : List Edit} (hs : List.Forall₂ (Edit.Alike R) es es') :
    (q.editAll es).Alike R (q'.editAll es') := by
  induction hs generalizing q q' with
  | nil => exact h
  | cons he _ ih => exact ih (h.edit he)

end Sql.Query.Alike

end PointQuery
