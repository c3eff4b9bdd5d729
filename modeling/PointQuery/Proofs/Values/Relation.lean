import Mathlib.Data.List.Forall2
import PointQuery.Proofs.Placeholder.Layout
/-!
# Queries that differ in their values

Two queries are alike if they differ in nothing but their bound values, and the values in the same
places are related. The relation on values is a parameter: with the one that always holds, queries
that are alike have the same shape; a narrower one says where each value comes from.
-/

namespace PointQuery.Sql

variable (R : Value → Value → Prop)

/-- What relates each image to itself relates the images of a list to themselves. -/
theorem forall₂_map_self {A B : Type} {P : B → B → Prop} {f : A → B} (h : ∀ a, P (f a) (f a))
    (as : List A) : List.Forall₂ P (as.map f) (as.map f) := by
  refine List.forall₂_same.mpr ?_
  intro b hb
  obtain ⟨a, -, rfl⟩ := List.mem_map.mp hb
  exact h a

/-! ## Fragments -/

/-- The same text, and related values in the same places. -/
structure Fragment.Alike (f g : Fragment) : Prop where
  sql : f.sql = g.sql
  params : List.Forall₂ R f.params g.params

variable {R} {f f' g g' : Fragment}

namespace Fragment.Alike

theorem raw (s : String) : (Fragment.raw s).Alike R (Fragment.raw s) := ⟨rfl, .nil⟩

theorem append (hf : f.Alike R f') (hg : g.Alike R g') : (f ++ g).Alike R (f' ++ g') where
  sql := by rw [sql_append, sql_append, hf.sql, hg.sql]
  params := List.rel_append hf.params hg.params

theorem compare (column operator : String) {v v' : Value} (h : R v v') :
    (Fragment.compare column operator v).Alike R (Fragment.compare column operator v') :=
  ⟨rfl, .cons h .nil⟩

theorem paren (h : f.Alike R f') : f.paren.Alike R f'.paren :=
  ((raw "(").append h).append (raw ")")

theorem and (hf : f.Alike R f') (hg : g.Alike R g') : (f.and g).Alike R (f'.and g') :=
  (hf.append (raw " AND ")).append hg

theorem scaled (h : f.Alike R f') (factor : Binary64) :
    (f.scaled factor).Alike R (f'.scaled factor) :=
  ((raw _).append h).append (raw ")")

theorem join (separator : String) {fs fs' : List Fragment} (h : List.Forall₂ (Alike R) fs fs') :
    (Fragment.join separator fs).Alike R (Fragment.join separator fs') := by
  induction h with
  | nil => exact raw ""
  | cons hf hs ih =>
      -- the separator stands between two fragments, so a last one is a case of its own
      cases hs with
      | nil => exact hf
      | cons => exact (hf.append (raw separator)).append ih

end Fragment.Alike

/-! ## Queries -/

variable (R)

mutual

/-- Queries that are alike, by recursion on the first of them. -/
def queryAlike : Query → Query → Prop
  | { select, source, joins, condition, groupBy, orderBy, limit, offset, distinct, unions }, q =>
    itemsAlike select q.select ∧ sourceAlike source q.source ∧ joins = q.joins ∧
      Option.Rel (Fragment.Alike R) condition q.condition ∧ groupBy = q.groupBy ∧
      orderBy = q.orderBy ∧ limit = q.limit ∧ offset = q.offset ∧ distinct = q.distinct ∧
      unionsAlike unions q.unions

/-- Select lists that are alike. -/
def itemsAlike : List (SelectItem Query) → List (SelectItem Query) → Prop
  | [], others => others = []
  | item :: items, others =>
    ∃ item' items', others = item' :: items' ∧ itemAlike item item' ∧ itemsAlike items items'

/-- Select items that are alike. -/
def itemAlike : SelectItem Query → SelectItem Query → Prop
  | .column name label, other => other = .column name label
  | .expression f label, other => ∃ f', other = .expression f' label ∧ f.Alike R f'
  | .subquery q label, other => ∃ q', other = .subquery q' label ∧ queryAlike q q'

/-- Sources that are alike. -/
def sourceAlike : Option (Source Query) → Option (Source Query) → Prop
  | none, other => other = none
  | some (.table name label), other => other = some (.table name label)
  | some (.derived q label), other => ∃ q', other = some (.derived q' label) ∧ queryAlike q q'

/-- Union members that are alike. -/
def unionsAlike : List (UnionMember Query) → List (UnionMember Query) → Prop
  | [], others => others = []
  | ⟨all, q⟩ :: members, others =>
    ∃ q' members', others = ⟨all, q'⟩ :: members' ∧ queryAlike q q' ∧ unionsAlike members members'

end

/-- The queries differ in nothing but their bound values, and those in the same places are
related. -/
structure Query.Alike (q q' : Query) : Prop where
  select : List.Forall₂ (itemAlike R) q.select q'.select
  source : sourceAlike R q.source q'.source
  joins : q.joins = q'.joins
  condition : Option.Rel (Fragment.Alike R) q.condition q'.condition
  groupBy : q.groupBy = q'.groupBy
  orderBy : q.orderBy = q'.orderBy
  limit : q.limit = q'.limit
  offset : q.offset = q'.offset
  distinct : q.distinct = q'.distinct
  unions : unionsAlike R q.unions q'.unions

variable {R} {q q' : Query}

theorem itemsAlike_iff {items items' : List (SelectItem Query)} :
    itemsAlike R items items' ↔ List.Forall₂ (itemAlike R) items items' := by
  induction items generalizing items' with
  | nil => rw [itemsAlike, List.forall₂_nil_left_iff]
  | cons item items ih =>
      rw [itemsAlike, List.forall₂_cons_left_iff]
      constructor
      · rintro ⟨item', rest, rfl, hitem, hrest⟩
        exact ⟨item', rest, hitem, ih.mp hrest, rfl⟩
      · rintro ⟨item', rest, hitem, hrest, rfl⟩
        exact ⟨item', rest, rfl, hitem, ih.mpr hrest⟩

/-- Alike clause by clause is alike. -/
theorem queryAlike_iff : queryAlike R q q' ↔ q.Alike R q' := by
  obtain ⟨select, source, joins, condition, groupBy, orderBy, limit, offset, distinct, unions⟩ := q
  rw [queryAlike, itemsAlike_iff]
  constructor
  · rintro ⟨hselect, hsource, hjoins, hcondition, hgroup, horder, hlimit, hoffset, hdistinct,
      hunions⟩
    exact ⟨hselect, hsource, hjoins, hcondition, hgroup, horder, hlimit, hoffset, hdistinct,
      hunions⟩
  · intro h
    exact ⟨h.select, h.source, h.joins, h.condition, h.groupBy, h.orderBy, h.limit, h.offset,
      h.distinct, h.unions⟩

theorem isEmpty_of_unionsAlike {members members' : List (UnionMember Query)}
    (h : unionsAlike R members members') : members.isEmpty = members'.isEmpty := by
  cases members with
  | nil =>
      rw [unionsAlike] at h
      rw [h]
  | cons member rest =>
      rw [unionsAlike] at h
      obtain ⟨_, _, rfl, -⟩ := h
      rfl

/-! ## Rendering -/

section Clauses

/-- Fragments made of one and the same text are alike, joined with a separator. -/
theorem alike_joinRaw (separator : String) (texts : List String) :
    (Fragment.join separator (texts.map Fragment.raw)).Alike R
      (Fragment.join separator (texts.map Fragment.raw)) :=
  .join separator (forall₂_map_self Fragment.Alike.raw texts)

theorem alike_listClause (keyword : String) (texts : List String) :
    (listClause keyword texts).Alike R (listClause keyword texts) := by
  rw [listClause]
  split
  · exact .raw ""
  · exact (Fragment.Alike.raw keyword).append (alike_joinRaw ", " texts)

theorem alike_labelClause (label : Option String) :
    (labelClause label).Alike R (labelClause label) := by
  cases label with
  | none => exact .raw ""
  | some label => exact .raw _

theorem alike_joinClauses (joins : List Join) :
    (joinClauses joins).Alike R (joinClauses joins) := by
  have h := alike_joinRaw (R := R) "" <| joins.map fun j =>
    " " ++ j.kind.keyword ++ " " ++ j.table ++ " ON " ++ j.condition
  rwa [List.map_map] at h

theorem alike_countClause (keyword : String) (count : Option Nat) :
    (countClause keyword count).Alike R (countClause keyword count) := by
  cases count with
  | none => exact .raw ""
  | some count => exact .raw _

theorem alike_conditionClause {condition condition' : Option Fragment}
    (h : Option.Rel (Fragment.Alike R) condition condition') :
    (conditionClause condition).Alike R (conditionClause condition') := by
  cases h with
  | none => exact .raw ""
  | some h => exact (Fragment.Alike.raw " WHERE ").append h

theorem alike_selectList {fs fs' : List Fragment} (h : List.Forall₂ (Fragment.Alike R) fs fs') :
    (selectList fs).Alike R (selectList fs') := by
  cases h with
  | nil => exact .raw "*"
  | cons hf hs => exact .join ", " (.cons hf hs)

end Clauses

mutual

/-- **Queries that are alike are rendered alike**: to the same text, with related values. -/
theorem alike_render : ∀ (q : Query) {q' : Query}, queryAlike R q q' →
    q.render.Alike R q'.render
  | { select, source, joins, condition, groupBy, orderBy, limit, offset, distinct, unions },
    { select := _, source := _, joins := _, condition := _, groupBy := _, orderBy := _, limit := _,
      offset := _, distinct := _, unions := members }, h => by
    rw [queryAlike] at h
    obtain ⟨hselect, hsource, rfl, hcondition, rfl, rfl, rfl, rfl, rfl, hunions⟩ := h
    -- of the clauses after the source only the condition binds values
    have htail := ((((alike_joinClauses joins).append (alike_conditionClause hcondition)).append
      (alike_listClause " GROUP BY " groupBy)).append
      (alike_listClause " ORDER BY " (orderBy.map SortKey.render))).append
      (alike_countClause " LIMIT " limit) |>.append (alike_countClause " OFFSET " offset)
    have hword : (Fragment.raw (if distinct then "SELECT DISTINCT " else "SELECT ")).Alike R _ :=
      .raw _
    have hlevel := ((hword.append (alike_selectList (alike_renderItems select hselect))).append
      (alike_renderSource source hsource)).append htail
    -- the parentheses around the level depend on whether members follow
    have hempty : unions.isEmpty = members.isEmpty := isEmpty_of_unionsAlike hunions
    rw [Query.render, Query.render, hempty]
    split
    · exact hlevel
    · exact hlevel.paren.append (alike_renderUnions unions hunions)

theorem alike_renderItems : ∀ (items : List (SelectItem Query)) {items' : List (SelectItem Query)},
    itemsAlike R items items' →
      List.Forall₂ (Fragment.Alike R) (renderItems items) (renderItems items')
  | [], _, h => by
    rw [itemsAlike] at h
    rw [h]
    exact .nil
  | item :: items, _, h => by
    rw [itemsAlike] at h
    obtain ⟨item', items', rfl, hitem, hitems⟩ := h
    exact .cons (alike_renderItem item hitem) (alike_renderItems items hitems)

theorem alike_renderItem : ∀ (item : SelectItem Query) {item' : SelectItem Query},
    itemAlike R item item' → (renderItem item).Alike R (renderItem item')
  | .column name label, _, h => by
    rw [itemAlike] at h
    rw [h]
    exact (Fragment.Alike.raw name).append (alike_labelClause label)
  | .expression f label, _, h => by
    rw [itemAlike] at h
    obtain ⟨f', rfl, hf⟩ := h
    exact hf.append (alike_labelClause label)
  | .subquery q label, _, h => by
    rw [itemAlike] at h
    obtain ⟨q', rfl, hq⟩ := h
    exact (alike_render q hq).paren.append (alike_labelClause (some label))

theorem alike_renderSource : ∀ (source : Option (Source Query)) {source' : Option (Source Query)},
    sourceAlike R source source' → (renderSource source).Alike R (renderSource source')
  | none, _, h => by
    rw [sourceAlike] at h
    rw [h]
    exact .raw ""
  | some (.table name none), _, h => by
    rw [sourceAlike] at h
    rw [h]
    exact .raw _
  | some (.table name (some label)), _, h => by
    rw [sourceAlike] at h
    rw [h]
    exact .raw _
  | some (.derived q label), _, h => by
    rw [sourceAlike] at h
    obtain ⟨q', rfl, hq⟩ := h
    exact ((Fragment.Alike.raw " FROM ").append (alike_render q hq).paren).append (.raw _)

theorem alike_renderUnions : ∀ (unions : List (UnionMember Query))
    {unions' : List (UnionMember Query)}, unionsAlike R unions unions' →
      (renderUnions unions).Alike R (renderUnions unions')
  | [], _, h => by
    rw [unionsAlike] at h
    rw [h]
    exact .raw ""
  | ⟨all, q⟩ :: members, _, h => by
    rw [unionsAlike] at h
    obtain ⟨q', members', rfl, hq, hmembers⟩ := h
    exact ((Fragment.Alike.raw (if all then " UNION ALL " else " UNION ")).append
      (alike_render q hq).paren).append (alike_renderUnions members hmembers)

end

theorem Query.Alike.render (h : q.Alike R q') : q.render.Alike R q'.render :=
  alike_render q (queryAlike_iff.mpr h)

end PointQuery.Sql
