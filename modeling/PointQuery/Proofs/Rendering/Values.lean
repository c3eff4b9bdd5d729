import PointQuery.Sql.Render
/-!
# The values of a rendered query

Only select items, derived tables, the condition and union members bring values along; every other
clause is text. `Query.params_render` lists them in the order in which they are bound.
-/

namespace PointQuery.Sql

/-! ## Fragments -/

theorem Fragment.params_paren (f : Fragment) : f.paren.params = f.params := by
  simp [Fragment.paren]

theorem Fragment.params_join (separator : String) (fs : List Fragment) :
    (Fragment.join separator fs).params = fs.flatMap Fragment.params := by
  induction fs with
  | nil => rfl
  | cons f fs ih =>
      cases fs with
      | nil => simp [Fragment.join]
      | cons g gs => simp only [Fragment.join, Fragment.params_append, ih, List.flatMap_cons,
          Fragment.params_raw, List.append_nil]

theorem Fragment.params_join_raw (separator : String) (texts : List String) :
    (Fragment.join separator (texts.map Fragment.raw)).params = [] := by
  rw [Fragment.params_join, List.flatMap_map]
  exact List.flatMap_eq_nil_iff.mpr fun _ _ => rfl

/-! ## Clauses -/

theorem params_labelClause (label : Option String) : (labelClause label).params = [] := by
  cases label <;> rfl

theorem params_listClause (keyword : String) (texts : List String) :
    (listClause keyword texts).params = [] := by
  rw [listClause]
  split
  · rfl
  · rw [Fragment.params_append, commaList, Fragment.params_join_raw]
    rfl

theorem params_joinClauses (joins : List Join) : (joinClauses joins).params = [] := by
  rw [joinClauses, Fragment.params_join, List.flatMap_map]
  exact List.flatMap_eq_nil_iff.mpr fun _ _ => rfl

theorem params_countClause (keyword : String) (count : Option Nat) :
    (countClause keyword count).params = [] := by
  cases count <;> rfl

theorem params_conditionClause (condition : Option Fragment) :
    (conditionClause condition).params = condition.toList.flatMap Fragment.params := by
  cases condition with
  | none => rfl
  | some f => simp [conditionClause]

theorem params_tailClauses (joins : List Join) (condition : Option Fragment)
    (groupBy : List String) (orderBy : List SortKey) (limit offset : Option Nat) :
    (tailClauses joins condition groupBy orderBy limit offset).params =
      condition.toList.flatMap Fragment.params := by
  simp only [tailClauses, Fragment.params_append, params_joinClauses, params_conditionClause,
    params_listClause, params_countClause, List.nil_append, List.append_nil]

/-! ## Items and sources -/

/-- The values that a select item brings. -/
def itemValues (item : SelectItem Query) : List Value := (renderItem item).params

@[simp] theorem itemValues_column (name : String) (label : Option String) :
    itemValues (.column name label) = [] := by
  rw [itemValues, renderItem, Fragment.params_append, params_labelClause]
  rfl

@[simp] theorem itemValues_expression (f : Fragment) (label : Option String) :
    itemValues (.expression f label) = f.params := by
  rw [itemValues, renderItem, Fragment.params_append, params_labelClause, List.append_nil]

theorem renderItems_eq_map (items : List (SelectItem Query)) :
    renderItems items = items.map renderItem := by
  induction items with
  | nil => rfl
  | cons item items ih => rw [renderItems, ih, List.map_cons]

theorem params_selectList (items : List (SelectItem Query)) :
    (selectList (renderItems items)).params = items.flatMap itemValues := by
  rw [renderItems_eq_map]
  cases items with
  | nil => rfl
  | cons item items =>
      rw [List.map_cons, selectList, Fragment.params_join, ← List.map_cons, List.flatMap_map]
      · rfl
      · exact List.cons_ne_nil _ _

theorem params_renderSource_derived (q : Query) (label : String) :
    (renderSource (some (.derived q label))).params = q.render.params := by
  rw [renderSource, Fragment.params_append, Fragment.params_append, Fragment.params_paren]
  simp

theorem params_renderSource_table (name : String) (label : Option String) :
    (renderSource (some (.table name label))).params = [] := by
  cases label with
  | none => rw [renderSource]; rfl
  | some label => rw [renderSource]; rfl

/-! ## The whole query -/

/-- The values of a query, in the order in which they are bound: those of its select items, of its
source, of its condition and of its union members. -/
theorem Query.params_render (q : Query) :
    q.render.params = q.select.flatMap itemValues ++ (renderSource q.source).params ++
      q.condition.toList.flatMap Fragment.params ++ (renderUnions q.unions).params := by
  obtain ⟨select, source, joins, condition, groupBy, orderBy, limit, offset, distinct, unions⟩ := q
  have hlevel : ∀ word : String,
      (.raw word ++ selectList (renderItems select) ++ renderSource source ++
        tailClauses joins condition groupBy orderBy limit offset : Fragment).params =
      select.flatMap itemValues ++ (renderSource source).params ++
        condition.toList.flatMap Fragment.params := by
    intro word
    simp only [Fragment.params_append, Fragment.params_raw, List.nil_append, params_selectList,
      params_tailClauses]
  rw [Query.render]
  cases unions with
  | nil => simp only [List.isEmpty_nil, if_true, hlevel, renderUnions, Fragment.params_raw,
      List.append_nil]
  | cons member members => simp only [List.isEmpty_cons, Bool.false_eq_true, if_false,
      Fragment.params_append, Fragment.params_paren, hlevel]

end PointQuery.Sql
