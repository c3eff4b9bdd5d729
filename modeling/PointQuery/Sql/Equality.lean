import PointQuery.Sql.Query
/-!
# Equality of queries

Two queries are equal if they agree clause by clause, at every level, with bound floats compared as
numbers: a query that binds a NaN differs even from itself.
-/

namespace PointQuery.Sql

/-- Two optional fragments. -/
def optionalFragmentEq : Option Fragment → Option Fragment → Bool
  | none, none => true
  | some a, some b => a.ieeeEq b
  | _, _ => false

mutual

/-- Equality of queries. -/
def Query.ieeeEq : Query → Query → Bool
  | { select, source, joins, condition, groupBy, orderBy, limit, offset, distinct, unions },
      other =>
    itemsEq select other.select && sourceEq source other.source && joins == other.joins &&
      optionalFragmentEq condition other.condition && groupBy == other.groupBy &&
      orderBy == other.orderBy && limit == other.limit && offset == other.offset &&
      distinct == other.distinct && unionsEq unions other.unions

/-- Equality of select lists. -/
def itemsEq : List (SelectItem Query) → List (SelectItem Query) → Bool
  | [], [] => true
  | a :: as, b :: bs => itemEq a b && itemsEq as bs
  | _, _ => false

/-- Equality of select items. -/
def itemEq : SelectItem Query → SelectItem Query → Bool
  | .column name label, .column name' label' => name == name' && label == label'
  | .expression fragment label, .expression fragment' label' =>
    fragment.ieeeEq fragment' && label == label'
  | .subquery query label, .subquery query' label' => query.ieeeEq query' && label == label'
  | _, _ => false

/-- Equality of sources. -/
def sourceEq : Option (Source Query) → Option (Source Query) → Bool
  | none, none => true
  | some (.table name label), some (.table name' label') => name == name' && label == label'
  | some (.derived query label), some (.derived query' label') =>
    query.ieeeEq query' && label == label'
  | _, _ => false

/-- Equality of union members. -/
def unionsEq : List (UnionMember Query) → List (UnionMember Query) → Bool
  | [], [] => true
  | ⟨all, query⟩ :: ms, ⟨all', query'⟩ :: ms' =>
    all == all' && query.ieeeEq query' && unionsEq ms ms'
  | _, _ => false

end

end PointQuery.Sql
