import PointQuery.Proofs.Placeholder.Scan
import PointQuery.Sql.Render
/-!
# The layout of a rendered query

A query is made of texts, which are written as they stand, and of expressions, which bring values
along. `Laid es f` says that the fragment `f` consists of the expressions `es`, in this order, with
inert text around them; `Query.laid_render` says that a rendered query is laid out so if all of its
texts are inert. The rest follows from the layout alone: which values are bound, how many
placeholders there are, and where each expression stands.
-/

namespace PointQuery.Sql

/-! ## Fragments side by side -/

namespace Fragment

theorem append_assoc (a b c : Fragment) : a ++ b ++ c = a ++ (b ++ c) := by
  show Fragment.mk _ _ = Fragment.mk _ _
  simp [String.append_assoc]

theorem raw_empty_append (f : Fragment) : raw "" ++ f = f := by
  show Fragment.mk _ _ = f
  simp

theorem append_raw_empty (f : Fragment) : f ++ raw "" = f := by
  show Fragment.mk _ _ = f
  simp

/-- A fragment with a closed text and one placeholder for each of its values. -/
def Aligned (f : Fragment) : Prop :=
  Closed f.sql.toList ∧ placeholderCount f.sql.toList = f.params.length

instance (f : Fragment) : Decidable f.Aligned :=
  inferInstanceAs <| Decidable <|
    Closed f.sql.toList ∧ placeholderCount f.sql.toList = f.params.length

theorem aligned_raw {s : String} (h : Inert s.toList) : (raw s).Aligned := h

theorem Aligned.append {a b : Fragment} (ha : a.Aligned) (hb : b.Aligned) :
    (a ++ b).Aligned := by
  refine ⟨?_, ?_⟩
  · rw [sql_append, String.toList_append]
    exact ha.1.append hb.1
  · rw [sql_append, String.toList_append, ha.1.count_append, ha.2, hb.2, params_append,
      List.length_append]

/-- Inert texts on both sides change neither the quotes nor the count. -/
theorem Aligned.around {f : Fragment} (h : f.Aligned) {before after : String}
    (hb : Inert before.toList) (ha : Inert after.toList) :
    (raw before ++ f ++ raw after).Aligned :=
  ((aligned_raw hb).append h).append (aligned_raw ha)

end Fragment

/-! ## Layout -/

/-- The fragment consists of the expressions, in this order, with inert text around them. -/
inductive Laid : List Fragment → Fragment → Prop where
  | text {s : String} : Inert s.toList → Laid [] (.raw s)
  | expression (f : Fragment) : Laid [f] f
  | append {es es' : List Fragment} {f f' : Fragment} :
      Laid es f → Laid es' f' → Laid (es ++ es') (f ++ f')

namespace Laid

theorem text_append {s : String} {es : List Fragment} {f : Fragment} (hs : Inert s.toList)
    (h : Laid es f) : Laid es (.raw s ++ f) := append (text hs) h

theorem append_text {s : String} {es : List Fragment} {f : Fragment} (h : Laid es f)
    (hs : Inert s.toList) : Laid es (f ++ .raw s) := by
  have := append h (text hs)
  rwa [List.append_nil] at this

theorem paren {es : List Fragment} {f : Fragment} (h : Laid es f) : Laid es f.paren :=
  (h.text_append (by decide)).append_text (by decide)

/-- Clauses in a row with an inert separator, none of which holds expressions. -/
theorem join_nil {separator : String} (hs : Inert separator.toList) {fs : List Fragment}
    (h : ∀ f ∈ fs, Laid [] f) : Laid [] (Fragment.join separator fs) := by
  induction fs with
  | nil => exact text Inert.nil
  | cons f fs ih =>
      cases fs with
      | nil => exact h f (by simp)
      | cons g gs =>
          have hf : Laid [] f := h f (by simp)
          exact append (hf.append_text hs) (ih fun x hx => h x (by simp [hx]))

/-- The values of a laid out fragment are those of its expressions, in order. -/
theorem params_eq {es : List Fragment} {f : Fragment} (h : Laid es f) :
    f.params = es.flatMap Fragment.params := by
  induction h with
  | text => rfl
  | expression f => simp
  | append _ _ ih ih' => rw [Fragment.params_append, ih, ih', List.flatMap_append]

theorem aligned {es : List Fragment} {f : Fragment} (h : Laid es f) (he : ∀ e ∈ es, e.Aligned) :
    f.Aligned := by
  induction h with
  | text hs => exact Fragment.aligned_raw hs
  | expression f => exact he f (by simp)
  | append _ _ ih ih' =>
      exact (ih fun e h => he e (by simp [h])).append (ih' fun e h => he e (by simp [h]))

/-- Each expression stands in the fragment after those before it and before those after it. -/
theorem split {es : List Fragment} {f : Fragment} (h : Laid es f) {left right : List Fragment}
    {e : Fragment} (hes : es = left ++ e :: right) :
    ∃ before after, f = before ++ e ++ after ∧ Laid left before ∧ Laid right after := by
  induction h generalizing left right with
  | text => simp at hes
  | expression f =>
      obtain ⟨rfl, hr⟩ : left = [] ∧ [f] = e :: right := by
        cases left with
        | nil => exact ⟨rfl, hes⟩
        | cons x xs => simp at hes
      obtain ⟨rfl, rfl⟩ := List.cons.inj hr
      exact ⟨.raw "", .raw "",
        by rw [Fragment.append_raw_empty, Fragment.raw_empty_append],
        text Inert.nil, text Inert.nil⟩
  | @append as bs f g hf hg ihf ihg =>
      rcases List.append_eq_append_iff.mp hes with ⟨cs, rfl, hb⟩ | ⟨cs, ha, hc⟩
      · -- the expression stands in the second part
        obtain ⟨before, after, rfl, hl, hr⟩ := ihg hb
        exact ⟨f ++ before, after, by simp only [Fragment.append_assoc], append hf hl, hr⟩
      · cases cs with
        | nil =>
            have hb : bs = [] ++ e :: right := hc.symm
            obtain ⟨before, after, rfl, hl, hr⟩ := ihg hb
            refine ⟨f ++ before, after, by simp only [Fragment.append_assoc], ?_, hr⟩
            rw [List.append_nil] at ha
            subst ha
            simpa using append hf hl
        | cons x xs =>
            obtain ⟨rfl, rfl⟩ := List.cons.inj hc
            obtain ⟨before, after, rfl, hl, hr⟩ := ihf ha
            exact ⟨before, after ++ g, by simp only [Fragment.append_assoc], hl, append hr hg⟩

end Laid

/-! ## The texts and expressions of a query -/

mutual

/-- The texts of a query that are written as they stand: columns and their aliases, tables and
theirs, joins, groupings and orderings. -/
def Query.texts : Query → List String
  | { select, source, joins, condition := _, groupBy, orderBy, limit := _, offset := _,
      distinct := _, unions } =>
    itemsTexts select ++ sourceTexts source ++ joins.flatMap (fun j => [j.table, j.condition]) ++
      groupBy ++ orderBy.map SortKey.column ++ unionsTexts unions

/-- The texts of a select list. -/
def itemsTexts : List (SelectItem Query) → List String
  | [] => []
  | item :: items => itemTexts item ++ itemsTexts items

/-- The texts of a select item. -/
def itemTexts : SelectItem Query → List String
  | .column name label => name :: label.toList
  | .expression _ label => label.toList
  | .subquery query label => query.texts ++ [label]

/-- The texts of a source. -/
def sourceTexts : Option (Source Query) → List String
  | none => []
  | some (.table name label) => name :: label.toList
  | some (.derived query label) => query.texts ++ [label]

/-- The texts of union members. -/
def unionsTexts : List (UnionMember Query) → List String
  | [] => []
  | ⟨_, query⟩ :: members => query.texts ++ unionsTexts members

end

mutual

/-- The expressions of a query, in the order in which they are written: those it selects, those of
its source, its condition, and those of its union members. -/
def Query.expressions : Query → List Fragment
  | { select, source, joins := _, condition, groupBy := _, orderBy := _, limit := _, offset := _,
      distinct := _, unions } =>
    itemsExpressions select ++ sourceExpressions source ++ condition.toList ++
      unionsExpressions unions

/-- The expressions of a select list. -/
def itemsExpressions : List (SelectItem Query) → List Fragment
  | [] => []
  | item :: items => itemExpressions item ++ itemsExpressions items

/-- The expressions of a select item. -/
def itemExpressions : SelectItem Query → List Fragment
  | .column .. => []
  | .expression fragment _ => [fragment]
  | .subquery query _ => query.expressions

/-- The expressions of a source. -/
def sourceExpressions : Option (Source Query) → List Fragment
  | none => []
  | some (.table ..) => []
  | some (.derived query _) => query.expressions

/-- The expressions of union members. -/
def unionsExpressions : List (UnionMember Query) → List Fragment
  | [] => []
  | ⟨_, query⟩ :: members => query.expressions ++ unionsExpressions members

end

/-! ## The layout of a query -/

section

variable {joins : List Join} {condition : Option Fragment} {groupBy : List String}
  {orderBy : List SortKey} {limit offset : Option Nat}

theorem laid_labelClause {label : Option String} (h : ∀ s ∈ label.toList, Inert s.toList) :
    Laid [] (labelClause label) := by
  cases label with
  | none => exact .text Inert.nil
  | some label =>
      exact .text (inert_append (by decide) (h label (by simp)))

theorem laid_listClause {keyword : String} {texts : List String} (hk : Inert keyword.toList)
    (h : ∀ s ∈ texts, Inert s.toList) : Laid [] (listClause keyword texts) := by
  rw [listClause]
  split
  · exact .text Inert.nil
  · refine Laid.text_append hk (Laid.join_nil (by decide) ?_)
    intro f hf
    obtain ⟨s, hs, rfl⟩ := List.mem_map.mp hf
    exact .text (h s hs)

theorem laid_joinClauses (h : ∀ j ∈ joins, Inert j.table.toList ∧ Inert j.condition.toList) :
    Laid [] (joinClauses joins) := by
  refine Laid.join_nil (by decide) ?_
  intro f hf
  obtain ⟨j, hj, rfl⟩ := List.mem_map.mp hf
  obtain ⟨ht, hc⟩ := h j hj
  have hk : Inert j.kind.keyword.toList := by cases j.kind <;> decide
  have hjoin : Inert (" " ++ j.kind.keyword ++ " " ++ j.table).toList :=
    inert_append (inert_append (inert_append (by decide) hk) (by decide)) ht
  exact .text (inert_append (inert_append hjoin (by decide)) hc)

theorem laid_conditionClause : Laid condition.toList (conditionClause condition) := by
  cases condition with
  | none => exact .text Inert.nil
  | some f => exact Laid.text_append (by decide) (.expression f)

theorem laid_countClause {keyword : String} (hk : Inert keyword.toList) :
    Laid [] (countClause keyword limit) := by
  cases limit with
  | none => exact .text Inert.nil
  | some n =>
      exact .text (inert_append hk (inert_toString n))

theorem inert_render {o : SortKey} (h : Inert o.column.toList) : Inert o.render.toList := by
  rw [SortKey.render]
  cases o.direction with
  | ascending => exact inert_append h (by decide)
  | descending => exact inert_append h (by decide)

theorem laid_tailClauses
    (h : ∀ s ∈ joins.flatMap (fun j => [j.table, j.condition]) ++ groupBy ++
      orderBy.map SortKey.column, Inert s.toList) :
    Laid condition.toList (tailClauses joins condition groupBy orderBy limit offset) := by
  have hj : Laid [] (joinClauses joins) := by
    refine laid_joinClauses fun j hj => ⟨h _ ?_, h _ ?_⟩
    · simp only [List.mem_append, List.mem_flatMap]
      exact .inl (.inl ⟨j, hj, by simp⟩)
    · simp only [List.mem_append, List.mem_flatMap]
      exact .inl (.inl ⟨j, hj, by simp⟩)
  have hg : Laid [] (listClause " GROUP BY " groupBy) :=
    laid_listClause (by decide) fun s hs => h s (by simp [hs])
  have ho : Laid [] (listClause " ORDER BY " (orderBy.map SortKey.render)) := by
    refine laid_listClause (by decide) fun s hs => ?_
    obtain ⟨o, ho, rfl⟩ := List.mem_map.mp hs
    exact inert_render (h _ (List.mem_append_right _ (List.mem_map_of_mem ho)))
  have hc : Laid condition.toList (conditionClause condition) := laid_conditionClause
  have hl : Laid [] (countClause " LIMIT " limit) := laid_countClause (by decide)
  have hf : Laid [] (countClause " OFFSET " offset) := laid_countClause (by decide)
  have all := ((((hj.append hc).append hg).append ho).append hl).append hf
  rw [tailClauses]
  simpa only [List.nil_append, List.append_nil] using all

end

mutual

/-- **A rendered query is laid out**: its expressions stand in their order, with inert text around
them. -/
theorem Query.laid_render : ∀ (q : Query), (∀ s ∈ q.texts, Inert s.toList) →
    Laid q.expressions q.render
  | { select, source, joins, condition, groupBy, orderBy, limit, offset, distinct, unions }, h => by
    simp only [Query.texts, List.append_assoc, List.mem_append] at h
    have hselect := laid_selectList select fun s hs => h s (.inl hs)
    have hsource := laid_renderSource source fun s hs => h s (.inr (.inl hs))
    have htail : Laid condition.toList
        (tailClauses joins condition groupBy orderBy limit offset) := by
      refine laid_tailClauses fun s hs => h s (.inr (.inr ?_))
      simpa only [List.append_assoc, List.mem_append, or_assoc] using Or.inl hs
    have hunions := laid_renderUnions unions fun s hs => h s (by simp [hs])
    have hword : Inert (if distinct then "SELECT DISTINCT " else "SELECT ").toList := by
      cases distinct <;> decide
    have hlevel := ((hselect.text_append hword).append hsource).append htail
    rw [Query.render, Query.expressions]
    split
    · rename_i he
      obtain rfl : unions = [] := List.isEmpty_iff.mp he
      simpa only [unionsExpressions, List.append_nil] using hlevel
    · exact hlevel.paren.append hunions

theorem laid_selectList : ∀ (items : List (SelectItem Query)),
    (∀ s ∈ itemsTexts items, Inert s.toList) →
      Laid (itemsExpressions items) (selectList (renderItems items))
  | [], _ => .text (by decide)
  | [item], h => by
    have hi := laid_renderItem item fun s hs => h s (by simp [itemsTexts, hs])
    rw [itemsExpressions, itemsExpressions, List.append_nil]
    exact hi
  | item :: next :: rest, h => by
    have hi := laid_renderItem item fun s hs => h s (by simp [itemsTexts, hs])
    have hr := laid_selectList (next :: rest) fun s hs => h s (List.mem_append_right _ hs)
    exact (hi.append_text (by decide)).append hr

theorem laid_renderItem : ∀ (item : SelectItem Query),
    (∀ s ∈ itemTexts item, Inert s.toList) → Laid (itemExpressions item) (renderItem item)
  | .column name label, h => by
    have hl : Laid [] (labelClause label) :=
      laid_labelClause fun s hs => h s (List.mem_cons_of_mem _ hs)
    exact hl.text_append (h name (by simp [itemTexts]))
  | .expression fragment label, h => by
    have hl : Laid [] (labelClause label) := laid_labelClause h
    exact (Laid.expression fragment).append hl
  | .subquery query label, h => by
    have hq := query.laid_render fun s hs => h s (by simp [itemTexts, hs])
    have hl : Laid [] (labelClause (some label)) :=
      laid_labelClause fun s hs => h s (List.mem_append_right _ hs)
    rw [itemExpressions, renderItem, ← List.append_nil query.expressions]
    exact hq.paren.append hl

theorem laid_renderSource : ∀ (source : Option (Source Query)),
    (∀ s ∈ sourceTexts source, Inert s.toList) →
      Laid (sourceExpressions source) (renderSource source)
  | none, _ => .text Inert.nil
  | some (.table name none), h => by
    exact .text (inert_append (by decide) (h name (by simp [sourceTexts])))
  | some (.table name (some label)), h => by
    have hn : Inert name.toList := h name (by simp [sourceTexts])
    have hl : Inert label.toList := h label (by simp [sourceTexts])
    exact .text (inert_append (inert_append (inert_append (by decide) hn) (by decide)) hl)
  | some (.derived query label), h => by
    have hq := query.laid_render fun s hs => h s (by simp [sourceTexts, hs])
    have hl : Inert label.toList := h label (by simp [sourceTexts])
    exact (hq.paren.text_append (by decide)).append_text (inert_append (by decide) hl)

theorem laid_renderUnions : ∀ (unions : List (UnionMember Query)),
    (∀ s ∈ unionsTexts unions, Inert s.toList) →
      Laid (unionsExpressions unions) (renderUnions unions)
  | [], _ => .text Inert.nil
  | ⟨all, query⟩ :: members, h => by
    have hq := query.laid_render fun s hs => h s (by simp [unionsTexts, hs])
    have hm := laid_renderUnions members fun s hs => h s (by simp [unionsTexts, hs])
    have hword : Inert (if all then " UNION ALL " else " UNION ").toList := by
      cases all <;> decide
    exact (hq.paren.text_append hword).append hm

end

end PointQuery.Sql
