import PointQuery.Compiler.Basic
import PointQuery.Proofs.Placeholder.Layout
import PointQuery.Proofs.Projection.Chain
import PointQuery.Proofs.Search.Outcome
/-!
# Sound queries

A query is sound if its texts are inert and its expressions aligned, at every level. Searching,
taking the scalar form and projecting keep queries sound: what they write themselves is inert, the
aliases that they read off the texts of tables are, and the distance binds as many values as it has
placeholders.
-/

namespace PointQuery

open Sql

/-! ## Blanks and words in a scan -/

namespace Sql

theorem isQuote_after {state : QuoteState} (hs : ∀ q ∈ state, isQuote q) (cs : List Char) :
    ∀ q ∈ state.after cs, isQuote q := by
  induction cs generalizing state with
  | nil => exact hs
  | cons c cs ih =>
      refine ih ?_
      intro q hq
      cases state with
      | none =>
          by_cases hc : isQuote c
          · rw [QuoteState.next, if_pos hc] at hq
            cases hq
            exact hc
          · rw [QuoteState.next, if_neg hc] at hq
            cases hq
      | some close =>
          by_cases hc : c = close
          · rw [QuoteState.next, if_pos hc] at hq
            cases hq
          · rw [QuoteState.next, if_neg hc] at hq
            cases hq
            exact hs _ rfl

/-- Plain characters open no quote and close none. -/
theorem after_plain {state : QuoteState} (hs : ∀ q ∈ state, isQuote q) {cs : List Char}
    (h : ∀ c ∈ cs, isPlain c) : state.after cs = state := by
  cases state with
  | none => exact (inert_of_plain h).1
  | some close =>
      induction cs with
      | nil => rfl
      | cons c cs ih =>
          have hne : c ≠ close := by
            rintro rfl
            have hq : isQuote c := hs c rfl
            have hp : isPlain c := h c (by simp)
            simp [isPlain, hq] at hp
          rw [QuoteState.after, List.foldl_cons, QuoteState.next, if_neg hne]
          exact ih fun d hd => h d (by simp [hd])

/-- Plain characters can be taken off the front of an inert text. -/
theorem Inert.of_plain_append {as bs : List Char} (h : Inert (as ++ bs))
    (ha : ∀ c ∈ as, isPlain c) : Inert bs := by
  obtain ⟨hc, hp⟩ := h
  have hi : Inert as := inert_of_plain ha
  refine ⟨?_, ?_⟩
  · rwa [Closed, QuoteState.after_append, hi.1] at hc
  · rwa [hi.1.count_append, hi.2, Nat.zero_add] at hp

/-- Plain characters can be taken off the end of an inert text. -/
theorem Inert.of_append_plain {as bs : List Char} (h : Inert (as ++ bs))
    (hb : ∀ c ∈ bs, isPlain c) : Inert as := by
  obtain ⟨hc, hp⟩ := h
  refine ⟨?_, ?_⟩
  · rwa [Closed, QuoteState.after_append, after_plain (isQuote_after (by simp) as) hb] at hc
  · rw [placeholderCount, QuoteState.placeholders_append] at hp
    exact Nat.eq_zero_of_add_eq_zero_right hp

theorem isPlain_of_isBlank {c : Char} (h : Text.isBlank c) : isPlain c :=
  isPlain_of_class (p := Text.isBlank) (by decide) h

theorem isPlain_of_isWord {c : Char} (h : Text.isWord c) : isPlain c :=
  isPlain_of_class (p := Text.isWord) (by decide) h

theorem Inert.trimChars {cs : List Char} (h : Inert cs) : Inert (Text.trimChars cs) := by
  have hfront : Inert (cs.dropWhile Text.isBlank) := by
    rw [← List.takeWhile_append_dropWhile (p := Text.isBlank) (l := cs)] at h
    refine h.of_plain_append fun c hc => isPlain_of_isBlank ?_
    exact List.all_eq_true.mp List.all_takeWhile c hc
  have hsplit := List.takeWhile_append_dropWhile (p := Text.isBlank)
    (l := (cs.dropWhile Text.isBlank).reverse)
  have hrev := congrArg List.reverse hsplit
  rw [List.reverse_append, List.reverse_reverse] at hrev
  rw [← hrev] at hfront
  refine hfront.of_append_plain fun c hc => isPlain_of_isBlank ?_
  exact List.all_eq_true.mp List.all_takeWhile c (List.mem_reverse.mp hc)

/-- The name under which a table is visible is inert if the text of the table is. -/
theorem inert_tableAlias {table : String} (h : Inert table.toList) :
    Inert (tableAlias table).toList := by
  rw [tableAlias, String.toList_ofList, tableAliasChars]
  split
  · rename_i hw
    refine inert_of_plain fun c hc => isPlain_of_isWord ?_
    exact List.all_eq_true.mp hw.2.1 c hc
  · exact h.trimChars

end Sql

/-! ## Sound parts -/

/-- Inert texts and aligned expressions. -/
def SoundParts (texts : List String) (expressions : List Fragment) : Prop :=
  (∀ s ∈ texts, Inert s.toList) ∧ ∀ e ∈ expressions, e.Aligned

instance (texts : List String) (expressions : List Fragment) :
    Decidable (SoundParts texts expressions) :=
  inferInstanceAs (Decidable ((∀ s ∈ texts, Inert s.toList) ∧ ∀ e ∈ expressions, e.Aligned))

theorem soundParts_append {ts ts' : List String} {es es' : List Fragment} :
    SoundParts (ts ++ ts') (es ++ es') ↔ SoundParts ts es ∧ SoundParts ts' es' := by
  simp only [SoundParts, List.mem_append, or_imp, forall_and]
  exact and_and_and_comm

/-- A select item whose texts are inert and whose expressions are aligned. -/
def Sql.SelectItem.Sound (item : Item) : Prop :=
  SoundParts (itemTexts item) (itemExpressions item)

theorem soundParts_items {items : List Item} :
    SoundParts (itemsTexts items) (itemsExpressions items) ↔ ∀ item ∈ items, item.Sound := by
  induction items with
  | nil => simp [itemsTexts, itemsExpressions, SoundParts]
  | cons item items ih =>
      rw [itemsTexts, itemsExpressions, soundParts_append, ih, List.forall_mem_cons]
      rfl

/-- A query whose texts are inert and whose expressions are aligned, clause by clause. -/
structure Sql.Query.Sound (q : Query) : Prop where
  select : ∀ item ∈ q.select, item.Sound
  source : SoundParts (sourceTexts q.source) (sourceExpressions q.source)
  joins : ∀ j ∈ q.joins, Inert j.table.toList ∧ Inert j.condition.toList
  condition : ∀ f ∈ q.condition.toList, f.Aligned
  groupBy : ∀ s ∈ q.groupBy, Inert s.toList
  orderBy : ∀ o ∈ q.orderBy, Inert o.column.toList
  unions : SoundParts (unionsTexts q.unions) (unionsExpressions q.unions)

/-- Soundness clause by clause is soundness of all texts and expressions. -/
theorem sound_iff (q : Query) : q.Sound ↔ SoundParts q.texts q.expressions := by
  obtain ⟨select, source, joins, condition, groupBy, orderBy, limit, offset, distinct, unions⟩ := q
  have hjoins : (∀ j ∈ joins, Inert j.table.toList ∧ Inert j.condition.toList) ↔
      ∀ s ∈ joins.flatMap (fun j => [j.table, j.condition]), Inert s.toList := by
    simp only [List.mem_flatMap, List.mem_cons, List.not_mem_nil, or_false]
    constructor
    · rintro h s ⟨j, hj, rfl | rfl⟩
      · exact (h j hj).1
      · exact (h j hj).2
    · exact fun h j hj => ⟨h _ ⟨j, hj, .inl rfl⟩, h _ ⟨j, hj, .inr rfl⟩⟩
  have horder : (∀ o ∈ orderBy, Inert o.column.toList) ↔
      ∀ s ∈ orderBy.map SortKey.column, Inert s.toList := by
    rw [List.forall_mem_map]
  constructor
  · intro h
    obtain ⟨hst, hse⟩ := soundParts_items.mpr h.select
    refine ⟨?_, ?_⟩
    · simp only [Query.texts, List.forall_mem_append]
      exact ⟨⟨⟨⟨⟨hst, h.source.1⟩, hjoins.mp h.joins⟩, h.groupBy⟩, horder.mp h.orderBy⟩,
        h.unions.1⟩
    · simp only [Query.expressions, List.forall_mem_append]
      exact ⟨⟨⟨hse, h.source.2⟩, h.condition⟩, h.unions.2⟩
  · rintro ⟨ht, he⟩
    simp only [Query.texts, List.forall_mem_append] at ht
    simp only [Query.expressions, List.forall_mem_append] at he
    obtain ⟨⟨⟨⟨⟨hst, hsource⟩, hj⟩, hg⟩, ho⟩, hu⟩ := ht
    obtain ⟨⟨⟨hse, hsource'⟩, hc⟩, hu'⟩ := he
    exact ⟨soundParts_items.mp ⟨hst, hse⟩, ⟨hsource, hsource'⟩, hjoins.mpr hj, hc, hg,
      horder.mpr ho, ⟨hu, hu'⟩⟩

theorem soundParts_derived {q : Query} {label : String} :
    SoundParts (sourceTexts (some (.derived q label))) (sourceExpressions (some (.derived q label)))
      ↔ q.Sound ∧ Inert label.toList := by
  rw [sound_iff, sourceTexts, sourceExpressions, ← List.append_nil q.expressions, soundParts_append,
    List.append_nil]
  simp [SoundParts]

/-- A rendered sound query is laid out, and has a placeholder for each value. -/
theorem Sql.Query.Sound.aligned_render {q : Query} (h : q.Sound) : q.render.Aligned := by
  obtain ⟨ht, he⟩ := (sound_iff q).mp h
  exact (q.laid_render ht).aligned he

/-! ## What searching writes -/

/-- A table whose name and column names are inert. -/
def Table.InertNames (t : Table) : Prop :=
  Inert t.name.toList ∧ ∀ c ∈ t.columns, Inert c.name.toList

instance (t : Table) : Decidable t.InertNames :=
  inferInstanceAs (Decidable (Inert t.name.toList ∧ ∀ c ∈ t.columns, Inert c.name.toList))

theorem Sql.Query.Sound.readingFrom {q : Query} (h : q.Sound) {table : String}
    (ht : Inert table.toList) : (q.readingFrom table).Sound := by
  rw [Query.readingFrom]
  split
  · exact h
  · refine { h with source := ?_ }
    exact ⟨by simpa [sourceTexts] using ht, by simp [sourceExpressions]⟩

theorem inert_of_isAttribute {cs : List Char} (h : Attribute.isAttribute cs) : Inert cs := by
  refine inert_of_plain (Attribute.forall_of_isAttribute (P := fun c => isPlain c) ?_ (by decide) h)
  intro c hc
  exact isPlain_of_class (p := Attribute.isIdentifierRest) (by decide) hc

theorem aligned_point (d : Dialect) (origin : Coordinate) : (d.point origin).Aligned := by
  cases d
  · have hc : Closed "ST_PointFromText(?)".toList := by decide
    have hp : placeholderCount "ST_PointFromText(?)".toList = 1 := by decide
    exact ⟨hc, hp⟩
  · have hc : Closed "point(?, ?)".toList := by decide
    have hp : placeholderCount "point(?, ?)".toList = 2 := by decide
    exact ⟨hc, hp⟩

/-- A comparison of an inert column binds its value to its one placeholder. -/
theorem aligned_compare {column operator : String} (hc : Inert column.toList)
    (ho : Inert operator.toList) (value : Value) :
    (Fragment.compare column operator value).Aligned := by
  have hleft : Inert (column ++ " " ++ operator).toList :=
    inert_append (inert_append hc (by decide)) ho
  refine ⟨?_, ?_⟩
  · rw [Fragment.compare, String.toList_append]
    exact hleft.1.append (by decide)
  · rw [Fragment.compare, String.toList_append, hleft.1.count_append, hleft.2]
    have hp : placeholderCount " ?".toList = 1 := by decide
    rw [hp]
    rfl

/-- The distance binds a value for each of its placeholders. -/
theorem aligned_distance {s : Search} (d : Dialect) (h : Inert s.column.toList) :
    (s.distance d).Aligned := by
  have hfactor : Inert ("(" ++ s.unit.lengthPerDegree.toApproximate ++ " * ").toList := by
    cases s.unit <;> decide +kernel
  have hdistance : (d.distance s.column s.origin).Aligned := by
    cases d with
    | mysql =>
        have hbefore : Inert ("ST_Distance(" ++ s.column ++ ", ").toList :=
          inert_append (inert_append (by decide) h) (by decide)
        exact (aligned_point .mysql s.origin).around hbefore (by decide)
    | postgresql =>
        have hbefore : Inert ("(" ++ s.column ++ " <-> ").toList :=
          inert_append (inert_append (by decide) h) (by decide)
        exact (aligned_point .postgresql s.origin).around hbefore (by decide)
  exact hdistance.around hfactor (by decide)

theorem Sql.Query.Sound.measure {q : Query} (h : q.Sound) {s : Search} (d : Dialect)
    (hs : Inert s.column.toList) : (s.measure d q).Sound := by
  refine { h with select := ?_ }
  intro item hi
  simp only [Search.measure, List.mem_append, List.mem_singleton] at hi
  rcases hi with hi | rfl
  · split at hi
    · obtain rfl : item = .plain "*" := by simpa using hi
      exact ⟨by decide, by simp [SelectItem.plain, itemExpressions]⟩
    · exact h.select item hi
  · have hl : Inert distanceColumn.toList := by decide
    exact ⟨by simpa [itemTexts] using hl, by simpa [itemExpressions] using aligned_distance d hs⟩

/-- A search keeps queries sound. -/
theorem Sql.Query.Sound.restrict {q : Query} (h : q.Sound) {s : Search} (d : Dialect)
    (hs : Inert s.column.toList) : (s.restrict d q).Sound where
  select := by
    intro item hi
    obtain rfl : item = .wildcardOf distanceAlias := by simpa [Search.restrict] using hi
    exact ⟨by decide, by simp [SelectItem.wildcardOf, SelectItem.plain, itemExpressions]⟩
  source := soundParts_derived.mpr ⟨h.measure d hs, by decide⟩
  joins := by simp [Search.restrict]
  condition := by
    intro f hf
    obtain rfl : f = .lessThan distanceColumn (.float s.radius) := by
      simpa [Search.restrict, eq_comm] using hf
    exact aligned_compare (by decide) (by decide) _
  groupBy := by simp [Search.restrict]
  orderBy := by
    intro o ho
    obtain rfl : o = .ascending distanceColumn := by simpa [Search.restrict] using ho
    decide
  unions := ⟨by simp [Search.restrict, unionsTexts], by simp [Search.restrict, unionsExpressions]⟩

end PointQuery
