import PointQuery.Proofs.Values.Session
/-!
# Where values come from

The arguments of a session are the values that its caller hands over: those bound in the query at
the start, and those of each action, in order. Two sessions of the same shape, whatever their
arguments are, make the same texts, and each value of a statement is the same argument of the same
action in both: `runAll_sameArgument`.
-/

namespace PointQuery

open Sql

/-! ## Arguments -/

/-- The values bound in some expressions, in order. -/
def boundValues (expressions : List Fragment) : List Value := expressions.flatMap Fragment.params

theorem boundValues_append (es fs : List Fragment) :
    boundValues (es ++ fs) = boundValues es ++ boundValues fs := List.flatMap_append

theorem boundValues_singleton (f : Fragment) : boundValues [f] = f.params := by
  rw [boundValues, List.flatMap_singleton]

/-- The values that an edit brings. -/
def Sql.Edit.arguments : Edit → List Value
  | .addSelect item => boundValues (itemExpressions item)
  | .readDerived q _ => boundValues q.expressions
  | .setCondition f => f.params
  | .andCondition f => f.params
  | .union _ q => boundValues q.expressions
  | _ => []

/-- The forms in which an origin may be bound. -/
def Coordinate.arguments (o : Coordinate) : List Value :=
  [.text o.wellKnownText, .float o.lat, .float o.lng]

/-- The same for an origin in text; there is none if it cannot be read. -/
def originArguments (origin : String) : List Value :=
  match Coordinate.parse origin with
  | .ok o => o.arguments
  | .error _ => []

mutual

/-- The values that an action brings. -/
def Action.arguments : Action → List Value
  | .search s => s.origin.arguments ++ [.float s.radius]
  | .searchNear origin _ radius _ => originArguments origin ++ [.float radius]
  | .scope actions => (actionsArguments actions).flatten
  | .edit edits => edits.flatMap Edit.arguments
  | .reset q => boundValues q.expressions
  | _ => []

/-- The values that each of some actions brings. -/
def actionsArguments : List Action → List (List Value)
  | [] => []
  | action :: actions => action.arguments :: actionsArguments actions

end

/-- The arguments of a session, action by action; those of the query at the start come first. -/
def sessionArguments (c : Compiler) (actions : List Action) : List (List Value) :=
  boundValues c.query.expressions :: actionsArguments actions

/-- The argument of a session in a place of an action. -/
def argument? (c : Compiler) (actions : List Action) (action place : Nat) : Option Value :=
  (sessionArguments c actions)[action]?.bind fun values => values[place]?

/-- The values are the same argument of the same action of two sessions. -/
def SameArgument (c c' : Compiler) (actions actions' : List Action) (v v' : Value) : Prop :=
  ∃ action place, argument? c actions action place = some v ∧
    argument? c' actions' action place = some v'

/-! ## Narrowing the relation -/

/-- Any two values. -/
def AnyValues (_ _ : Value) : Prop := True

theorem anyValues_coordinate (o o' : Coordinate) : o.Alike AnyValues o' :=
  ⟨trivial, trivial, trivial⟩

/-- Any two origins will do that can both be read or that both cannot. -/
theorem originsAlike_anyValues {origin origin' : String} :
    OriginsAlike AnyValues origin origin' ↔
      (Coordinate.parse origin).isOk = (Coordinate.parse origin').isOk := by
  constructor
  · intro h
    cases h with
    | read hp hp' => rw [hp, hp']; rfl
    | unread hp hp' => rw [hp, hp']; rfl
  · intro h
    cases hp : Coordinate.parse origin with
    | ok o =>
        cases hp' : Coordinate.parse origin' with
        | ok o' => exact .read hp hp' (anyValues_coordinate o o')
        | error e' => rw [hp, hp'] at h; cases h
    | error e =>
        cases hp' : Coordinate.parse origin' with
        | ok o' => rw [hp, hp'] at h; cases h
        | error e' => exact .unread hp hp'

/-- The lists have the same length, and `P` holds under each relation that relates their values,
place by place. -/
structure GivenBy (P : (Value → Value → Prop) → Prop) (vs vs' : List Value) : Prop where
  length_eq : vs.length = vs'.length
  narrow : ∀ R, List.Forall₂ R vs vs' → P R

namespace GivenBy

variable {P Q : (Value → Value → Prop) → Prop} {vs vs' ws ws' : List Value}

theorem nil (h : ∀ R, P R) : GivenBy P [] [] := ⟨rfl, fun R _ => h R⟩

theorem imp (h : GivenBy P vs vs') (hPQ : ∀ R, P R → Q R) : GivenBy Q vs vs' :=
  ⟨h.length_eq, fun R hR => hPQ R (h.narrow R hR)⟩

theorem append (h : GivenBy P vs vs') (k : GivenBy Q ws ws') :
    GivenBy (fun R => P R ∧ Q R) (vs ++ ws) (vs' ++ ws') where
  length_eq := by
    have hv := h.length_eq
    have hw := k.length_eq
    simp only [List.length_append]
    omega
  narrow R hR := by
    -- both lists are cut where the first part ends, which is at the same place
    have hfirst := List.forall₂_take vs.length hR
    have hrest := List.forall₂_drop vs.length hR
    rw [List.take_left, h.length_eq, List.take_left] at hfirst
    rw [List.drop_left, h.length_eq, List.drop_left] at hrest
    exact ⟨h.narrow R hfirst, k.narrow R hrest⟩

end GivenBy

theorem givenBy_fragment {f f' : Fragment} (h : f.Alike AnyValues f') :
    GivenBy (fun R => f.Alike R f') f.params f'.params :=
  ⟨h.params.length_eq, fun _ hR => ⟨h.sql, hR⟩⟩

theorem givenBy_condition {condition condition' : Option Fragment}
    (h : Option.Rel (Fragment.Alike AnyValues) condition condition') :
    GivenBy (fun R => Option.Rel (Fragment.Alike R) condition condition')
      (boundValues condition.toList) (boundValues condition'.toList) := by
  cases h with
  | none => exact .nil fun _ => .none
  | @some f f' hf =>
      rw [Option.toList_some, Option.toList_some, boundValues_singleton, boundValues_singleton]
      exact (givenBy_fragment hf).imp fun _ => .some

mutual

/-- Queries of the same shape are alike under each relation that relates their values. -/
theorem givenBy_query : ∀ (q : Query) {q' : Query}, queryAlike AnyValues q q' →
    GivenBy (fun R => queryAlike R q q') (boundValues q.expressions) (boundValues q'.expressions)
  | { select, source, joins, condition, groupBy, orderBy, limit, offset, distinct, unions },
    { select := _, source := _, joins := _, condition := _, groupBy := _, orderBy := _, limit := _,
      offset := _, distinct := _, unions := _ }, h => by
    rw [queryAlike] at h
    obtain ⟨hselect, hsource, rfl, hcondition, rfl, rfl, rfl, rfl, rfl, hunions⟩ := h
    have hparts := (((givenBy_items select hselect).append (givenBy_source source hsource)).append
      (givenBy_condition hcondition)).append (givenBy_unions unions hunions)
    simp only [Query.expressions, boundValues_append]
    refine hparts.imp ?_
    rintro R ⟨⟨⟨hs, hf⟩, hc⟩, hu⟩
    rw [queryAlike]
    exact ⟨hs, hf, rfl, hc, rfl, rfl, rfl, rfl, rfl, hu⟩

theorem givenBy_items : ∀ (items : List (SelectItem Query)) {items' : List (SelectItem Query)},
    itemsAlike AnyValues items items' →
      GivenBy (fun R => itemsAlike R items items') (boundValues (itemsExpressions items))
        (boundValues (itemsExpressions items'))
  | [], _, h => by
    rw [itemsAlike] at h
    rw [h]
    exact .nil fun R => by rw [itemsAlike]
  | item :: items, _, h => by
    rw [itemsAlike] at h
    obtain ⟨item', items', rfl, hitem, hitems⟩ := h
    have hparts := (givenBy_item item hitem).append (givenBy_items items hitems)
    rw [itemsExpressions, itemsExpressions, boundValues_append, boundValues_append]
    refine hparts.imp ?_
    rintro R ⟨hi, hs⟩
    rw [itemsAlike]
    exact ⟨item', items', rfl, hi, hs⟩

theorem givenBy_item : ∀ (item : SelectItem Query) {item' : SelectItem Query},
    itemAlike AnyValues item item' →
      GivenBy (fun R => itemAlike R item item') (boundValues (itemExpressions item))
        (boundValues (itemExpressions item'))
  | .column name label, _, h => by
    rw [itemAlike] at h
    rw [h]
    exact .nil fun R => by rw [itemAlike]
  | .expression f label, _, h => by
    rw [itemAlike] at h
    obtain ⟨f', rfl, hf⟩ := h
    rw [itemExpressions, itemExpressions, boundValues_singleton, boundValues_singleton]
    refine (givenBy_fragment hf).imp fun R hR => ?_
    rw [itemAlike]
    exact ⟨f', rfl, hR⟩
  | .subquery q label, _, h => by
    rw [itemAlike] at h
    obtain ⟨q', rfl, hq⟩ := h
    rw [itemExpressions, itemExpressions]
    refine (givenBy_query q hq).imp fun R hR => ?_
    rw [itemAlike]
    exact ⟨q', rfl, hR⟩

theorem givenBy_source : ∀ (source : Option (Source Query)) {source' : Option (Source Query)},
    sourceAlike AnyValues source source' →
      GivenBy (fun R => sourceAlike R source source') (boundValues (sourceExpressions source))
        (boundValues (sourceExpressions source'))
  | none, _, h => by
    rw [sourceAlike] at h
    rw [h]
    exact .nil fun R => by rw [sourceAlike]
  | some (.table name label), _, h => by
    rw [sourceAlike] at h
    rw [h]
    exact .nil fun R => by rw [sourceAlike]
  | some (.derived q label), _, h => by
    rw [sourceAlike] at h
    obtain ⟨q', rfl, hq⟩ := h
    rw [sourceExpressions, sourceExpressions]
    refine (givenBy_query q hq).imp fun R hR => ?_
    rw [sourceAlike]
    exact ⟨q', rfl, hR⟩

theorem givenBy_unions : ∀ (unions : List (UnionMember Query))
    {unions' : List (UnionMember Query)}, unionsAlike AnyValues unions unions' →
      GivenBy (fun R => unionsAlike R unions unions') (boundValues (unionsExpressions unions))
        (boundValues (unionsExpressions unions'))
  | [], _, h => by
    rw [unionsAlike] at h
    rw [h]
    exact .nil fun R => by rw [unionsAlike]
  | ⟨all, q⟩ :: members, _, h => by
    rw [unionsAlike] at h
    obtain ⟨q', members', rfl, hq, hmembers⟩ := h
    have hparts := (givenBy_query q hq).append (givenBy_unions members hmembers)
    rw [unionsExpressions, unionsExpressions, boundValues_append, boundValues_append]
    refine hparts.imp ?_
    rintro R ⟨hf, hs⟩
    rw [unionsAlike]
    exact ⟨q', members', rfl, hf, hs⟩

end

/-! ## Sessions of the same shape -/

theorem givenBy_tree {q q' : Query} (h : q.Alike AnyValues q') :
    GivenBy (fun R => q.Alike R q') (boundValues q.expressions) (boundValues q'.expressions) :=
  (givenBy_query q (queryAlike_iff.mpr h)).imp fun _ => queryAlike_iff.mp

theorem givenBy_edit {e e' : Edit} (h : e.Alike AnyValues e') :
    GivenBy (fun R => e.Alike R e') e.arguments e'.arguments := by
  cases e with
  | addSelect item =>
      obtain ⟨item', rfl, hitem⟩ := h
      exact (givenBy_item item hitem).imp fun R hR => ⟨item', rfl, hR⟩
  | readDerived q label =>
      obtain ⟨q', rfl, hq⟩ := h
      exact (givenBy_tree hq).imp fun R hR => ⟨q', rfl, hR⟩
  | setCondition f =>
      obtain ⟨f', rfl, hf⟩ := h
      exact (givenBy_fragment hf).imp fun R hR => ⟨f', rfl, hR⟩
  | andCondition f =>
      obtain ⟨f', rfl, hf⟩ := h
      exact (givenBy_fragment hf).imp fun R hR => ⟨f', rfl, hR⟩
  | union all q =>
      obtain ⟨q', rfl, hq⟩ := h
      exact (givenBy_tree hq).imp fun R hR => ⟨q', rfl, hR⟩
  | _ =>
      obtain rfl := h
      exact .nil fun R => rfl

theorem givenBy_edits {edits edits' : List Edit}
    (h : List.Forall₂ (Edit.Alike AnyValues) edits edits') :
    GivenBy (fun R => List.Forall₂ (Edit.Alike R) edits edits') (edits.flatMap Edit.arguments)
      (edits'.flatMap Edit.arguments) := by
  induction h with
  | nil => exact .nil fun _ => .nil
  | cons he _ ih =>
      rw [List.flatMap_cons, List.flatMap_cons]
      exact ((givenBy_edit he).append ih).imp fun _ hR => .cons hR.1 hR.2

theorem givenBy_coordinate (o o' : Coordinate) :
    GivenBy (fun R => o.Alike R o') o.arguments o'.arguments := by
  refine ⟨rfl, fun R hR => ?_⟩
  simp only [Coordinate.arguments, List.forall₂_cons] at hR
  obtain ⟨htext, hlat, hlng, -⟩ := hR
  exact ⟨htext, hlat, hlng⟩

theorem givenBy_radius (x x' : Binary64) :
    GivenBy (fun R => R (.float x) (.float x')) [.float x] [.float x'] :=
  ⟨rfl, fun _ hR => (List.forall₂_cons.mp hR).1⟩

theorem givenBy_origin {origin origin' : String} (h : OriginsAlike AnyValues origin origin') :
    GivenBy (fun R => OriginsAlike R origin origin') (originArguments origin)
      (originArguments origin') := by
  cases h with
  | @read o o' hp hp' _ =>
      rw [originArguments, originArguments, hp, hp']
      exact (givenBy_coordinate o o').imp fun _ hR => .read hp hp' hR
  | unread hp hp' =>
      rw [originArguments, originArguments, hp, hp']
      exact .nil fun _ => .unread hp hp'

mutual

/-- Actions of the same shape are alike under each relation that relates their arguments. -/
theorem givenBy_action : ∀ (action : Action) {action' : Action},
    actionAlike AnyValues action action' →
      GivenBy (fun R => actionAlike R action action') action.arguments action'.arguments
  | .search s, _, h => by
    obtain ⟨s', rfl, hs⟩ := h
    rw [Action.arguments, Action.arguments]
    have hparts := (givenBy_coordinate s.origin s'.origin).append
      (givenBy_radius s.radius s'.radius)
    exact hparts.imp fun R hR => ⟨s', rfl, hs.column, hs.unit, hR.1, hR.2⟩
  | .searchNear origin column radius unit, _, h => by
    obtain ⟨origin', radius', rfl, ho, -⟩ := h
    rw [Action.arguments, Action.arguments]
    have hparts := (givenBy_origin ho).append (givenBy_radius radius radius')
    exact hparts.imp fun R hR => ⟨origin', radius', rfl, hR.1, hR.2⟩
  | .scope actions, _, h => by
    obtain ⟨actions', rfl, hactions⟩ := h
    rw [Action.arguments, Action.arguments]
    exact (givenBy_actions actions hactions).imp fun R hR => ⟨actions', rfl, hR⟩
  | .edit edits, _, h => by
    obtain ⟨edits', rfl, hedits⟩ := h
    rw [Action.arguments, Action.arguments]
    exact (givenBy_edits hedits).imp fun R hR => ⟨edits', rfl, hR⟩
  | .reset q, _, h => by
    obtain ⟨q', rfl, hq⟩ := h
    rw [Action.arguments, Action.arguments]
    exact (givenBy_tree hq).imp fun R hR => ⟨q', rfl, hR⟩
  | .compile, _, h | .compileIn _, _, h | .compileScalar _, _, h | .runScalar _ _, _, h
  | .configure _, _, h | .call _ _, _, h | .render, _, h | .renderScalar _, _, h
  | .inspect, _, h => by
    obtain rfl := h
    exact .nil fun R => rfl

theorem givenBy_actions : ∀ (actions : List Action) {actions' : List Action},
    actionsAlike AnyValues actions actions' →
      GivenBy (fun R => actionsAlike R actions actions') (actionsArguments actions).flatten
        (actionsArguments actions').flatten
  | [], _, h => by
    obtain rfl : _ = [] := h
    exact .nil fun R => rfl
  | action :: actions, _, h => by
    obtain ⟨action', actions', rfl, haction, hactions⟩ := h
    rw [actionsArguments, actionsArguments, List.flatten_cons, List.flatten_cons]
    exact ((givenBy_action action haction).append (givenBy_actions actions hactions)).imp
      fun R hR => ⟨action', actions', rfl, hR.1, hR.2⟩

end

/-- Action by action, sessions of the same shape have the same number of arguments. -/
theorem forall₂_length_arguments {actions actions' : List Action}
    (h : actionsAlike AnyValues actions actions') :
    List.Forall₂ (fun vs vs' => vs.length = vs'.length) (actionsArguments actions)
      (actionsArguments actions') := by
  induction actions generalizing actions' with
  | nil =>
      obtain rfl : _ = [] := h
      exact .nil
  | cons action actions ih =>
      obtain ⟨action', actions', rfl, haction, hactions⟩ := h
      rw [actionsArguments, actionsArguments]
      exact .cons (givenBy_action action haction).length_eq (ih hactions)

section

variable {c c' : Compiler} {actions actions' : List Action}

/-- Arguments in the same places are the same arguments. -/
theorem forall₂_sameArgument
    (h : List.Forall₂ (fun vs vs' => vs.length = vs'.length) (sessionArguments c actions)
      (sessionArguments c' actions')) :
    List.Forall₂ (List.Forall₂ (SameArgument c c' actions actions')) (sessionArguments c actions)
      (sessionArguments c' actions') := by
  obtain ⟨hlength, hsame⟩ := List.forall₂_iff_get.mp h
  refine List.forall₂_iff_get.mpr ⟨hlength, ?_⟩
  intro action ha ha'
  refine List.forall₂_iff_get.mpr ⟨hsame action ha ha', ?_⟩
  intro place hp hp'
  refine ⟨action, place, ?_, ?_⟩
  · rw [argument?, List.getElem?_eq_getElem ha]
    exact List.getElem?_eq_getElem hp
  · rw [argument?, List.getElem?_eq_getElem ha']
    exact List.getElem?_eq_getElem hp'

/-- **Values never reach the text.** Take two sessions whose compilers and actions differ in nothing
but bound values, radii and origins, of which the two in one place can both be read or both cannot.
Each action comes to the same in both: the same kind of error, or the same text with as many values,
and each value is the same argument of the same action. -/
theorem runAll_sameArgument (hc : c.Alike AnyValues c')
    (ha : actionsAlike AnyValues actions actions') :
    List.Forall₂ (Report.Alike (SameArgument c c' actions actions')) (c.runAll actions).1
        (c'.runAll actions').1 ∧
      (c.runAll actions).2.Alike (SameArgument c c' actions actions') (c'.runAll actions').2 := by
  have hquery := givenBy_tree hc.query
  -- sessions of one shape have arguments in the same places, and that is all the relation asks
  have hplaces : List.Forall₂ (List.Forall₂ (SameArgument c c' actions actions'))
      (sessionArguments c actions) (sessionArguments c' actions') :=
    forall₂_sameArgument (.cons hquery.length_eq (forall₂_length_arguments ha))
  rw [sessionArguments, sessionArguments, List.forall₂_cons] at hplaces
  obtain ⟨hfirst, hrest⟩ := hplaces
  have hcompiler : c.Alike (SameArgument c c' actions actions') c' :=
    { hc with query := hquery.narrow _ hfirst }
  have hactions : actionsAlike (SameArgument c c' actions actions') actions actions' :=
    (givenBy_actions actions ha).narrow _ (List.rel_flatten hrest)
  exact alike_runAll actions hcompiler hactions

end

/-- A session about the places near an origin that are of a kind. -/
def placesNear (kind origin : String) (radius : Int) : List Action :=
  [.edit [.readTable "places" none, .andCondition (.equals "kind" (.text kind))],
    .searchNear origin "geom" (Binary64.ofInt radius) .kilometer,
    .compile,
    .scope [.compileScalar Aggregate.rowCount, .searchNear kind "geom" (Binary64.ofInt 1) .mile]]

/-- A compiler for such a session. -/
def placesCompiler : Compiler where
  query := {}
  table := ⟨"places", [⟨"id", "int", false⟩, ⟨"geom", "point", false⟩]⟩
  driver := "mysql"
  config := { originPolicy := .reject }

theorem placesNear_sameArgument :
    ∃ actions actions', actions = placesNear "cafe" "1,2" 5 ∧
      actions' = placesNear "' OR 1 = 1 --" " -3.5 , 4" 7 ∧
      placesCompiler.Alike AnyValues placesCompiler ∧ actionsAlike AnyValues actions actions' ∧
      List.Forall₂ (Report.Alike (SameArgument placesCompiler placesCompiler actions actions'))
        (placesCompiler.runAll actions).1 (placesCompiler.runAll actions').1 := by
  have hc : placesCompiler.Alike AnyValues placesCompiler := by
    refine ⟨queryAlike_iff.mp ?_, rfl, rfl, rfl, rfl⟩
    simp [placesCompiler, queryAlike, itemsAlike, sourceAlike, unionsAlike]
  have hkind : Edit.Alike AnyValues (.andCondition (.equals "kind" (.text "cafe")))
      (.andCondition (.equals "kind" (.text "' OR 1 = 1 --"))) :=
    ⟨_, rfl, .compare "kind" "=" trivial⟩
  have hread : OriginsAlike AnyValues "1,2" " -3.5 , 4" :=
    originsAlike_anyValues.mpr (by decide +kernel)
  have hunread : OriginsAlike AnyValues "cafe" "' OR 1 = 1 --" :=
    originsAlike_anyValues.mpr (by decide +kernel)
  have ha : actionsAlike AnyValues (placesNear "cafe" "1,2" 5)
      (placesNear "' OR 1 = 1 --" " -3.5 , 4" 7) :=
    ⟨_, _, rfl, ⟨_, rfl, .cons rfl (.cons hkind .nil)⟩,
      _, _, rfl, ⟨_, _, rfl, hread, trivial⟩,
      _, _, rfl, rfl,
      _, _, rfl, ⟨_, rfl, _, _, rfl, rfl, _, _, rfl, ⟨_, _, rfl, hunread, trivial⟩, rfl⟩, rfl⟩
  exact ⟨_, _, rfl, rfl, hc, ha, (runAll_sameArgument hc ha).1⟩

end PointQuery
