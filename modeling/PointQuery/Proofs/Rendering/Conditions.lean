import Mathlib.Data.List.Basic
import PointQuery.Proofs.Placeholder.Parentheses
import PointQuery.Proofs.Rendering.Values
import PointQuery.Proofs.Search.Outcome
/-!
# Conditions added one after another

Each added condition puts parentheses around all that is there and around itself. The text is laid
out as tokens (`Sql.conjunction`), and reading these at a depth tells what a scan for parentheses
meets: every condition inside at least one pair, and outside all of them a single connective. So no
condition reaches into another, whatever it holds, as long as each is balanced by itself.
-/

namespace PointQuery

open Sql

namespace Sql

/-! ## The layout -/

/-- A piece of a condition that is made of others. -/
inductive Token where
  | opening
  | closing
  | connective
  | condition (f : Fragment)

namespace Token

/-- The text of a token. -/
def text : Token → List Char
  | opening => ['(']
  | closing => [')']
  | connective => " AND ".toList
  | condition f => f.sql.toList

/-- The condition that a token is. -/
def condition? : Token → Option Fragment
  | condition f => some f
  | _ => none

end Token

/-- What a further condition adds: the end of the parentheses around all before it, and itself in
parentheses of its own. -/
def joining (f : Fragment) : List Token :=
  [.closing, .connective, .opening, .condition f, .closing]

/-- The tokens of a first condition and others that were added to it. -/
def conjunction (first : Fragment) (others : List Fragment) : List Token :=
  List.replicate others.length .opening ++ .condition first :: others.flatMap joining

/-- The condition that comes of adding others to a first one. -/
def joinAll (first : Fragment) (others : List Fragment) : Fragment :=
  others.foldl (fun joined f => joined.paren.and f.paren) first

theorem condition_editAll {q : Query} {first : Fragment} (h : q.condition = some first)
    (others : List Fragment) :
    (q.editAll (others.map .andCondition)).condition = some (joinAll first others) := by
  induction others generalizing q first with
  | nil => exact h
  | cons f others ih =>
      have hedit : (q.edit (.andCondition f)).condition = some (first.paren.and f.paren) := by
        simp only [Query.edit, Query.andCondition, h]
      exact ih hedit

theorem text_joinAll (first : Fragment) (others : List Fragment) :
    (joinAll first others).sql.toList = (conjunction first others).flatMap Token.text := by
  induction others generalizing first with
  | nil => simp [joinAll, conjunction, Token.text]
  | cons f others ih =>
      have hfirst : (first.paren.and f.paren).sql.toList =
          '(' :: (first.sql.toList ++ (joining f).flatMap Token.text) := by
        simp [Fragment.paren, Fragment.and, joining, Token.text]
      have hstep : joinAll first (f :: others) = joinAll (first.paren.and f.paren) others := rfl
      rw [hstep, ih, conjunction, conjunction, List.length_cons, List.replicate_succ']
      simp [Token.text, hfirst]

theorem params_joinAll (first : Fragment) (others : List Fragment) :
    (joinAll first others).params = (first :: others).flatMap Fragment.params := by
  induction others generalizing first with
  | nil => simp [joinAll]
  | cons f others ih =>
      have hstep : joinAll first (f :: others) = joinAll (first.paren.and f.paren) others := rfl
      rw [hstep, ih]
      simp [Fragment.paren, Fragment.and]

theorem condition?_conjunction (first : Fragment) (others : List Fragment) :
    (conjunction first others).filterMap Token.condition? = first :: others := by
  have hothers : (others.flatMap joining).filterMap Token.condition? = others := by
    induction others with
    | nil => rfl
    | cons f others ih => simpa [joining, List.filterMap_cons, Token.condition?] using ih
  simp [conjunction, Token.condition?, hothers]

/-! ## Depth, token by token -/

/-- Read at a depth, the tokens close nothing that is not open, and every condition among them lies
inside parentheses. -/
def Shelters : Nat → List Token → Prop
  | _, [] => True
  | depth, .opening :: tokens => Shelters (depth + 1) tokens
  | 0, .closing :: _ => False
  | depth + 1, .closing :: tokens => Shelters depth tokens
  | depth, .connective :: tokens => Shelters depth tokens
  | depth, .condition _ :: tokens => 0 < depth ∧ Shelters depth tokens

variable {tokens : List Token} {first : Fragment} {others : List Fragment} {depth n : Nat}

theorem shelters_replicate (h : Shelters (depth + n) tokens) :
    Shelters depth (List.replicate n .opening ++ tokens) := by
  induction n generalizing depth with
  | zero => exact h
  | succ n ih =>
      rw [List.replicate_succ, List.cons_append, Shelters]
      exact ih (by rwa [Nat.add_right_comm, Nat.add_assoc])

theorem shelters_joining (others : List Fragment) :
    Shelters others.length (others.flatMap joining) := by
  induction others with
  | nil => trivial
  | cons f others ih => exact ⟨Nat.succ_pos _, ih⟩

theorem shelters_conjunction (first : Fragment) (hne : others ≠ []) :
    Shelters 0 (conjunction first others) := by
  refine shelters_replicate ?_
  rw [Nat.zero_add]
  exact ⟨List.length_pos_iff.mpr hne, shelters_joining others⟩

/-- Before each condition the scan stands inside parentheses and outside quotes. -/
theorem exists_depth {before after : List Token} {f : Fragment}
    (h : Shelters depth (before ++ .condition f :: after))
    (hbalanced : ∀ g, .condition g ∈ before → Balanced g.sql.toList) :
    ∃ n, 0 < n ∧ Nesting.after { depth } (before.flatMap Token.text) = some { depth := n } := by
  induction before generalizing depth with
  | nil => exact ⟨depth, h.1, rfl⟩
  | cons token before ih =>
      have hrest : ∀ g, .condition g ∈ before → Balanced g.sql.toList :=
        fun g hg => hbalanced g (List.mem_cons_of_mem _ hg)
      rw [List.flatMap_cons]
      cases token with
      | opening =>
          have hopened : Shelters (depth + 1) (before ++ .condition f :: after) := h
          obtain ⟨n, hn, hscan⟩ := ih hopened hrest
          exact ⟨n, hn, hscan⟩
      | closing =>
          cases depth with
          | zero => exact h.elim
          | succ depth =>
              have hclosed : Shelters depth (before ++ .condition f :: after) := h
              obtain ⟨n, hn, hscan⟩ := ih hclosed hrest
              exact ⟨n, hn, hscan⟩
      | connective =>
          have hplain : Balanced " AND ".toList := by decide
          have hsame : Shelters depth (before ++ .condition f :: after) := h
          obtain ⟨n, hn, hscan⟩ := ih hsame hrest
          exact ⟨n, hn, (Nesting.after_of_append (hplain.after depth) _).trans hscan⟩
      | condition g =>
          have hg : Balanced g.sql.toList := hbalanced g List.mem_cons_self
          obtain ⟨n, hn, hscan⟩ := ih h.2 hrest
          exact ⟨n, hn, (Nesting.after_of_append (hg.after depth) _).trans hscan⟩

/-! ## Outside all parentheses -/

/-- A further condition leaves its connective outside if it is the last one, and otherwise
nothing. -/
theorem outside_joining {f : Fragment} (hf : Balanced f.sql.toList) (depth : Nat)
    (cs : List Char) :
    Nesting.outside { depth := depth + 1 } ((joining f).flatMap Token.text ++ cs) =
      (if depth = 0 then " AND ".toList else []) ++ Nesting.outside { depth } cs := by
  have hplain : Balanced " AND ".toList := by decide
  have hconnective : Nesting.outside { depth } " AND ".toList =
      if depth = 0 then " AND ".toList else [] := by
    cases depth with
    | zero => decide
    | succ depth => exact hplain.outside (Nat.succ_pos depth)
  have htext : (joining f).flatMap Token.text ++ cs =
      ')' :: (" AND ".toList ++ '(' :: (f.sql.toList ++ ')' :: cs)) := by
    simp [joining, Token.text]
  have hopen : Nesting.outside { depth } ('(' :: (f.sql.toList ++ ')' :: cs)) =
      Nesting.outside { depth := depth + 1 } (f.sql.toList ++ ')' :: cs) := by
    simp [Nesting.outside, Nesting.next]
  have hclose (rest : List Char) : Nesting.outside { depth := depth + 1 } (')' :: rest) =
      Nesting.outside { depth } rest := by
    simp [Nesting.outside, Nesting.next]
  rw [htext, hclose, Nesting.outside_append (hplain.after depth), hconnective, hopen,
    Nesting.outside_append (hf.after (depth + 1)), hf.outside (Nat.succ_pos depth),
    List.nil_append, hclose]

theorem outside_others (hne : others ≠ []) (hothers : ∀ f ∈ others, Balanced f.sql.toList) :
    Nesting.outside { depth := others.length } ((others.flatMap joining).flatMap Token.text) =
      " AND ".toList := by
  induction others with
  | nil => exact absurd rfl hne
  | cons f others ih =>
      obtain ⟨hf, hrest⟩ := List.forall_mem_cons.mp hothers
      rw [List.flatMap_cons, List.flatMap_append, List.length_cons, outside_joining hf]
      cases others with
      | nil => rfl
      | cons g others => exact ih (List.cons_ne_nil g others) hrest

theorem outside_conjunction (hfirst : Balanced first.sql.toList) (hne : others ≠ [])
    (hothers : ∀ f ∈ others, Balanced f.sql.toList) :
    Nesting.outside {} ((conjunction first others).flatMap Token.text) = " AND ".toList := by
  let n := others.length
  have hn : 0 < n := List.length_pos_iff.mpr hne
  have htext : (conjunction first others).flatMap Token.text =
      List.replicate n '(' ++ (first.sql.toList ++
        (others.flatMap joining).flatMap Token.text) := by
    simp [conjunction, List.flatMap_replicate, Token.text, n]
  have hopened : Nesting.after {} (List.replicate n '(') = some { depth := n } := by
    rw [Nesting.after_replicate, Nat.zero_add]
  rw [htext, Nesting.outside_append hopened, Nesting.outside_replicate, List.nil_append,
    Nesting.outside_append (hfirst.after n), hfirst.outside hn, List.nil_append]
  exact outside_others hne hothers

/-- What a conjunction opens it closes. -/
theorem balanced_joinAll (hfirst : Balanced first.sql.toList)
    (hothers : ∀ f ∈ others, Balanced f.sql.toList) :
    Balanced (joinAll first others).sql.toList := by
  induction others generalizing first with
  | nil => exact hfirst
  | cons f others ih =>
      obtain ⟨hf, hrest⟩ := List.forall_mem_cons.mp hothers
      have hplain : Balanced " AND ".toList := by decide
      have htext : (first.paren.and f.paren).sql.toList =
          '(' :: (first.sql.toList ++ [')']) ++ (" AND ".toList ++
            '(' :: (f.sql.toList ++ [')'])) := by
        simp [Fragment.paren, Fragment.and]
      have hjoined : Balanced (first.paren.and f.paren).sql.toList := by
        rw [htext]
        exact hfirst.paren.append (hplain.append hf.paren)
      exact ih hjoined hrest

/-! ## Conditions that are kept apart -/

/-- **A condition made of others, none of which reaches into another.** -/
structure KeepsApart (first : Fragment) (others : List Fragment) (joined : Fragment) : Prop where
  /-- The text is that of the tokens: parentheses, connectives and the conditions. -/
  text : joined.sql.toList = (conjunction first others).flatMap Token.text
  /-- Each condition is among the tokens once, whole, and in the order in which it was added. -/
  conditions : (conjunction first others).filterMap Token.condition? = first :: others
  /-- Every character of every condition stands inside parentheses. -/
  sheltered : ∀ before f after, conjunction first others = before ++ .condition f :: after →
    Sheltered (before.flatMap Token.text) f.sql.toList
  /-- All that is opened is closed. -/
  balanced : Balanced joined.sql.toList
  /-- Outside all parentheses stands one connective and nothing else. -/
  outside : Nesting.outside {} joined.sql.toList = " AND ".toList
  /-- The values are those of the conditions, in the same order. -/
  params : joined.params = (first :: others).flatMap Fragment.params

theorem keepsApart_joinAll (hfirst : Balanced first.sql.toList) (hne : others ≠ [])
    (hothers : ∀ f ∈ others, Balanced f.sql.toList) :
    KeepsApart first others (joinAll first others) where
  text := text_joinAll first others
  conditions := condition?_conjunction first others
  sheltered := by
    intro before f after htokens
    have hmembers : ∀ g ∈ first :: others, Balanced g.sql.toList :=
      List.forall_mem_cons.mpr ⟨hfirst, hothers⟩
    have hall : ∀ g, .condition g ∈ conjunction first others → Balanced g.sql.toList := by
      intro g hg
      have hmem : g ∈ (conjunction first others).filterMap Token.condition? :=
        List.mem_filterMap.mpr ⟨.condition g, hg, rfl⟩
      rw [condition?_conjunction] at hmem
      exact hmembers g hmem
    have hshelters := shelters_conjunction first hne
    rw [htokens] at hall hshelters
    obtain ⟨n, hn, hscan⟩ := exists_depth hshelters fun g hg =>
      hall g (List.mem_append_left _ hg)
    exact (hall f (by simp)).sheltered hscan hn
  balanced := balanced_joinAll hfirst hothers
  outside := by
    rw [text_joinAll]
    exact outside_conjunction hfirst hne hothers
  params := params_joinAll first others

end Sql

/-- The filter that a search leaves behind. -/
theorem condition_search {c c' : Compiler} {s : Search}
    (h : (Compiler.search s).run c = .ok () c') :
    c'.query.condition = some ⟨"_distance < ?", [.float s.radius]⟩ := by
  obtain ⟨d, -, -, rfl⟩ := Compiler.search_ok h
  rfl

/-- **Conditions that are added one after another cannot weaken each other.** Add one or more
conditions to a first one, each of which closes the parentheses and quotes that it opens; the first
one may itself have been added to a query without a condition, or be the filter that a search has
left, however its origin was given. Then the conditions stand in the joined one whole, once each and
in order, every character of them inside parentheses; outside of these there is one connective and
nothing else; and the values are bound in the order of the conditions. -/
theorem andConditions_keepApart {others : List Fragment} (hne : others ≠ [])
    (hothers : ∀ f ∈ others, Balanced f.sql.toList) :
    (∀ (q : Query) (first : Fragment), q.condition = none → Balanced first.sql.toList →
      ∃ joined, (q.editAll ((first :: others).map .andCondition)).condition = some joined ∧
        KeepsApart first others joined) ∧
    ∀ (c c' : Compiler) (s : Search),
      ((Compiler.search s).run c = .ok () c' ∨
        ∃ origin, Coordinate.parse origin = .ok s.origin ∧
          (Compiler.searchNear origin s.column s.radius s.unit).run c = .ok () c') →
      ∃ joined, (c'.query.editAll (others.map .andCondition)).condition = some joined ∧
        KeepsApart ⟨"_distance < ?", [.float s.radius]⟩ others joined := by
  constructor
  · intro q first hnone hfirst
    have hadded : (q.edit (.andCondition first)).condition = some first := by
      simp only [Query.edit, Query.andCondition, hnone]
    exact ⟨joinAll first others, condition_editAll hadded others,
      keepsApart_joinAll hfirst hne hothers⟩
  · intro c c' s hrun
    have hsearch : (Compiler.search s).run c = .ok () c' := by
      rcases hrun with hrun | ⟨origin, hparse, hrun⟩
      · exact hrun
      · rwa [Compiler.searchNear_run, hparse] at hrun
    have hfilter : Balanced "_distance < ?".toList := by decide
    exact ⟨joinAll _ others, condition_editAll (condition_search hsearch) others,
      keepsApart_joinAll hfilter hne hothers⟩

/-- Two conditions with a choice inside, the second with a parenthesis inside quotes. -/
def lateOrQuiet : List Fragment :=
  [⟨"closes > ? OR (closes IS NULL)", [.int 22]⟩, ⟨"noise = ? OR remark = ':('", [.text "low"]⟩]

theorem taverns_andConditions_keepApart :
    let first : Fragment := ⟨"stars > ? OR stars IS NULL", [.int 3]⟩
    let c : Compiler := { query := {}, table := ⟨"taverns", []⟩, driver := "pgsql" }
    let s : Search := { origin := ⟨.ofInt 10, .ofInt 20⟩, column := "geom" }
    lateOrQuiet ≠ [] ∧ (∀ f ∈ lateOrQuiet, Balanced f.sql.toList) ∧ Balanced first.sql.toList ∧
      (∃ joined,
        (Query.editAll {} ((first :: lateOrQuiet).map .andCondition)).condition = some joined ∧
          KeepsApart first lateOrQuiet joined) ∧
      ∃ c', (Compiler.search s).run c = .ok () c' ∧
        ∃ joined, (c'.query.editAll (lateOrQuiet.map .andCondition)).condition = some joined ∧
          KeepsApart ⟨"_distance < ?", [.float s.radius]⟩ lateOrQuiet joined := by
  intro first c s
  have hne : lateOrQuiet ≠ [] := List.cons_ne_nil _ _
  have hothers : ∀ f ∈ lateOrQuiet, Balanced f.sql.toList := by decide
  have hfirst : Balanced first.sql.toList := by decide
  have hd : c.dialect = .ok .postgresql := by decide +kernel
  have ha : Attribute.isAttribute s.column.toList := by decide
  have hrun : (Compiler.search s).run c =
      .ok () (Compiler.restrict s .postgresql c.fillSource) := by
    rw [Compiler.search_run, Compiler.checkSearch_ok hd ha]
  obtain ⟨hadded, hsearched⟩ := andConditions_keepApart hne hothers
  exact ⟨hne, hothers, hfirst, hadded {} first rfl hfirst, _, hrun, hsearched c _ s (.inl hrun)⟩

example :
    let conditions : List Fragment := [.raw "a OR b", .raw "c", .raw "d"]
    (Query.editAll {} (conditions.map .andCondition)).condition =
      some (.raw "((a OR b) AND (c)) AND (d)") := by
  decide

end PointQuery
