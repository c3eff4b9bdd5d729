import Mathlib.Data.List.TakeWhile
import PointQuery.Proofs.Placeholder.Layout
import PointQuery.Proofs.Placeholder.Parentheses
import PointQuery.Proofs.Search.Outcome
/-!
# Attributes and the distance

The column of a search is the only text of a caller that reaches the distance expression. `Named`
gives the texts that may, independently of the check, and `isAttribute_iff` says that the check
passes exactly these. What is built from one is `Sealed`: nothing in it can end a parenthesis or
open a quote around it, or take a value that is not its own.
-/

namespace PointQuery

open Sql

/-! ## The grammar -/

namespace Attribute

variable {c : Char} {cs ts : List Char}

/-- An ASCII letter or an underscore. -/
def Letter (c : Char) : Prop := ('A' ≤ c ∧ c ≤ 'Z') ∨ ('a' ≤ c ∧ c ≤ 'z') ∨ c = '_'

/-- An ASCII digit. -/
def Digit (c : Char) : Prop := '0' ≤ c ∧ c ≤ '9'

/-- A letter, and after it letters and digits. -/
inductive Identifier : List Char → Prop
  | mk {c : Char} {cs : List Char} : Letter c → (∀ d ∈ cs, Letter d ∨ Digit d) →
      Identifier (c :: cs)

/-- An identifier, or two with a point between them, and nothing else. -/
inductive Named : List Char → Prop
  | bare {cs : List Char} : Identifier cs → Named cs
  | qualified {ts cs : List Char} : Identifier ts → Identifier cs → Named (ts ++ '.' :: cs)

/-! ## The check -/

/-- Classes of characters are ranges of their numbers. -/
theorem between_iff {a b : Char} :
    (decide (a.val ≤ c.val) && decide (c.val ≤ b.val)) = true ↔ a ≤ c ∧ c ≤ b := by
  rw [Bool.and_eq_true, decide_eq_true_eq, decide_eq_true_eq]
  exact Iff.rfl

theorem isIdentifierStart_iff : isIdentifierStart c = true ↔ Letter c := by
  have hupper : c.isUpper = true ↔ 'A' ≤ c ∧ c ≤ 'Z' := decide_eq_true_iff
  have hlower : c.isLower = true ↔ 'a' ≤ c ∧ c ≤ 'z' := between_iff
  have halpha : c.isAlpha = (c.isUpper || c.isLower) := rfl
  rw [isIdentifierStart, halpha, Bool.or_eq_true, Bool.or_eq_true, hupper, hlower,
    decide_eq_true_eq, or_assoc]
  exact Iff.rfl

theorem isIdentifierRest_iff : isIdentifierRest c = true ↔ Letter c ∨ Digit c := by
  have hdigit : c.isDigit = true ↔ Digit c := between_iff
  have hrest : isIdentifierRest c = (isIdentifierStart c || c.isDigit) :=
    Bool.or_right_comm c.isAlpha c.isDigit (decide (c = '_'))
  rw [hrest, Bool.or_eq_true, isIdentifierStart_iff, hdigit]

theorem isIdentifier_iff : isIdentifier cs = true ↔ Identifier cs := by
  constructor
  · intro h
    cases cs with
    | nil => cases h
    | cons c cs =>
        obtain ⟨hstart, hrest⟩ := Bool.and_eq_true_iff.mp h
        exact .mk (isIdentifierStart_iff.mp hstart)
          fun d hd => isIdentifierRest_iff.mp (List.all_eq_true.mp hrest d hd)
  · rintro ⟨hstart, hrest⟩
    exact Bool.and_eq_true_iff.mpr ⟨isIdentifierStart_iff.mpr hstart,
      List.all_eq_true.mpr fun d hd => isIdentifierRest_iff.mpr (hrest d hd)⟩

/-- The point that joins two identifiers is in neither. -/
theorem Identifier.ne_point (h : Identifier cs) : ∀ c ∈ cs, decide (c ≠ '.') = true := by
  have hclass : ∀ {c : Char}, isIdentifierRest c = true → decide (c ≠ '.') = true := by
    intro c hc
    refine decide_eq_true ?_
    rintro rfl
    exact absurd hc (by decide)
  obtain ⟨hstart, hrest⟩ := h
  refine List.forall_mem_cons.mpr ⟨?_, fun d hd => ?_⟩
  · exact hclass (isIdentifierRest_iff.mpr (.inl hstart))
  · exact hclass (isIdentifierRest_iff.mpr (hrest d hd))

theorem isAttribute_qualified (hts : ∀ c ∈ ts, decide (c ≠ '.') = true) (cs : List Char) :
    isAttribute (ts ++ '.' :: cs) = (isIdentifier ts && isIdentifier cs) := by
  have htake : (ts ++ '.' :: cs).takeWhile (· ≠ '.') = ts := by
    rw [List.takeWhile_append_of_pos hts]
    simp
  have hdrop : (ts ++ '.' :: cs).dropWhile (· ≠ '.') = '.' :: cs := by
    rw [List.dropWhile_append_of_pos hts]
    simp
  rw [isAttribute, htake, hdrop]

theorem isAttribute_bare (hcs : ∀ c ∈ cs, decide (c ≠ '.') = true) :
    isAttribute cs = isIdentifier cs := by
  have htake : cs.takeWhile (· ≠ '.') = cs := List.takeWhile_eq_self_iff.mpr hcs
  have hdrop : cs.dropWhile (· ≠ '.') = [] := List.dropWhile_eq_nil_iff.mpr hcs
  rw [isAttribute, htake, hdrop]

/-- The check passes the texts of the grammar and no others. -/
theorem isAttribute_iff : isAttribute cs = true ↔ Named cs := by
  constructor
  · intro h
    by_cases hpoint : ∀ c ∈ cs, decide (c ≠ '.') = true
    · rw [isAttribute_bare hpoint] at h
      exact .bare (isIdentifier_iff.mp h)
    · -- there is a point: the text is split at the first one
      have hmem : '.' ∈ cs := by simpa using hpoint
      obtain ⟨ts, column, rfl, hfirst⟩ := List.eq_append_cons_of_mem hmem
      have hts : ∀ c ∈ ts, decide (c ≠ '.') = true :=
        fun c hc => decide_eq_true fun heq => hfirst (heq ▸ hc)
      rw [isAttribute_qualified hts, Bool.and_eq_true] at h
      exact .qualified (isIdentifier_iff.mp h.1) (isIdentifier_iff.mp h.2)
  · intro h
    cases h with
    | bare hcs =>
        rw [isAttribute_bare hcs.ne_point]
        exact isIdentifier_iff.mpr hcs
    | qualified hts hcs =>
        rw [isAttribute_qualified hts.ne_point, Bool.and_eq_true]
        exact ⟨isIdentifier_iff.mpr hts, isIdentifier_iff.mpr hcs⟩

end Attribute

/-! ## Sealed fragments -/

namespace Sql.Fragment

/-- A fragment whose parentheses are its own, which has no quotes and has a value for each question
mark. It stays one expression wherever it stands. -/
structure Sealed (f : Fragment) : Prop where
  balanced : Balanced f.sql.toList
  unquoted : f.sql.toList.any isQuote = false
  bound : f.sql.toList.count '?' = f.params.length

variable {f g : Fragment}

theorem Sealed.append (hf : f.Sealed) (hg : g.Sealed) : (f ++ g).Sealed := by
  have htext : (f ++ g).sql.toList = f.sql.toList ++ g.sql.toList := String.toList_append
  constructor
  · rw [htext]
    exact hf.balanced.append hg.balanced
  · rw [htext, List.any_append, hf.unquoted, hg.unquoted, Bool.or_self]
  · rw [htext, List.count_append, hf.bound, hg.bound, params_append, List.length_append]

theorem Sealed.paren (h : f.Sealed) : f.paren.Sealed := by
  have htext : f.paren.sql.toList = '(' :: (f.sql.toList ++ [')']) := by simp [Fragment.paren]
  constructor
  · rw [htext]
    exact h.balanced.paren
  · rw [htext, List.any_cons, List.any_append, h.unquoted]
    rfl
  · rw [htext, List.count_cons_of_ne (by decide), List.count_append, h.bound]
    simp [Fragment.paren]

/-- A character that matters to no scan: no quote, no parenthesis and no question mark. -/
def isInert (c : Char) : Bool := isFlat c && c != '?'

theorem sealed_raw {s : String} (h : s.toList.all isInert = true) : (raw s).Sealed := by
  have hinert : ∀ c ∈ s.toList, isFlat c = true ∧ c ≠ '?' := by
    simpa only [isInert, List.all_eq_true, Bool.and_eq_true, bne_iff_ne] using h
  constructor
  · exact balanced_of_flat fun c hc => (hinert c hc).1
  · refine List.any_eq_false.mpr fun c hc => ?_
    have hflat := (hinert c hc).1
    simp only [isFlat, Bool.and_eq_true, Bool.not_eq_true'] at hflat
    exact Bool.eq_false_iff.mp hflat.1.1
  · exact List.count_eq_zero.mpr fun hmem => (hinert '?' hmem).2 rfl

end Sql.Fragment

/-! ## The distance -/

open Sql.Fragment

/-- Identifiers have none of the characters that matter to a scan. -/
theorem sealed_attribute {column : String} (h : Attribute.isAttribute column.toList) :
    (raw column).Sealed := by
  refine sealed_raw (List.all_eq_true.mpr ?_)
  refine Attribute.forall_of_isAttribute (P := fun c => isInert c = true) (fun c hc => ?_) rfl h
  have hne : ∀ d ∈ ['\'', '"', '\x60', '(', ')', '?'], c ≠ d := by
    rintro d hd rfl
    have hclass : ['\'', '"', '\x60', '(', ')', '?'].any Attribute.isIdentifierRest = false := by
      decide
    exact List.any_eq_false.mp hclass c hd hc
  simp [isInert, isFlat, isQuote, hne]

theorem sealed_point (d : Dialect) (origin : Coordinate) : (d.point origin).Sealed := by
  cases d with
  | mysql =>
      have hbalanced : Balanced "ST_PointFromText(?)".toList := by decide
      have hunquoted : "ST_PointFromText(?)".toList.any isQuote = false := by decide
      have hbound : "ST_PointFromText(?)".toList.count '?' = 1 := by decide
      exact ⟨hbalanced, hunquoted, hbound⟩
  | postgresql =>
      have hbalanced : Balanced "point(?, ?)".toList := by decide
      have hunquoted : "point(?, ?)".toList.any isQuote = false := by decide
      have hbound : "point(?, ?)".toList.count '?' = 2 := by decide
      exact ⟨hbalanced, hunquoted, hbound⟩

theorem raw_append (s t : String) : raw (s ++ t) = raw s ++ raw t := rfl

theorem sealed_distance {column : String} (h : Attribute.isAttribute column.toList) (d : Dialect)
    (origin : Coordinate) : (d.distance column origin).Sealed := by
  have hcolumn := sealed_attribute h
  have hpoint := sealed_point d origin
  cases d with
  | mysql =>
      have hname : "ST_Distance(" = "ST_Distance" ++ "(" := by decide
      have hshape : Dialect.mysql.distance column origin = raw "ST_Distance" ++
          (raw column ++ raw ", " ++ Dialect.mysql.point origin).paren := by
        simp only [Dialect.distance, Fragment.paren, hname, raw_append, Fragment.append_assoc]
      rw [hshape]
      exact (sealed_raw (by decide)).append
        ((hcolumn.append (sealed_raw (by decide))).append hpoint).paren
  | postgresql =>
      have hshape : Dialect.postgresql.distance column origin =
          (raw column ++ raw " <-> " ++ Dialect.postgresql.point origin).paren := by
        simp only [Dialect.distance, Fragment.paren, raw_append, Fragment.append_assoc]
      rw [hshape]
      exact ((hcolumn.append (sealed_raw (by decide))).append hpoint).paren

/-- The length of a degree is written without any of the characters that matter. -/
theorem sealed_scaled {f : Fragment} (h : f.Sealed) (unit : DistanceUnit) :
    (f.scaled unit.lengthPerDegree).Sealed := by
  have hfactor : (raw unit.lengthPerDegree.toApproximate).Sealed := by
    refine sealed_raw ?_
    cases unit with
    | kilometer => decide +kernel
    | mile => decide +kernel
  have hshape : f.scaled unit.lengthPerDegree =
      (raw unit.lengthPerDegree.toApproximate ++ raw " * " ++ f).paren := by
    simp only [Fragment.scaled, Fragment.paren, raw_append, Fragment.append_assoc]
  rw [hshape]
  exact ((hfactor.append (sealed_raw (by decide))).append h).paren

/-- **All that a caller can write into the distance is an identifier.** A column is accepted if and
only if it is one, alone or after another and a point, and otherwise the error carries it as it is.
Whatever is accepted, the distance from it is sealed in both dialects and units, from any origin;
and its text is the same for every origin, which is bound and not written. -/
theorem Attribute.validate_iff_and_distance_sealed (column : String) :
    (validate column = .ok () ↔ Named column.toList) ∧
    (¬ Named column.toList → validate column = .error (.invalidAttribute column)) ∧
    (Named column.toList → ∀ (origin : Coordinate) (radius : Binary64) (unit : DistanceUnit)
      (d : Dialect),
      let distance := Search.distance ⟨origin, column, radius, unit⟩ d
      distance.Sealed ∧ ∀ (origin' : Coordinate) (radius' : Binary64),
        (Search.distance ⟨origin', column, radius', unit⟩ d).sql = distance.sql) := by
  refine ⟨?_, ?_, ?_⟩
  · rw [← isAttribute_iff, validate]
    split
    · rename_i h
      exact iff_of_true rfl h
    · rename_i h
      exact iff_of_false (fun hok => Except.noConfusion rfl rfl (heq_of_eq hok)) h
  · intro h
    rw [validate, if_neg (mt isAttribute_iff.mp h)]
  · intro h origin radius unit d
    have hdistance := sealed_distance (isAttribute_iff.mpr h) d origin
    refine ⟨sealed_scaled hdistance unit, fun origin' radius' => ?_⟩
    cases d with
    | mysql => rfl
    | postgresql => rfl

/-- A column of a joined table, measured from in miles on PostgreSQL. -/
theorem Attribute.validate_and_distance_wells :
    validate "w.site_1" = .ok () ∧
    (Search.distance ⟨default, "w.site_1", Binary64.ofInt 5, .mile⟩ .postgresql).Sealed ∧
    (Search.distance ⟨default, "w.site_1", Binary64.ofInt 5, .mile⟩ .postgresql).sql =
      "(69.0 * (w.site_1 <-> point(?, ?)))" ∧
    validate "site\n" = .error (.invalidAttribute "site\n") := by
  have hnamed : Named "w.site_1".toList := isAttribute_iff.mp (by decide)
  have hnewline : ¬ Named "site\n".toList := mt isAttribute_iff.mpr (by decide)
  obtain ⟨hiff, -, hdistance⟩ := Attribute.validate_iff_and_distance_sealed "w.site_1"
  obtain ⟨-, herror, -⟩ := Attribute.validate_iff_and_distance_sealed "site\n"
  exact ⟨hiff.mpr hnamed, (hdistance hnamed _ _ _ _).1, by decide +kernel, herror hnewline⟩

end PointQuery
