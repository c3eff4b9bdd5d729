import PointQuery.Number.Notation
/-!
# Bound values

The values that travel beside the SQL text of a query, one for each placeholder, and the literals in
which they are shown.
-/

namespace PointQuery.Sql

/-- A value bound to a placeholder. -/
inductive Value where
  | null
  | bool (b : Bool)
  | int (n : Int)
  | float (x : Binary64)
  | text (s : String)
deriving DecidableEq, Inhabited

namespace Value

/-! ## Literals -/

/-- The characters of a text literal between its quotes: each single quote is written twice. -/
def doubleQuotes (cs : List Char) : List Char :=
  cs.flatMap fun c => if c = '\'' then ['\'', '\''] else [c]

/-- The literal of a text. -/
def quoted (s : String) : String := String.ofList ('\'' :: (doubleQuotes s.toList ++ ['\'']))

/-- The value as a literal, for showing it; queries bind it instead. -/
def inline : Value → String
  | null => "NULL"
  | bool true => "TRUE"
  | bool false => "FALSE"
  | int n => toString n
  | float x => x.toPlain
  | text s => quoted s

/-! ## Numbers and equality -/

/-- The value as a number: a float itself, or the float nearest to an integer. -/
def asNumber? : Value → Option Binary64
  | float x => some x
  | int n => some (Binary64.ofInt n)
  | _ => none

/-- Equality of values of one kind, floats compared as numbers. -/
def ieeeEq : Value → Value → Bool
  | null, null => true
  | bool a, bool b => a == b
  | int a, int b => a == b
  | float x, float y => x.ieeeEq y
  | text s, text t => s == t
  | _, _ => false

/-- Lists of values are equal if they have equal values in the same places. -/
def ieeeEqList : List Value → List Value → Bool
  | [], [] => true
  | v :: vs, w :: ws => v.ieeeEq w && ieeeEqList vs ws
  | _, _ => false

end Value

/-! ## Conversion -/

/-- The types whose values can be bound. -/
class ToValue (α : Type) where
  toValue : α → Value

export ToValue (toValue)

instance : ToValue Value := ⟨id⟩
instance : ToValue Bool := ⟨.bool⟩
instance : ToValue Int := ⟨.int⟩
instance : ToValue Binary64 := ⟨.float⟩
instance : ToValue String := ⟨.text⟩

/-- What is absent is bound as NULL. -/
instance {α : Type} [ToValue α] : ToValue (Option α) := ⟨fun | some a => toValue a | none => .null⟩

end PointQuery.Sql
