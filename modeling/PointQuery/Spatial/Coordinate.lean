import PointQuery.Basic
import PointQuery.Number.Notation
import PointQuery.Text.Basic
/-!
# Coordinates

Points given by latitude and longitude, and their texts.
-/

namespace PointQuery

/-- A latitude and a longitude, in degrees. -/
structure Coordinate where
  lat : Binary64
  lng : Binary64
deriving DecidableEq, Inhabited

namespace Coordinate

/-! ## Writing -/

/-- The well-known text of the point. -/
def wellKnownText (c : Coordinate) : String :=
  "POINT(" ++ c.lat.toPlain ++ " " ++ c.lng.toPlain ++ ")"

/-- The two numbers with a comma between them. -/
def render (c : Coordinate) : String := c.lat.toPlain ++ "," ++ c.lng.toPlain

/-! ## Reading -/

/-- A finite number, with any blanks around it. -/
def readNumber (cs : List Char) : Option Binary64 :=
  (Binary64.parse (String.ofList (Text.trimChars cs))).filter Binary64.isFinite

/-- Reads a coordinate: exactly two finite numbers with a comma between them. -/
def parse (s : String) : Except QueryError Coordinate :=
  match Text.parts ',' s.toList with
  | [lat, lng] =>
    match readNumber lat, readNumber lng with
    | some lat, some lng => .ok ⟨lat, lng⟩
    | _, _ => .error (.malformedOrigin s)
  | _ => .error (.malformedOrigin s)

end Coordinate

end PointQuery
