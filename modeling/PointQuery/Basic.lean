/-!
# Basic notions

Why a query cannot be compiled, and how its points are to be shown.
-/

namespace PointQuery

/-! ## Errors -/

/-- The causes for which compiling a query fails. Each carries the text that was refused. -/
inductive QueryError where
  | unsupportedDialect (driver : String)
  | malformedOrigin (input : String)
  | invalidAttribute (column : String)
  | unknownUnit (unit : String)
deriving DecidableEq

/-- The wording of an error. -/
def QueryError.message : QueryError → String
  | .unsupportedDialect driver =>
    "unsupported dialect '" ++ driver ++ "': only MySQL and PostgreSQL are supported"
  | .malformedOrigin input => "malformed origin '" ++ input ++ "': expected \"lat,lng\""
  | .invalidAttribute column => "invalid attribute: " ++ column
  | .unknownUnit unit => "unknown distance unit: " ++ unit

/-! ## Styles and modes -/

/-- How a wildcard is combined with the text form of point columns. -/
inductive ProjectionStyle where
  /-- The wildcard stays, and the text form of each point column follows at the end of the list.
  Names then occur twice; the later occurrence is the text. -/
  | additive
  /-- The wildcard gives way to the columns it stands for, point columns in their text form. -/
  | replace
deriving DecidableEq, Inhabited

/-- The name of a style. -/
def ProjectionStyle.name : ProjectionStyle → String
  | .additive => "Additive"
  | .replace => "Replace"

/-- Whether the points of the outermost level are shown as text. -/
inductive ProjectionMode where
  | normal
  /-- Scalar queries: the outermost select list stays as it is. -/
  | suppressed
deriving DecidableEq, Inhabited

/-- The name of a mode. -/
def ProjectionMode.name : ProjectionMode → String
  | .normal => "Normal"
  | .suppressed => "Suppressed"

end PointQuery
