import PointQuery.Json.Record
import PointQuery.Json.Writer
import PointQuery.Basic
import PointQuery.Spatial.DistanceUnit
/-!
# Settings

The settings of a compiler, and their names and those of units in JSON.
-/

namespace PointQuery

/-- What to do with an origin that cannot be read. -/
inductive OriginPolicy where
  /-- Leave the query as it is. -/
  | ignore
  /-- Fail. -/
  | reject
deriving DecidableEq, Inhabited

/-- The settings of a compiler. -/
structure Config where
  originPolicy : OriginPolicy := .ignore
  projectionStyle : ProjectionStyle := .additive
deriving DecidableEq, Inhabited

/-! ## Names in JSON -/

/-- The name of a policy. -/
def OriginPolicy.jsonName : OriginPolicy → String
  | ignore => "ignore"
  | reject => "reject"

/-- The policy with a name. -/
def OriginPolicy.ofJsonName? (name : String) : Option OriginPolicy :=
  [ignore, reject].find? (·.jsonName == name)

/-- The name of a style. -/
def ProjectionStyle.jsonName : ProjectionStyle → String
  | additive => "additive"
  | replace => "replace"

/-- The style with a name. -/
def ProjectionStyle.ofJsonName? (name : String) : Option ProjectionStyle :=
  [additive, replace].find? (·.jsonName == name)

namespace DistanceUnit

/-- The name of a unit. -/
def jsonName : DistanceUnit → String
  | kilometer => "kilometer"
  | mile => "mile"

/-- The unit with a name, long or short. -/
def ofJsonName? (name : String) : Option DistanceUnit :=
  [kilometer, mile].find? fun u => u.jsonName == name || u.symbol == name

/-- Reads a unit from a whole text. -/
def ofJson (text : String) : Except Json.Failure DistanceUnit :=
  Json.whole (Json.choice ofJsonName?) text

/-- The unit as JSON. -/
def toJson (u : DistanceUnit) : String := String.ofList (Json.writeString u.jsonName)

end DistanceUnit

/-! ## Settings in JSON -/

namespace Config

/-- The settings as far as they have been read. -/
structure Draft where
  originPolicy : Option OriginPolicy := none
  projectionStyle : Option ProjectionStyle := none

/-- The settings, in the order in which a list gives them; all may be left out. -/
def fields : List (Json.Field Draft) :=
  [{ name := "origin_policy", required := false, isSet := (·.originPolicy.isSome)
     read := fun d cs => (Json.choice OriginPolicy.ofJsonName? cs).map fun r =>
       ({ d with originPolicy := some r.1 }, r.2) },
   { name := "projection_style", required := false, isSet := (·.projectionStyle.isSome)
     read := fun d cs => (Json.choice ProjectionStyle.ofJsonName? cs).map fun r =>
       ({ d with projectionStyle := some r.1 }, r.2) }]

/-- The settings read; those left out keep their defaults. -/
def Draft.config (d : Draft) : Config :=
  let default : Config := {}
  ⟨d.originPolicy.getD default.originPolicy, d.projectionStyle.getD default.projectionStyle⟩

/-- Reads settings from a whole text. -/
def ofJson (text : String) : Except Json.Failure Config :=
  (Json.whole (Json.Record.read fields {}) text).map Draft.config

/-- The settings as compact JSON. -/
def toJson (c : Config) : String :=
  String.ofList <| Json.writeObject [
    Json.writeMember "origin_policy" (Json.writeString c.originPolicy.jsonName),
    Json.writeMember "projection_style" (Json.writeString c.projectionStyle.jsonName)]

end Config

end PointQuery
