import PointQuery.Basic
import PointQuery.Spatial.Search
/-!
# Log events

What compiling and running queries reports as it goes.
-/

namespace PointQuery

/-- How serious an event is. -/
inductive Severity where
  | debug
  | info
  | warning
deriving DecidableEq

/-- The word for a severity. -/
def Severity.name : Severity → String
  | .debug => "DEBUG"
  | .info => "INFO"
  | .warning => "WARN"

/-- The value of a field of an event. -/
inductive FieldValue where
  | text (s : String)
  /-- A text that a log line shows in quotes. -/
  | quoted (s : String)
  | number (x : Binary64)
  | count (n : Nat)
deriving DecidableEq

/-- Something that happened. -/
inductive Event where
  /-- The origin of a search could not be read, and the search was left out. -/
  | searchIgnored (error : QueryError)
  | searchApplied (dialect : Dialect) (search : Search)
  | projectionSuppressed
  /-- A level was given a new select list. -/
  | pointsProjected (table : String) (style : ProjectionStyle) (items : Nat)
  | compiled (dialect : Dialect) (mode : ProjectionMode) (sql : String) (params : Nat)
  /-- A statement was handed to a database. -/
  | issued (call driver sql : String)
  | noPoints (table : String)
deriving DecidableEq

namespace Event

/-- How serious it is. -/
def severity : Event → Severity
  | searchIgnored _ => .warning
  | noPoints _ => .info
  | _ => .debug

/-- The sentence. -/
def message : Event → String
  | searchIgnored _ => "ignoring proximity search"
  | searchApplied .. => "wrapped query in distance subquery"
  | projectionSuppressed => "projection rewrite suppressed"
  | pointsProjected .. => "projected point columns as text"
  | compiled .. => "finalized query"
  | issued call _ _ => call
  | noPoints table => "No point columns in " ++ table ++ "."

/-- The fields, in order. -/
def fields : Event → List (String × FieldValue)
  | searchIgnored error => [("err", .text error.message)]
  | searchApplied dialect search =>
    [("dialect", .quoted dialect.name), ("attribute", .text search.column),
      ("origin", .text search.origin.render), ("radius", .number search.radius),
      ("unit", .text search.unit.symbol)]
  | projectionSuppressed => []
  | pointsProjected table style items =>
    [("table", .text table), ("style", .text style.name), ("items", .count items)]
  | compiled dialect mode sql params =>
    [("dialect", .text dialect.name), ("mode", .text mode.name), ("sql", .text sql),
      ("params", .count params)]
  | issued _ driver sql => [("driver", .quoted driver), ("sql", .text sql)]
  | noPoints _ => []

end Event

/-! ## Log lines -/

/-- A number below 256 as two hexadecimal digits. -/
def hexByte (n : Nat) : List Char := [Nat.digitChar (n / 16), Nat.digitChar (n % 16)]

/-- The control characters of ASCII that terminals act on: bell, backspace, form feed, escape and
delete. -/
def isTerminalControl (c : Char) : Bool :=
  c = '\x07' || c = '\x08' || c = '\x0c' || c = '\x1b' || c = '\x7f'

/-- The control characters beyond ASCII, U+0080 to U+009F. -/
def isHighControl (c : Char) : Bool := 0x80 ≤ c.toNat && c.toNat ≤ 0x9f

/-- A character in a log line; one that could steer a terminal is shown by its code. -/
def shownChar (c : Char) : List Char :=
  if isTerminalControl c then '\\' :: 'x' :: hexByte c.toNat
  else if isHighControl c then '\\' :: 'u' :: '\x7b' :: (hexByte c.toNat ++ ['\x7d'])
  else [c]

/-- The sentence as a log line shows it. -/
def shownSentence (s : String) : String := String.ofList (s.toList.flatMap shownChar)

/-- A field value as a log line shows it. -/
def FieldValue.render : FieldValue → String
  | .text s => s
  | .quoted s => "\"" ++ s ++ "\""
  | .number x => x.toApproximate
  | .count n => toString n

/-- The log line of an event: the severity in five columns, the sentence, and the fields. The fields
are shown as they are. -/
def Event.line (e : Event) : String :=
  let name := e.severity.name
  let margin := String.ofList (List.replicate (5 - name.length) ' ')
  margin ++ name ++ " " ++ shownSentence e.message ++
    String.join (e.fields.map fun f => " " ++ f.1 ++ "=" ++ f.2.render)

example : shownSentence "a\x1b[1m\x0c\u0085 é" = "a\\x1b[1m\\x0c\\u\x7b85\x7d é" := by decide

end PointQuery
