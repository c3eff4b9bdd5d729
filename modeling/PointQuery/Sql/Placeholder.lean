/-!
# Placeholders

A text is scanned from left to right, outside and inside quotes. A quote opens at a single quote, a
double quote or a backtick and closes at the next character of the same kind. A question mark
outside quotes is a placeholder.
-/

namespace PointQuery.Sql

/-! ## Quotes -/

/-- The characters that open a quote. -/
def isQuote (c : Char) : Bool := c = '\'' || c = '"' || c = '\x60'

/-- Where a scan stands: outside quotes, or inside one that the given character closes. -/
abbrev QuoteState := Option Char

namespace QuoteState

/-- The state after one more character. -/
def next (state : QuoteState) (c : Char) : QuoteState :=
  match state with
  | some close => if c = close then none else some close
  | none => if isQuote c then some c else none

/-- The state after a text. -/
def after (state : QuoteState) (cs : List Char) : QuoteState := cs.foldl next state

end QuoteState

/-! ## Rendering -/

/-- Replaces each placeholder of the text by `write` at its number; numbers go on from `count`. -/
def replacePlaceholders (write : Nat → List Char) : QuoteState → Nat → List Char → List Char
  | _, _, [] => []
  | state, count, c :: cs =>
    if state = none ∧ c = '?' then
      write (count + 1) ++ replacePlaceholders write none (count + 1) cs
    else c :: replacePlaceholders write (QuoteState.next state c) count cs

end PointQuery.Sql
