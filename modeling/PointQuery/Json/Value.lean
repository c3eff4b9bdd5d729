import PointQuery.Json.Token
/-!
# JSON values

Readers for values of a wanted shape: strings, truth values, lists and named choices, and a skipper
for values of any shape. Where a value has the wrong shape it is still read as far as it is a
scalar, so a malformed scalar counts as malformed.
-/

namespace PointQuery.Json

/-! ## Values of the wrong shape -/

/-- Why the value that starts here is not the one wanted. -/
def wrongShape : List Char → Failure
  | [] => .truncated
  | c :: cs =>
    let word (letters : String) : Failure :=
      match takeWord letters.toList cs with
      | .ok _ => .mismatch
      | .error f => f
    if c = 'n' then word "ull"
    else if c = 't' then word "rue"
    else if c = 'f' then word "alse"
    else if c = '-' then (numberFault? cs).getD .mismatch
    else if c.isDigit then (numberFault? (c :: cs)).getD .mismatch
    else if c = '"' then
      match stringBody cs with
      | .ok _ => .mismatch
      | .error f => f
    else if c = '[' ∨ c = '{' then .mismatch
    else .malformed

/-! ## Scalars -/

/-- Reads a string. -/
def string : Reader String := fun cs =>
  match skipBlanks cs with
  | '"' :: cs => (stringBody cs).map fun r => (String.ofList r.1, r.2)
  | cs => .error (wrongShape cs)

/-- Reads a truth value. -/
def bool : Reader Bool := fun cs =>
  match skipBlanks cs with
  | 't' :: cs => (takeWord "rue".toList cs).map fun rest => (true, rest)
  | 'f' :: cs => (takeWord "alse".toList cs).map fun rest => (false, rest)
  | cs => .error (wrongShape cs)

/-- Reads `null`. -/
def null (cs : List Char) : Except Failure (List Char) :=
  match skipBlanks cs with
  | 'n' :: cs => takeWord "ull".toList cs
  | cs => .error (wrongShape cs)

/-- Takes the colon after a key. -/
def colon (cs : List Char) : Except Failure (List Char) :=
  match skipBlanks cs with
  | ':' :: cs => .ok cs
  | [] => .error .truncated
  | _ => .error .malformed

/-! ## Choices -/

/-- Reads a name of a set, given by `choose`. Anything but a string is malformed here. -/
def chosen {α : Type} (choose : String → Option α) : Reader α := fun cs =>
  match skipBlanks cs with
  | '"' :: cs => do
    let (name, rest) ← stringBody cs
    match choose (String.ofList name) with
    | some a => return (a, rest)
    | none => throw .mismatch
  | [] => .error .truncated
  | _ => .error .malformed

/-- Reads a name of a set, as a string or as an object that maps it to `null`. -/
def choice {α : Type} (choose : String → Option α) : Reader α := fun cs =>
  match skipBlanks cs with
  | '{' :: cs => do
    let (a, rest) ← chosen choose cs
    let rest ← colon rest
    let rest ← null rest
    match skipBlanks rest with
    | '}' :: rest => return (a, rest)
    | [] => throw .truncated
    | _ => throw .malformed
  | cs => chosen choose cs

/-! ## Values of any shape -/

/-- A bracket that is open at some place of a text. -/
inductive Bracket where
  | list
  | object
deriving DecidableEq

/-- Skips a string, a number or a word. -/
def skipScalar : List Char → Except Failure (List Char)
  | [] => .error .truncated
  | c :: cs =>
    if c = 'n' then takeWord "ull".toList cs
    else if c = 't' then takeWord "rue".toList cs
    else if c = 'f' then takeWord "alse".toList cs
    else if c = '-' then skipNumber cs
    else if c.isDigit then skipNumber (c :: cs)
    else if c = '"' then skipString cs
    else .error .malformed

mutual

/-- Skips a value and then closes the brackets that are open, innermost first. Any depth will do.
The first argument bounds the number of steps. -/
def skipOpen : Nat → List Bracket → List Char → Except Failure (List Char)
  | 0, _, _ => .error .truncated
  | fuel + 1, opened, cs =>
    match skipBlanks cs with
    | '[' :: cs =>
      match skipBlanks cs with
      | ']' :: cs => skipClose fuel opened cs
      | [] => .error .truncated
      | cs => skipOpen fuel (.list :: opened) cs
    | '{' :: cs =>
      match skipBlanks cs with
      | '}' :: cs => skipClose fuel opened cs
      | [] => .error .truncated
      | cs => skipKey fuel (.object :: opened) cs
    | cs =>
      match skipScalar cs with
      | .ok rest => skipClose fuel opened rest
      | .error f => .error f

/-- Goes on after a value inside the brackets that are open. -/
def skipClose : Nat → List Bracket → List Char → Except Failure (List Char)
  | 0, _, _ => .error .truncated
  | _ + 1, [], cs => .ok cs
  | fuel + 1, .list :: opened, cs =>
    match skipBlanks cs with
    | ',' :: cs => skipOpen fuel (.list :: opened) cs
    | ']' :: cs => skipClose fuel opened cs
    | [] => .error .truncated
    | _ => .error .malformed
  | fuel + 1, .object :: opened, cs =>
    match skipBlanks cs with
    | ',' :: cs => skipKey fuel (.object :: opened) cs
    | '}' :: cs => skipClose fuel opened cs
    | [] => .error .truncated
    | _ => .error .malformed

/-- Skips a key, its colon and its value. -/
def skipKey : Nat → List Bracket → List Char → Except Failure (List Char)
  | 0, _, _ => .error .truncated
  | fuel + 1, opened, cs =>
    match skipBlanks cs with
    | '"' :: cs =>
      match skipString cs with
      | .ok rest =>
        match skipBlanks rest with
        | ':' :: cs => skipOpen fuel opened cs
        | [] => .error .truncated
        | _ => .error .malformed
      | .error f => .error f
    | [] => .error .truncated
    | _ => .error .malformed

end

/-- Skips a value of any shape. Each step takes at least one character, or closes a bracket that one
has opened. -/
def skipValue (cs : List Char) : Except Failure (List Char) :=
  skipOpen (2 * cs.length + 2) [] cs

/-! ## Lists -/

/-- Reads the rest of a list, from where an item or the end may stand. The first argument bounds the
number of items; `first` tells that none has been read. -/
def items {α : Type} (item : Reader α) : Nat → Bool → Reader (List α)
  | 0, _, _ => .error .truncated
  | fuel + 1, first, cs =>
    match skipBlanks cs with
    | ']' :: cs => .ok ([], cs)
    | [] => .error .truncated
    | cs => do
      let cs ←
        if first then pure cs
        else
          match cs with
          | ',' :: cs =>
            match skipBlanks cs with
            | ']' :: _ => throw .malformed
            | [] => throw .truncated
            | cs => pure cs
          | _ => throw .malformed
      let (a, rest) ← item cs
      let (as, rest) ← items item fuel false rest
      return (a :: as, rest)

/-- Reads a list of values. -/
def list {α : Type} (item : Reader α) : Reader (List α) := fun cs =>
  match skipBlanks cs with
  | '[' :: cs => items item (cs.length + 1) true cs
  | cs => .error (wrongShape cs)

/-! ## Whole texts -/

/-- Reads a value that fills the whole text, but for blanks around it. -/
def whole {α : Type} (value : Reader α) (text : String) : Except Failure α := do
  let (a, rest) ← value text.toList
  match skipBlanks rest with
  | [] => return a
  | _ => throw .malformed

end PointQuery.Json
