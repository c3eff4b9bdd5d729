import PointQuery.Number.Decimal
/-!
# JSON tokens

Readers for the smallest parts of a JSON text: blanks, words, strings and numbers. A reader takes
the characters that are left and gives what it read and what is left after it, or says why it
failed; the first problem met from left to right decides.
-/

namespace PointQuery.Json

/-- Why a text is not the JSON that was asked for. -/
inductive Failure where
  /-- It is not JSON. -/
  | malformed
  /-- It is JSON so far, but of the wrong shape. -/
  | mismatch
  /-- It ends too early. -/
  | truncated
deriving DecidableEq, Inhabited

/-- A reader: from the characters that are left to a value and the characters after it. -/
abbrev Reader (α : Type) := List Char → Except Failure (α × List Char)

/-! ## Blanks and words -/

/-- The four blanks that may stand between tokens. -/
def isBlank (c : Char) : Bool := c = ' ' || c = '\n' || c = '\t' || c = '\r'

/-- Skips blanks. -/
def skipBlanks (cs : List Char) : List Char := cs.dropWhile isBlank

/-- Takes the letters of a word. -/
def takeWord : List Char → List Char → Except Failure (List Char)
  | [], rest => .ok rest
  | _ :: _, [] => .error .truncated
  | w :: ws, c :: cs => if c = w then takeWord ws cs else .error .malformed

/-! ## Strings -/

/-- The value of a hexadecimal digit. -/
def hexValue? (c : Char) : Option Nat :=
  let n := c.toNat
  if '0'.toNat ≤ n ∧ n ≤ '9'.toNat then some (n - '0'.toNat)
  else if 'a'.toNat ≤ n ∧ n ≤ 'f'.toNat then some (n - 'a'.toNat + 10)
  else if 'A'.toNat ≤ n ∧ n ≤ 'F'.toNat then some (n - 'A'.toNat + 10)
  else none

/-- The code unit that four hexadecimal digits name. -/
def codeUnit? (a b c d : Char) : Option Nat := do
  return (((← hexValue? a) * 16 + (← hexValue? b)) * 16 + (← hexValue? c)) * 16 + (← hexValue? d)

/-- Why fewer than four characters cannot be four hexadecimal digits: the text ends, unless their
encoding still fills four bytes. -/
def shortUnit (cs : List Char) : Failure :=
  if 4 ≤ (String.ofList cs).utf8ByteSize then .malformed else .truncated

/-- The character that a backslash and a letter stand for. -/
def escaped? (c : Char) : Option Char :=
  if c = '"' ∨ c = '\\' ∨ c = '/' then some c
  else if c = 'b' then some '\x08'
  else if c = 'f' then some '\x0c'
  else if c = 'n' then some '\n'
  else if c = 'r' then some '\r'
  else if c = 't' then some '\t'
  else none

/-- A high surrogate, the first half of a pair. -/
def isHighSurrogate (n : Nat) : Bool := 0xd800 ≤ n && n ≤ 0xdbff

/-- A low surrogate, the second half of a pair. -/
def isLowSurrogate (n : Nat) : Bool := 0xdc00 ≤ n && n ≤ 0xdfff

/-- The character of a pair of surrogates. -/
def pairChar (high low : Nat) : Char :=
  Char.ofNat ((high - 0xd800) * 0x400 + (low - 0xdc00) + 0x10000)

/-- Puts a character in front of the string that was read. -/
def pushChar (c : Char) (rest : Except Failure (List Char × List Char)) :
    Except Failure (List Char × List Char) :=
  rest.map fun r => (c :: r.1, r.2)

/-- Reads a string to its closing quote; the opening one has been taken. Surrogates stand in pairs
only. -/
def stringBody : Reader (List Char)
  | [] => .error .truncated
  | c :: cs =>
    if c = '"' then .ok ([], cs)
    else if c = '\\' then
      match cs with
      | [] => .error .truncated
      | e :: cs =>
        if e = 'u' then
          match cs with
          | h₁ :: h₂ :: h₃ :: h₄ :: cs =>
            match codeUnit? h₁ h₂ h₃ h₄ with
            | none => .error .malformed
            | some high =>
              if isLowSurrogate high then .error .malformed
              else if isHighSurrogate high then
                match cs with
                | [] => .error .truncated
                | [b] => if b = '\\' then .error .truncated else .error .malformed
                | b :: u :: cs =>
                  if b = '\\' ∧ u = 'u' then
                    match cs with
                    | l₁ :: l₂ :: l₃ :: l₄ :: cs =>
                      match codeUnit? l₁ l₂ l₃ l₄ with
                      | none => .error .malformed
                      | some low =>
                        if isLowSurrogate low then pushChar (pairChar high low) (stringBody cs)
                        else .error .malformed
                    | short => .error (shortUnit short)
                  else .error .malformed
              else pushChar (Char.ofNat high) (stringBody cs)
          | short => .error (shortUnit short)
        else
          match escaped? e with
          | some x => pushChar x (stringBody cs)
          | none => .error .malformed
    else if c.toNat < 0x20 then .error .malformed
    else pushChar c (stringBody cs)

/-- Skips a string to its closing quote. What it stands for is not looked at, so surrogates may
stand alone. -/
def skipString : List Char → Except Failure (List Char)
  | [] => .error .truncated
  | c :: cs =>
    if c = '"' then .ok cs
    else if c = '\\' then
      match cs with
      | [] => .error .truncated
      | e :: cs =>
        if e = 'u' then
          match cs with
          | h₁ :: h₂ :: h₃ :: h₄ :: cs =>
            if (codeUnit? h₁ h₂ h₃ h₄).isSome then skipString cs else .error .malformed
          | short => .error (shortUnit short)
        else if (escaped? e).isSome then skipString cs
        else .error .malformed
    else if c.toNat < 0x20 then .error .malformed
    else skipString cs

/-! ## Numbers -/

/-- Skips an exponent, if there is one: a sign if wanted and at least one digit. -/
def skipExponent : List Char → Except Failure (List Char)
  | [] => .ok []
  | c :: cs =>
    if c = 'e' ∨ c = 'E' then
      let digits :=
        match cs with
        | s :: rest => if s = '+' ∨ s = '-' then rest else cs
        | [] => cs
      match digits with
      | d :: rest => if d.isDigit then .ok (rest.dropWhile Char.isDigit) else .error .malformed
      | [] => .error .malformed
    else .ok (c :: cs)

/-- Skips a point and the digits after it, if there is one, and an exponent. -/
def skipFraction : List Char → Except Failure (List Char)
  | '.' :: d :: cs =>
    if d.isDigit then skipExponent (cs.dropWhile Char.isDigit) else .error .malformed
  | ['.'] => .error .malformed
  | cs => skipExponent cs

/-- Skips a number without its sign. A leading zero stands alone. -/
def skipNumber : List Char → Except Failure (List Char)
  | [] => .error .malformed
  | c :: cs =>
    if c = '0' then
      match cs with
      | d :: _ => if d.isDigit then .error .malformed else skipFraction cs
      | [] => .ok []
    else if c.isDigit then skipFraction (cs.dropWhile Char.isDigit)
    else .error .malformed

/-! ## The range of numbers -/

/-- A number as it is taken in: a significand of 64 bits, and the power of ten that the digits it
has no room for stand for. -/
structure Scanned where
  significand : Nat
  exponent : Int
  full : Bool

namespace Scanned

/-- Whether the significand has room for one more digit. -/
def fits (n : Scanned) (digit : Nat) : Bool := n.significand * 10 + digit < Nat.pow 2 64

/-- One more digit before the point; once one had no room, none has. -/
def whole (n : Scanned) (c : Char) : Scanned :=
  let digit := c.toNat - '0'.toNat
  if n.full || !n.fits digit then { n with exponent := n.exponent + 1, full := true }
  else { n with significand := n.significand * 10 + digit }

/-- One more digit after the point; once one had no room, none has. -/
def fraction (n : Scanned) (c : Char) : Scanned :=
  let digit := c.toNat - '0'.toNat
  if n.full || !n.fits digit then { n with full := true }
  else { n with significand := n.significand * 10 + digit, exponent := n.exponent - 1 }

/-- Whether the product of the two binary64 numbers nearest to the significand and to the power of
ten is in the range of binary64. Small numbers always are. -/
def inRange (n : Scanned) (shift : Int) : Bool :=
  let exponent := n.exponent + shift
  if n.significand = 0 ∨ exponent < 0 then true
  else if 308 < exponent then false
  else
    match Magnitude.nearest n.significand 1, Magnitude.nearest (Nat.pow 10 exponent.toNat) 1 with
    | some a, some b => (Magnitude.nearest (a.units * b.units) (Nat.pow 2 2148)).isSome
    | _, _ => false

end Scanned

/-- What is wrong with the exponent of a number, if anything. -/
def exponentFault? (n : Scanned) : List Char → Option Failure
  | [] => if n.inRange 0 then none else some .malformed
  | c :: cs =>
    if c = 'e' ∨ c = 'E' then
      let (negative, digits) := Decimal.takeSign cs
      match digits with
      | [] => some .truncated
      | d :: _ =>
        if d.isDigit then
          let value : Int := Decimal.digitsValue (digits.takeWhile Char.isDigit)
          if n.inRange (if negative then -value else value) then none else some .malformed
        else some .malformed
    else if n.inRange 0 then none else some .malformed

/-- What is wrong with the fraction and the exponent of a number, if anything. -/
def fractionFault? (n : Scanned) : List Char → Option Failure
  | '.' :: cs =>
    match cs.takeWhile Char.isDigit, cs.dropWhile Char.isDigit with
    | [], [] => some .truncated
    | [], _ :: _ => some .malformed
    | ds, rest => exponentFault? (ds.foldl Scanned.fraction { n with full := false }) rest
  | cs => exponentFault? n cs

/-- What is wrong with a number, without its sign, if anything: a number that is read, even where
none is wanted, has to be well formed and in range. -/
def numberFault? : List Char → Option Failure
  | [] => some .truncated
  | c :: cs =>
    if c = '0' then
      match cs with
      | d :: _ => if d.isDigit then some .malformed else fractionFault? ⟨0, 0, false⟩ cs
      | [] => none
    else if c.isDigit then
      fractionFault? ((c :: cs.takeWhile Char.isDigit).foldl Scanned.whole ⟨0, 0, false⟩)
        (cs.dropWhile Char.isDigit)
    else some .malformed

end PointQuery.Json
