/-!
# Binary64 numbers

Floating point numbers of 64 bits, as the exact values they stand for. A finite number is a sign
and a magnitude, and a magnitude is a whole number of units of `2^-1074`, so comparing and rounding
need natural numbers only. Different values of the type are different numbers, apart from the two
zeros; all NaNs are one value. Powers are written with `Nat.pow`, not with a sign that other
structures share.
-/

namespace PointQuery

/-! ## Magnitudes -/

/-- A finite magnitude `significand · 2^shift`, in units of `2^-1074`. The significand has 53 bits
and, unless the shift is zero, its top bit is set, so each magnitude is written in one way. -/
structure Magnitude where
  significand : Nat
  shift : Nat
  significand_lt : significand < Nat.pow 2 53
  shift_le : shift ≤ 2045
  normal : shift = 0 ∨ Nat.pow 2 52 ≤ significand
deriving DecidableEq

namespace Magnitude

/-- Zero. -/
def zero : Magnitude := ⟨0, 0, by decide, by decide, .inl rfl⟩

/-- The exact value, in units of `2^-1074`. -/
def units (x : Magnitude) : Nat := x.significand * Nat.pow 2 x.shift

/-- The magnitude with this significand and shift, if they are written in the one allowed way. -/
def ofParts? (significand shift : Nat) : Option Magnitude :=
  if h : significand < Nat.pow 2 53 ∧ shift ≤ 2045 ∧ (shift = 0 ∨ Nat.pow 2 52 ≤ significand) then
    some ⟨significand, shift, h.1, h.2.1, h.2.2⟩
  else none

/-- The whole number nearest to `num / den`; halfway, the even one. -/
def roundHalfEven (num den : Nat) : Nat :=
  let floor := num / den
  let rest := num % den
  if 2 * rest < den then floor
  else if den < 2 * rest then floor + 1
  else floor + floor % 2

/-- The magnitude nearest to `num / den`; halfway, the one with the even significand. There is none
if the quotient lies half a step or more past the largest magnitude. -/
def nearest (num den : Nat) : Option Magnitude :=
  let units := num * Nat.pow 2 1074
  let shift := (units / den).log2 - 52
  let significand := roundHalfEven units (den * Nat.pow 2 shift)
  if significand = Nat.pow 2 53 then ofParts? (Nat.pow 2 52) (shift + 1)
  else ofParts? significand shift

/-- The bits below the sign: exponent field above fraction. -/
def toBits (x : Magnitude) : Nat := x.shift * Nat.pow 2 52 + x.significand

/-- Reads the bits below the sign; infinities and NaNs have no magnitude. -/
def ofBits? (bits : Nat) : Option Magnitude :=
  if bits < Nat.pow 2 53 then ofParts? bits 0
  else ofParts? (bits % Nat.pow 2 52 + Nat.pow 2 52) (bits / Nat.pow 2 52 - 1)

end Magnitude

/-! ## Numbers -/

/-- A binary64 number. -/
inductive Binary64 where
  | nan
  | infinite (negative : Bool)
  | finite (negative : Bool) (magnitude : Magnitude)
deriving DecidableEq

namespace Binary64

/-- Positive zero. -/
def zero : Binary64 := .finite false .zero

instance : Inhabited Binary64 := ⟨zero⟩

/-- The number nearest to `± num / den`, infinite past the largest magnitude. -/
def ofRatio (negative : Bool) (num den : Nat) : Binary64 :=
  match Magnitude.nearest num den with
  | some x => .finite negative x
  | none => .infinite negative

/-- The number nearest to an integer. -/
def ofInt (n : Int) : Binary64 := ofRatio (n < 0) n.natAbs 1

/-- Neither infinite nor NaN. -/
def isFinite : Binary64 → Bool
  | .finite .. => true
  | _ => false

/-- Equality of numbers: NaN equals nothing, not even itself, and the two zeros are equal. -/
def ieeeEq : Binary64 → Binary64 → Bool
  | .nan, _ => false
  | _, .nan => false
  | .infinite s, .infinite t => s == t
  | .finite s x, .finite t y => x == y && (s == t || x == .zero)
  | .infinite _, .finite .. => false
  | .finite .., .infinite _ => false

/-! ## Interchange formats -/

private def signBit (negative : Bool) : Nat := if negative then Nat.pow 2 63 else 0

/-- The 64 bits of the interchange format; NaN is the quiet one. -/
def toBits : Binary64 → Nat
  | .nan => 0x7ff8000000000000
  | .infinite s => signBit s + 0x7ff0000000000000
  | .finite s x => signBit s + x.toBits

/-- Reads 64 bits of the interchange format. -/
def ofBits (bits : Nat) : Binary64 :=
  let negative := decide (Nat.pow 2 63 ≤ bits)
  let body := bits % Nat.pow 2 63
  match Magnitude.ofBits? body with
  | some x => .finite negative x
  | none => if body = 0x7ff0000000000000 then .infinite negative else .nan

/-- Reads 32 bits of the single precision interchange format; each of its numbers is a binary64
number. -/
def ofSingleBits (bits : Nat) : Binary64 :=
  let negative := decide (Nat.pow 2 31 ≤ bits)
  let field := bits % Nat.pow 2 31 / Nat.pow 2 23
  let fraction := bits % Nat.pow 2 23
  if field = 255 then if fraction = 0 then .infinite negative else .nan
  else if field = 0 then ofRatio negative fraction (Nat.pow 2 149)
  else ofRatio negative ((fraction + Nat.pow 2 23) * Nat.pow 2 (field - 1)) (Nat.pow 2 149)

end Binary64

end PointQuery
