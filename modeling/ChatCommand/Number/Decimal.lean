import ChatCommand.Number.Binary64
import ChatCommand.Text.Basic

/-! # Decimals

A decimal number is written as an optional sign, digits with an optional point, and an optional
exponent, and stands for the nearest double.
-/

namespace ChatCommand

/-- The number `± significand * 10 ^ exponent`. -/
structure Decimal where
  negative : Bool
  significand : Nat
  exponent : Int
  deriving DecidableEq, Repr

namespace Decimal

def isDigit (c : Char) : Bool := '0' ≤ c && c ≤ '9'

def digitValue (c : Char) : Nat := c.toNat - '0'.toNat

/-- The number that digits spell, leading zeros allowed. -/
def ofDigits (digits : Text) : Nat := digits.foldl (fun n c => 10 * n + digitValue c) 0

/-- Splits off a sign and tells whether it is a minus. -/
def splitSign : Text → Bool × Text
  | '-' :: rest => (true, rest)
  | '+' :: rest => (false, rest)
  | rest => (false, rest)

def signed? (t : Text) : Option Int :=
  let (negative, digits) := splitSign t
  if digits ≠ [] ∧ digits.all isDigit then
    some (if negative then -ofDigits digits else ofDigits digits)
  else none

/-- Reads the whole text as an exponent; no text means none. -/
def exponent? : Text → Option Int
  | [] => some 0
  | c :: rest => if c = 'e' ∨ c = 'E' then signed? rest else none

def splitFraction : Text → Text × Text
  | '.' :: rest => (rest.takeWhile isDigit, rest.dropWhile isDigit)
  | rest => ([], rest)

def ofText? (t : Text) : Option Decimal :=
  let (negative, rest) := splitSign t
  let whole := rest.takeWhile isDigit
  let (fraction, rest) := splitFraction (rest.dropWhile isDigit)
  if whole = [] ∧ fraction = [] then none
  else (exponent? rest).map fun e =>
    ⟨negative, ofDigits (whole ++ fraction), e - fraction.length⟩

/-- The nearest double, if it is finite. Exponents far outside the range of doubles are settled
before any power is taken. -/
def round? (d : Decimal) : Option Binary64 :=
  if d.significand = 0 ∨ d.exponent + (Nat.toDigits 10 d.significand).length < -400 then
    some ⟨d.negative, 0⟩
  else if d.exponent > 400 then none
  else
    let num := d.significand * Nat.pow 10 d.exponent.toNat * Binary64.one
    let den := Nat.pow 10 (-d.exponent).toNat
    (Binary64.roundUnits? num den).map (⟨d.negative, ·⟩)

end Decimal

end ChatCommand
