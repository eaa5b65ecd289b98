import ChatCommand.Number.Binary64
import ChatCommand.Text.Basic

/-! # Shortest decimal text

A double is written with the fewest digits that read back to it: on the coarsest decimal grid that
has a point among the numbers which round to the double, the point nearest to it, the larger one of
two. The digits are written out in full, without an exponent.
-/

namespace ChatCommand.Binary64

/-- Quarters of units from a magnitude down to the end of the numbers that round to it. The
spacing below a power of two is half of that above it. -/
def marginBelow (units : Nat) : Nat :=
  if units = Nat.pow 2 units.log2 ∧ 53 ≤ units.log2 then spacing units else 2 * spacing units

def marginAbove (units : Nat) : Nat := 2 * spacing units

/-- Whether `num / den` quarters of units round to the magnitude. The ends do if its last bit
is zero. -/
def roundsTo (units num den : Nat) : Bool :=
  let low := (4 * units - marginBelow units) * den
  let high := (4 * units + marginAbove units) * den
  if units / spacing units % 2 = 0 then low ≤ num && num ≤ high else low < num && num < high

/-- The multiple of `10 ^ p` that stands for the magnitude, if any does. -/
def onGrid? (units : Nat) (p : Int) : Option Nat :=
  let scale := Nat.pow 10 (-p).toNat
  let step := 4 * one * Nat.pow 10 p.toNat
  let below := 4 * units * scale / step
  let fits := fun n => n != 0 && roundsTo units (n * step) scale
  if fits below ∧ (¬ fits (below + 1) ∨
      2 * (4 * units * scale - below * step) < step) then some below
  else if fits (below + 1) then some (below + 1)
  else none

/-- The first grid with a hit among `10 ^ p`, `10 ^ (p - 1)`, …, with the multiple found there. -/
def shortestFrom (units : Nat) (p : Int) : (grids : Nat) → Nat × Int
  | 0 => (0, 0)
  | grids + 1 =>
    match onGrid? units p with
    | some n => (n, p)
    | none => shortestFrom units (p - 1) grids

/-- A coefficient and a power of ten. All grids from `10 ^ 308` to `10 ^ -1074` are tried; the last
one holds every double. -/
def shortest (units : Nat) : Nat × Int := shortestFrom units 308 1383

/-- The digits of `n * 10 ^ p`, with a point where it is needed. -/
def positional (n : Nat) (p : Int) : Text :=
  let digits := Nat.toDigits 10 n
  if 0 ≤ p then digits ++ List.replicate p.toNat '0'
  else
    let places := (-p).toNat
    let padded := List.replicate (places + 1 - digits.length) '0' ++ digits
    let whole := padded.length - places
    padded.take whole ++ '.' :: padded.drop whole

def print (x : Binary64) : Text :=
  let magnitude := if x.units = 0 then ['0'] else
    let (n, p) := shortest x.units
    positional n p
  if x.negative then '-' :: magnitude else magnitude

end ChatCommand.Binary64
