/-! # Double precision

A finite double is a sign with a magnitude, counted in units of the least positive double
`2 ^ -1074`. Doubles of at least `2 ^ 53` units keep 53 leading bits, and the least magnitude
beyond the finite doubles is `2 ^ 1024`.
-/

namespace ChatCommand

structure Binary64 where
  negative : Bool
  units : Nat
  deriving DecidableEq, Repr

namespace Binary64

/-- The number of units in one. -/
def one : Nat := Nat.pow 2 1074

def limit : Nat := Nat.pow 2 2098

/-- The distance of neighbouring magnitudes at and above the given one. -/
def spacing (units : Nat) : Nat := Nat.pow 2 (units.log2 - 52)

theorem spacing_pos (units : Nat) : 0 < spacing units := Nat.two_pow_pos _

/-- The signed magnitude, by which doubles are compared: both zeros are equal. -/
def value (x : Binary64) : Int := if x.negative then -x.units else x.units

/-- The multiple of `step` nearest to `num / den`, and of two the even one. -/
def roundToMultiple (step num den : Nat) : Nat :=
  let q := num / (den * step)
  let r := num % (den * step)
  if 2 * r > den * step ∨ (2 * r = den * step ∧ q % 2 = 1) then (q + 1) * step else q * step

/-- The magnitude nearest to `num / den` units, if it is finite. -/
def roundUnits? (num den : Nat) : Option Nat :=
  let units := roundToMultiple (spacing (num / den)) num den
  if units < limit then some units else none

/-- An end of a range, which belongs to it unless it is strict. -/
structure Bound where
  value : Binary64
  strict : Bool
  deriving DecidableEq, Repr

/-- A range of doubles, open-ended where a bound is missing. -/
structure Range where
  min : Option Bound
  max : Option Bound
  deriving DecidableEq, Repr

def Range.full : Range := ⟨none, none⟩

def Range.contains (range : Range) (x : Binary64) : Bool :=
  (match range.min with
    | none => true
    | some b => b.value.value < x.value || (!b.strict && b.value.value == x.value)) &&
  (match range.max with
    | none => true
    | some b => x.value < b.value.value || (!b.strict && x.value == b.value.value))

@[simp] theorem Range.full_contains (x : Binary64) : Range.full.contains x = true := rfl

end Binary64

end ChatCommand
