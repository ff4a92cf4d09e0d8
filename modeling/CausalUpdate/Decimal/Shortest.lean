import CausalUpdate.Decimal.Binary

/-!
# The shortest decimal that reads back

Around a finite double lies an interval of numbers that are read as that double: the two ends are
half-way to its neighbours, and they belong to it when the significand is even.  The shortest
decimal of the double is a decimal in that interval with the fewest digits, and of those the
nearest.

If a grid of decimals meets the interval at all, one of the two grid points next to the double does;
so it is enough to try those two for one digit, two digits, up to seventeen.
-/

namespace CausalUpdate.Decimal

/-- A positive decimal: its digits as one whole number, times a power of ten. -/
structure Scaled where
  digits : Nat
  exponent : Int
deriving DecidableEq, Repr

def Scaled.toFraction (s : Scaled) : Fraction :=
  Fraction.scaled s.digits 10 s.exponent

/-- The interval of numbers that are read as one double. -/
structure Reading where
  low : Fraction
  value : Fraction
  high : Fraction
  /-- The two ends are read as the double as well. -/
  closed : Bool

/-- The interval around `m · 2 ^ q`.  Below a power of two the neighbour is twice as near, except
among the numbers of the lowest exponent. -/
def Reading.of (m : Nat) (q : Int) : Reading :=
  let below := if m = hiddenBit ∧ -1074 < q then 1 else 2
  { low := Fraction.scaled (4 * m - below) 2 (q - 2)
    value := Fraction.scaled m 2 q
    high := Fraction.scaled (4 * m + 2) 2 (q - 2)
    closed := m % 2 = 0 }

/-- The number is read as the double. -/
def Reading.holds (r : Reading) (x : Fraction) : Bool :=
  if r.closed then r.low.le x && x.le r.high else r.low.lt x && x.lt r.high

/-- The power of ten that begins the decade of a positive number. -/
def decade (x : Fraction) : Int :=
  let power := fun i : Nat => (308 : Int) - i
  match (List.range 640).find? fun i => (Fraction.scaled 1 10 (power i)).le x with
  | some i => power i
  | none => -324

/-- The decimal of `count` digits that is read as the double and is nearest to it. -/
def Reading.atDigits (r : Reading) (count : Nat) : Option Scaled :=
  let exponent := decade r.value - (count - 1)
  let below := (r.value.mul (Fraction.scaled 1 10 (-exponent))).floor
  let candidate := fun d : Nat => (⟨d, exponent⟩ : Scaled)
  let distance := fun d : Nat => (candidate d).toFraction.dist r.value
  match r.holds (candidate below).toFraction, r.holds (candidate (below + 1)).toFraction with
  | false, false => none
  | true, false => some (candidate below)
  | false, true => some (candidate (below + 1))
  | true, true =>
    let lower := distance below
    let upper := distance (below + 1)
    if lower.lt upper then some (candidate below)
    else if upper.lt lower then some (candidate (below + 1))
    else some (candidate (if below % 2 = 0 then below else below + 1))

/-- The shortest decimal that is read as the double; seventeen digits are always enough. -/
def Reading.shortest (r : Reading) : Scaled :=
  ((List.range 17).findSome? fun i => r.atDigits (i + 1)).getD ⟨0, 0⟩

end CausalUpdate.Decimal
