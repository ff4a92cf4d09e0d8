/-!
# Floating-point numbers as exact fractions

A finite double is a whole number times a power of two.  `decode` takes it apart, and `Fraction` is
the exact value that printing compares and rounds.

* `Decoded` — zero, a finite number `m · 2 ^ q`, an infinity, or not a number.
* `Fraction` — a quotient of naturals.
* `roundHalfEven` — a quotient to the nearest whole number, a tie to the even neighbour.
-/

namespace CausalUpdate.Decimal

/-! ## Taking a number apart -/

/-- What a double is, apart from its sign. -/
inductive Magnitude
  /-- The number `m · 2 ^ q`. -/
  | finite (m : Nat) (q : Int)
  | infinite
  | notANumber
deriving DecidableEq, Repr

/-- A double taken apart: the sign bit and the magnitude. -/
structure Decoded where
  negative : Bool
  magnitude : Magnitude
deriving DecidableEq, Repr

/-- The leading bit that is not written, above the 52 bits of the fraction. -/
def hiddenBit : Nat := 0x10000000000000

/-- The parts of the double with these 64 bits: a sign bit, eleven bits of exponent and 52 bits of
fraction.  The lowest exponent has no hidden bit, and the highest marks the values that are not
finite. -/
def decodeBits (bits : Nat) : Decoded :=
  let exponent : Nat := bits / hiddenBit % 2048
  let fraction : Nat := bits % hiddenBit
  let magnitude :=
    if exponent = 2047 then if fraction = 0 then .infinite else .notANumber
    else if exponent = 0 then .finite fraction (-1074)
    else .finite (hiddenBit + fraction) ((exponent : Int) - 1075)
  ⟨bits / (2048 * hiddenBit) % 2 = 1, magnitude⟩

def decode (x : Float) : Decoded :=
  decodeBits x.toBits.toNat

/-! ## Fractions -/

/-- The quotient of two naturals; the denominator is never zero here. -/
structure Fraction where
  num : Nat
  den : Nat
deriving DecidableEq, Repr

/-- The whole number `n` times a power of the base. -/
def Fraction.scaled (n : Nat) (base : Nat) (e : Int) : Fraction :=
  if 0 ≤ e then ⟨n * base.pow e.toNat, 1⟩ else ⟨n, base.pow (-e).toNat⟩

/-- The first fraction is at most the second. -/
def Fraction.le (a b : Fraction) : Bool :=
  a.num * b.den ≤ b.num * a.den

/-- The first fraction is less than the second. -/
def Fraction.lt (a b : Fraction) : Bool :=
  a.num * b.den < b.num * a.den

def Fraction.mul (a b : Fraction) : Fraction :=
  ⟨a.num * b.num, a.den * b.den⟩

/-- The whole part of a fraction. -/
def Fraction.floor (a : Fraction) : Nat :=
  a.num / a.den

def Fraction.dist (a b : Fraction) : Fraction :=
  let x := a.num * b.den
  let y := b.num * a.den
  ⟨(x - y) + (y - x), a.den * b.den⟩

/-- The nearest whole number; of two that are equally near, the even one. -/
def roundHalfEven (a : Fraction) : Nat :=
  let below := a.num / a.den
  let twice := 2 * (a.num % a.den)
  if twice < a.den then below
  else if a.den < twice then below + 1
  else if below % 2 = 0 then below
  else below + 1

end CausalUpdate.Decimal
