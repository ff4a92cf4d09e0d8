import CausalUpdate.Decimal.Notation
import CausalUpdate.Text.Layout

/-!
# Forms of numbers

A layout asks for a number in one of several forms: with a fixed count of digits behind the point,
with an exponent, as hundredths, or in the general form, which writes an exponent only if the number
is very large or very small and drops the zeros at the end.  Without a form the shortest decimal
that reads back is written, or a general form that always has a digit behind the point.

Every form rounds the exact value of the number once; a tie goes to the even neighbour.

* `formText` — a magnitude in the form that a layout asks for.
* `Layout.fitDecimal` — a number fitted into its field.
-/

namespace CausalUpdate.Decimal

open CausalUpdate.Text

/-! ## Rounding -/

/-- Digits with zeros before them, if there are fewer than `count`. -/
def atLeast (count : Nat) (ds : List Char) : List Char :=
  List.replicate (count - ds.length) '0' ++ ds

/-- A number rounded to `count` digits, and the exponent of the first of them. -/
def significant (x : Fraction) (count : Nat) : List Char × Int :=
  if x.num = 0 then (atLeast count [], 0)
  else
    let exponent := decade x
    let n := roundHalfEven (x.mul (Fraction.scaled 1 10 (count - 1 - exponent)))
    let ds := digitsOf n
    if ds.length ≤ count then (ds, exponent) else (ds.take count, exponent + 1)

/-! ## Forms -/

/-- A number with a fixed count of digits behind the point. -/
def fixedText (always : Bool) (places : Nat) (x : Fraction) : List Char :=
  let unit := Nat.pow 10 places
  let n := roundHalfEven (x.mul ⟨unit, 1⟩)
  let fraction := if places = 0 then [] else atLeast places (digitsOf (n % unit))
  pointed always (digitsOf (n / unit)) fraction

/-- A number with an exponent and a count of digits behind the point. -/
def exponentText (always : Bool) (places : Nat) (x : Fraction) : List Char :=
  let (ds, exponent) := significant x (places + 1)
  scientific always ds exponent

/-- The most digits that a number has; any further ones are zeros. -/
def digitLimit : Nat := 800

/-- A number rounded to `count` digits, with an exponent if the first of them stands far from the
point.  If it is `dotted`, at least one digit stands behind the point. -/
def generalText (always dotted : Bool) (count : Nat) (x : Fraction) : List Char :=
  let (all, exponent) := significant x (if always then count else min count digitLimit)
  let ds := if always then all else dropZeros all
  let limit : Int := if dotted then (count : Int) - 1 else count
  if exponent < -4 ∨ limit ≤ exponent then scientific always ds exponent
  else if dotted then positional ds (exponent + 1)
  else
    let (front, back) := splitDigits ds (exponent + 1)
    pointed always front back

/-- How many digits a form shows if the layout does not say it. -/
def defaultPlaces : Nat := 6

/-- The magnitude `m · 2 ^ q` in the form that a layout asks for. -/
def formText (l : Layout) (m : Nat) (q : Int) : List Char :=
  let x := Fraction.scaled m 2 q
  let places := l.precision.getD defaultPlaces
  match l.code.map Char.toLower, l.precision with
  | none, none => shortestDigits l.alternate m q
  | none, some count => generalText l.alternate true (max count 1) x
  | some 'e', _ => exponentText l.alternate places x
  | some 'f', _ | some '%', _ => fixedText l.alternate places x
  | some _, _ => generalText l.alternate false (max places 1) x

/-- A number in the form that a layout asks for, without its sign. -/
def magnitudeText (l : Layout) : Magnitude → List Char
  | .finite m q => formText l m q
  | .infinite => ['i', 'n', 'f']
  | .notANumber => ['n', 'a', 'n']

end CausalUpdate.Decimal

namespace CausalUpdate.Text.Layout

open CausalUpdate.Decimal

/-! ## Fitting -/

/-- The count of digits from which on a number cannot be written. -/
def precisionLimit : Nat := 0x80000000

/-- The characters without which a number is zero. -/
def isNonzeroDigit (c : Char) : Bool :=
  '1' ≤ c && c ≤ '9'

/-- A magnitude as it is written in a field, in upper case if the form is. -/
def writtenMagnitude (l : Layout) (m : Magnitude) : List Char :=
  let written := magnitudeText l m
  if l.code.any Char.isUpper then written.map Char.toUpper else written

def isWrittenZero (written : List Char) : Bool :=
  let digits := written.takeWhile fun c => c.isDigit || c = '.'
  !digits.isEmpty && !digits.any isNonzeroDigit

/-- A number fitted into its field.  Zero keeps the sign it has or is rounded from, unless the
layout says otherwise. -/
def fitDecimal (l : Layout) (x : Float) : Except LayoutError (List Char) :=
  if l.precision.any (precisionLimit ≤ ·) then .error .tooPrecise
  else
    let percent := l.code = some '%'
    let d := decode (if percent then x * 100 else x)
    let written := writtenMagnitude l d.magnitude
    let plus := d.magnitude = .notANumber || (l.plainZero && isWrittenZero written)
    let rest := written.dropWhile Char.isDigit ++ if percent then ['%'] else []
    l.fitNumber 3 (l.shownSign (d.negative && !plus)) (written.takeWhile Char.isDigit) rest

end CausalUpdate.Text.Layout
