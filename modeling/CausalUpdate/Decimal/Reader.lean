import CausalUpdate.Text.Digit

/-!
# Reading decimal numbers

`readFloat` reads a number with an optional sign, a fraction and an exponent, or the words for
infinity and for what is not a number, in either case.  Digits may come from any script, single
underscores may stand between two digits, and blanks may surround the number.  The nearest double is
taken; numbers that are too large become infinite and those that are too small become zero.
-/

namespace CausalUpdate.Decimal

open CausalUpdate.Text

/-! ## Preparing the text -/

/-- A decimal digit of any script as an ASCII digit; other characters as they are. -/
def plainDigit (c : Char) : Char :=
  match digitValue? c with
  | some d => Char.ofNat ('0'.toNat + d)
  | none => c

/-- The text without underscores, if each of them stands between two digits; `before` tells whether
a digit stands in front of the text. -/
def withoutUnderscores (before : Bool) : List Char → Option (List Char)
  | [] => some []
  | '_' :: d :: cs =>
    if before && d.isDigit then (withoutUnderscores true cs).map (d :: ·) else none
  | c :: cs =>
    if c = '_' then none else (withoutUnderscores c.isDigit cs).map (c :: ·)

/-! ## The parts of a number -/

/-- The exponent behind a number, which is zero if there is none. -/
def readExponent : List Char → Option Int
  | [] => some 0
  | mark :: cs =>
    if mark.toLower = 'e' then
      let (negative, ds) := readSign cs
      if ds.isEmpty || !ds.all Char.isDigit then none
      else
        let e : Int := ofDigits (ds.filterMap digitValue?)
        some (if negative then -e else e)
    else none

/-- The digits of an unsigned number as one whole number, and the power of ten it is scaled by. -/
def readUnsigned (cs : List Char) : Option (Nat × Int) :=
  let whole := cs.takeWhile Char.isDigit
  let (fraction, rest) :=
    match cs.dropWhile Char.isDigit with
    | '.' :: rest => (rest.takeWhile Char.isDigit, rest.dropWhile Char.isDigit)
    | rest => ([], rest)
  if whole.isEmpty && fraction.isEmpty then none
  else
    (readExponent rest).map fun e =>
      (ofDigits ((whole ++ fraction).filterMap digitValue?), e - fraction.length)

/-- The double nearest to a whole number times a power of ten. -/
def nearestFloat (n : Nat) (e : Int) : Float :=
  let size : Int := n.repr.length + e
  if n = 0 ∨ size < -400 then 0.0
  else if 400 < size then 1.0 / 0.0
  else if 0 ≤ e then Float.ofScientific n false e.toNat
  else Float.ofScientific n true (-e).toNat

/-- The words for numbers that have no digits. -/
def readWord (cs : List Char) : Option Float :=
  let word := String.ofList (cs.map Char.toLower)
  if word = "inf" ∨ word = "infinity" then some (1.0 / 0.0)
  else if word = "nan" then some (0.0 / 0.0)
  else none

/-- The number that a text writes. -/
def readFloat (cs : List Char) : Option Float := do
  let cs ← withoutUnderscores false ((trimBy isMargin cs).map plainDigit)
  let (negative, unsigned) := readSign cs
  let x ← (readWord unsigned).or ((readUnsigned unsigned).map fun (n, e) => nearestFloat n e)
  return if negative then -x else x

end CausalUpdate.Decimal
