import CausalUpdate.Decimal.Shortest

/-!
# How numbers are written

* `shortestText` — the shortest decimal that reads back.  Numbers from `10 ^ -4` up to but not
  including `10 ^ 16` are written positionally with at least one digit after the point, all others
  with an exponent of at least two digits.
* `tenthsText` — one digit after the point, a tie to the even neighbour.
-/

namespace CausalUpdate.Decimal

/-- The decimal digits of a whole number. -/
def digitsOf (n : Nat) : List Char :=
  n.repr.toList

/-- Digits without the zeros at their end; at least one digit stays. -/
def dropZeros (ds : List Char) : List Char :=
  match (ds.reverse.dropWhile (· = '0')).reverse with
  | [] => ['0']
  | kept => kept

/-- Digits with a fraction behind a point.  Without a fraction the point is left out, unless it is
always written. -/
def pointed (always : Bool) (whole fraction : List Char) : List Char :=
  if fraction.isEmpty && !always then whole else whole ++ '.' :: fraction

/-- The digits before and behind the point if there are `whole` digits before it, with zeros where
digits are missing. -/
def splitDigits (ds : List Char) (whole : Int) : List Char × List Char :=
  if whole ≤ 0 then (['0'], List.replicate (-whole).toNat '0' ++ ds)
  else
    let n := whole.toNat
    (ds.take n ++ List.replicate (n - ds.length) '0', ds.drop n)

/-- Digits with the point after the first `whole` of them and at least one digit behind it. -/
def positional (ds : List Char) (whole : Int) : List Char :=
  let (front, back) := splitDigits ds whole
  pointed true front (if back.isEmpty then ['0'] else back)

/-- Digits with the point after the first of them, and the exponent of the first. -/
def scientific (always : Bool) (ds : List Char) (exponent : Int) : List Char :=
  let size := digitsOf exponent.natAbs
  pointed always (ds.take 1) (ds.drop 1) ++ 'e' :: (if exponent < 0 then '-' else '+') ::
    (List.replicate (2 - size.length) '0' ++ size)

/-- A decimal with digits, positional where the exponent of its first digit allows it. -/
def Scaled.text (always : Bool) (s : Scaled) : List Char :=
  let all := digitsOf s.digits
  let exponent := s.exponent + all.length - 1
  let ds := dropZeros all
  if -4 ≤ exponent ∧ exponent < 16 then positional ds (exponent + 1)
  else scientific always ds exponent

/-- The shortest text of a magnitude that reads back; the point is always written if that is asked
for. -/
def shortestDigits (always : Bool) (m : Nat) (q : Int) : List Char :=
  if m = 0 then ['0', '.', '0'] else (Reading.of m q).shortest.text always

/-- The text of a number whose finite magnitudes are written by `body`. -/
def signed (body : Nat → Int → List Char) (x : Float) : String :=
  let d := decode x
  let sign := if d.negative then ['-'] else []
  match d.magnitude with
  | .finite m q => String.ofList (sign ++ body m q)
  | .infinite => String.ofList (sign ++ ['i', 'n', 'f'])
  | .notANumber => "nan"

/-- The shortest text that reads back. -/
def shortestText (x : Float) : String :=
  signed (shortestDigits false) x

/-- The text with one digit after the point. -/
def tenthsText (x : Float) : String :=
  signed (fun m q =>
    let tenths := roundHalfEven ((Fraction.scaled m 2 q).mul ⟨10, 1⟩)
    digitsOf (tenths / 10) ++ '.' :: digitsOf (tenths % 10)) x

end CausalUpdate.Decimal
