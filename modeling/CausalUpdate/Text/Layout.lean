import CausalUpdate.Text.Digit
import CausalUpdate.Text.Quoted

/-!
# Layouts

A layout says how a value is fitted into a field: with which character the field is filled up, on
which side, how wide the field is, and how much of the value is shown.  Some of its parts are meant
for numbers only, and a text refuses them.

* `Layout.read` — the layout that a text writes.
* `Layout.fitText`, `Layout.fitWhole` — a text or a whole number fitted into its field.
* `Layout.fitNumber` — the written parts of any number fitted into its field.
-/

namespace CausalUpdate.Text

/-! ## Layouts -/

/-- Where a value stands in its field. -/
inductive Alignment
  | left
  | centre
  | right
  /-- The field is filled up between the sign of a number and its digits. -/
  | inside
deriving DecidableEq, Repr

/-- How a value is fitted into a field. -/
structure Layout where
  /-- The character that fills the field up. -/
  fill : Char := ' '
  alignment : Option Alignment := none
  /-- How the sign of a number that is not negative is shown. -/
  sign : Option Char := none
  /-- Zero has no sign. -/
  plainZero : Bool := false
  /-- Numbers are shown in their alternate form. -/
  alternate : Bool := false
  /-- The field is filled up with zeros behind the sign of a number, if nothing else is said. -/
  zeros : Bool := false
  /-- The least width of the field. -/
  width : Nat := 0
  /-- The mark between groups of digits. -/
  separator : Option Char := none
  /-- The most characters of a text that are shown, or how many digits of a number are. -/
  precision : Option Nat := none
  /-- The form in which the value is shown. -/
  code : Option Char := none
deriving DecidableEq, Repr

/-- Why a value cannot be laid out. -/
inductive LayoutError
  /-- A width or a precision is too large for a count. -/
  | tooManyDigits
  /-- Both marks for groups of digits are given. -/
  | twoSeparators
  /-- Nothing stands behind the point of a precision. -/
  | noPrecision
  /-- The text is no layout for values of a kind. -/
  | malformed (text kind : String)
  /-- Groups of digits make no sense in a form. -/
  | needlessSeparator (separator code : Char)
  /-- Values of a kind have no such form. -/
  | unknownCode (code : Char) (kind : String)
  /-- A text is given a space for a sign. -/
  | space
  /-- A text is given a sign. -/
  | sign
  | plainZero
  | alternate
  | inside
  /-- A number is asked for with too many digits. -/
  | tooPrecise
  /-- A whole number is given a precision. -/
  | precisionOfWhole
  /-- A whole number is given a rule about its sign that is meant for rounded numbers. -/
  | plainZeroOfWhole
  /-- A character is given a sign. -/
  | signOfCharacter
  /-- A character is asked for in its alternate form. -/
  | alternateCharacter
  /-- No character has the number. -/
  | noCharacter
  /-- The field is too wide to be filled. -/
  | tooWide
deriving DecidableEq, Repr

/-- A number in hexadecimal digits, as few as possible. -/
def shortHex (n : Nat) : String :=
  String.ofList (Nat.toDigits 16 n)

/-- The character of a form as messages show it. -/
def shownCode (c : Char) : String :=
  if 32 < c.toNat ∧ c.toNat < 128 then String.ofList [c] else "\\x" ++ shortHex c.toNat

def LayoutError.message : LayoutError → String
  | .tooManyDigits => "Too many decimal digits in format string"
  | .twoSeparators => "Cannot specify both ',' and '_'."
  | .noPrecision => "Format specifier missing precision"
  | .malformed text kind => s!"Invalid format specifier '{text}' for object of type '{kind}'"
  | .needlessSeparator separator code =>
    s!"Cannot specify '{separator}' with '{shownCode code}'."
  | .unknownCode code kind =>
    s!"Unknown format code '{shownCode code}' for object of type '{kind}'"
  | .space => "Space not allowed in string format specifier"
  | .sign => "Sign not allowed in string format specifier"
  | .plainZero => "Negative zero coercion (z) not allowed in string format specifier"
  | .alternate => "Alternate form (#) not allowed in string format specifier"
  | .inside => "'=' alignment not allowed in string format specifier"
  | .tooPrecise => "precision too big"
  | .precisionOfWhole => "Precision not allowed in integer format specifier"
  | .plainZeroOfWhole => "Negative zero coercion (z) not allowed in integer format specifier"
  | .signOfCharacter => "Sign not allowed with integer format specifier 'c'"
  | .alternateCharacter =>
    "Alternate form (#) not allowed with integer format specifier 'c'"
  | .noCharacter => "%c arg not in range(0x110000)"
  | .tooWide => ""

/-! ## Reading -/

/-- The alignment that a character stands for. -/
def Alignment.ofChar? : Char → Option Alignment
  | '<' => some .left
  | '^' => some .centre
  | '>' => some .right
  | '=' => some .inside
  | _ => none

namespace Layout

/-- The character that a text begins with, if it is of a class, and the text after it. -/
def takeIf (p : Char → Bool) : List Char → Option Char × List Char
  | [] => (none, [])
  | c :: cs => if p c then (some c, cs) else (none, c :: cs)

/-- The character to fill up with and the alignment that a text begins with, and the text after
them. -/
def readAlignment (cs : List Char) : Option Char × Option Alignment × List Char :=
  match cs[1]?.bind Alignment.ofChar?, cs.head?.bind Alignment.ofChar? with
  | some a, _ => (cs.head?, some a, cs.drop 2)
  | none, some a => (none, some a, cs.drop 1)
  | none, none => (none, none, cs)

/-- The number that a text begins with, and the text after it. -/
def readNumber (cs : List Char) : Except LayoutError (Nat × List Char) :=
  match readCount cs with
  | some r => .ok r
  | none => .error .tooManyDigits

/-- The mark between groups of digits that a text begins with, and the text after it. -/
def readSeparator (cs : List Char) : Except LayoutError (Option Char × List Char) :=
  let (comma, cs) := takeIf (· = ',') cs
  let (underscore, cs) := takeIf (· = '_') cs
  if underscore.isSome && (comma.isSome || cs.head? = some ',') then .error .twoSeparators
  else .ok (comma.or underscore, cs)

/-- The precision that a text begins with, and the text after it. -/
def readPrecision : List Char → Except LayoutError (Option Nat × List Char)
  | '.' :: cs => do
    let (n, rest) ← readNumber cs
    if (cs.head?.any isDecimal) then return (some n, rest) else throw .noPrecision
  | cs => return (none, cs)

/-- The character that stands for no form. -/
def noCode : Char := '\x00'

/-- The forms whose digits can be grouped by any mark; values without a form belong to them. -/
def groupedCodes : List Char :=
  [noCode, 'd', 'e', 'f', 'g', 'E', 'G', '%', 'F']

/-- The further forms whose digits can be grouped by underscores. -/
def underscoredCodes : List Char :=
  ['b', 'o', 'x', 'X']

/-- The mark between groups of digits goes with the form. -/
def checkSeparator (separator code : Option Char) : Except LayoutError Unit :=
  match separator, code with
  | some s, some c =>
    if groupedCodes.contains c || (s = '_' && underscoredCodes.contains c) then .ok ()
    else .error (.needlessSeparator s c)
  | _, _ => .ok ()

/-- The layout that a text writes for values of a kind, which are shown in the form `code` if the
text gives none. -/
def read (kind : String) (code : Option Char) (text : List Char) : Except LayoutError Layout := do
  let (fill, alignment, cs) := readAlignment text
  let (sign, cs) := takeIf ([' ', '+', '-'].contains ·) cs
  let (plainZero, cs) := takeIf (· = 'z') cs
  let (alternate, cs) := takeIf (· = '#') cs
  let (zero, cs) := if fill.isSome then (none, cs) else takeIf (· = '0') cs
  let (width, cs) ← readNumber cs
  let (separator, cs) ← readSeparator cs
  let (precision, cs) ← readPrecision cs
  if 1 < cs.length then throw (.malformed (String.ofList text) kind)
  let code := cs.head?.or code
  checkSeparator separator code
  return {
    fill := (fill.or zero).getD ' '
    alignment, sign, plainZero := plainZero.isSome, alternate := alternate.isSome
    zeros := zero.isSome && alignment.isNone
    width, separator, precision, code }

/-! ## Fitting -/

/-- The width from which on a field cannot be filled. -/
def widthLimit : Nat := 1000000000

/-- A text in a field of a given width. -/
def pad (fill : Char) (a : Alignment) (width : Nat) (cs : List Char) : List Char :=
  let missing := width - cs.length
  let before :=
    match a with
    | .left => 0
    | .centre => missing / 2
    | .right | .inside => missing
  List.replicate before fill ++ cs ++ List.replicate (missing - before) fill

/-- A text fitted into its field; what makes sense for numbers only is refused. -/
def fitText (l : Layout) (cs : List Char) : Except LayoutError (List Char) :=
  if l.sign = some ' ' then .error .space
  else if l.sign.isSome then .error .sign
  else if l.plainZero then .error .plainZero
  else if l.alternate then .error .alternate
  else if l.alignment = some .inside then .error .inside
  else if widthLimit ≤ l.width then .error .tooWide
  else .ok (pad l.fill (l.alignment.getD .left) l.width (cs.take (l.precision.getD cs.length)))

/-! ### Numbers -/

/-- How many digits a number needs at least, in groups of `size` with a mark between them, to fill
so many places.  No mark stands in front. -/
def digitsToFill (size places : Nat) : Nat :=
  places - places / (size + 1) + if places % (size + 1) = 0 then 1 else 0

/-- Digits, the last one first, with a mark after every `size` of them; `room` counts the digits
before the next mark. -/
def markedFrom (mark : Char) (size : Nat) : (room : Nat) → List Char → List Char
  | _, [] => []
  | 0, c :: cs => mark :: c :: markedFrom mark size (size - 1) cs
  | room + 1, c :: cs => c :: markedFrom mark size room cs

/-- Digits in groups of `size`, with zeros before them if they do not fill so many places. -/
def marked (mark : Char) (size places : Nat) (digits : List Char) : List Char :=
  let missing := digitsToFill size places - digits.length
  (markedFrom mark size size (digits.reverse ++ List.replicate missing '0')).reverse

/-- How the sign of a number is shown. -/
def shownSign (l : Layout) (negative : Bool) : List Char :=
  if negative then ['-'] else (l.sign.filter (· ≠ '-')).toList

/-- A number fitted into its field, at the right end if nothing else is said: what comes before its
digits, its digits up to the point in groups of `size`, and the rest. -/
def fitNumber (l : Layout) (size : Nat) (front digits rest : List Char) :
    Except LayoutError (List Char) :=
  if widthLimit ≤ l.width then .error .tooWide
  else
    let inside := l.zeros || l.alignment = some .inside
    let places := if inside && l.fill = '0' then l.width - front.length - rest.length else 0
    let grouped :=
      match l.separator with
      | some mark => if digits.isEmpty then digits else marked mark size places digits
      | none => digits
    if inside then .ok (front ++ pad l.fill .right (l.width - front.length) (grouped ++ rest))
    else .ok (pad l.fill (l.alignment.getD .right) l.width (front ++ grouped ++ rest))

/-- The base in which a form shows whole numbers. -/
def baseOf : Char → Nat
  | 'b' => 2
  | 'o' => 8
  | 'x' | 'X' => 16
  | _ => 10

/-- The digits of a whole number in a form. -/
def wholeDigits (code : Char) (n : Nat) : List Char :=
  let digits := Nat.toDigits (baseOf code) n
  if code = 'X' then digits.map Char.toUpper else digits

/-- A whole number as the character that has it. -/
def fitCharacter (l : Layout) (n : Int) : Except LayoutError (List Char) :=
  if l.sign.isSome then .error .signOfCharacter
  else if l.alternate then .error .alternateCharacter
  else if n < 0 ∨ 0x110000 ≤ n then .error .noCharacter
  else l.fitNumber 3 [] [] [Char.ofNat n.toNat]

/-- A whole number fitted into its field. -/
def fitWhole (l : Layout) (n : Int) : Except LayoutError (List Char) :=
  let code := l.code.getD 'd'
  let base := baseOf code
  let mark := if l.alternate && base ≠ 10 then ['0', code] else []
  if l.precision.isSome then .error .precisionOfWhole
  else if l.plainZero then .error .plainZeroOfWhole
  else if code = 'c' then l.fitCharacter n
  else
    l.fitNumber (if base = 10 then 3 else 4) (l.shownSign (n < 0) ++ mark)
      (wholeDigits code n.natAbs) []

@[simp] theorem pad_zero (fill : Char) (a : Alignment) (cs : List Char) :
    pad fill a 0 cs = cs := by
  simp only [pad, Nat.zero_sub]
  cases a <;> simp

/-- A padded text is as wide as the field, unless the text is wider. -/
theorem length_pad (fill : Char) (a : Alignment) (width : Nat) (cs : List Char) :
    (pad fill a width cs).length = max width cs.length := by
  cases a <;> simp only [pad, List.length_append, List.length_replicate] <;> omega

end Layout

end CausalUpdate.Text
