import CausalUpdate.Text.Blank
import CausalUpdate.Text.Pieces

/-!
# Decimal digits and whole numbers in text

A decimal digit may come from any script of the Unicode standard: each script has its ten digits in
a row, so a table of the zeros is enough.

* `digitValue?` — the value of a decimal digit.
* `digitRun` — a run of digits in which single underscores may stand between two digits.
* `readInteger` — a whole number with an optional sign and blanks around it.  More than
  `digitLimit` digits are refused, however small the number is.
* `readCount` — the number that a text begins with, unless it is too large for a count.
-/

namespace CausalUpdate.Text

/-! ## Digits -/

/-- The code points of the digits zero. -/
def zeroDigits : List Nat :=
  [0x0030, 0x0660, 0x06F0, 0x07C0, 0x0966, 0x09E6, 0x0A66, 0x0AE6, 0x0B66, 0x0BE6, 0x0C66, 0x0CE6,
   0x0D66, 0x0DE6, 0x0E50, 0x0ED0, 0x0F20, 0x1040, 0x1090, 0x17E0, 0x1810, 0x1946, 0x19D0, 0x1A80,
   0x1A90, 0x1B50, 0x1BB0, 0x1C40, 0x1C50, 0xA620, 0xA8D0, 0xA900, 0xA9D0, 0xA9F0, 0xAA50, 0xABF0,
   0xFF10, 0x104A0, 0x10D30, 0x11066, 0x110F0, 0x11136, 0x111D0, 0x112F0, 0x11450, 0x114D0,
   0x11650, 0x116C0, 0x11730, 0x118E0, 0x11950, 0x11C50, 0x11D50, 0x11DA0, 0x16A60, 0x16AC0,
   0x16B50, 0x1D7CE, 0x1D7D8, 0x1D7E2, 0x1D7EC, 0x1D7F6, 0x1E140, 0x1E2F0, 0x1E950, 0x1FBF0]

/-- The value of a decimal digit of any script. -/
def digitValue? (c : Char) : Option Nat :=
  zeroDigits.findSome? fun first =>
    if first ≤ c.toNat ∧ c.toNat < first + 10 then some (c.toNat - first) else none

/-- The character is a decimal digit. -/
def isDecimal (c : Char) : Bool :=
  (digitValue? c).isSome

/-- The number written by digits, the most significant first. -/
def ofDigits (ds : List Nat) : Nat :=
  ds.foldl (fun n d => 10 * n + d) 0

theorem digitValue?_lt {c : Char} {d : Nat} (h : digitValue? c = some d) : d < 10 := by
  obtain ⟨_, _, hz⟩ := List.exists_of_findSome?_eq_some h
  split at hz
  · simp only [Option.some.injEq] at hz; omega
  · simp at hz

/-! ## Runs of digits -/

/-- The character may stand before or after a number in a text: any blank but an information
separator. -/
def isMargin (c : Char) : Bool :=
  isBlank c && !(0x1C ≤ c.toNat && c.toNat ≤ 0x1F)

/-- The digits that `run` begins with, and the text after them.  Underscores belong to the
run of digits, and each of them needs a digit on either side. -/
def digitRun (run : List Char) : Option (List Nat × List Char) :=
  let inRun := fun c => isDecimal c || c = '_'
  let groups := pieces (· = '_') (run.takeWhile inRun)
  if groups.any List.isEmpty then none
  else some (groups.flatten.filterMap digitValue?, run.dropWhile inRun)

/-! ## Whole numbers -/

/-- The most digits that a whole number may be written with. -/
def digitLimit : Nat := 4300

/-- Why a text is no whole number. -/
inductive IntegerFault
  /-- The text is not written as a whole number. -/
  | malformed
  /-- The number has more digits than `digitLimit`. -/
  | tooLong (digits : Nat)
deriving DecidableEq, Repr

/-- What is said of a number with too many digits. -/
def tooLongMessage (digits : Nat) : String :=
  s!"Exceeds the limit ({digitLimit} digits) for integer string conversion: value has {digits} " ++
    "digits; use sys.set_int_max_str_digits() to increase the limit"

/-- The sign in front of a number, and the text after it. -/
def readSign : List Char → Bool × List Char
  | '-' :: cs => (true, cs)
  | '+' :: cs => (false, cs)
  | cs => (false, cs)

/-- The whole number that a text writes. -/
def readInteger (cs : List Char) : Except IntegerFault Int :=
  let (negative, unsigned) := readSign (cs.dropWhile isMargin)
  match digitRun unsigned with
  | none => .error .malformed
  | some (ds, rest) =>
    if digitLimit < ds.length then .error (.tooLong ds.length)
    else if rest.all isMargin then
      .ok (if negative then -(ofDigits ds : Int) else ofDigits ds)
    else .error .malformed

/-! ## Counts -/

def countLimit : Nat := 9223372036854775807

/-- The number whose digits a text begins with, zero if there are none, and the text after them.
There is none if the number is too large for a count. -/
def readCount (cs : List Char) : Option (Nat × List Char) :=
  let n := ofDigits ((cs.takeWhile isDecimal).filterMap digitValue?)
  if countLimit < n then none else some (n, cs.dropWhile isDecimal)

end CausalUpdate.Text
