import CausalUpdate.Text.Printable

/-!
# Quoted text

Messages and listings show a text between quotes.  The quote is single, unless the text holds a
single quote and no double one.  The quote itself and the backslash are written behind a backslash;
tab, line feed and carriage return have short escapes; any other character that is not printable is
written by its code point, in two, four or eight hexadecimal digits, the fewest that hold it.

* `hexDigits` — a number in a fixed count of hexadecimal digits.
* `quoted` — the text between quotes.
* `asciiOnly` — the text with only its characters beyond ASCII escaped.
-/

namespace CausalUpdate.Text

/-- The hexadecimal digit of a value below sixteen, in lower case. -/
def hexDigit (n : Nat) : Char :=
  if n < 10 then Char.ofNat ('0'.toNat + n) else Char.ofNat ('a'.toNat + (n - 10))

/-- The lowest `width` hexadecimal digits of a number, the most significant first. -/
def hexDigits : (width : Nat) → Nat → List Char
  | 0, _ => []
  | width + 1, n => hexDigits width (n / 16) ++ [hexDigit (n % 16)]

@[simp] theorem length_hexDigits (width n : Nat) : (hexDigits width n).length = width := by
  induction width generalizing n with
  | zero => rfl
  | succ width ih => simp [hexDigits, ih]

/-- The quote that is put around a text. -/
def quoteFor (cs : List Char) : Char :=
  if cs.contains '\'' && !cs.contains '"' then '"' else '\''

/-- A character written by its code point. -/
def codeEscape (c : Char) : List Char :=
  if c.toNat < 0x100 then '\\' :: 'x' :: hexDigits 2 c.toNat
  else if c.toNat < 0x10000 then '\\' :: 'u' :: hexDigits 4 c.toNat
  else '\\' :: 'U' :: hexDigits 8 c.toNat

/-- A character as it stands inside quotes. -/
def quotedChar (quote c : Char) : List Char :=
  if c = quote ∨ c = '\\' then ['\\', c]
  else if c = '\t' then ['\\', 't']
  else if c = '\n' then ['\\', 'n']
  else if c = '\r' then ['\\', 'r']
  else if isPrintable c then [c]
  else codeEscape c

def quotedChars (cs : List Char) : List Char :=
  quoteFor cs :: cs.flatMap (quotedChar (quoteFor cs)) ++ [quoteFor cs]

def quoted (s : String) : String :=
  String.ofList (quotedChars s.toList)

/-- The text with every character beyond ASCII written by its code point. -/
def asciiOnly (cs : List Char) : List Char :=
  cs.flatMap fun c => if c.toNat < 0x80 then [c] else codeEscape c

end CausalUpdate.Text
