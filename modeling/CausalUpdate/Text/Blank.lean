import CausalUpdate.Text.Ranges

/-!
# Blank characters

The characters that separate words and that trimming removes: the white space of the Unicode
standard together with the four information separators.  The zero-width space, the Mongolian
vowel separator and the byte order mark are not blank.

* `isBlank` — the class.
* `trim` — a text without the blanks at either end.
* `trimBy` — the same for any class of characters.
-/

namespace CausalUpdate.Text

/-! ## The class -/

/-- The code points of the blank characters. -/
def blankRanges : Ranges :=
  [(0x09, 0x0D), (0x1C, 0x20), (0x85, 0x85), (0xA0, 0xA0), (0x1680, 0x1680), (0x2000, 0x200A),
   (0x2028, 0x2029), (0x202F, 0x202F), (0x205F, 0x205F), (0x3000, 0x3000)]

def isBlank (c : Char) : Bool :=
  inRanges blankRanges c

/-- Every white space character of the core library is blank. -/
theorem isBlank_of_isWhitespace {c : Char} (h : c.isWhitespace = true) : isBlank c = true := by
  simp only [Char.isWhitespace, Bool.or_eq_true, decide_eq_true_eq] at h
  rcases h with ((rfl | rfl) | rfl) | rfl <;> decide

/-! ## Trimming -/

/-- The text without the characters of the class at either end. -/
def trimBy (strip : Char → Bool) (cs : List Char) : List Char :=
  ((cs.dropWhile strip).reverse.dropWhile strip).reverse

/-- The text without the blanks at either end. -/
def trim (cs : List Char) : List Char :=
  trimBy isBlank cs

/-- The text holds nothing but blanks. -/
def blankOnly (cs : List Char) : Bool :=
  cs.all isBlank

@[simp] theorem trimBy_nil (strip : Char → Bool) : trimBy strip [] = [] := rfl

@[simp] theorem trim_nil : trim [] = [] := rfl

end CausalUpdate.Text
