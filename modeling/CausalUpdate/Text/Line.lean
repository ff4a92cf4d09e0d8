import CausalUpdate.Text.Pieces

/-!
# Line breaks

Three conventions meet in the texts of this library.  A stored text is read with every carriage
return, alone or before a line feed, turned into a line feed (`unifyBreaks`), and then only line
feeds end its lines (`plainLines`).  Of what is printed, only a carriage return before a line feed
is dropped (`joinBreaks`).  A listing counts the lines of a text by the wider set of breaks of the
Unicode standard (`lines`).  A break ends a line, and a text that ends in a break has no further
line.
-/

namespace CausalUpdate.Text

/-- Every carriage return, with the line feed after it if there is one, becomes one line feed. -/
def unifyBreaks : List Char → List Char
  | '\r' :: '\n' :: cs => '\n' :: unifyBreaks cs
  | '\r' :: cs => '\n' :: unifyBreaks cs
  | c :: cs => c :: unifyBreaks cs
  | [] => []

/-- A carriage return before a line feed is dropped; any other one stays. -/
def joinBreaks : List Char → List Char
  | '\r' :: '\n' :: cs => '\n' :: joinBreaks cs
  | c :: cs => c :: joinBreaks cs
  | [] => []

/-- The lines of a text that only carriage returns and line feeds end. -/
def plainLines (cs : List Char) : List (List Char) :=
  let ls := pieces (· = '\n') (unifyBreaks cs)
  if ls.getLast? = some [] then ls.dropLast else ls

/-- The character ends a line: line feed, vertical tab, form feed, carriage return, the file, group
and record separators, next line, line separator and paragraph separator. -/
def isBreak (c : Char) : Bool :=
  ['\n', '\x0b', '\x0c', '\r', '\x1c', '\x1d', '\x1e', '\u0085', '\u2028', '\u2029'].contains c

/-- The lines that follow the unfinished line `line`, which is kept backwards. -/
def linesFrom (line : List Char) : List Char → List (List Char)
  | [] => if line.isEmpty then [] else [line.reverse]
  | '\r' :: '\n' :: cs => line.reverse :: linesFrom [] cs
  | c :: cs => if isBreak c then line.reverse :: linesFrom [] cs else linesFrom (c :: line) cs

/-- The lines of a text, without their breaks. -/
def lines (cs : List Char) : List (List Char) :=
  linesFrom [] cs

@[simp] theorem unifyBreaks_nil : unifyBreaks [] = [] := rfl

@[simp] theorem lines_nil : lines [] = [] := rfl

end CausalUpdate.Text
