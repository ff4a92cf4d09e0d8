/-!
# Control sequences

Text for a terminal can hold control sequences, which change how the text after them looks.  Such a
sequence begins with the escape character and an opening bracket; then come parameters, then
intermediate characters, and one final character ends it.  Other uses of the escape character are
no control sequences.

* `plain` — a text without its control sequences.
-/

namespace CausalUpdate.Text

/-- The character may be a parameter of a control sequence. -/
def isParameter (c : Char) : Bool :=
  '0' ≤ c && c ≤ '?'

/-- The character may stand between the parameters and the end of a control sequence. -/
def isIntermediate (c : Char) : Bool :=
  ' ' ≤ c && c ≤ '/'

/-- The character ends a control sequence. -/
def isFinal (c : Char) : Bool :=
  '@' ≤ c && c ≤ '~'

/-- The length of the control sequence that the text behind an escape character continues, without
that character; zero if there is no such sequence. -/
def sequenceLength : List Char → Nat
  | '[' :: cs =>
    let parameters := cs.takeWhile isParameter
    let rest := cs.drop parameters.length
    let intermediates := rest.takeWhile isIntermediate
    if (rest[intermediates.length]?).any isFinal then parameters.length + intermediates.length + 2
    else 0
  | _ => 0

/-- The characters of a text that belong to no control sequence, where the first `skipped` ones
belong to one. -/
def plainFrom : (skipped : Nat) → List Char → List Char
  | _, [] => []
  | skipped + 1, _ :: cs => plainFrom skipped cs
  | 0, c :: cs =>
    let length := if c = '\x1b' then sequenceLength cs else 0
    if length = 0 then c :: plainFrom 0 cs else plainFrom length cs

/-- The text without its control sequences. -/
def plain (s : String) : String :=
  if s.contains '\x1b' then String.ofList (plainFrom 0 s.toList) else s

end CausalUpdate.Text
