import CausalUpdate.Solver.Term
import CausalUpdate.Solver.Token

/-!
# Reading terms and literals

A term is read from its words.  Operations bind from the interval, the weakest, up to the power, and
a minus in front binds closest of all; operations of one strength are grouped from the left, powers
from the right.

Arguments may be given in groups that are separated by semicolons.  Such a term stands for several
terms, one for each group, so that reading gives a list of terms.  A function behind an `@` is called
rather than meant itself.

* `readTerm` — the terms that a row of words begins with.
* `Literal.read?` — the atoms that a literal stands for, as terms.
-/

namespace CausalUpdate

open Term

/-! ## Operations -/

/-- The term that a sign between two terms makes. -/
abbrev Join := Term → Term → Term

/-- The signs between two terms, from the weakest to the strongest. -/
def joinsByStrength : List (List (String × Join)) :=
  [[("..", .interval)],
   [("^", .calculated .exclusiveOr)],
   [("?", .calculated .inclusiveOr)],
   [("&", .calculated .conjunction)],
   [("+", .calculated .sum), ("-", .calculated .difference)],
   [("*", .calculated .product), ("/", .calculated .quotient), ("\\", .calculated .remainder)],
   [("**", .calculated .power)]]

/-- The strength above all signs between two terms. -/
def highestStrength : Nat :=
  joinsByStrength.length

/-- What a sign of some strength makes of two terms. -/
def joinOf? (strength : Nat) (sign : String) : Option Join :=
  joinsByStrength[strength]?.bind fun joins => joins.lookup sign

/-- The strength of what stands to the right of a sign; powers are grouped from the right. -/
def rightStrength (strength : Nat) : Nat :=
  if strength + 1 = highestStrength then strength else strength + 1

/-! ## Groups -/

/-- A group of arguments: its terms, for each way of reading them, and whether a comma stands behind
the last one. -/
structure Group where
  items : List (List Term)
  closed : Bool := false

/-- The terms that a group between parentheses stands for.  A single term without a comma behind it
is only put in parentheses. -/
def Group.tuples (g : Group) : List Term :=
  g.items.map fun
    | [t] => if g.closed then .compound "" [t] else t
    | ts => .compound "" ts

/-- The words go on with the end of a group. -/
def endsGroup : List Token → Bool
  | .sign s :: _ => s = ")" || s = ";"
  | _ => false

/-! ## Terms -/

/-- What is read, and the words behind it. -/
abbrev Rest (α : Type) := Option (α × List Token)

mutual

/-- The terms of some strength that words begin with. -/
def readJoined : (fuel strength : Nat) → List Token → Rest (List Term)
  | 0, _, _ => none
  | fuel + 1, strength, ts =>
    if strength = highestStrength then readSigned fuel ts
    else (readJoined fuel (strength + 1) ts).bind fun (left, ts) =>
      readRight fuel strength left ts

/-- Terms joined with those to the right of them, by signs of some strength. -/
def readRight : (fuel strength : Nat) → List Term → List Token → Rest (List Term)
  | 0, _, _, _ => none
  | fuel + 1, strength, left, .sign s :: ts =>
    match joinOf? strength s with
    | none => some (left, .sign s :: ts)
    | some join => (readJoined fuel (rightStrength strength) ts).bind fun (right, ts) =>
      readRight fuel strength (left.flatMap fun a => right.map (join a)) ts
  | _, _, left, ts => some (left, ts)

/-- A term with signs in front of it. -/
def readSigned : (fuel : Nat) → List Token → Rest (List Term)
  | 0, _ => none
  | fuel + 1, .sign "-" :: ts => (readSigned fuel ts).map fun (t, ts) => (t.map .opposite, ts)
  | fuel + 1, .sign "~" :: ts => (readSigned fuel ts).map fun (t, ts) => (t.map .flipped, ts)
  | fuel + 1, ts => readSimple fuel ts

/-- A term that is no operation, or one in parentheses. -/
def readSimple : (fuel : Nat) → List Token → Rest (List Term)
  | 0, _ => none
  | fuel + 1, t :: ts =>
    match t, ts with
    | .name n, .sign "(" :: ts => (readGroups fuel ts).bind fun (gs, ts) =>
      if gs.any Group.closed then none
      else some (gs.flatMap fun g => g.items.map (.compound n), ts)
    | .name n, ts => some ([.compound n []], ts)
    | .place n, ts => some ([.place (.named n)], ts)
    | .anonymous, ts => some ([.anonymous], ts)
    | .number n, ts => some ([.number n], ts)
    | .string s, ts => some ([.value (.string s)], ts)
    | .lowest, ts => some ([.value .lowest], ts)
    | .highest, ts => some ([.value .highest], ts)
    | .sign "@", .name _ :: .sign "(" :: ts => (readGroups fuel ts).bind fun (gs, ts) =>
      if gs.any Group.closed then none else some (gs.flatMap fun g => g.items.map .called, ts)
    | .sign "(", ts => (readGroups fuel ts).map fun (gs, ts) => (gs.flatMap Group.tuples, ts)
    | .sign "|", ts => (readMagnitudes fuel ts).map fun (t, ts) => (t.map .magnitude, ts)
    | .sign _, _ => none
  | _, [] => none

/-- Groups of arguments, up to the closing parenthesis. -/
def readGroups : (fuel : Nat) → List Token → Rest (List Group)
  | 0, _ => none
  | fuel + 1, ts => (readGroup fuel ts).bind fun (g, ts) =>
    match ts with
    | .sign ")" :: ts => some ([g], ts)
    | .sign ";" :: ts => (readGroups fuel ts).map fun (gs, ts) => (g :: gs, ts)
    | _ => none

/-- One group of arguments, which may be empty. -/
def readGroup : (fuel : Nat) → List Token → Rest Group
  | 0, _ => none
  | fuel + 1, ts =>
    if endsGroup ts then some (⟨[[]], false⟩, ts)
    else
      match ts with
      | .sign "," :: ts => if endsGroup ts then some (⟨[[]], true⟩, ts) else none
      | ts => readItems fuel ts

/-- The terms of a group that is not empty. -/
def readItems : (fuel : Nat) → List Token → Rest Group
  | 0, _ => none
  | fuel + 1, ts => (readJoined fuel 0 ts).bind fun (first, ts) =>
    match ts with
    | .sign "," :: ts =>
      if endsGroup ts then some (⟨first.map ([·]), true⟩, ts)
      else (readItems fuel ts).map fun (g, ts) =>
        (⟨first.flatMap fun t => g.items.map (t :: ·), g.closed⟩, ts)
    | ts => some (⟨first.map ([·]), false⟩, ts)

def readMagnitudes : (fuel : Nat) → List Token → Rest (List Term)
  | 0, _ => none
  | fuel + 1, ts => (readJoined fuel 0 ts).bind fun (first, ts) =>
    match ts with
    | .sign "|" :: ts => some (first, ts)
    | .sign ";" :: ts => (readMagnitudes fuel ts).map fun (more, ts) => (first ++ more, ts)
    | _ => none

end

/-- As many steps as reading words can take: at every word all strengths are gone through. -/
def readingFuel (ts : List Token) : Nat :=
  (highestStrength + 8) * (ts.length + 1)

/-- The terms that a row of words begins with. -/
def readTerm (ts : List Token) : Rest (List Term) :=
  readSimple (readingFuel ts) ts

/-! ## Literals -/

/-- The terms for which an atom, without its sign, stands. -/
def readAtom? (ts : List Token) : Option (List Term) :=
  match ts with
  | .name _ :: _ =>
    match readTerm ts with
    | some (terms, []) => some terms
    | _ => none
  | _ => none

/-- The atoms that a literal stands for, under the opposite sign if it is negated; none if its text
cannot be read. -/
def Literal.read? (l : Literal) : Option (List Term) :=
  (tokens l.text.toList).bind fun
    | .sign "-" :: ts => (readAtom? ts).map fun terms => terms.map .opposite
    | ts => readAtom? ts

end CausalUpdate
