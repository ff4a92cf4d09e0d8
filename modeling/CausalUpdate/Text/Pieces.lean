/-!
# Cutting a text into pieces

A text with `n` separators has `n + 1` pieces, some of them possibly empty.

* `pieces` — cut at every character of a class.
* `piecesAt` — cut at every occurrence of a two-character mark.
* `topLevelPieces` — cut at separators outside parentheses; fails on unbalanced parentheses.
-/

namespace CausalUpdate.Text

/-- Cut at every character of the class. -/
def pieces (isSeparator : Char → Bool) : List Char → List (List Char)
  | [] => [[]]
  | c :: cs =>
    if isSeparator c then [] :: pieces isSeparator cs
    else (pieces isSeparator cs).modifyHead (c :: ·)

/-- Cut at every occurrence, read from the left, of the mark made of `a` and `b`. -/
def piecesAt (a b : Char) : List Char → List (List Char)
  | [] => [[]]
  | [c] => [[c]]
  | c :: d :: cs =>
    if c = a ∧ d = b then [] :: piecesAt a b cs
    else (piecesAt a b (d :: cs)).modifyHead (c :: ·)

/-! ## Parentheses -/

/-- The depth after a character: an opening parenthesis raises it, a closing one lowers it, and a
closing one at depth zero has no partner. -/
def depthAfter (depth : Nat) : Char → Option Nat
  | '(' => some (depth + 1)
  | ')' => if depth = 0 then none else some (depth - 1)
  | _ => some depth

/-- The pieces of a text read from inside `depth` open parentheses: a character of `separators` cuts
where no parenthesis is open after it. -/
def topLevelPiecesFrom (separators : List Char) (depth : Nat) :
    List Char → Option (List (List Char))
  | [] => if depth = 0 then some [[]] else none
  | c :: cs =>
    match depthAfter depth c with
    | none => none
    | some inner =>
      (topLevelPiecesFrom separators inner cs).map fun rest =>
        if inner = 0 && separators.contains c then [] :: rest else rest.modifyHead (c :: ·)

/-- Cut at the separators outside parentheses; nothing if the parentheses are unbalanced. -/
def topLevelPieces (separators : List Char) (cs : List Char) : Option (List (List Char)) :=
  topLevelPiecesFrom separators 0 cs

/-! ## There is always a piece -/

theorem pieces_ne_nil (isSeparator : Char → Bool) (cs : List Char) :
    pieces isSeparator cs ≠ [] := by
  induction cs with
  | nil => simp [pieces]
  | cons c cs ih =>
    unfold pieces
    split
    · simp
    · simpa using ih

end CausalUpdate.Text
