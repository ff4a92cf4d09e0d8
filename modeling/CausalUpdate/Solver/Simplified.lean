import CausalUpdate.Solver.Term

/-!
# Simplified terms

Before a term is put to use it is simplified.  Calculations on numbers are carried out, and those
that are linear in one variable are brought to their linear form.  What can be no number, whatever
its variables stand for, has no place in a calculation, nor can there be a division by zero: a term
with such a part is senseless and has no simplified form.  An interval is left as it stands: it may
have any ends, and only has no numbers if they are none.

A product with the number zero is left as it stands, so that it is never linear.

* `Term.placed` — the parts that stand for anything turned into variables.
* `Term.simplified?` — the simplified form of a term that makes sense.
-/

namespace CausalUpdate

namespace Term

/-! ## Unnamed parts -/

mutual

/-- The parts that stand for anything turned into variables, each into one of its own.  They can be
kept where they only stand in functions. -/
def placed (kept : Bool) (trail : List Nat) : Term → Term
  | anonymous => if kept then anonymous else place (.unnamed trail)
  | compound name arguments => compound name (placedAll kept trail arguments)
  | opposite t => opposite (placed false trail t)
  | flipped t => flipped (placed false trail t)
  | magnitude t => magnitude (placed false trail t)
  | calculated op left right =>
    calculated op (placed false (0 :: trail) left) (placed false (1 :: trail) right)
  | interval first last =>
    interval (placed false (0 :: trail) first) (placed false (1 :: trail) last)
  | called arguments => called (placedAll false trail arguments)
  | t => t

/-- The parts of terms that stand for anything turned into variables. -/
def placedAll (kept : Bool) (trail : List Nat) : List Term → List Term
  | [] => []
  | t :: ts => placed kept (0 :: trail) t :: placedAll kept (1 :: trail) ts

end

/-! ## Single steps -/

/-- The term can have a number as its value. -/
def canBeNumber : Term → Bool
  | value g => g.number?.isSome
  | compound _ _ => false
  | _ => true

/-- The term is the number zero. -/
def isZero (t : Term) : Bool :=
  t.ground?.bind GroundTerm.number? == some 0

/-- The simplified form of a simplified term under the opposite sign. -/
def opposite? : Term → Option Term
  | value g => g.opposite?.map value
  | linear l => some (linear (l.scaled (-1)))
  | t => some (opposite t)

/-- The simplified form of something that is done with a number. -/
def onNumber? (f : Int → Int) (shape : Term → Term) : Term → Option Term
  | value g => g.number?.map fun n => number (f n)
  | compound _ _ => none
  | t => some (shape t)

/-- A calculation on simplified terms as a linear one, if it is linear in one variable. -/
def linear? : Operation → Term → Term → Option Linear
  | .sum, value (.number k), linear l | .sum, linear l, value (.number k) => some (l.moved k)
  | .difference, value (.number k), linear l => some ((l.scaled (-1)).moved k)
  | .difference, linear l, value (.number k) => some (l.moved (-k))
  | .product, value (.number k), linear l | .product, linear l, value (.number k) =>
    some (l.scaled k)
  | _, _, _ => none

/-- The simplified form of a calculation on simplified terms. -/
def calculated? (op : Operation) (left right : Term) : Option Term :=
  if !left.canBeNumber || !right.canBeNumber || (op.isDivision && right.isZero) then none
  else if op = .product ∧ (left.isZero || right.isZero) then some (calculated op left right)
  else
    match left, right with
    | value (.number m), value (.number n) => (op.result? m n).map number
    | _, _ => some (((linear? op left right).map linear).getD (calculated op left right))

/-! ## Simplifying -/

mutual

/-- The simplified form of a term, possibly inside of a calculation, if the term makes sense. -/
def simplified? (inside : Bool) : Term → Option Term
  | place name => some (if inside then linear (.ofSlot name) else place name)
  | compound name arguments => (simplifiedAll? arguments).map (assembled name)
  | opposite t => (simplified? inside t).bind fun t =>
    if inside && !t.canBeNumber then none else opposite? t
  | flipped t => (simplified? true t).bind (onNumber? bitsFlipped flipped)
  | magnitude t => (simplified? true t).bind (onNumber? withoutSign magnitude)
  | calculated op left right => (simplified? true left).bind fun left =>
    (simplified? true right).bind (calculated? op left)
  | t => some t

/-- The simplified forms of terms that all make sense. -/
def simplifiedAll? : List Term → Option (List Term)
  | [] => some []
  | t :: ts => (simplified? false t).bind fun t => (simplifiedAll? ts).map (t :: ·)

end

end Term

end CausalUpdate
