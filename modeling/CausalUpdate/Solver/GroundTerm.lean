/-!
# Terms without variables

A term without variables is a whole number, a string, a function with its arguments, or one of the
two terms that lie below and above all others.  A function without a name is a tuple, one without
arguments is a constant, and a function may carry a sign.  An atom is such a function as well, and
its sign is its classical negation.

Terms are told apart by how they are written.

* `GroundTerm.text` — a term as it is written.
* `wrapped`, `Operation.result?` — calculating in words of 32 bits.
-/

namespace CausalUpdate

/-! ## Words -/

/-- How many numbers a word holds. -/
def wordCount : Nat := 4294967296

/-- A number cut down to a word, with the first bit as its sign. -/
def wrapped (n : Int) : Int :=
  n.bmod wordCount

/-- A number with all its bits flipped. -/
def bitsFlipped (n : Int) : Int :=
  wrapped (-n - 1)

/-- A number without its sign.  The lowest one keeps it, since a word has no room for it otherwise.
-/
def withoutSign (n : Int) : Int :=
  wrapped n.natAbs

/-! ## Terms -/

inductive GroundTerm
  /-- The term below all others. -/
  | lowest
  | number (value : Int)
  | string (text : String)
  | compound (negated : Bool) (name : String) (arguments : List GroundTerm)
  /-- The term above all others. -/
  | highest
deriving Repr, Inhabited

namespace GroundTerm

/-- A character as it stands in a string. -/
def stringChar (c : Char) : List Char :=
  if c = '\n' then ['\\', 'n'] else if c = '\\' ∨ c = '"' then ['\\', c] else [c]

/-- A string as it is written. -/
def stringText (s : String) : String :=
  String.ofList ('"' :: s.toList.flatMap stringChar ++ ['"'])

mutual

/-- A term as it is written.  The only item of a tuple has a comma behind it. -/
def text : GroundTerm → String
  | lowest => "#inf"
  | number value => toString value
  | string s => stringText s
  | compound negated name arguments =>
    let inside :=
      match arguments with
      | [] => if name.isEmpty then "()" else ""
      | [item] => "(" ++ text item ++ (if name.isEmpty then ",)" else ")")
      | items => "(" ++ String.intercalate "," (texts items) ++ ")"
    (if negated then "-" else "") ++ name ++ inside
  | highest => "#sup"

def texts : List GroundTerm → List String
  | [] => []
  | t :: ts => text t :: texts ts

end

instance : BEq GroundTerm := ⟨fun a b => a.text == b.text⟩

/-- The term with the opposite sign, if it can have one. -/
def opposite? : GroundTerm → Option GroundTerm
  | number value => some (number (wrapped (-value)))
  | compound negated name arguments => some (compound (!negated) name arguments)
  | _ => none

def number? : GroundTerm → Option Int
  | number value => some value
  | _ => none

end GroundTerm

/-! ## Calculating -/

/-- The bits of a number as a word without sign. -/
def wordBits (n : Int) : Nat :=
  (n % wordCount).toNat

inductive Operation
  | exclusiveOr | inclusiveOr | conjunction | sum | difference | product | quotient | remainder
  | power
deriving DecidableEq, Repr

namespace Operation

def isDivision (op : Operation) : Bool :=
  op = quotient || op = remainder

/-- An operation on the bits of two numbers. -/
def onBits (f : Nat → Nat → Nat) (a b : Int) : Int :=
  wrapped (f (wordBits a) (wordBits b) : Nat)

/-- The result of an operation, if it has one.  A quotient is cut off toward zero, and a power with
a negative exponent is zero. -/
def result? (op : Operation) (a b : Int) : Option Int :=
  match op with
  | exclusiveOr => some (onBits Nat.xor a b)
  | inclusiveOr => some (onBits Nat.lor a b)
  | conjunction => some (onBits Nat.land a b)
  | sum => some (wrapped (a + b))
  | difference => some (wrapped (a - b))
  | product => some (wrapped (a * b))
  | quotient => if b = 0 then none else some (wrapped (a.tdiv b))
  | remainder => if b = 0 then none else some (a.tmod b)
  | power =>
    if b < 0 then if a = 0 then none else some 0
    else some (Nat.repeat (fun r => wrapped (r * a)) b.toNat 1)

end Operation

end CausalUpdate
