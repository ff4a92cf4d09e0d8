import CausalUpdate.StableModel.Basic

/-!
# Enumerating stable models

A stable model is determined by which default-negated atoms it holds.  The search decides these
atoms one after the other.  A partial decision bounds every stable model that agrees with it:
whatever follows from rules whose negated atoms are all decided to be false is held, and whatever
does not follow even from all rules without a negated atom that is decided to be true is not held.
Atoms that the bounds settle are decided at once, and a decision that the bounds refute is given up.

* `saturate` — forward chaining; it ends because every round uses up rules.
* `Bounds` — the two bounds of a partial decision.
* `stableSets` — the stable models, each as a list of atoms without repetition.
-/

namespace CausalUpdate

/-! ## Forward chaining -/

/-- Every positive body atom is known. -/
def GroundRule.firesIn (r : GroundRule) (known : List String) : Bool :=
  r.pos.all known.contains

/-- The known atoms together with the head of a rule. -/
def addHead (known : List String) (r : GroundRule) : List String :=
  match r.head with
  | none => known
  | some a => if known.contains a then known else a :: known

/-- The rules that do not fire yet. -/
def waiting (pending : List GroundRule) (known : List String) : List GroundRule :=
  pending.filter fun r => !r.firesIn known

def firing (pending : List GroundRule) (known : List String) : List GroundRule :=
  pending.filter fun r => r.firesIn known

theorem length_waiting_lt {pending : List GroundRule} {known : List String}
    (h : ¬ (firing pending known).isEmpty) : (waiting pending known).length < pending.length := by
  obtain ⟨r, hr⟩ := List.exists_mem_of_ne_nil _ (by simpa using h)
  have hr := List.mem_filter.1 hr
  exact List.length_filter_lt_length_iff_exists.2 ⟨r, hr.1, by simp [hr.2]⟩

/-- All atoms that follow from the known ones by the pending rules, negation apart. -/
def saturate (pending : List GroundRule) (known : List String) : List String :=
  if _h : (firing pending known).isEmpty then known
  else saturate (waiting pending known) ((firing pending known).foldl addHead known)
termination_by pending.length
decreasing_by exact length_waiting_lt _h

/-! ## Bounds -/

/-- The atoms that every stable model holds, and those that some may hold, if it agrees with a
partial decision. -/
structure Bounds where
  lower : List String
  upper : List String

/-- The bounds of the decision that the atoms of `yes` are held and those of `no` are not. -/
def Bounds.of (rules : List GroundRule) (yes no : List String) : Bounds where
  lower := saturate (rules.filter fun r => r.neg.all no.contains) []
  upper := saturate (rules.filter fun r => !r.neg.any yes.contains) []

/-- Some atom of the list stands beside its classical negation. -/
def hasClash (atoms : List String) : Bool :=
  atoms.any fun a => atoms.contains ("-" ++ a)

/-- No stable model agrees with the decision. -/
def Bounds.refute (b : Bounds) (rules : List GroundRule) (yes no : List String) : Bool :=
  no.any b.lower.contains || yes.any (fun a => !b.upper.contains a) || hasClash b.lower ||
    rules.any fun r => r.head.isNone && r.firesIn b.lower && !r.neg.any b.upper.contains

/-! ## Search -/

/-- The set of atoms is a stable model of the rules. -/
def checkStable (rules : List GroundRule) (atoms : List String) : Bool :=
  let derived := saturate (rules.filter fun r => !r.neg.any atoms.contains) []
  derived.all atoms.contains && atoms.all derived.contains && !hasClash atoms &&
    rules.all fun r => r.head.isSome || !r.firesIn atoms || r.neg.any atoms.contains

/-- The undecided atoms that the bounds leave open. -/
def Bounds.undecided (b : Bounds) (atoms : List String) : List String :=
  atoms.filter fun a => !b.lower.contains a && b.upper.contains a

/-- The stable models that agree with a decision, where `atoms` are still to be decided. -/
def search (rules : List GroundRule) (atoms yes no : List String) : List (List String) :=
  let b := Bounds.of rules yes no
  if b.refute rules yes no then []
  else
    let left := b.undecided atoms
    if left.length < atoms.length then
      search rules left (atoms.filter b.lower.contains ++ yes)
        (atoms.filter (fun a => !b.upper.contains a) ++ no)
    else
      match atoms with
      | [] => if checkStable rules b.lower then [b.lower] else []
      | a :: rest => search rules rest (a :: yes) no ++ search rules rest yes (a :: no)
termination_by atoms.length

/-- The default-negated atoms of the rules with heads, each once. -/
def negatedAtoms (rules : List GroundRule) : List String :=
  ((rules.filter fun r => r.head.isSome).flatMap GroundRule.neg).eraseDups

/-- The stable models of the rules. -/
def stableSets (rules : List GroundRule) : List (List String) :=
  search rules (negatedAtoms rules) [] []

end CausalUpdate
