import CausalUpdate.Proofs.Program.Clean

/-!
# Other names for predicates

Programs can be written with other predicates.  As long as the new names tell apart what the old
ones did, and are names that can be read and that nobody has reserved, nothing changes about what
makes programs well-formed; and they stay clean if no new name looks like a copy of another one.

* `Program.mapPredicate` — the program under other predicates.
* `Renames` — the conditions on the names.
* `Renames.clean` — programs stay clean.
-/

namespace CausalUpdate

variable {f : String → String}

/-! ## Renaming -/

/-- The literal under another predicate. -/
def Literal.mapPredicate (f : String → String) (l : Literal) : Literal :=
  { l with atom := { l.atom with predicate := f l.atom.predicate } }

def Clause.mapPredicate (f : String → String) (c : Clause) : Clause :=
  ⟨c.head.map (Literal.mapPredicate f), c.body.map (Literal.mapPredicate f),
   c.negBody.map (Literal.mapPredicate f)⟩

/-- The rule with other predicates, under the same identifier and label. -/
def Rule.mapPredicate (f : String → String) (r : Rule) : Rule :=
  r.withClause (r.toClause.mapPredicate f)

def Program.mapPredicate (f : String → String) (p : Program) : Program :=
  { p with rules := p.rules.map (Rule.mapPredicate f) }

@[simp] lemma Literal.predicate_mapPredicate (l : Literal) :
    (l.mapPredicate f).atom.predicate = f l.atom.predicate :=
  rfl

lemma Literal.complement_mapPredicate (l : Literal) :
    (l.mapPredicate f).complement = l.complement.mapPredicate f :=
  rfl

@[simp] lemma Clause.literals_mapPredicate (c : Clause) :
    (c.mapPredicate f).literals = c.literals.map (Literal.mapPredicate f) := by
  cases h : c.head <;> simp [literals, completeBody, mapPredicate, h]

@[simp] lemma Clause.isEmpty_mapPredicate (c : Clause) :
    (c.mapPredicate f).isEmpty = c.isEmpty := by
  simp [isEmpty, mapPredicate]

@[simp] lemma Rule.toClause_mapPredicate (r : Rule) :
    (r.mapPredicate f).toClause = r.toClause.mapPredicate f :=
  rfl

@[simp] lemma Rule.id_mapPredicate (r : Rule) : (r.mapPredicate f).id = r.id :=
  rfl

@[simp] lemma Program.ids_mapPredicate (p : Program) : (p.mapPredicate f).ids = p.ids := by
  simp [ids, mapPredicate, Function.comp_def]

lemma Program.mem_mapPredicate {p : Program} {r : Rule} :
    r ∈ (p.mapPredicate f).rules ↔ ∃ q ∈ p.rules, q.mapPredicate f = r :=
  List.mem_map

lemma mentioned_mapPredicate (ps : List Program) :
    mentioned (ps.map (Program.mapPredicate f)) = (mentioned ps).map (Literal.mapPredicate f) := by
  simp [mentioned, Program.mapPredicate, List.flatMap_map, List.map_flatMap]

/-! ## Conditions on the names -/

/-- The predicates that programs use, repetitions included. -/
def predicatesOf (ps : List Program) : List String :=
  (mentioned ps).map fun l => l.atom.predicate

lemma predicate_mem {ps : List Program} {l : Literal} (hl : l ∈ mentioned ps) :
    l.atom.predicate ∈ predicatesOf ps :=
  List.mem_map_of_mem hl

lemma predicatesOf_mapPredicate (ps : List Program) :
    predicatesOf (ps.map (Program.mapPredicate f)) = (predicatesOf ps).map f := by
  simp [predicatesOf, mentioned_mapPredicate, Function.comp_def]

/-- Different names get different new ones. -/
def TellsApart (f : String → String) (names : List String) : Prop :=
  ∀ p ∈ names, ∀ q ∈ names, f p = f q → p = q

instance (f : String → String) (names : List String) : Decidable (TellsApart f names) :=
  inferInstanceAs (Decidable (∀ p ∈ names, ∀ q ∈ names, f p = f q → p = q))

/-- No name is that of a copy of another one. -/
def Uncopied (names : List String) : Prop :=
  ∀ p ∈ names, ∀ q ∈ names, ∀ suffix ∈ [olderSuffix, newerSuffix], p ≠ q ++ suffix

instance (names : List String) : Decidable (Uncopied names) :=
  inferInstanceAs (Decidable (∀ p ∈ names, ∀ q ∈ names, ∀ suffix ∈ [olderSuffix, newerSuffix],
    p ≠ q ++ suffix))

/-- The new names are different for different predicates of the programs, can be read, and are not
reserved. -/
structure Renames (mark : Mark) (f : String → String) (ps : List Program) : Prop where
  tellsApart : TellsApart f (predicatesOf ps)
  identifier : ∀ q ∈ predicatesOf ps, isIdentifier (f q).toList
  keyword : ∀ q ∈ predicatesOf ps, (f q).toList ≠ notKeyword
  unreserved : ∀ q ∈ predicatesOf ps, f q ∉ mark.reservedPredicates

lemma renames_def {mark : Mark} {ps : List Program} : Renames mark f ps ↔
    TellsApart f (predicatesOf ps) ∧ ∀ q ∈ predicatesOf ps,
      isIdentifier (f q).toList ∧ (f q).toList ≠ notKeyword ∧ f q ∉ mark.reservedPredicates :=
  ⟨fun h => ⟨h.1, fun q hq => ⟨h.2 q hq, h.3 q hq, h.4 q hq⟩⟩,
    fun h => ⟨h.1, fun q hq => (h.2 q hq).1, fun q hq => (h.2 q hq).2.1,
      fun q hq => (h.2 q hq).2.2⟩⟩

instance (mark : Mark) (f : String → String) (ps : List Program) :
    Decidable (Renames mark f ps) :=
  decidable_of_iff _ renames_def.symm

namespace Renames

variable {mark mark' : Mark} {ps : List Program} (h : Renames mark f ps)

include h

lemma atom_eq_of_equiv {l m : Literal} (hl : l ∈ mentioned ps) (hm : m ∈ mentioned ps)
    (e : (l.mapPredicate f).atom ≈ (m.mapPredicate f).atom) : l.atom ≈ m.atom :=
  ⟨h.tellsApart _ (predicate_mem hl) _ (predicate_mem hm) e.1, e.2⟩

lemma wellFormed (wf : WellFormed mark' ps) :
    WellFormed mark (ps.map (Program.mapPredicate f)) where
  ids := by simpa using wf.ids
  nonempty := by
    intro _ renamed _ rule
    obtain ⟨p, hp, rfl⟩ := List.mem_map.1 renamed
    obtain ⟨r, hr, rfl⟩ := Program.mem_mapPredicate.1 rule
    simpa using wf.nonempty p hp r hr
  readable := by
    rw [mentioned_mapPredicate, List.forall_mem_map]
    exact fun l hl => ⟨h.identifier _ (predicate_mem hl), h.keyword _ (predicate_mem hl),
      (wf.readable l hl).terms⟩
  unreserved := by
    rw [mentioned_mapPredicate, List.forall_mem_map]
    exact fun l hl => h.unreserved _ (predicate_mem hl)

/-- **Programs stay clean under other names**, if these are no copies of each other, also for
another detector. -/
theorem clean (clean : Clean mark' ps) (uncopied : Uncopied ((predicatesOf ps).map f)) :
    Clean mark (ps.map (Program.mapPredicate f)) where
  toWellFormed := h.wellFormed clean.toWellFormed
  uncopied l hl m hm := by
    rw [← predicatesOf_mapPredicate] at uncopied
    exact uncopied _ (predicate_mem hl) _ (predicate_mem hm)
  coherent := by
    simp only [mentioned_mapPredicate, List.forall_mem_map]
    intro l hl m hm e
    have same := clean.coherent l hl m hm (h.atom_eq_of_equiv hl hm e)
    rw [Literal.mapPredicate, Literal.mapPredicate, same]

end Renames

example : Uncopied ["a", "b"] ∧ ¬ Uncopied ["a", "a_1"] := by decide

end CausalUpdate
