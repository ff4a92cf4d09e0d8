import CausalUpdate.Proofs.Program.Clean
import CausalUpdate.Proofs.Rule.Constant
import Mathlib.Data.List.Nodup

/-!
# The literals of an update program

An update program speaks of the literals of its programs, of two copies of each, and of rules that
are active or rejected.  Here is why none of these is confused with another one: a copy is told by
the end of its predicate, what is said of rules by reserved predicates, whatever their mark, and a
rule by its identifier.
-/

namespace CausalUpdate

/-! ## Rules and their constants -/

lemma Rule.active_inj {mark : Mark} {b b' : Rule} :
    b.active mark = b'.active mark ↔ b.id = b'.id := by
  simp [Rule.active, Rule.constant_inj]

lemma Rule.rejected_inj {mark : Mark} {a a' : Rule} :
    a.rejected mark = a'.rejected mark ↔ a.id = a'.id := by
  simp [Rule.rejected, Rule.constant_inj]

lemma Rule.rejectedBy_inj {mark : Mark} {a b a' b' : Rule} :
    a.rejectedBy mark b = a'.rejectedBy mark b' ↔ a.id = a'.id ∧ b.id = b'.id := by
  simp [Rule.rejectedBy, Rule.constant_inj]

/-- Rules of a program with distinct identifiers are told apart by them. -/
lemma Program.eq_of_id_eq {p : Program} (h : p.ids.Nodup) {r s : Rule} (hr : r ∈ p.rules)
    (hs : s ∈ p.rules) (e : r.id = s.id) : r = s :=
  List.inj_on_of_nodup_map h hr hs e

/-! ## Copies -/

namespace Literal

@[simp] lemma withSuffix_inj {l m : Literal} {suffix : String} :
    l.withSuffix suffix = m.withSuffix suffix ↔ l = m := by
  rcases l with ⟨⟨p, ts⟩, n⟩
  rcases m with ⟨⟨q, us⟩, k⟩
  simp [withSuffix]

lemma withSuffix_equiv {l m : Literal} {suffix : String} :
    l.withSuffix suffix ≈ m.withSuffix suffix ↔ l ≈ m := by
  have predicates : l.atom.predicate ++ suffix = m.atom.predicate ++ suffix ↔
      l.atom.predicate = m.atom.predicate := by simp
  exact and_congr_left' (and_congr_left' predicates)

/-- The last character of a suffix is the last one of the predicate. -/
lemma getLast?_withSuffix (l : Literal) (suffix : String) (c : Char)
    (h : suffix.toList.getLast? = some c) :
    (l.withSuffix suffix).atom.predicate.toList.getLast? = some c := by
  rw [withSuffix, String.toList_append, List.getLast?_append, h]
  rfl

/-- No predicate is a copy of either kind. -/
lemma append_older_ne_append_newer (p q : String) : p ++ olderSuffix ≠ q ++ newerSuffix := by
  intro e
  have hl := getLast?_withSuffix ⟨⟨p, []⟩, false⟩ olderSuffix '1' (by decide)
  have hm := getLast?_withSuffix ⟨⟨q, []⟩, false⟩ newerSuffix '2' (by decide)
  simp only [withSuffix, e] at hl hm
  rw [hm] at hl
  exact absurd hl (by decide)

@[simp] lemma older_ne_newer (l m : Literal) :
    l.withSuffix olderSuffix ≠ m.withSuffix newerSuffix := by
  intro e
  rw [withSuffix, withSuffix, mk.injEq, Atom.mk.injEq] at e
  exact append_older_ne_append_newer _ _ e.1.1

@[simp] lemma newer_ne_older (l m : Literal) :
    l.withSuffix newerSuffix ≠ m.withSuffix olderSuffix :=
  (older_ne_newer m l).symm

@[simp] lemma complement_withSuffix (l : Literal) (suffix : String) :
    (l.withSuffix suffix).complement = l.complement.withSuffix suffix :=
  rfl

end Literal

/-! ## Reserved predicates -/

namespace Mark

variable (mark : Mark) {p : String}

@[simp] lemma active_mem : mark.activePredicate ∈ mark.reservedPredicates := by
  simp [reservedPredicates]

@[simp] lemma cause_mem : mark.causePredicate ∈ mark.reservedPredicates := by
  simp [reservedPredicates]

@[simp] lemma rejected_mem : mark.rejectedPredicate ∈ mark.reservedPredicates := by
  simp [reservedPredicates]

/-- A reserved predicate is one of three words with the mark behind it. -/
lemma exists_word (h : p ∈ mark.reservedPredicates) :
    ∃ word ∈ ["rej_", "rej_cause_", "active_"], p = word ++ mark.text := by
  simp only [reservedPredicates, List.mem_cons, List.not_mem_nil, or_false] at h
  rcases h with rfl | rfl | rfl
  · exact ⟨"rej_", by simp, rfl⟩
  · exact ⟨"rej_cause_", by simp, rfl⟩
  · exact ⟨"active_", by simp, rfl⟩

lemma length_toList_text : mark.text.toList.length = 8 :=
  mark.length_text

lemma underscore_not_mem : '_' ∉ mark.text.toList :=
  fun h => absurd (mark.digits _ h) (by decide)

lemma isIdentifierRest_of_mem : ∀ c ∈ mark.text.toList, isIdentifierRest c := by
  have digits : ∀ c ∈ "0123456789abcdef".toList, isIdentifierRest c := by
    simp [isIdentifierRest]
  exact fun c hc => digits c (mark.digits c hc)

@[simp] lemma active_ne_rejected : mark.activePredicate ≠ mark.rejectedPredicate := by
  simp [activePredicate, rejectedPredicate]

@[simp] lemma active_ne_cause : mark.activePredicate ≠ mark.causePredicate := by
  simp [activePredicate, causePredicate]

@[simp] lemma rejected_ne_cause : mark.rejectedPredicate ≠ mark.causePredicate := by
  simp [rejectedPredicate, causePredicate]

lemma isIdentifier_of_mem (h : p ∈ mark.reservedPredicates) : isIdentifier p.toList := by
  obtain ⟨word, hw, rfl⟩ := mark.exists_word h
  have rest := List.all_eq_true.2 mark.isIdentifierRest_of_mem
  simp only [List.mem_cons, List.not_mem_nil, or_false] at hw
  rw [String.toList_append]
  rcases hw with rfl | rfl | rfl <;>
    simpa [isIdentifier, isIdentifierStart, isIdentifierRest] using rest

/-- A reserved predicate is too long for the keyword. -/
lemma ne_notKeyword_of_mem (h : p ∈ mark.reservedPredicates) : p.toList ≠ notKeyword := by
  obtain ⟨word, -, rfl⟩ := mark.exists_word h
  intro e
  have lengths := congrArg List.length e
  rw [String.toList_append, List.length_append, length_toList_text,
    show notKeyword.length = 3 from rfl] at lengths
  omega

/-- A reserved predicate ends with the mark, in which no copy is marked off. -/
lemma append_suffix_not_mem {suffix : String} (h : suffix ∈ [olderSuffix, newerSuffix]) :
    p ++ suffix ∉ mark.reservedPredicates := by
  intro reserved
  obtain ⟨word, -, e⟩ := mark.exists_word reserved
  have lists := congrArg String.toList e
  rw [String.toList_append, String.toList_append] at lists
  have shape : ∀ s ∈ [olderSuffix, newerSuffix], s.toList.length ≤ 8 ∧ '_' ∈ s.toList := by decide
  have behind : suffix.toList <:+ mark.text.toList :=
    List.suffix_of_suffix_length_le (lists ▸ List.suffix_append _ _) (List.suffix_append _ _)
      (mark.length_toList_text ▸ (shape suffix h).1)
  exact mark.underscore_not_mem (behind.subset (shape suffix h).2)

end Mark

/-- The literal is about rules, and not about anything the programs speak of. -/
def Literal.IsReserved (mark : Mark) (l : Literal) : Prop :=
  l.atom.predicate ∈ mark.reservedPredicates

namespace Rule

variable {mark : Mark}

@[simp] lemma isReserved_active (b : Rule) : (b.active mark).IsReserved mark :=
  mark.active_mem

@[simp] lemma isReserved_rejected (a : Rule) : (a.rejected mark).IsReserved mark :=
  mark.rejected_mem

@[simp] lemma isReserved_rejectedBy (a b : Rule) : (a.rejectedBy mark b).IsReserved mark :=
  mark.cause_mem

@[simp] lemma active_ne_rejected (a b : Rule) : b.active mark ≠ a.rejected mark := by
  simp [active, rejected]

@[simp] lemma active_ne_rejectedBy (a b c : Rule) : c.active mark ≠ a.rejectedBy mark b := by
  simp [active, rejectedBy]

@[simp] lemma rejected_ne_rejectedBy (a b c : Rule) : c.rejected mark ≠ a.rejectedBy mark b := by
  simp [rejected, rejectedBy]

end Rule

section

variable (mark : Mark) (l : Literal)

/-- No copy of a literal is about rules. -/
lemma Literal.not_isReserved_withSuffix {suffix : String}
    (h : suffix ∈ [olderSuffix, newerSuffix]) : ¬ (l.withSuffix suffix).IsReserved mark :=
  mark.append_suffix_not_mem h

@[simp] lemma Literal.not_isReserved_older : ¬ (l.withSuffix olderSuffix).IsReserved mark :=
  l.not_isReserved_withSuffix mark (by simp)

@[simp] lemma Literal.not_isReserved_newer : ¬ (l.withSuffix newerSuffix).IsReserved mark :=
  l.not_isReserved_withSuffix mark (by simp)

end

/-! ## What the programs mention -/

section

variable {mark : Mark} {ps : List Program} {l m : Literal}

lemma WellFormed.not_isReserved (h : WellFormed mark ps) (hl : l ∈ mentioned ps) :
    ¬ l.IsReserved mark :=
  h.unreserved l hl

/-- Copies with the same predicate are copies of the same kind. -/
lemma Clean.suffix_eq (h : Clean mark ps) (hl : l ∈ mentioned ps) (hm : m ∈ mentioned ps)
    {s t : String} (hs : s ∈ ["", olderSuffix, newerSuffix])
    (ht : t ∈ ["", olderSuffix, newerSuffix])
    (e : l.atom.predicate ++ s = m.atom.predicate ++ t) : s = t := by
  have plain : ∀ {j k : Literal} {u : String}, j ∈ mentioned ps → k ∈ mentioned ps →
      u ∈ [olderSuffix, newerSuffix] → j.atom.predicate ++ "" ≠ k.atom.predicate ++ u := by
    intro j k u hj hk hu
    rw [String.append_empty]
    exact h.uncopied j hj k hk u hu
  simp only [List.mem_cons, List.not_mem_nil, or_false] at hs ht
  rcases hs with rfl | rfl | rfl <;> rcases ht with rfl | rfl | rfl
  · rfl
  · exact absurd e (plain hl hm (by simp))
  · exact absurd e (plain hl hm (by simp))
  · exact absurd e.symm (plain hm hl (by simp))
  · rfl
  · exact absurd e (Literal.append_older_ne_append_newer _ _)
  · exact absurd e.symm (plain hm hl (by simp))
  · exact absurd e.symm (Literal.append_older_ne_append_newer _ _)
  · rfl

lemma Clean.not_isReserved_copy (h : Clean mark ps) (hl : l ∈ mentioned ps) {s : String}
    (hs : s ∈ ["", olderSuffix, newerSuffix]) : ¬ (l.withSuffix s).IsReserved mark := by
  rcases List.mem_cons.1 hs with rfl | hs
  · simpa [Literal.withSuffix] using h.not_isReserved hl
  · exact l.not_isReserved_withSuffix mark hs

lemma Clean.ne_older (h : Clean mark ps) (hl : l ∈ mentioned ps) (hm : m ∈ mentioned ps) :
    l ≠ m.withSuffix olderSuffix :=
  fun e => h.uncopied l hl m hm olderSuffix (by simp) (by rw [e]; rfl)

lemma Clean.ne_newer (h : Clean mark ps) (hl : l ∈ mentioned ps) (hm : m ∈ mentioned ps) :
    l ≠ m.withSuffix newerSuffix :=
  fun e => h.uncopied l hl m hm newerSuffix (by simp) (by rw [e]; rfl)

end

end CausalUpdate
