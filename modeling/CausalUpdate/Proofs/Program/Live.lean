import CausalUpdate.Proofs.Program.Clean
import CausalUpdate.Proofs.Program.Orderly

/-!
# Programs at work

What holds of the programs of a sequence all along: they are orderly, and every rule says something
that can be written, in words that the update program does not use.  Programs that are merged keep
this, and the rules are still the same.
-/

namespace CausalUpdate

lemma mem_mentioned_iff_rulesOf {ps : List Program} {l : Literal} :
    l ∈ mentioned ps ↔ ∃ r ∈ rulesOf ps, l ∈ r.literals := by
  simp only [mem_mentioned, mem_rulesOf]
  constructor
  · rintro ⟨p, hp, r, hr, hl⟩
    exact ⟨r, ⟨p, hp, hr⟩, hl⟩
  · rintro ⟨r, ⟨p, hp, hr⟩, hl⟩
    exact ⟨p, hp, r, hr, hl⟩

/-- Programs with fewer rules mention less. -/
lemma mentioned_subset {ps qs : List Program} (sub : ∀ r ∈ rulesOf qs, r ∈ rulesOf ps) :
    ∀ l ∈ mentioned qs, l ∈ mentioned ps := by
  intro l hl
  obtain ⟨r, hr, hl⟩ := mem_mentioned_iff_rulesOf.1 hl
  exact mem_mentioned_iff_rulesOf.2 ⟨r, sub r hr, hl⟩

/-- The programs are orderly, and what they mention can be written and is not reserved. -/
structure Live (mark : Mark) (next : Nat) (ps : List Program) : Prop extends Orderly next ps where
  readable : ∀ l ∈ mentioned ps, l.Readable
  unreserved : ∀ l ∈ mentioned ps, l.atom.predicate ∉ mark.reservedPredicates

namespace Live

variable {mark : Mark} {next next' : Nat} {ps qs : List Program}

/-- Orderly programs that mention nothing else are at work, too. -/
lemma of_mentioned (h : Live mark next ps) (orderly : Orderly next' qs)
    (sub : ∀ l ∈ mentioned qs, l ∈ mentioned ps) : Live mark next' qs :=
  ⟨orderly, fun l hl => h.readable l (sub l hl), fun l hl => h.unreserved l (sub l hl)⟩

lemma mono (h : Live mark next ps) (le : next ≤ next') : Live mark next' ps :=
  h.of_mentioned (h.toOrderly.mono le) fun _ => id

/-- Some of the rules of programs at work are well-formed, however they are put together. -/
lemma wellFormed (h : Live mark next ps) (ids : ∀ q ∈ qs, q.ids.Nodup)
    (sub : ∀ r ∈ rulesOf qs, r ∈ rulesOf ps) : WellFormed mark qs where
  ids := ids
  nonempty q hq r hr := h.nonempty r (sub r (mem_rulesOf.2 ⟨q, hq, hr⟩))
  readable l hl := h.readable l (mentioned_subset sub l hl)
  unreserved l hl := h.unreserved l (mentioned_subset sub l hl)

lemma positive (h : Live mark next ps) (sub : ∀ r ∈ rulesOf qs, r ∈ rulesOf ps) : Positive qs := by
  intro q hq id hid
  obtain ⟨r, hr, rfl⟩ := List.mem_map.1 hid
  exact (h.numbered r (sub r (mem_rulesOf.2 ⟨q, hq, hr⟩))).1

end Live

/-- Programs that mention nothing else than clean ones are clean, too, as far as their rules are in
order. -/
lemma Clean.of_mentioned {mark : Mark} {ps qs : List Program} (h : Clean mark ps)
    (ids : ∀ q ∈ qs, q.ids.Nodup) (nonempty : ∀ r ∈ rulesOf qs, r.isEmpty = false)
    (sub : ∀ l ∈ mentioned qs, l ∈ mentioned ps) : Clean mark qs where
  ids := ids
  nonempty q hq r hr := nonempty r (mem_rulesOf.2 ⟨q, hq, hr⟩)
  readable l hl := h.readable l (sub l hl)
  unreserved l hl := h.unreserved l (sub l hl)
  uncopied l hl k hk := h.uncopied l (sub l hl) k (sub k hk)
  coherent l hl k hk := h.coherent l (sub l hl) k (sub k hk)

/-- Some of the rules of clean programs are clean, however they are put together. -/
lemma Clean.of_rules {mark : Mark} {ps qs : List Program} (h : Clean mark ps)
    (ids : ∀ q ∈ qs, q.ids.Nodup) (sub : ∀ r ∈ rulesOf qs, r ∈ rulesOf ps) : Clean mark qs := by
  refine h.of_mentioned ids (fun r hr => ?_) (mentioned_subset sub)
  obtain ⟨p, hp, hr⟩ := mem_rulesOf.1 (sub r hr)
  exact h.nonempty p hp r hr

end CausalUpdate
