import CausalUpdate.Proofs.Program.Live
import CausalUpdate.Proofs.Program.Replacing
import CausalUpdate.Proofs.Solution.Editing
import CausalUpdate.Proofs.Strategy.Alike
import CausalUpdate.Solution.Apply

/-!
# Applying solutions

A solution *suits* programs if it gives some of their rules versions against another one of their
rules, or adds a rule with an identifier of its own that mentions nothing new.  If a program says
already in another rule what the solution would have it say, then the solution is refused.  That is
the only reason, and otherwise it does what it says.

* `Fitting` — versions that can be put in one after the other.
* `Suits` — the solutions that strategies find.
* `Suits.applied` — the ways in which applying such a solution ends.
* `Applied.orderly`, `Applied.live`, `Applied.grown` — what it keeps.
-/

namespace CausalUpdate

/-! ## New versions -/

/-- A program that has the identifier of the version says the same in another rule. -/
def Repeated (ps : List Program) (v : Rule) : Prop :=
  ∃ p ∈ ps, v.id ∈ p.ids ∧ p.Repeats v

instance (ps : List Program) (v : Rule) : Decidable (Repeated ps v) :=
  inferInstanceAs (Decidable (∃ p ∈ ps, v.id ∈ p.ids ∧ p.Repeats v))

/-- Versions of rules of the programs, not more than one of each.  None of them says what another
one says, or what one of the rules says that they are to replace. -/
structure Fitting (ps : List Program) (vs : List Rule) : Prop where
  ids : (vs.map Rule.id).Nodup
  held : ∀ v ∈ vs, Held ps v.id
  nonempty : ∀ v ∈ vs, v.isEmpty = false
  apart : vs.Pairwise fun v w => ¬ v.toClause ≈ w.toClause
  lasting : ∀ v ∈ vs, ∀ w ∈ vs, ∀ r ∈ rulesOf ps, r.id = w.id → ¬ r.toClause ≈ v.toClause

section

variable {ps : List Program} {v w : Rule} {vs : List Rule}

lemma editHolders_cons (edit : Program → Except ProgramError Program) (id : Int) (p : Program)
    (ps : List Program) : editHolders edit id (p :: ps) =
      (if id ∈ p.ids then edit p else .ok p) >>= fun q =>
        editHolders edit id ps >>= fun qs => .ok (q :: qs) := by
  rw [editHolders]
  split <;> rfl

/-- Programs that do not hold the identifier stay behind the others as they are. -/
lemma editHolders_append {edit : Program → Except ProgramError Program} {id : Int}
    {qs : List Program} (free : ∀ q ∈ qs, id ∉ q.ids) (ps : List Program) :
    editHolders edit id (ps ++ qs) = (editHolders edit id ps).map (· ++ qs) := by
  induction ps with
  | nil =>
      rw [List.nil_append]
      induction qs with
      | nil => rfl
      | cons q qs ih =>
          obtain ⟨first, rest⟩ := List.forall_mem_cons.1 free
          rw [editHolders_cons, if_neg first, ih rest]
          rfl
  | cons p ps ih =>
      rw [List.cons_append, editHolders_cons, editHolders_cons, ih]
      cases (if id ∈ p.ids then edit p else .ok p) with
      | error e => rfl
      | ok p' => cases editHolders edit id ps <;> rfl

lemma editEach_append {edit : Rule → Program → Except ProgramError Program} {qs : List Program}
    (free : ∀ v ∈ vs, ∀ q ∈ qs, v.id ∉ q.ids) (ps : List Program) :
    editEach edit vs (ps ++ qs) = (editEach edit vs ps).map (· ++ qs) := by
  induction vs generalizing ps with
  | nil => rfl
  | cons v vs ih =>
      obtain ⟨first, rest⟩ := List.forall_mem_cons.1 free
      have held : Held (ps ++ qs) v.id ↔ Held ps v.id := by
        constructor
        · rintro ⟨p, hp, hv⟩
          exact ⟨p, (List.mem_append.1 hp).resolve_right fun hq => first p hq hv, hv⟩
        · exact fun ⟨p, hp, hv⟩ => ⟨p, List.mem_append_left qs hp, hv⟩
      rw [editEach, editEach, editHeld, editHeld, editHolders_append first]
      by_cases there : Held ps v.id
      · rw [if_pos there, if_pos (held.2 there)]
        cases editHolders (edit v) v.id ps with
        | error e => rfl
        | ok ps' => exact ih rest ps'
      · rw [if_neg there, if_neg fun h => there (held.1 h)]
        rfl

lemma editHolders_modify (distinct : ∀ p ∈ ps, p.ids.Nodup) (nonempty : v.isEmpty = false) :
    (Repeated ps v ∧ ∃ e, editHolders (fun p => p.modify v) v.id ps = .error e ∧ e.IsDuplicate) ∨
      ¬ Repeated ps v ∧
        editHolders (fun p => p.modify v) v.id ps = .ok (ps.map (Program.updated [v])) := by
  induction ps with
  | nil => exact Or.inr ⟨fun ⟨p, hp, _⟩ => List.not_mem_nil hp, rfl⟩
  | cons p ps ih =>
      obtain ⟨first, rest⟩ := List.forall_mem_cons.1 distinct
      have one : ((v.id ∈ p.ids ∧ p.Repeats v) ∧
          ∃ e, (if v.id ∈ p.ids then p.modify v else .ok p) = .error e ∧ e.IsDuplicate) ∨
          ¬ (v.id ∈ p.ids ∧ p.Repeats v) ∧
            (if v.id ∈ p.ids then p.modify v else .ok p) = .ok (p.updated [v]) := by
        by_cases held : v.id ∈ p.ids
        · simp only [held, if_true, true_and]
          exact p.modify_outcome first held nonempty
        · refine Or.inr ⟨fun h => held h.1, ?_⟩
          rw [if_neg held, Program.updated_of_not_mem held]
      rw [editHolders_cons]
      rcases one with ⟨⟨held, repeats⟩, e, refused, duplicate⟩ | ⟨fresh, edited⟩
      · exact Or.inl ⟨⟨p, List.mem_cons_self, held, repeats⟩, e, by rw [refused]; rfl, duplicate⟩
      · rw [edited]
        rcases ih rest with ⟨⟨q, hq, repeats⟩, e, refused, duplicate⟩ | ⟨fresh', edited'⟩
        · refine Or.inl ⟨⟨q, List.mem_cons_of_mem _ hq, repeats⟩, e, ?_, duplicate⟩
          rw [refused]
          rfl
        · refine Or.inr ⟨?_, by rw [edited']; rfl⟩
          rintro ⟨q, hq, repeats⟩
          rcases List.mem_cons.1 hq with rfl | hq
          · exact fresh repeats
          · exact fresh' ⟨q, hq, repeats⟩

namespace Fitting

lemma tail (h : Fitting ps (v :: vs)) : Fitting (ps.map (Program.updated [v])) vs where
  ids := (List.nodup_cons.1 h.ids).2
  held w hw := by
    obtain ⟨p, hp, held⟩ := h.held w (List.mem_cons_of_mem _ hw)
    exact ⟨p.updated [v], List.mem_map_of_mem hp, by rwa [Program.ids_updated]⟩
  nonempty w hw := h.nonempty w (List.mem_cons_of_mem _ hw)
  apart := (List.pairwise_cons.1 h.apart).2
  lasting w hw w' hw' r' hr' e := by
    rw [rulesOf_map_updated] at hr'
    obtain ⟨r, hr, rfl⟩ := List.mem_map.1 hr'
    rw [Rule.id_updated] at e
    have other : v.id ≠ r.id := by
      intro e'
      exact (List.nodup_cons.1 h.ids).1 (by rw [e', e]; exact List.mem_map_of_mem hw')
    rw [Rule.updated_cons, if_neg other, Rule.updated_nil]
    exact h.lasting w (List.mem_cons_of_mem _ hw) w' (List.mem_cons_of_mem _ hw') r hr e

/-- Putting in the first version makes no difference to the others. -/
lemma repeated_iff (h : Fitting ps (v :: vs)) (hw : w ∈ vs) :
    Repeated (ps.map (Program.updated [v])) w ↔ Repeated ps w := by
  have unchanged : ∀ p ∈ ps, (p.updated [v]).Repeats w ↔ p.Repeats w := by
    intro p hp
    refine Program.repeats_updated_iff ((List.pairwise_cons.1 h.apart).1 w hw) fun q hq e => ?_
    exact h.lasting w (List.mem_cons_of_mem _ hw) v List.mem_cons_self q
      (mem_rulesOf.2 ⟨p, hp, hq⟩) e
  constructor
  · rintro ⟨q, hq, held, repeats⟩
    obtain ⟨p, hp, rfl⟩ := List.mem_map.1 hq
    rw [Program.ids_updated] at held
    exact ⟨p, hp, held, (unchanged p hp).1 repeats⟩
  · rintro ⟨p, hp, held, repeats⟩
    exact ⟨p.updated [v], List.mem_map_of_mem hp, by rwa [Program.ids_updated],
      (unchanged p hp).2 repeats⟩

/-- **Versions are put in, or refused because one of them is a repetition.** -/
theorem editEach (h : Fitting ps vs) (distinct : ∀ p ∈ ps, p.ids.Nodup) :
    ((∃ v ∈ vs, Repeated ps v) ∧
      ∃ e, editEach (fun r p => p.modify r) vs ps = .error e ∧ e.IsDuplicate) ∨
      (∀ v ∈ vs, ¬ Repeated ps v) ∧
        CausalUpdate.editEach (fun r p => p.modify r) vs ps =
          .ok (ps.map (Program.updated vs)) := by
  induction vs generalizing ps with
  | nil =>
      refine Or.inr ⟨fun v hv => absurd hv List.not_mem_nil, ?_⟩
      rw [List.map_id'' Program.updated_nil]
      rfl
  | cons v vs ih =>
      rw [CausalUpdate.editEach, editHeld, if_pos (h.held v List.mem_cons_self)]
      rcases editHolders_modify distinct (h.nonempty v List.mem_cons_self) with
        ⟨repeated, e, refused, duplicate⟩ | ⟨fresh, edited⟩
      · exact Or.inl ⟨⟨v, List.mem_cons_self, repeated⟩, e, by rw [refused]; rfl, duplicate⟩
      · rw [edited]
        have distinct' : ∀ p ∈ ps.map (Program.updated [v]), p.ids.Nodup := by
          intro q hq
          obtain ⟨p, hp, rfl⟩ := List.mem_map.1 hq
          rw [Program.ids_updated]
          exact distinct p hp
        rcases ih h.tail distinct' with
          ⟨⟨w, hw, repeated⟩, e, refused, duplicate⟩ | ⟨fresh', edited'⟩
        · exact Or.inl ⟨⟨w, List.mem_cons_of_mem _ hw, (h.repeated_iff hw).1 repeated⟩, e, refused,
            duplicate⟩
        · refine Or.inr ⟨List.forall_mem_cons.2 ⟨fresh, fun w hw repeated => ?_⟩, ?_⟩
          · exact fresh' w hw ((h.repeated_iff hw).2 repeated)
          · rw [show (Except.ok _ >>= _ : Except _ _) = CausalUpdate.editEach _ vs _ from rfl,
              edited', List.map_map]
            exact congrArg _ (List.map_congr_left fun p _ => Program.updated_updated h.ids p)

end Fitting

end

/-! ## New rules -/

/-- Rules come into the last program, and the others stay as they are. -/
lemma addToNewest_run (rs : List Rule) (front : List Program) (p : Program) (g : Ledger) :
    (addToNewest rs (front ++ [p])).run g = match (p.addAll rs).run g with
      | (.ok q, g') => (.ok (front ++ [q]), g')
      | (.error e, g') => (.error e, g') := by
  induction front with
  | nil =>
      rw [List.nil_append, addToNewest, Attempt.run_bind]
      rcases (p.addAll rs).run g with ⟨_ | _, _⟩ <;> rfl
  | cons q front ih =>
      have several : addToNewest rs (q :: (front ++ [p])) =
          addToNewest rs (front ++ [p]) >>= fun ps => pure (q :: ps) := by
        cases front <;> rfl
      rw [List.cons_append, several, Attempt.run_bind, ih]
      rcases (p.addAll rs).run g with ⟨_ | _, _⟩ <;> rfl

/-! ## Suitable solutions -/

/-- The rules say different things, and neither of them is exclusive with the reference clause. -/
structure Apart (reference : Clause) (q r : Rule) : Prop where
  different : ¬ q.toClause ≈ r.toClause
  left : ¬ Exclusive reference q.toClause
  right : ¬ Exclusive reference r.toClause

namespace Solution

/-- The solution gives some rules of the programs a version of a kind against a reference rule, one
to each, and knows no other versions. -/
structure Excludes (kind : Rule → Clause → Rule → Prop) (ps : List Program) (reference : Rule)
    (rs : List Rule) (s : Solution) : Prop where
  versions : s.Edits fun v => ∃ r ∈ rs, kind r reference.toClause v
  ids : s.modifications.map Rule.id = rs.map Rule.id
  against : reference ∈ rulesOf ps
  there : ∀ r ∈ rs, r ∈ rulesOf ps
  some : rs ≠ []
  distinct : (rs.map Rule.id).Nodup
  apart : rs.Pairwise (Apart reference.toClause)

/-- The solution adds a rule with an identifier of its own, while the supply has come to `next`. -/
structure Adds (next : Nat) (ps : List Program) (r : Rule) (s : Solution) : Prop where
  additions : s.additions = [r]
  modifications : s.modifications = []
  deletions : s.deletions = []
  variants : s.variants = []
  fresh : ∀ q ∈ rulesOf ps, q.id ≠ r.id
  numbered : 0 < r.id ∧ r.id < next
  derives : r.head.isSome
  literals : ∀ l ∈ r.literals, l ∈ mentioned ps

/-- A program says already in another rule what the solution would have it say. -/
def Repeats (s : Solution) (ps : List Program) : Prop :=
  (∃ v ∈ s.modifications, Repeated ps v) ∨
    ∃ r ∈ s.additions, ∃ p, ps.getLast? = some p ∧ ∃ c ∈ p.clauses, c ≈ r.toClause

end Solution

/-- The solution suits the programs. -/
inductive Suits (kind : Rule → Clause → Rule → Prop) (next : Nat) (ps : List Program)
    (s : Solution) : Prop
  | excludes {reference : Rule} {rs : List Rule} (versions : s.Excludes kind ps reference rs)
  | adds {r : Rule} (addition : s.Adds next ps r)

/-- How the application of a suitable solution ends. -/
inductive Applied (kind : Rule → Clause → Rule → Prop) (next : Nat) (ps : List Program)
    (s : Solution) : Except ProgramError (List Program) → Prop
  | refused {e : ProgramError} (repeats : s.Repeats ps) (duplicate : e.IsDuplicate) :
      Applied kind next ps s (.error e)
  | modified {reference : Rule} {rs : List Rule} (versions : s.Excludes kind ps reference rs)
      (fresh : ¬ s.Repeats ps) :
      Applied kind next ps s (.ok (ps.map (Program.updated s.modifications)))
  | added {front : List Program} {p : Program} {r : Rule} (split : ps = front ++ [p])
      (addition : s.Adds next ps r) (fresh : ¬ s.Repeats ps) :
      Applied kind next ps s (.ok (front ++ [p.push r]))

section

variable {kind : Rule → Clause → Rule → Prop} {next next' : Nat} {ps ps' : List Program}
  {s t : Solution} {reference r : Rule} {rs : List Rule} {g g' : Ledger}

namespace Solution

/-! ### Versions -/

namespace Excludes

lemma of_sameEdit (h : t.Excludes kind ps reference rs) (same : s.SameEdit t) :
    s.Excludes kind ps reference rs :=
  { h with versions := h.versions.of_sameEdit same, ids := by rw [same.modifications, h.ids] }

lemma swapped (h : s.Excludes kind ps reference rs) (swapped : s.Swapped t) :
    t.Excludes kind ps reference rs := by
  obtain ⟨versions, ids⟩ := h.versions.swapped swapped
  exact { h with versions, ids := ids.trans h.ids }

lemma imp {kind' : Rule → Clause → Rule → Prop} (h : s.Excludes kind ps reference rs)
    (imp : ∀ {q c v}, kind q c v → kind' q c v) : s.Excludes kind' ps reference rs :=
  { h with versions := h.versions.imp fun _ ⟨r, hr, version⟩ => ⟨r, hr, imp version⟩ }

lemma rechosen (h : s.Excludes LikeVersion ps reference rs) (rechosen : s.Rechosen t) :
    t.Excludes LikeVersion ps reference rs := by
  obtain ⟨versions, ids⟩ := h.versions.rechosen
    (fun _ _ ⟨r, hr, like⟩ id e => ⟨r, hr, like.of_equiv id e⟩) rechosen
  exact { h with versions, ids := ids.trans h.ids }

lemma changes (h : s.Excludes kind ps reference rs) : s.modifications ≠ [] := by
  intro none
  have ids := h.ids
  rw [none, List.map_nil, eq_comm, List.map_eq_nil_iff] at ids
  exact h.some ids

lemma apart_of_ne (h : s.Excludes kind ps reference rs) {q r : Rule} (hq : q ∈ rs) (hr : r ∈ rs)
    (ne : q.id ≠ r.id) : Apart reference.toClause q r := by
  have : Std.Symm (Apart reference.toClause) :=
    ⟨fun _ _ h => ⟨fun e => h.different (Setoid.symm e), h.right, h.left⟩⟩
  exact h.apart.forall hq hr fun e => ne (congrArg Rule.id e)

/-- Versions of rules that are apart can be put in one after the other. -/
lemma fitting (h : s.Excludes LikeVersion ps reference rs) (orderly : Orderly next ps) :
    Fitting ps s.modifications := by
  have distinct : (s.modifications.map Rule.id).Nodup := h.ids ▸ h.distinct
  refine ⟨distinct, fun v hv => ?_, fun v hv => ?_, ?_, fun v hv w hw q hq e same => ?_⟩
  · obtain ⟨r, hr, like⟩ := h.versions.chosen v hv
    obtain ⟨p, hp, hr'⟩ := mem_rulesOf.1 (h.there r hr)
    exact ⟨p, hp, like.id ▸ List.mem_map_of_mem hr'⟩
  · obtain ⟨r, hr, like⟩ := h.versions.chosen v hv
    exact like.not_isEmpty (orderly.nonempty r (h.there r hr))
  · refine (List.pairwise_map.1 distinct).imp_of_mem fun {v w} hv hw ne same => ?_
    obtain ⟨q, hq, like⟩ := h.versions.chosen v hv
    obtain ⟨r, hr, like'⟩ := h.versions.chosen w hw
    rw [like.id, like'.id] at ne
    have apart := h.apart_of_ne hq hr ne
    exact apart.different (like.equiv_of_equiv like' apart.left apart.right same)
  · obtain ⟨r, hr, like⟩ := h.versions.chosen v hv
    obtain ⟨r', hr', like'⟩ := h.versions.chosen w hw
    obtain rfl : q = r' := orderly.eq_of_id_eq hq (h.there r' hr') (e.trans like'.id)
    by_cases one : q.id = r.id
    · obtain rfl : q = r := orderly.eq_of_id_eq hq (h.there r hr) one
      exact like.not_equiv same
    · exact like.not_equiv_of_free (h.apart_of_ne hr' hr one).left same

/-- Versions of rules of some programs are versions of rules of more of them. -/
lemma append (h : s.Excludes kind ps reference rs) (qs : List Program) :
    s.Excludes kind (ps ++ qs) reference rs :=
  { h with
    against := by simp [h.against]
    there := fun r hr => by simp [h.there r hr] }

/-- The rules that get new versions are among those of the programs. -/
lemma id_not_mem {qs : List Program} (h : s.Excludes LikeVersion ps reference rs)
    (orderly : Orderly next (ps ++ qs)) : ∀ v ∈ s.modifications, ∀ q ∈ qs, v.id ∉ q.ids := by
  intro v hv q hq held
  obtain ⟨r, hr, like⟩ := h.versions.chosen v hv
  obtain ⟨r', hr', e⟩ := List.mem_map.1 held
  refine orderly.disjoint (h.there r hr) (mem_rulesOf.2 ⟨q, hq, hr'⟩) ?_
  rw [e, like.id]

lemma repeats_iff (h : s.Excludes kind ps reference rs) :
    s.Repeats ps ↔ ∃ v ∈ s.modifications, Repeated ps v := by
  simp [Repeats, h.versions.additions]

end Excludes

/-! ### Additions -/

namespace Adds

lemma mono (h : s.Adds next ps r) (le : next ≤ next') : s.Adds next' ps r :=
  { h with numbered := ⟨h.numbered.1, by have := h.numbered.2; omega⟩ }

/-- The addition suits more programs as well, if its identifier is not theirs. -/
lemma append {qs : List Program} (h : s.Adds next ps r) (free : ∀ q ∈ rulesOf qs, q.id ≠ r.id) :
    s.Adds next (ps ++ qs) r :=
  { h with
    fresh := fun q hq => by
      rw [rulesOf_append, List.mem_append] at hq
      exact hq.elim (h.fresh q) (free q)
    literals := fun l hl => mentioned_subset (fun r hr => by simp [hr]) l (h.literals l hl) }

lemma of_sameEdit (h : t.Adds next ps r) (same : s.SameEdit t) : s.Adds next ps r :=
  { h with
    additions := same.additions.trans h.additions
    modifications := same.modifications.trans h.modifications
    deletions := same.deletions.trans h.deletions
    variants := same.variants.trans h.variants }

/-- An addition has no other versions. -/
lemma rechosen (h : s.Adds next ps r) (rechosen : s.Rechosen t) : t.Adds next ps r :=
  rechosen.eq_of_variants h.variants ▸ h

lemma not_isEmpty (h : s.Adds next ps r) : r.isEmpty = false := by
  obtain ⟨l, hl⟩ := Option.isSome_iff_exists.1 h.derives
  simp [Clause.isEmpty, hl]

lemma repeats_iff {front : List Program} {p : Program} (h : s.Adds next (front ++ [p]) r) :
    s.Repeats (front ++ [p]) ↔ p.Refuses r.toClause := by
  simp [Repeats, h.modifications, h.additions, Program.Refuses, h.not_isEmpty]

end Adds

/-! ### Applying -/

lemma SameEdit.applyTo_eq (h : s.SameEdit t) (ps : List Program) : s.applyTo ps = t.applyTo ps := by
  rw [applyTo, applyTo, h.additions, h.modifications, h.deletions]

lemma Edits.applyTo_run {kind : Rule → Prop} (h : s.Edits kind) (nonempty : ps ≠ []) (g : Ledger) :
    (s.applyTo ps).run g = (editEach (fun r p => p.modify r) s.modifications ps, g) := by
  obtain ⟨front, p, rfl⟩ := (List.eq_nil_or_concat ps).resolve_left nonempty
  rw [applyTo, h.additions, h.deletions, List.concat_eq_append, Attempt.run_bind, addToNewest_run]
  show (Attempt.of (editEach _ s.modifications _) >>= _ : Attempt _ _).run g = _
  rw [Attempt.run_bind, Attempt.run_of]
  cases editEach (fun r p => p.modify r) s.modifications (front ++ [p]) <;> rfl

/-- Versions are put into the programs in the same way, whatever programs follow that hold none of
the rules. -/
lemma Edits.applyTo_append {kind : Rule → Prop} {qs : List Program} (h : s.Edits kind)
    (free : ∀ v ∈ s.modifications, ∀ q ∈ qs, v.id ∉ q.ids) (nonempty : ps ≠ []) (g g' : Ledger) :
    (s.applyTo (ps ++ qs)).run g = (((s.applyTo ps).run g').1.map (· ++ qs), g) := by
  rw [h.applyTo_run (List.append_ne_nil_of_left_ne_nil nonempty qs), h.applyTo_run nonempty,
    editEach_append free]

lemma Adds.applyTo_run {front : List Program} {p : Program} (h : s.Adds next (front ++ [p]) r)
    (g : Ledger) : (s.applyTo (front ++ [p])).run g = match (p.add r).run g with
      | (.ok q, g') => (.ok (front ++ [q]), g')
      | (.error e, g') => (.error e, g') := by
  have all : (p.addAll [r]).run g = (p.add r).run g := by
    rw [Program.addAll, Attempt.run_bind]
    rcases (p.add r).run g with ⟨_ | _, _⟩ <;> rfl
  rw [applyTo, h.additions, h.modifications, h.deletions, Attempt.run_bind, addToNewest_run, all]
  rcases (p.add r).run g with ⟨_ | _, _⟩ <;> rfl

end Solution

namespace Suits

lemma mono (h : Suits kind next ps s) (le : next ≤ next') : Suits kind next' ps s := by
  cases h with
  | excludes versions => exact .excludes versions
  | adds addition => exact .adds (addition.mono le)

/-- What suits programs suits more of them as well, if no rule of theirs has the identifier of an
addition. -/
lemma append {qs : List Program} (h : Suits kind next ps s)
    (free : ∀ r ∈ s.additions, ∀ q ∈ rulesOf qs, q.id ≠ r.id) : Suits kind next (ps ++ qs) s := by
  cases h with
  | excludes versions => exact .excludes (versions.append qs)
  | @adds r addition =>
      exact .adds (addition.append (free r (by simp [addition.additions])))

/-- Identifiers of additions have been taken from the supply. -/
lemma additions_lt (h : Suits kind next ps s) : ∀ r ∈ s.additions, r.id < next := by
  intro r hr
  cases h with
  | excludes versions => exact absurd (versions.versions.additions ▸ hr) List.not_mem_nil
  | @adds r' addition =>
      rw [addition.additions, List.mem_singleton] at hr
      exact hr ▸ addition.numbered.2

lemma of_sameEdit (h : Suits kind next ps t) (same : s.SameEdit t) : Suits kind next ps s := by
  cases h with
  | excludes versions => exact .excludes (versions.of_sameEdit same)
  | adds addition => exact .adds (addition.of_sameEdit same)

lemma swapped (h : Suits kind next ps s) (swapped : s.Swapped t) : Suits kind next ps t := by
  cases h with
  | excludes versions => exact .excludes (versions.swapped swapped)
  | adds addition => exact .adds (addition.rechosen swapped.rechosen)

lemma like (h : Suits IsVersion next ps s) : Suits LikeVersion next ps s := by
  cases h with
  | excludes versions => exact .excludes (versions.imp IsVersion.like)
  | adds addition => exact .adds addition

lemma rechosen (h : Suits LikeVersion next ps s) (rechosen : s.Rechosen t) :
    Suits LikeVersion next ps t := by
  cases h with
  | excludes versions => exact .excludes (versions.rechosen rechosen)
  | adds addition => exact .adds (addition.rechosen rechosen)

/-- Whichever versions are chosen, the additions stay as they are. -/
lemma additions_rechosen (h : Suits LikeVersion next ps s) (rechosen : s.Rechosen t) :
    t.additions = s.additions := by
  cases h with
  | excludes versions =>
      rw [(versions.rechosen rechosen).versions.additions, versions.versions.additions]
  | adds addition => rw [rechosen.eq_of_variants addition.variants]

/-- Suitable solutions change something. -/
lemma not_isEmpty (h : Suits kind next ps s) : s.isEmpty = false := by
  cases h with
  | excludes versions =>
      simp [Solution.isEmpty, Solution.operations, OperationKind.all, Solution.chosenFor,
        versions.changes]
  | adds addition =>
      simp [Solution.isEmpty, Solution.operations, OperationKind.all, Solution.chosenFor,
        addition.additions]

/-- Nothing suits no programs. -/
lemma nonempty (h : Suits kind next ps s) : ps ≠ [] := by
  rintro rfl
  cases h with
  | excludes versions => exact List.not_mem_nil versions.against
  | adds addition =>
      obtain ⟨l, hl⟩ := Option.isSome_iff_exists.1 addition.derives
      exact List.not_mem_nil (addition.literals l (by simp [Clause.literals, hl]))

/-- **A suitable solution is refused exactly if it repeats a rule**, and does what it says
otherwise. -/
theorem applied {o : Except ProgramError (List Program)} (h : Suits kind next ps s)
    (like : ∀ {q c v}, kind q c v → LikeVersion q c v) (orderly : Orderly next ps)
    (run : (s.applyTo ps).run g = (o, g')) : Applied kind next ps s o := by
  have nonempty := h.nonempty
  cases h with
  | excludes versions =>
      rw [versions.versions.applyTo_run nonempty] at run
      obtain ⟨rfl, -⟩ := Prod.mk.inj run
      rcases ((versions.imp like).fitting orderly).editEach fun p hp => orderly.ids_nodup hp with
        ⟨repeated, e, refused, duplicate⟩ | ⟨fresh, edited⟩
      · rw [refused]
        exact .refused (versions.repeats_iff.2 repeated) duplicate
      · rw [edited]
        exact .modified versions fun h =>
          (versions.repeats_iff.1 h).elim fun v h => fresh v h.1 h.2
  | @adds r addition =>
      obtain ⟨front, p, rfl⟩ := (List.eq_nil_or_concat ps).resolve_left nonempty
      rw [List.concat_eq_append] at run addition ⊢
      rw [addition.applyTo_run] at run
      by_cases refuses : p.Refuses r.toClause
      · obtain ⟨e, fault, refused⟩ := Program.add_refused refuses g
        obtain ⟨d, name, id, rfl⟩ :=
          Program.additionFault?_of_not_isEmpty addition.not_isEmpty fault
        rw [refused] at run
        cases run
        exact .refused (addition.repeats_iff.2 refuses) trivial
      · have free : r.id ∉ p.ids := by
          intro taken
          obtain ⟨q, hq, e⟩ := List.mem_map.1 taken
          exact addition.fresh q (by simp [hq]) e
        rw [Program.add_as_is refuses free] at run
        cases run
        exact .added rfl addition fun h => refuses (addition.repeats_iff.1 h)

end Suits

/-! ## What is kept -/

/-- Every rule of the first programs is in the second ones, possibly extended. -/
def Grown (ps ps' : List Program) : Prop :=
  ∀ q ∈ rulesOf ps, ∃ r ∈ rulesOf ps', r.Extends q

lemma Grown.refl (ps : List Program) : Grown ps ps :=
  fun q hq => ⟨q, hq, .refl q⟩

/-- A rule that is there after versions have been put in was there before, or is a version. -/
lemma exists_of_mem_updated {vs : List Rule} (hr : r ∈ rulesOf (ps.map (Program.updated vs))) :
    ∃ q ∈ rulesOf ps, r.id = q.id ∧ ((r = q ∧ ∀ v ∈ vs, v.id ≠ q.id) ∨ r ∈ vs) := by
  rw [rulesOf_map_updated] at hr
  obtain ⟨q, hq, rfl⟩ := List.mem_map.1 hr
  exact ⟨q, hq, q.id_updated vs, (Rule.updated_cases vs q).imp id And.left⟩

lemma rulesOf_push (front : List Program) (p : Program) (r : Rule) :
    rulesOf (front ++ [p.push r]) = rulesOf (front ++ [p]) ++ [r] := by
  simp [Program.push]

namespace Applied

lemma like {o : Except ProgramError (List Program)} (h : Applied IsVersion next ps s o) :
    Applied LikeVersion next ps s o := by
  cases h with
  | refused repeats duplicate => exact .refused repeats duplicate
  | modified versions fresh => exact .modified (versions.imp IsVersion.like) fresh
  | added split addition fresh => exact .added split addition fresh

/-- **Programs stay orderly.** -/
theorem orderly (h : Applied LikeVersion next ps s (.ok ps')) (orderly : Orderly next ps) :
    Orderly next ps' := by
  cases h with
  | modified versions fresh =>
      have fitting := versions.fitting orderly
      refine ⟨(Program.ids_map_updated _ ps).symm ▸ orderly.distinct, fun r hr => ?_,
        fun r hr => ?_, fun q hq => ?_⟩
      · obtain ⟨q, hq, id, -⟩ := exists_of_mem_updated hr
        exact id ▸ orderly.numbered q hq
      · obtain ⟨q, hq, -, ⟨rfl, -⟩ | new⟩ := exists_of_mem_updated hr
        · exact orderly.nonempty r hq
        · exact fitting.nonempty r new
      · obtain ⟨p, hp, rfl⟩ := List.mem_map.1 hq
        refine (orderly.unrepeated p hp).updated (orderly.ids_nodup hp) fitting.apart ?_
        exact fun v hv held repeats => fresh (Or.inl ⟨v, hv, p, hp, held, repeats⟩)
  | @added front p r split addition fresh =>
      subst split
      have rules : ∀ q ∈ rulesOf (front ++ [p.push r]), q ∈ rulesOf (front ++ [p]) ∨ q = r := by
        intro q hq
        rwa [rulesOf_push, List.mem_append, List.mem_singleton] at hq
      refine ⟨?_, fun q hq => ?_, fun q hq => ?_, fun q hq => ?_⟩
      · rw [rulesOf_push, List.map_append]
        refine List.nodup_append.2 ⟨orderly.distinct, by simp, fun i hi j hj => ?_⟩
        obtain ⟨q, hq, rfl⟩ := List.mem_map.1 hi
        obtain rfl : j = r.id := by simpa using hj
        exact addition.fresh q hq
      · rcases rules q hq with hq | rfl
        · exact orderly.numbered q hq
        · exact addition.numbered
      · rcases rules q hq with hq | rfl
        · exact orderly.nonempty q hq
        · exact addition.not_isEmpty
      · rcases List.mem_append.1 hq with hq | hq
        · exact orderly.unrepeated q (List.mem_append_left _ hq)
        · rw [List.mem_singleton.1 hq]
          refine (orderly.unrepeated p (by simp)).push fun refuses => ?_
          exact fresh (addition.repeats_iff.2 refuses)

/-- Every identifier is one that was there, or that of an addition. -/
lemma exists_id {o : List Program} (h : Applied kind next ps s (.ok o)) (hr : r ∈ rulesOf o) :
    (∃ q ∈ rulesOf ps, q.id = r.id) ∨ r ∈ s.additions := by
  cases h with
  | modified versions fresh =>
      obtain ⟨q, hq, id, -⟩ := exists_of_mem_updated hr
      exact Or.inl ⟨q, hq, id.symm⟩
  | added split addition fresh =>
      subst split
      rw [rulesOf_push, List.mem_append] at hr
      rw [addition.additions]
      exact hr.imp (fun hr => ⟨r, hr, rfl⟩) id

/-- Nothing is mentioned that was not mentioned before. -/
theorem allAmong (h : Applied LikeVersion next ps s (.ok ps')) :
    Literal.AllAmong (mentioned ps') (mentioned ps) := by
  intro l hl
  obtain ⟨r, hr, inside⟩ := mem_mentioned_iff_rulesOf.1 hl
  cases h with
  | modified versions fresh =>
      obtain ⟨q, hq, -, ⟨rfl, -⟩ | new⟩ := exists_of_mem_updated hr
      · exact Literal.among_of_mem (mem_mentioned_iff_rulesOf.2 ⟨r, hq, inside⟩)
      · obtain ⟨q', hq', like⟩ := versions.versions.chosen r new
        obtain ⟨m, hm, e⟩ := like.among_literals inside
        refine ⟨m, mem_mentioned_iff_rulesOf.2 ?_, e⟩
        rcases List.mem_append.1 hm with hm | hm
        · exact ⟨q', versions.there q' hq', hm⟩
        · exact ⟨_, versions.against, hm⟩
  | added split addition fresh =>
      subst split
      rw [rulesOf_push, List.mem_append, List.mem_singleton] at hr
      rcases hr with hr | rfl
      · exact Literal.among_of_mem (mem_mentioned_iff_rulesOf.2 ⟨r, hr, inside⟩)
      · exact Literal.among_of_mem (addition.literals l inside)

/-- The chosen versions are there. -/
theorem chosen (h : Applied LikeVersion next ps s (.ok ps')) :
    ∀ v ∈ s.modifications, v ∈ rulesOf ps' := by
  intro v hv
  cases h with
  | modified versions fresh =>
      obtain ⟨r, hr, like⟩ := versions.versions.chosen v hv
      have distinct : (s.modifications.map Rule.id).Nodup := versions.ids ▸ versions.distinct
      rw [rulesOf_map_updated, ← Rule.updated_eq distinct hv like.id]
      exact List.mem_map_of_mem (versions.there r hr)
  | added split addition fresh =>
      rw [addition.modifications] at hv
      exact absurd hv List.not_mem_nil

/-- Exact versions extend their rules. -/
theorem grown (h : Applied IsVersion next ps s (.ok ps')) (orderly : Orderly next ps) :
    Grown ps ps' := by
  intro q hq
  cases h with
  | modified versions fresh =>
      refine ⟨q.updated s.modifications, ?_, ?_⟩
      · rw [rulesOf_map_updated]
        exact List.mem_map_of_mem hq
      · rcases Rule.updated_cases s.modifications q with ⟨e, -⟩ | ⟨new, id⟩
        · rw [e]
          exact .refl q
        · obtain ⟨r, hr, version⟩ := versions.versions.chosen _ new
          have same := version.extension.id.symm.trans id
          exact orderly.eq_of_id_eq (versions.there r hr) hq same ▸ version.extension
  | added split addition fresh =>
      subst split
      rw [rulesOf_push]
      exact ⟨q, List.mem_append_left _ hq, .refl q⟩

/-- Exact versions keep the labels of their rules, and additions come after them. -/
theorem labels (h : Applied IsVersion next ps s (.ok ps')) (orderly : Orderly next ps) :
    (rulesOf ps').map Rule.label = (rulesOf ps ++ s.additions).map Rule.label := by
  cases h with
  | modified versions fresh =>
      rw [versions.versions.additions, List.append_nil, rulesOf_map_updated, List.map_map]
      refine List.map_congr_left fun q hq => ?_
      rcases Rule.updated_cases s.modifications q with ⟨e, -⟩ | ⟨new, id⟩
      · rw [Function.comp_apply, e]
      · obtain ⟨r, hr, version⟩ := versions.versions.chosen _ new
        have same := version.extension.id.symm.trans id
        rw [Function.comp_apply, version.label,
          orderly.eq_of_id_eq (versions.there r hr) hq same]
  | added split addition fresh =>
      subst split
      rw [rulesOf_push, addition.additions]

/-- Exact versions are written with the literals that there are. -/
theorem mentioned_subset (h : Applied IsVersion next ps s (.ok ps')) :
    ∀ l ∈ mentioned ps', l ∈ mentioned ps := by
  intro l hl
  obtain ⟨r, hr, inside⟩ := mem_mentioned_iff_rulesOf.1 hl
  cases h with
  | modified versions fresh =>
      obtain ⟨q, hq, -, ⟨rfl, -⟩ | new⟩ := exists_of_mem_updated hr
      · exact mem_mentioned_iff_rulesOf.2 ⟨r, hq, inside⟩
      · obtain ⟨q', hq', version⟩ := versions.versions.chosen r new
        refine mem_mentioned_iff_rulesOf.2 ?_
        rcases version.mem_literals inside with hm | hm
        · exact ⟨q', versions.there q' hq', hm⟩
        · exact ⟨_, versions.against, hm⟩
  | added split addition fresh =>
      subst split
      rw [rulesOf_push, List.mem_append, List.mem_singleton] at hr
      rcases hr with hr | rfl
      · exact mem_mentioned_iff_rulesOf.2 ⟨r, hr, inside⟩
      · exact addition.literals l inside

/-- Clean programs stay clean. -/
theorem clean {mark : Mark} (h : Applied IsVersion next ps s (.ok ps'))
    (orderly : Orderly next ps) (clean : Clean mark ps) : Clean mark ps' :=
  have after := h.like.orderly orderly
  clean.of_mentioned (fun _ hq => after.ids_nodup hq) after.nonempty h.mentioned_subset

/-- **Programs stay at work.** -/
theorem live {mark : Mark} (h : Applied IsVersion next ps s (.ok ps'))
    (live : Live mark next ps) : Live mark next ps' :=
  live.of_mentioned (h.like.orderly live.toOrderly) h.mentioned_subset

end Applied

end

end CausalUpdate
