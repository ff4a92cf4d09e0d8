import CausalUpdate.Proofs.Detection.Sequence
import CausalUpdate.Proofs.Detection.Surviving
import CausalUpdate.Proofs.Distance.Assignment
import CausalUpdate.Proofs.Program.Live
import CausalUpdate.Proofs.UpdateProgram.Splitting

/-!
# Where a detection stops

A detection goes from program to program as long as nothing is wrong, and merges what it has passed.
What it finds in the end is settled by the programs: all exact solvers lead to the same findings, in
whatever order they are listed (`Detects.agrees`).  Programs that follow come into it only after
nothing was wrong with those in front of them, and then the detection goes on with one program that
stands for them all (`detectSequence_follows`).  A program that shares no predicate with them adds
its own answer sets to what was found (`Sums.joined`).

* `Findings.Agrees` — findings that say the same.
* `Detects` — what a detection finds, said without a solver.
* `Sums` — the program with which a detection goes on.
* `detectSequence_error`, `detectSequence_total` — when a detection breaks off.
-/

namespace CausalUpdate

/-! ## Findings that agree -/

/-- The answer sets hold the same, in whatever order they are listed. -/
def SameHeld (ss ts : List AnswerSet) : Prop :=
  (ss.map AnswerSet.held).Perm (ts.map AnswerSet.held)

/-- The conflicts are between the same rules and have the same witnesses. -/
structure Conflict.Agrees (c c' : Conflict) : Prop where
  older : c'.older = c.older
  newer : c'.newer = c.newer
  answerSets : SameHeld c.answerSets c'.answerSets

/-- The findings say the same, in whatever order. -/
structure Findings.Agrees (f f' : Findings) : Prop where
  answerSets : SameHeld f.answerSets f'.answerSets
  conflicts : ∃ cs : List Conflict, cs.Perm f'.conflicts ∧
    List.Forall₂ Conflict.Agrees f.conflicts cs
  consistent : f'.consistent = f.consistent

/-- What is found in two programs, each conflict once. -/
structure Told (older newer : Program) (f : Findings) : Prop extends Surviving older newer f where
  once : (f.conflicts.map fun c => (c.older, c.newer)).Nodup

section

variable {older newer : Program} {f f' : Findings} {ss ts : List AnswerSet}

lemma isClean_completed_iff : (Detection.completed f).isClean = true ↔
    f.conflicts = [] ∧ f.consistent = true := by
  simp [Detection.isClean, Detection.ok, Detection.hasConflicts, Detection.findings]

lemma ListsSets.sameHeld {described : Set Literal → Prop} (h : ListsSets ss described)
    (k : ListsSets ts described) : SameHeld ss ts :=
  (List.perm_ext_iff_of_nodup h.once k.once).2 fun held => (h.mem_iff held).trans
    (k.mem_iff held).symm

/-- **What is found in two programs is settled by them.** -/
theorem Told.agrees (h : Told older newer f) (k : Told older newer f') : f.Agrees f' := by
  have sets := h.answerSets.sameHeld k.answerSets
  refine ⟨sets, ?_, ?_⟩
  · have pairs : (f.conflicts.map fun c => (c.older, c.newer)).Perm
        (f'.conflicts.map fun c => (c.older, c.newer)) := by
      refine (List.perm_ext_iff_of_nodup h.once k.once).2 fun pair => ?_
      have listed : ∀ x : Findings, pair ∈ x.conflicts.map (fun c => (c.older, c.newer)) ↔
          ∃ c ∈ x.conflicts, c.older = pair.1 ∧ c.newer = pair.2 := fun x => by
        simp [Prod.ext_iff]
      rw [listed, listed, h.reported, k.reported]
    obtain ⟨cs, same, perm⟩ := exists_perm_of_perm_map pairs
    have paired : List.Forall₂ (fun c c' : Conflict => (c.older, c.newer) = (c'.older, c'.newer))
        f.conflicts cs := by
      rw [← List.forall₂_eq_eq_eq, List.forall₂_map_left_iff, List.forall₂_map_right_iff] at same
      exact same
    obtain ⟨length, alike⟩ := List.forall₂_iff_zip.1 paired
    refine ⟨cs, perm, List.forall₂_iff_zip.2 ⟨length, fun {c c'} hcc => ?_⟩⟩
    obtain ⟨hc, hc'⟩ := List.of_mem_zip hcc
    obtain ⟨ha, hb⟩ := Prod.mk.inj (alike hcc)
    have witnesses := k.witnesses c' (perm.mem_iff.1 hc')
    rw [← ha, ← hb] at witnesses
    exact ⟨ha.symm, hb.symm, (h.witnesses c hc).sameHeld witnesses⟩
  · have length : f.answerSets.length = f'.answerSets.length := by simpa using sets.length_eq
    rw [Bool.eq_iff_iff, h.consistent, k.consistent, ne_eq, ne_eq, ← List.length_eq_zero_iff,
      ← List.length_eq_zero_iff, length]

lemma Findings.Agrees.isClean_eq (h : f.Agrees f') :
    (Detection.completed f').isClean = (Detection.completed f).isClean := by
  obtain ⟨cs, perm, same⟩ := h.conflicts
  have length : f'.conflicts.length = f.conflicts.length :=
    perm.length_eq.symm.trans same.length_eq.symm
  rw [Bool.eq_iff_iff, isClean_completed_iff, isClean_completed_iff, h.consistent,
    ← List.length_eq_zero_iff, ← List.length_eq_zero_iff, length]

end

/-! ## What is found in a sequence -/

/-- What a detection finds in a sequence that begins with a program, said without a solver. -/
inductive Detects : Program → List Program → Findings → Prop
  | last {older newer : Program} {f : Findings} (told : Told older newer f) :
      Detects older [newer] f
  | stops {older newer next : Program} {rest : List Program} {f : Findings}
      (told : Told older newer f) (unclean : (Detection.completed f).isClean = false) :
      Detects older (newer :: next :: rest) f
  | goesOn {older newer next m : Program} {rest : List Program} {f f' : Findings} {g g' : Ledger}
      (told : Told older newer f) (clean : (Detection.completed f).isClean = true)
      (merged : (Program.merge [older, newer] (some older.name)).run g = (.ok m, g'))
      (found : Detects m (next :: rest) f') : Detects older (newer :: next :: rest) f'

section

variable {mark : Mark} {next : Nat} {qs rest : List Program} {older newer m : Program}
  {s t : Solver} {g g' : Ledger} {d : Detection} {f f' : Findings} {last position : Nat}

/-- **What a detection finds is settled by the programs.** -/
theorem Detects.agrees (h : Detects older rest f) (k : Detects older rest f')
    (orderly : Orderly next (older :: rest)) : f.Agrees f' := by
  induction h with
  | last told =>
      cases k with
      | last told' => exact told.agrees told'
  | stops told unclean =>
      cases k with
      | stops told' _ => exact told.agrees told'
      | goesOn told' clean _ _ =>
          rw [(told.agrees told').isClean_eq, unclean] at clean
          cases clean
  | goesOn told clean merged _ ih =>
      cases k with
      | stops told' unclean =>
          rw [(told.agrees told').isClean_eq, clean] at unclean
          cases unclean
      | goesOn _ _ merged' found' =>
          obtain rfl := orderly.merge_unique merged merged'
          exact ih found' (orderly.merge merged).1

/-! ## Going on -/

/-- The program says what those programs say in which nothing was found to be wrong, it has the
answer sets that were found, and it can take their place in front of further programs. -/
structure Sums (next : Nat) (ps qs : List Program) (f : Findings) (m : Program) : Prop where
  condenses : Condenses [m] ps
  orderly : Orderly next (m :: qs)
  rules : m.rules ≠ []
  answerSets : ∀ held, held ∈ f.answerSets.map AnswerSet.held ↔ IsAnswerSet m.clauses held

/-- Merging the first two programs of several. -/
lemma Orderly.merge_two (orderly : Orderly next (older :: newer :: rest)) {name : Option String}
    (merged : (Program.merge [older, newer] name).run g = (.ok m, g')) :
    Orderly next (m :: rest) ∧ (∀ r ∈ m.rules, r ∈ rulesOf [older, newer]) ∧
      ∀ r ∈ rulesOf [older, newer], ∃ d ∈ m.rules, d.toClause ≈ r.toClause := by
  have split : Orderly next ([older, newer] ++ rest) := orderly
  exact split.merge merged

lemma Orderly.exists_merge_two (orderly : Orderly next (older :: newer :: rest))
    (name : Option String) (g : Ledger) : ∃ m g',
      (Program.merge [older, newer] name).run g = (.ok m, g') ∧ Condenses [m] [older, newer] := by
  obtain ⟨m, g', merged, condenses, -⟩ := merge_condenses older [newer] name g
    fun q hq r hr => orderly.nonempty r (mem_rulesOf.2 ⟨q, by simp [List.mem_singleton.1 hq], hr⟩)
  exact ⟨m, g', merged, condenses⟩

/-- Where nothing is wrong between two programs, the merged program has the answer sets that were
found. -/
lemma Told.sums (told : Told older newer f) (isClean : (Detection.completed f).isClean = true)
    (clean : Clean mark [older, newer]) (orderly : Orderly next (older :: newer :: qs))
    (rules : older.rules ≠ []) {name : Option String}
    (merged : (Program.merge [older, newer] name).run g = (.ok m, g')) :
    Sums next [older, newer] qs f m := by
  obtain ⟨_, _, run, condenses⟩ := orderly.exists_merge_two name g
  rw [merged] at run
  cases run
  obtain ⟨after, -, covers⟩ := orderly.merge_two merged
  refine ⟨condenses, after, fun none => ?_, fun held => ?_⟩
  · obtain ⟨r, hr⟩ := List.exists_mem_of_ne_nil _ rules
    obtain ⟨q, hq, -⟩ := covers r (by simp [hr])
    rw [none] at hq
    exact List.not_mem_nil hq
  · have said : IsAnswerSet m.clauses held ↔ IsAnswerSet (allClauses [older, newer]) held := by
      rw [← condenses.isAnswerSet_iff clean, allClauses_cons, allClauses_nil, List.append_nil]
    rw [told.answerSets.mem_iff, said, isAnswerSet_allClauses_iff clean]
    -- nothing is overruled, for that would have been reported
    refine (and_iff_left_of_imp fun answer a ha => ?_).symm
    rintro ⟨b, hb, opposed, holds, holds'⟩
    obtain ⟨c, hc, -⟩ := (told.reported a b).2 ⟨ha, hb, opposed, held, answer, holds, holds'⟩
    rw [(isClean_completed_iff.1 isClean).1] at hc
    exact List.not_mem_nil hc

/-- What an exact solver lets one find in two programs, the older one of which has rules. -/
lemma detectPair_told (exact : s.Exact) (clean : Clean mark [older, newer])
    (orderly : Orderly next (older :: newer :: qs)) (rules : older.rules ≠ [])
    (run : (detectPair mark older newer).run s g = ((.ok d, t), g')) :
    ∃ f, d = .completed f ∧ Told older newer f := by
  have positive : Positive [older, newer] := by
    intro p hp id hid
    obtain ⟨r, hr, rfl⟩ := List.mem_map.1 hid
    have inside : p ∈ older :: newer :: qs := List.mem_append_left qs hp
    exact (orderly.numbered r (mem_rulesOf.2 ⟨p, inside, hr⟩)).1
  have disjoint : ∀ id ∈ older.ids, id ∉ newer.ids := by
    intro id hid hid'
    obtain ⟨a, ha, rfl⟩ := List.mem_map.1 hid
    obtain ⟨b, hb, e⟩ := List.mem_map.1 hid'
    have apart : Orderly next ([older] ++ newer :: qs) := orderly
    exact apart.disjoint (by simpa using ha) (by simp [hb]) e.symm
  rcases detectPair_compared clean positive exact run with ⟨sets, f, compared, rfl⟩ | ⟨empty, -⟩
  · refine ⟨f, rfl, compared.surviving clean positive disjoint, ?_⟩
    exact (exactConflicts_of_read clean positive disjoint compared.readSets compared.read
      compared.recorded).once
  · exact absurd (empty older (by simp)) rules

lemma Clean.firstTwo (clean : Clean mark (older :: newer :: rest)) : Clean mark [older, newer] := by
  refine clean.of_rules (fun p hp => clean.ids p (List.mem_append_left rest hp)) fun r hr => ?_
  rw [show older :: newer :: rest = [older, newer] ++ rest from rfl, rulesOf_append]
  exact List.mem_append_left _ hr

/-- **One step of a detection** that has a program after the next one: it stops, or the two are
merged and it goes on. -/
lemma detectFrom_step {next' : Program} (exact : s.Exact) (clean : Clean mark [older, newer])
    (orderly : Orderly next (older :: newer :: next' :: rest)) (rules : older.rules ≠ [])
    (run : (detectFrom mark last position older (newer :: next' :: rest)).run s g =
      ((.ok d, t), g')) :
    ∃ f, Told older newer f ∧
      (((Detection.completed f).isClean = false ∧ d = .completed f) ∨
        (Detection.completed f).isClean = true ∧ ∃ m s₁ g₁ g₂,
          (Program.merge [older, newer] (some older.name)).run g₁ = (.ok m, g₂) ∧ s₁.Exact ∧
            (detectFrom mark last (position + 1) m (next' :: rest)).run s₁ g₂ =
              ((.ok d, t), g')) := by
  obtain ⟨d₁, s₁, g₁, first, rest_run⟩ := Updating.bind_ok run
  obtain ⟨f, rfl, told⟩ := detectPair_told exact clean orderly rules first
  refine ⟨f, told, ?_⟩
  split at rest_run
  · rename_i isClean
    obtain ⟨m, s₂, g₂, attempted, last_run⟩ := Updating.bind_ok rest_run
    obtain ⟨merged, rfl⟩ := Updating.attempt_ok attempted
    have reply := ((detectPair_steady mark older newer).of_run first).1
    exact Or.inr ⟨isClean, m, s₂, g₁, g₂, merged, exact.of_reply reply, last_run⟩
  · rename_i unclean
    cases rest_run
    exact Or.inl ⟨Bool.eq_false_iff.2 unclean, rfl⟩

/-- **Programs that follow come into it only after nothing was wrong.**  A detection that has
further programs behind some clean ones stops among these, with what it finds in them alone, or it
goes on with one program that stands for them. -/
theorem detectFrom_follows (exact : s.Exact) (clean : Clean mark (older :: rest))
    (orderly : Orderly next (older :: rest ++ qs)) (rules : older.rules ≠ []) (several : rest ≠ [])
    (run : (detectFrom mark last position older (rest ++ qs)).run s g = ((.ok d, t), g')) :
    ∃ f, Detects older rest f ∧
      ((d = .completed f ∧ ((Detection.completed f).isClean = false ∨ qs = [])) ∨
        (Detection.completed f).isClean = true ∧ qs ≠ [] ∧ ∃ m position' s₁ g₁,
          Sums next (older :: rest) qs f m ∧ s₁.Exact ∧
            (detectFrom mark last position' m qs).run s₁ g₁ = ((.ok d, t), g')) := by
  induction rest generalizing position older s g with
  | nil => exact absurd rfl several
  | cons newer rest ih =>
      have pair := clean.firstTwo
      rcases rest with _ | ⟨next', rest⟩
      · cases qs with
        | nil =>
            obtain ⟨f, rfl, told⟩ := detectPair_told exact pair orderly rules run
            exact ⟨f, .last told, Or.inl ⟨rfl, Or.inr rfl⟩⟩
        | cons q qs =>
            obtain ⟨f, told, outcome⟩ := detectFrom_step exact pair orderly rules run
            refine ⟨f, .last told, ?_⟩
            rcases outcome with ⟨unclean, rfl⟩ | ⟨isClean, m, s₁, g₁, g₂, merged, exact₁, rest_run⟩
            · exact Or.inl ⟨rfl, Or.inl unclean⟩
            · exact Or.inr ⟨isClean, List.cons_ne_nil _ _, m, _, s₁, g₂,
                told.sums isClean pair orderly rules merged, exact₁, rest_run⟩
      · obtain ⟨f, told, outcome⟩ := detectFrom_step exact pair orderly rules run
        rcases outcome with ⟨unclean, rfl⟩ | ⟨isClean, m, s₁, g₁, g₂, merged, exact₁, rest_run⟩
        · exact ⟨f, .stops told unclean, Or.inl ⟨rfl, Or.inl unclean⟩⟩
        · have sums := told.sums isClean pair orderly rules merged
          have condenses : Condenses (m :: next' :: rest) (older :: newer :: next' :: rest) :=
            sums.condenses.append (next' :: rest)
          have still : Clean mark (m :: next' :: rest) := condenses.clean clean fun p hp =>
            sums.orderly.ids_nodup (List.mem_append_left qs hp)
          obtain ⟨f', found, outcome⟩ :=
            ih exact₁ still sums.orderly sums.rules (List.cons_ne_nil _ _) rest_run
          refine ⟨f', .goesOn told isClean merged found, outcome.imp id ?_⟩
          rintro ⟨isClean', further, m', position', s₂, g₃, sums', rest⟩
          exact ⟨isClean', further, m', position', s₂, g₃,
            ⟨sums'.condenses.trans condenses, sums'.orderly, sums'.rules, sums'.answerSets⟩, rest⟩

lemma Sums.of_agrees {ps : List Program} (h : Sums next ps qs f' m) (agrees : f.Agrees f') :
    Sums next ps qs f m :=
  ⟨h.condenses, h.orderly, h.rules, fun held =>
    agrees.answerSets.mem_iff.trans (h.answerSets held)⟩

/-- **Two detections, of which one sees a program more.**  They find the same as soon as something
is wrong with the programs that both of them see.  Otherwise the one goes on where the other one
ends.  The two detectors may have different marks. -/
theorem detectSequence_follows {mark' : Mark} {ps : List Program} {q : Program} {s' t' : Solver}
    {g₁ g₂ : Ledger} {d' : Detection} (exact : s.Exact) (exact' : s'.Exact) (clean : Clean mark ps)
    (clean' : Clean mark' ps) (orderly : Orderly next (ps ++ [q])) (filled : ∀ p ∈ ps, p.rules ≠ [])
    (several : 2 ≤ ps.length) (run : (detectSequence mark ps).run s g = ((.ok d, t), g'))
    (run' : (detectSequence mark' (ps ++ [q])).run s' g₁ = ((.ok d', t'), g₂)) :
    ∃ f, d = .completed f ∧
      ((d.isClean = false ∧ ∃ f', d' = .completed f' ∧ f.Agrees f') ∨
        d.isClean = true ∧ ∃ m s₁ g₃, Sums next ps [q] f m ∧ s₁.Exact ∧
          (detectPair mark' m q).run s₁ g₃ = ((.ok d', t'), g₂)) := by
  obtain ⟨older, rest, rfl⟩ := List.exists_cons_of_length_pos (by omega : 0 < ps.length)
  have rules := filled older List.mem_cons_self
  have more : rest ≠ [] := by
    rintro rfl
    simp at several
  have orderly' : Orderly next (older :: rest ++ []) :=
    orderly.sublist (by simp)
  replace run : (detectFrom mark rest.length 1 older (rest ++ [])).run s g = ((.ok d, t), g') := by
    rw [List.append_nil]
    exact run
  obtain ⟨f, found, outcome⟩ := detectFrom_follows exact clean orderly' rules more run
  obtain ⟨f', found', outcome'⟩ := detectFrom_follows exact' clean' orderly rules more run'
  have agrees := found.agrees found' (orderly.sublist (List.sublist_append_left _ _))
  rcases outcome with ⟨rfl, -⟩ | ⟨-, none, -⟩
  swap
  · exact absurd rfl none
  refine ⟨f, rfl, ?_⟩
  rcases outcome' with ⟨e, unclean | none⟩ | ⟨isClean, -, m, position, s₁, g₃, sums, exact₁, rest⟩
  · rw [agrees.isClean_eq] at unclean
    exact Or.inl ⟨unclean, f', e, agrees⟩
  · cases none
  · rw [agrees.isClean_eq] at isClean
    exact Or.inr ⟨isClean, m, s₁, g₃, sums.of_agrees agrees, exact₁, rest⟩

/-- What is found where programs with nothing in common follow: every answer set is put together
from two. -/
def JoinedWith (q : Program) (ss : List AnswerSet) (held : Set Literal) : Prop :=
  ∃ xs ∈ ss.map AnswerSet.held, ∃ ys, IsAnswerSet q.clauses ys ∧ held = xs ∪ ys

/-- **A program that has nothing in common with those in front of it** joins its own answer sets to
theirs. -/
theorem Sums.joined {ps : List Program} {q : Program} (sums : Sums next ps [q] f m)
    (exact : s.Exact) (clean : Clean mark (ps ++ [q]))
    (apart : ApartClauses (allClauses ps) q.clauses)
    (run : (detectPair mark m q).run s g = ((.ok d, t), g')) :
    ∃ f', d = .completed f' ∧ ListsSets f'.answerSets (JoinedWith q f.answerSets) := by
  have clean' : Clean mark [m, q] := (sums.condenses.append [q]).clean clean fun p hp =>
    sums.orderly.ids_nodup hp
  have orderly : Orderly next (m :: q :: []) := sums.orderly
  obtain ⟨f', rfl, told⟩ := detectPair_told exact clean' orderly sums.rules run
  refine ⟨f', rfl, told.answerSets.once, fun held => ?_⟩
  have apart' : ApartClauses m.clauses q.clauses := fun c hc =>
    apart c (sums.condenses.sound c (by simpa using hc))
  rw [told.answerSets.mem_iff, isAnswerSet_survivors_apart_iff apart']
  constructor
  · rintro ⟨xs, ys, hx, hy, rfl⟩
    exact ⟨xs, (sums.answerSets xs).2 hx, ys, hy, rfl⟩
  · rintro ⟨xs, hx, ys, hy, rfl⟩
    exact ⟨xs, ys, (sums.answerSets xs).1 hx, hy, rfl⟩

/-! ## Breaking off -/

lemma detectPair_error {e : UpdateError}
    (run : (detectPair mark older newer).run s g = ((.error e, t), g')) :
    ∃ long, e = .identifier long := by
  rw [detectPair, Updating.run_work_bind] at run
  obtain ⟨g₂, answered, -⟩ := Updating.run_ask (buildUpdateProgram older newer mark g).1 s
    (buildUpdateProgram older newer mark g).2
  rw [Updating.run_bind, answered] at run
  simp only at run
  split at run
  · cases run
  · split at run
    · rw [findingsOf, Updating.run_work_bind] at run
      split at run
      · cases run
      · rcases Updating.bind_error run with failed | ⟨conflicts, s₁, g₁, -, rest_run⟩
        · obtain ⟨long, -, e⟩ := Updating.attempt_error failed
          exact ⟨long, e⟩
        · cases rest_run
    · cases run

lemma detectFrom_error {e : UpdateError} (orderly : Orderly next (older :: rest))
    (run : (detectFrom mark last position older rest).run s g = ((.error e, t), g')) :
    ∃ long, e = .identifier long := by
  induction rest generalizing position older s g with
  | nil => cases run
  | cons newer rest ih =>
      cases rest with
      | nil => exact detectPair_error run
      | cons next' rest =>
          rcases Updating.bind_error run with failed | ⟨d₁, s₁, g₁, -, rest_run⟩
          · exact detectPair_error failed
          split at rest_run
          · rcases Updating.bind_error rest_run with failed | ⟨m, s₂, g₂, attempted, last_run⟩
            · -- programs without empty rules can be merged
              obtain ⟨e', failed, -⟩ := Updating.attempt_error failed
              obtain ⟨m, g₂, merged, -⟩ := orderly.exists_merge_two (some older.name) g₁
              rw [failed] at merged
              cases merged
            · obtain ⟨merged, -⟩ := Updating.attempt_ok attempted
              exact ih (orderly.merge_two merged).1 last_run
          · cases rest_run

/-- **A detection breaks off only at an identifier that cannot be read**, whatever the solver. -/
theorem detectSequence_error {ps : List Program} {e : UpdateError} (orderly : Orderly next ps)
    (run : (detectSequence mark ps).run s g = ((.error e, t), g')) :
    ∃ long, e = .identifier long := by
  cases ps with
  | nil => cases run
  | cons oldest rest => exact detectFrom_error orderly run

lemma detectFrom_total (exact : s.Exact) (clean : Clean mark (older :: rest))
    (named : Named (older :: rest)) (orderly : Orderly next (older :: rest)) (g : Ledger) :
    ∃ d t g', (detectFrom mark last position older rest).run s g = ((.ok d, t), g') := by
  induction rest generalizing position older s g with
  | nil => exact ⟨_, s, g, rfl⟩
  | cons newer rest ih =>
      have pair := clean.firstTwo
      have named_pair : Named [older, newer] := fun p hp => named p (List.mem_append_left rest hp)
      obtain ⟨d₁, s₁, g₁, first⟩ := detectPair_total pair named_pair exact g
      cases rest with
      | nil => exact ⟨d₁, s₁, g₁, first⟩
      | cons next' rest =>
          rw [detectFrom, Updating.run_bind, first]
          simp only
          split
          · obtain ⟨m, g₂, merged, condenses⟩ := orderly.exists_merge_two (some older.name) g₁
            obtain ⟨after, there, -⟩ := orderly.merge_two merged
            have reply := ((detectPair_steady mark older newer).of_run first).1
            rw [Updating.run_bind, Updating.run_attempt, merged]
            refine ih (exact.of_reply reply)
              ((condenses.append (next' :: rest)).clean clean fun p hp => after.ids_nodup hp)
              (fun p hp r hr => ?_) after g₂
            rcases List.mem_cons.1 hp with rfl | hp
            · obtain ⟨q, hq, hr⟩ := mem_rulesOf.1 (there r hr)
              exact named_pair q hq r hr
            · exact named p (by simp [List.mem_cons.1 hp]) r hr
          · exact ⟨_, _, _, rfl⟩

/-- **A detection on clean programs is not broken off**, if identifiers can be read. -/
theorem detectSequence_total {ps : List Program} (exact : s.Exact) (clean : Clean mark ps)
    (named : Named ps) (orderly : Orderly next ps) (g : Ledger) :
    ∃ d t g', (detectSequence mark ps).run s g = ((.ok d, t), g') := by
  cases ps with
  | nil => exact ⟨_, s, g, rfl⟩
  | cons oldest rest => exact detectFrom_total exact clean named orderly g

end

end CausalUpdate
