import CausalUpdate.Proofs.Distance.AnswerSets
import CausalUpdate.Proofs.Program.Language
import CausalUpdate.Proofs.UpdateSequence.Agreement
import CausalUpdate.Proofs.UpdateSequence.Scoring

/-!
# Programs that follow a conflict

A program that comes after a conflict changes nothing about it: the conflicts are the same, with the
same witnesses and the same direct solutions.  Only the answer set distance of these may be another
one.  For a detection stops where something is wrong, and a preview, in which nothing is wrong any
more, goes on to the program that follows.

* `Followed` — sequences, of which one has a program more at its end.
* `Followed.previews` — the previews of a direct solution in either of them.
* `Undisturbed` — what a program that follows leaves of a direct solution.
* `detect_followed` — the detections on either of them.

In the end, a fact is denied by the program after it, and a third program with a fact of its own
follows (`DeniedFact`).  The answer set stays as it is if the denied fact is guarded, but with the
third program, which has nothing to do with it, there is a literal more
(`detect_followed_distance`).
-/

namespace CausalUpdate

/-- Two lists that go along with a third one go along with each other. -/
lemma forall₂_common {α β γ : Type} {R : α → β → Prop} {S : α → γ → Prop} {as : List α}
    {bs : List β} {cs : List γ} (h : List.Forall₂ R as bs) (k : List.Forall₂ S as cs) :
    List.Forall₂ (fun b c => ∃ a ∈ as, R a b ∧ S a c) bs cs := by
  induction h generalizing cs with
  | nil =>
      cases k
      exact .nil
  | @cons a b as bs first _ ih =>
      cases k with
      | cons first' rest =>
          refine .cons ⟨a, List.mem_cons_self, first, first'⟩ ((ih rest).imp ?_)
          rintro b c ⟨a, ha, both⟩
          exact ⟨a, List.mem_cons_of_mem _ ha, both⟩

lemma forall₂_mem {α β : Type} {R : α → β → Prop} {as : List α} {bs : List β}
    (h : List.Forall₂ R as bs) :
    (∀ a ∈ as, ∃ b ∈ bs, R a b) ∧ ∀ b ∈ bs, ∃ a ∈ as, R a b := by
  induction h with
  | nil => simp
  | cons first _ ih =>
      obtain ⟨there, back⟩ := ih
      exact ⟨List.forall_mem_cons.2 ⟨⟨_, List.mem_cons_self, first⟩, fun a ha =>
          (there a ha).imp fun b hb => ⟨List.mem_cons_of_mem _ hb.1, hb.2⟩⟩,
        List.forall_mem_cons.2 ⟨⟨_, List.mem_cons_self, first⟩, fun b hb =>
          (back b hb).imp fun a ha => ⟨List.mem_cons_of_mem _ ha.1, ha.2⟩⟩⟩

/-! ## Rule distances -/

section

variable {ps qs : List Program} {id : Int} {sol : Solution}

lemma Program.findAmong?_append (free : ∀ q ∈ qs, id ∉ q.ids) :
    Program.findAmong? (ps ++ qs) id = Program.findAmong? ps id := by
  have none : Program.findAmong? qs id = none := by
    refine List.findSome?_eq_none_iff.2 fun q hq => List.find?_eq_none.2 fun r hr e => ?_
    exact free q hq (of_decide_eq_true e ▸ List.mem_map_of_mem hr)
  rw [Program.findAmong?, List.findSome?_append, ← Program.findAmong?, ← Program.findAmong?, none,
    Option.or_none]

/-- Programs that hold none of the modified rules do not matter to the distance. -/
lemma Solution.ruleDistance_append (free : ∀ v ∈ sol.modifications, ∀ q ∈ qs, v.id ∉ q.ids) :
    sol.ruleDistance (ps ++ qs) = sol.ruleDistance ps := by
  have changes : ∀ vs : List Rule, (∀ v ∈ vs, ∀ q ∈ qs, v.id ∉ q.ids) →
      vs.mapM (changeOf? (ps ++ qs)) = vs.mapM (changeOf? ps) := by
    intro vs free
    induction vs with
    | nil => rfl
    | cons v vs ih =>
        obtain ⟨first, rest⟩ := List.forall_mem_cons.1 free
        rw [List.mapM_cons, List.mapM_cons, ih rest, changeOf?, changeOf?,
          Program.findAmong?_append first]
  rw [ruleDistance, ruleDistance, changes _ free]

end

namespace UpdateSequence

/-- The second sequence is the first one with a program more at its end, and may have another
detector.  The programs of the first one are clean and have rules, and all programs are orderly
together. -/
structure Followed (next : Nat) (u : UpdateSequence) (q : Program) (v : UpdateSequence) : Prop where
  programs : v.programs = u.programs ++ [q]
  settings : v.settings = u.settings
  strategies : v.strategies = u.strategies
  clean : Clean u.mark u.programs
  clean' : Clean v.mark u.programs
  filled : ∀ p ∈ u.programs, p.rules ≠ []
  orderly : Orderly next (u.programs ++ [q])

/-- Programs that were read may follow each other, if the first ones are clean. -/
lemma Followed.of_isRead {next : Nat} {u v : UpdateSequence} {q : Program}
    (read : ∀ p ∈ u.programs ++ [q], IsRead next p)
    (disjoint : (u.programs ++ [q]).Pairwise fun p p' => p.ids.Disjoint p'.ids)
    (clean : Clean u.mark u.programs) (clean' : Clean v.mark u.programs)
    (programs : v.programs = u.programs ++ [q]) (settings : v.settings = u.settings)
    (strategies : v.strategies = u.strategies) :
    Followed next u q v where
  programs := programs
  settings := settings
  strategies := strategies
  clean := clean
  clean' := clean'
  filled p hp := (read p (List.mem_append_left _ hp)).rules_ne_nil
  orderly := orderly_of_isRead read disjoint

variable {u v u' v' : UpdateSequence} {q : Program} {next : Nat} {s s' t t' : Solver}
  {g g' g₁ g₂ : Ledger} {d d' : Detection} {sol sol' : Solution} {reference : Rule}
  {rs : List Rule} {f f' : Findings} {c c' : Conflict}

lemma Followed.before (h : Followed next u q v) : Orderly next u.programs :=
  h.orderly.sublist (List.sublist_append_left u.programs [q])

/-! ## Previews -/

/-- The same program follows both the programs of a sequence and what a direct solution makes of
them, or the solution is refused in either case. -/
lemma Followed.preview (h : Followed next u q v)
    (versions : sol.Excludes IsVersion u.programs reference rs)
    (run : (u.preview sol).run s g = ((.ok d, t), g'))
    (run' : (v.preview sol).run s' g₁ = ((.ok d', t'), g₂)) :
    (∃ cause, d = .failed cause ∧ d' = .failed cause) ∨
      ∃ ps, ps = u.programs.map (Program.updated sol.modifications) ∧
        Applied IsVersion next u.programs sol (.ok ps) ∧
        Applied IsVersion next (u.programs ++ [q]) sol (.ok (ps ++ [q])) ∧
        (∃ g₀, (detectSequence u.mark ps).run s g₀ = ((.ok d, t), g')) ∧
        ∃ g₀, (detectSequence v.mark (ps ++ [q])).run s' g₀ = ((.ok d', t'), g₂) := by
  have nonempty : u.programs ≠ [] := by
    obtain ⟨p, hp, -⟩ := mem_rulesOf.1 versions.against
    exact List.ne_nil_of_mem hp
  have free := (versions.imp IsVersion.like).id_not_mem h.orderly
  have joined := versions.versions.applyTo_append free nonempty g₁ g
  rw [run_preview] at run run'
  rw [h.programs, joined] at run'
  rcases application : (sol.applyTo u.programs).run g with ⟨e | ps, g₃⟩
  · rw [application] at run run'
    cases run
    cases run'
    exact Or.inl ⟨_, rfl, rfl⟩
  · have applied := (Suits.excludes versions).applied IsVersion.like h.before application
    rw [application] at run run' joined
    have applied' := (Suits.excludes (versions.append [q])).applied IsVersion.like h.orderly joined
    refine Or.inr ⟨ps, ?_, applied, applied', ⟨g₃, run⟩, g₁, run'⟩
    cases applied with
    | modified _ _ => rfl
    | added _ addition _ =>
        have none := versions.versions.additions
        rw [addition.additions] at none
        cases none

/-- How two previews of a direct solution end, the second of which sees a program more. -/
inductive Previews (mark : Mark) (next : Nat) (ps : List Program) (q : Program) (sol : Solution) :
    Detection → Detection → Prop
  | refused (cause : DetectionFailure) : Previews mark next ps q sol (.failed cause) (.failed cause)
  | stopped {f f' : Findings} (unclean : (Detection.completed f).isClean = false)
      (agrees : f.Agrees f') : Previews mark next ps q sol (.completed f) (.completed f')
  | passed {f : Findings} {d : Detection} {ps' : List Program} {m : Program} {s t : Solver}
      {g g' : Ledger} (isClean : (Detection.completed f).isClean = true)
      (applied : Applied IsVersion next (ps ++ [q]) sol (.ok (ps' ++ [q])))
      (mentions : ∀ l ∈ mentioned ps', l ∈ mentioned ps) (sums : Sums next ps' [q] f m)
      (exact : s.Exact) (run : (detectPair mark m q).run s g = ((.ok d, t), g')) :
      Previews mark next ps q sol (.completed f) d

/-- **Previews of a direct solution, one of which sees a program more**, find the same as soon as
something is wrong.  Otherwise the one goes on where the other one ends. -/
theorem Followed.previews (h : Followed next u q v)
    (versions : sol.Excludes IsVersion u.programs reference rs) (several : 2 ≤ u.programs.length)
    (exact : s.Exact) (exact' : s'.Exact) (run : (u.preview sol).run s g = ((.ok d, t), g'))
    (run' : (v.preview sol).run s' g₁ = ((.ok d', t'), g₂)) :
    Previews v.mark next u.programs q sol d d' := by
  rcases h.preview versions run run' with
    ⟨cause, rfl, rfl⟩ | ⟨ps, updated, applied, applied', ⟨g₃, run⟩, g₄, run'⟩
  · exact .refused cause
  have clean := applied.clean h.before h.clean
  have clean' := applied.clean h.before h.clean'
  have filled : ∀ p ∈ ps, p.rules ≠ [] := by
    rw [updated]
    intro p' hp'
    obtain ⟨p, hp, rfl⟩ := List.mem_map.1 hp'
    simpa [Program.updated] using h.filled p hp
  have several : 2 ≤ ps.length := by simpa [updated] using several
  obtain ⟨f, rfl, outcome⟩ := detectSequence_follows exact exact' clean clean'
    (applied'.like.orderly h.orderly) filled several run run'
  rcases outcome with ⟨unclean, f', rfl, agrees⟩ | ⟨isClean, m, s₁, g₅, sums, exact₁, run⟩
  · exact .stopped unclean agrees
  · exact .passed isClean applied' applied.mentioned_subset sums exact₁ run

/-- Where nothing is wrong any more, the program that follows joins its answer sets to those of the
preview, if it has nothing in common with the programs. -/
lemma Previews.joined {mark : Mark} {ps : List Program}
    (h : Previews mark next ps q sol (.completed f) d)
    (isClean : (Detection.completed f).isClean = true) (orderly : Orderly next (ps ++ [q]))
    (clean : Clean mark (ps ++ [q]))
    (apart : ∀ l ∈ mentioned ps, ∀ m ∈ mentioned [q], l.atom.predicate ≠ m.atom.predicate) :
    ∃ f', d = .completed f' ∧ ListsSets f'.answerSets (JoinedWith q f.answerSets) := by
  cases h with
  | stopped unclean _ =>
      rw [isClean] at unclean
      cases unclean
  | passed _ applied mentions sums exact run =>
      refine sums.joined exact (applied.clean orderly clean) (fun c hc l hl b hb m hm => ?_) run
      refine apart l (mentions l (mem_mentioned_iff_allClauses.2 ⟨c, hc, hl⟩)) m ?_
      exact mem_mentioned_iff_allClauses.2 ⟨b, by simpa using hb, hm⟩

/-- As long as something is wrong, the previews lead to the same distance. -/
lemma Previews.distance {mark : Mark} {ps : List Program}
    (h : Previews mark next ps q sol d d')
    (unclean : d.isClean = false) (same : SameHeld f.answerSets f'.answerSets) :
    d'.distanceFrom f'.answerSets = d.distanceFrom f.answerSets := by
  cases h with
  | refused _ => rfl
  | stopped _ agrees =>
      exact congrArg some (answerSetDistance_congr same.symm agrees.answerSets.symm)
  | passed isClean _ _ _ _ _ =>
      rw [isClean] at unclean
      cases unclean

/-! ## Solutions -/

/-- What a program that follows leaves of a direct solution of a sequence.  It is the same edit,
with the same rule distance.  Unless nothing is wrong in a preview, the score is the same; and if
nothing is wrong, the answer set distance is that from the answer sets of the present to those of
the preview, joined with those of the program that follows.  The mark is that of the detector which
sees this program. -/
structure Undisturbed (u : UpdateSequence) (q : Program) (mark : Mark) (before : List AnswerSet)
    (sol sol' : Solution) : Prop where
  edit : { sol' with score := sol.score } = sol
  rules : sol'.score.map Score.rules = sol.score.map Score.rules
  stopped : (∀ s d t g g', s.Exact → (u.preview sol).run s g = ((.ok d, t), g') →
    d.isClean = false) → sol'.score = sol.score
  passed : u.settings.scoreSolutions = true → Clean mark (u.programs ++ [q]) →
    (∀ l ∈ mentioned u.programs, ∀ m ∈ mentioned [q], l.atom.predicate ≠ m.atom.predicate) →
    ∀ s d t g g', s.Exact → (u.preview sol).run s g = ((.ok d, t), g') → d.isClean = true →
      ∃ after, ListsSets after (JoinedWith q d.findings.answerSets) ∧
        sol'.score.bind Score.answerSets = some (answerSetDistance before after)

/-- **A program that follows leaves a direct solution undisturbed.** -/
theorem Followed.undisturbed {x : Solution} (h : Followed next u q v)
    (versions : x.Excludes IsVersion u.programs reference rs) (several : 2 ≤ u.programs.length)
    (exact : s.Exact) (exact' : s'.Exact) (same : SameHeld f.answerSets f'.answerSets)
    (scored : Scored (u.withFindings f) s x sol) (scored' : Scored (v.withFindings f') s' x sol') :
    Undisturbed u q v.mark f.answerSets sol sol' := by
  have both : (v.withFindings f').settings.scoreSolutions =
      (u.withFindings f).settings.scoreSolutions :=
    congrArg UpdateSettings.scoreSolutions h.settings
  cases scored with
  | unscored off =>
      cases scored' with
      | unscored _ =>
          exact ⟨rfl, rfl, fun _ => rfl, fun on => absurd (off.symm.trans on) (by decide)⟩
      | scored on _ _ => exact absurd (on.symm.trans (both.trans off)) (by decide)
  | @scored d s₁ _ _ _ on reply run =>
      cases scored' with
      | unscored off => exact absurd (off.symm.trans (both.trans on)) (by decide)
      | @scored d' s₂ _ _ _ _ reply' run' =>
          have previews : ∀ {s₃ d₃ t₃ g₃ g₄}, s₃.Exact →
              (u.preview x).run s₃ g₃ = ((.ok d₃, t₃), g₄) →
                Previews v.mark next u.programs q x d₃ d' := fun exact₃ run₃ =>
            h.previews versions several exact₃ (exact'.of_reply reply') run₃ run'
          have rules : x.ruleDistance v.programs = x.ruleDistance u.programs := by
            rw [h.programs, Solution.ruleDistance_append
              ((versions.imp IsVersion.like).id_not_mem h.orderly)]
          refine ⟨rfl, congrArg some rules, fun unclean => ?_, ?_⟩
          · have exact₁ := exact.of_reply reply
            have distance := (previews exact₁ run).distance (unclean _ _ _ _ _ exact₁ run) same
            exact congrArg some (congrArg₂ Score.mk distance rules)
          · intro _ clean apart s₃ d₃ t₃ g₃ g₄ exact₃ run₃ isClean
            cases d₃ with
            | failed _ => cases isClean
            | completed f₃ =>
                obtain ⟨f₄, rfl, lists⟩ :=
                  (previews exact₃ run₃).joined isClean h.orderly clean apart
                exact ⟨f₄.answerSets, lists,
                  congrArg some (answerSetDistance_congr same.symm (.refl _))⟩

/-! ## Conflicts -/

/-- **A program that follows leaves the direct solutions of a conflict undisturbed.** -/
theorem Followed.directs {c₀ c₀' : Conflict} (h : Followed next u q v)
    (several : 2 ≤ u.programs.length) (ha : c₀.older ∈ rulesOf u.programs)
    (hb : c₀.newer ∈ rulesOf u.programs) (unsolved : c₀.solutions = [])
    (unsolved' : c₀'.solutions = []) (exact : s.Exact) (exact' : s'.Exact)
    (same : SameHeld f.answerSets f'.answerSets) (agrees : c₀.Agrees c₀')
    (presents : Presents (u.withFindings f) s c₀ c)
    (presents' : Presents (v.withFindings f') s' c₀' c') :
    List.Forall₂ (Undisturbed u q v.mark f.answerSets) c.directs c'.directs := by
  obtain ⟨found, always⟩ := exists_directSolutions c₀
  have alike : directSolutions c₀' = directSolutions c₀ := by
    show Method.direct.solutions [] c₀' = Method.direct.solutions [] c₀
    exact Method.direct.solutions_congr agrees.older agrees.newer
  have nothing : ∀ {c : Conflict}, c.solutions = [] → c.directs = [] := fun h => by
    rw [Conflict.directs, h, List.filter_nil]
  have automatic : (v.withFindings f').automatic = (u.withFindings f).automatic :=
    congrArg (List.filter fun s : Strategy => !s.interactive) h.strategies
  have scored := presents.directs found always
  have scored' := presents'.directs found (alike ▸ always)
  rw [nothing unsolved, List.nil_append] at scored
  rw [nothing unsolved', List.nil_append, automatic] at scored'
  -- the same solutions are scored on both sides
  refine (forall₂_common scored scored').imp ?_
  rintro sol sol' ⟨x, hx, scored, scored'⟩
  obtain ⟨reference, rs, versions⟩ := excludes_of_mem_directs ha hb always x hx
  exact h.undisturbed versions several exact exact' same scored scored'

/-- A detection that finds conflicts sees two programs. -/
lemma length_of_conflicts {mark : Mark} {ps : List Program}
    (run : (detectSequence mark ps).run s g = ((.ok d, t), g'))
    (conflicts : d.findings.conflicts ≠ []) : 2 ≤ ps.length := by
  rcases ps with _ | ⟨p, _ | ⟨q, ps⟩⟩
  · cases run
    exact absurd rfl conflicts
  · cases run
    exact absurd rfl conflicts
  · simp

/-- What is offered where conflicts are found. -/
lemma detect_conflicts (run : u.detect.run s g = (((.ok d, u'), t), g'))
    (conflicts : d.findings.conflicts ≠ []) : ∃ f cs s₁ g₀ g₁,
      (detectSequence u.mark u.programs).run s g₀ = ((.ok (.completed f), s₁), g₁) ∧
      d = .completed { f with conflicts := cs } ∧ f.conflicts ≠ [] ∧
      List.Forall₂ (Presents (u.withFindings f) s) f.conflicts cs := by
  obtain ⟨_, s₁, g₀, g₁, found, ⟨cause, rfl, rfl⟩ | ⟨f, cs, rfl, rfl, presents⟩⟩ := detect_ok run
  · exact absurd rfl conflicts
  · refine ⟨f, cs, s₁, g₀, g₁, found, rfl, fun none => ?_, presents⟩
    rw [none, List.forall₂_nil_left_iff] at presents
    exact conflicts presents

/-- What is offered where a program follows the conflicts. -/
lemma Followed.detect (h : Followed next u q v) (exact : s.Exact) (exact' : s'.Exact)
    (found : (detectSequence u.mark u.programs).run s g = ((.ok (.completed f), t), g'))
    (conflicts : f.conflicts ≠ []) (run' : v.detect.run s' g₁ = (((.ok d', v'), t'), g₂)) :
    ∃ f' cs s₁ g₃ g₄,
      (detectSequence v.mark (u.programs ++ [q])).run s' g₃ = ((.ok (.completed f'), s₁), g₄) ∧
      d' = .completed { f' with conflicts := cs } ∧ f.Agrees f' ∧
      List.Forall₂ (Presents (v.withFindings f') s') f'.conflicts cs := by
  obtain ⟨d₁, s₁, g₃, g₄, found', outcome⟩ := detect_ok run'
  rw [h.programs] at found'
  obtain ⟨_, e, follows⟩ := detectSequence_follows exact exact' h.clean h.clean' h.orderly h.filled
    (length_of_conflicts found conflicts) found found'
  cases e
  obtain ⟨-, f', rfl, agrees⟩ | ⟨isClean, -⟩ := follows
  · obtain ⟨_, e, -⟩ | ⟨_, cs, e, rfl, presents⟩ := outcome <;> cases e
    exact ⟨f', cs, s₁, g₃, g₄, found', rfl, agrees, presents⟩
  · exact absurd (isClean_completed_iff.1 isClean).1 conflicts

/-- **A program that follows a conflict leaves it undisturbed.**  If a detection finds conflicts in
clean programs, then a detection with a program more finds the same conflicts with the same
witnesses, and leaves their direct solutions undisturbed; or it breaks off at an identifier that is
too long to be read.  With direct strategies only, it does not break off on clean programs with
identifiers that can be read. -/
theorem detect_followed {o : Except UpdateError Detection} (h : Followed next u q v)
    (exact : s.Exact) (exact' : s'.Exact) (above : next ≤ g₁.nextId)
    (run : u.detect.run s g = (((.ok d, u'), t), g')) (conflicts : d.findings.conflicts ≠ [])
    (run' : v.detect.run s' g₁ = (((o, v'), t'), g₂)) :
    ((∃ long, o = .error (.identifier long)) ∧
      ¬ (Clean v.mark v.programs ∧ Named v.programs ∧ ∀ a ∈ v.strategies, a.method = .direct)) ∨
    ∃ d', o = .ok d' ∧ SameHeld d.findings.answerSets d'.findings.answerSets ∧
      ∃ cs, cs.Perm d'.findings.conflicts ∧ List.Forall₂ (fun c c' => c.Agrees c' ∧
        List.Forall₂ (Undisturbed u q v.mark d.findings.answerSets) c.directs c'.directs)
          d.findings.conflicts cs := by
  cases o with
  | error e =>
      have orderly : Orderly next v.programs := h.programs ▸ h.orderly
      obtain ⟨long, rfl⟩ := detect_error orderly above run'
      refine Or.inl ⟨⟨long, rfl⟩, fun ⟨clean, named, direct⟩ => ?_⟩
      obtain ⟨d', v'', t'', g₃, total⟩ :=
        detect_total_of_direct direct exact' clean named orderly g₁
      rw [total] at run'
      cases run'
  | ok d' =>
      obtain ⟨f, cs, s₁, g₃, g₄, found, rfl, some, presents⟩ := detect_conflicts run conflicts
      obtain ⟨f', cs', s₂, g₅, g₆, found', rfl, agrees, presents'⟩ :=
        h.detect exact exact' found some run'
      obtain ⟨ds, perm, alike⟩ := agrees.conflicts
      obtain ⟨ds', presents'', perm'⟩ := List.perm_comp_forall₂ perm presents'
      refine Or.inr ⟨_, rfl, agrees.answerSets, ds', perm', ?_⟩
      refine (forall₂_common presents (forall₂_common alike.flip presents'')).imp ?_
      rintro c c' ⟨c₀, hc, presents, c₀', hc', alike, presents'⟩
      obtain ⟨ha, hb, unsolved⟩ := detectSequence_found h.before found hc
      obtain ⟨-, -, unsolved'⟩ := detectSequence_found h.orderly found' (perm.mem_iff.1 hc')
      have directs := h.directs (length_of_conflicts found some) ha hb unsolved unsolved' exact
        exact' agrees.answerSets alike presents presents'
      refine ⟨⟨?_, ?_, ?_⟩, directs⟩
      · rw [presents.older, presents'.older, Conflict.Agrees.older alike]
      · rw [presents.newer, presents'.newer, Conflict.Agrees.newer alike]
      · rw [presents.answerSets, presents'.answerSets]
        exact Conflict.Agrees.answerSets alike

/-! ## A fact that is denied -/

namespace DeniedFact

def a : Literal := ⟨⟨"a", []⟩, false⟩

def b : Literal := ⟨⟨"b", []⟩, false⟩

def x : Literal := ⟨⟨"x", []⟩, false⟩

def fact : Rule := { head := some a, id := 1 }

/-- The rule that denies the fact. -/
def denial : Rule := { head := some a.complement, body := [b], id := 2 }

def reason : Rule := { head := some b, label := 1, id := 3 }

/-- The version of the fact that gives way. -/
def guarded : Rule := { head := some a, negBody := [b], id := 1 }

/-- A program with a single rule. -/
def single (r : Rule) : Program := { name := "older", rules := [r] }

def newer : Program := { name := "newer", rules := [denial, reason] }

def further : Program := { name := "further", rules := [{ head := some x, id := 4 }] }

def guard : Solution := { modifications := [guarded], rootRule := some 1, strategy := "direct" }

def pair : UpdateSequence :=
  { programs := [single fact, newer], strategies := [⟨.direct, false⟩] }

def triple : UpdateSequence :=
  { programs := [single fact, newer, further], strategies := [⟨.direct, false⟩] }

/-- What holds once the fact is denied. -/
def denied : AnswerSet := ⟨[b, a.complement], by decide⟩

lemma read : ∀ p ∈ triple.programs, IsRead 5 p := by
  refine List.forall_mem_cons.2 ⟨?_, List.forall_mem_cons.2 ⟨?_, List.forall_mem_singleton.2 ?_⟩⟩
  · exact ⟨some "a.", "older", single fact, { nextId := 1 }, { nextId := 2 }, rfl, by decide,
      by decide, rfl⟩
  · exact ⟨some "-a :- b. b.", "newer", newer, { nextId := 2 }, { nextId := 4 }, rfl, by decide,
      by decide, rfl⟩
  · exact ⟨some "x.", "further", further, { nextId := 4 }, { nextId := 5 }, rfl, by decide,
      by decide, rfl⟩

lemma clean : Clean triple.mark triple.programs := by decide

lemma apart : ∀ l ∈ mentioned pair.programs, ∀ m ∈ mentioned [further],
    l.atom.predicate ≠ m.atom.predicate := by decide

lemma disjoint : triple.programs.Pairwise fun p q => p.ids.Disjoint q.ids := by
  simp [triple, single, newer, further, fact, denial, reason, Program.ids]

lemma followed : Followed 5 pair further triple :=
  .of_isRead read disjoint (by decide) (by decide) rfl rfl rfl

lemma contradiction : Contradiction pair.mark (single fact) newer fact denial denied.literals := by
  decide

/-- Whatever derives the fact, only the denial and its reason hold. -/
lemma eq_denied {r : Rule} {held : Set Literal} (head : r.head = some a)
    (answer : IsAnswerSet (survivors (single r) newer held).clauses held) : held = denied.held := by
  have inside : ∀ r' ∈ newer.rules, r'.toClause ∈ (survivors (single r) newer held).clauses :=
    fun r' hr => mem_survivors.2 (Or.inr ⟨r', hr, rfl⟩)
  have hb : b ∈ held := answer.mem_iff.2
    ⟨_, inside reason (by simp [newer]), rfl, by simp [Clause.HoldsIn, reason]⟩
  have ha : a.complement ∈ held := answer.mem_iff.2
    ⟨_, inside denial (by simp [newer]), rfl, by simpa [Clause.HoldsIn, denial]⟩
  refine Set.Subset.antisymm (fun l hl => ?_) fun l hl => ?_
  · obtain ⟨c, hc, derives, -⟩ := answer.mem_iff.1 hl
    rcases mem_survivors.1 hc with ⟨r', hr, -, rfl⟩ | ⟨r', hr, rfl⟩
    · rw [List.mem_singleton.1 hr, head, Option.some.injEq] at derives
      exact absurd ha (answer.consistent a (derives ▸ hl))
    · rcases List.mem_pair.1 hr with rfl | rfl <;> cases derives <;>
        simp [denied, AnswerSet.held]
  · rcases List.mem_pair.1 hl with rfl | rfl
    · exact hb
    · exact ha

lemma listsSets {r : Rule} (head : r.head = some a)
    (listed : ListsAnswerSet (survivingClauses (single r) newer denied.literals) denied.literals) :
    ListsSets [denied] fun held => IsAnswerSet (survivors (single r) newer held).clauses held :=
  .singleton fun _ => ⟨eq_denied head, fun e => e ▸ isAnswerSet_survivors listed⟩

lemma fact_sets : ListsSets [denied] fun held =>
    IsAnswerSet (survivors (single fact) newer held).clauses held :=
  listsSets rfl contradiction.lists

lemma guarded_sets : ListsSets [denied] fun held =>
    IsAnswerSet (survivors (single guarded) newer held).clauses held :=
  listsSets rfl (by decide)

/-! ### The preview -/

section

variable {s t : Solver} {g g' : Ledger} {d : Detection} {f : Findings}

lemma previewed (exact : s.Exact) (run : (pair.preview guard).run s g = ((.ok d, t), g')) :
    ∃ f, d = .completed f ∧ Told (single guarded) newer f := by
  rw [run_preview, show (guard.applyTo pair.programs).run g =
    (.ok [single guarded, newer], g) from rfl] at run
  have orderly' : Orderly 5 [single guarded, newer] := by
    refine ⟨by decide, by decide, by decide, List.forall_mem_cons.2 ⟨?_, fun p hp => ?_⟩⟩
    · exact List.pairwise_singleton _ _
    · exact followed.before.unrepeated p (List.mem_cons_of_mem _ hp)
  exact detectPair_told exact (by decide) orderly' (by simp [single]) run

lemma previewed_isClean (told : Told (single guarded) newer f) :
    (Detection.completed f).isClean = true := by
  refine isClean_completed_iff.2 ⟨List.eq_nil_iff_forall_not_mem.2 fun c hc => ?_, ?_⟩
  · obtain ⟨ha, -, -, held, answer, holds, -⟩ := (told.reported _ _).1 ⟨c, hc, rfl, rfl⟩
    rw [List.mem_singleton.1 ha, eq_denied rfl answer] at holds
    exact holds.2 b (by simp [guarded]) (by simp [AnswerSet.held, denied])
  · rw [told.consistent]
    rintro none
    have length := (told.answerSets.sameHeld guarded_sets).length_eq
    simp [none] at length

lemma fact_modifications : modifications fact denial.toClause = [guarded] := by decide +kernel

lemma denial_modifications : modifications denial fact.toClause = [] := by decide +kernel

lemma versions : ∃ reference rs, guard.Excludes IsVersion pair.programs reference rs := by
  have always : ∀ low, (directSolutions { older := fact, newer := denial }).Yields low
      fun sols _ => sols = [{ modifications := [guarded], rootRule := some 1 }] := by
    obtain ⟨found, always⟩ := exists_directSolutions { older := fact, newer := denial }
    obtain ⟨g, run⟩ := directSolutions_of_one (c := { older := fact, newer := denial })
      fact_modifications denial_modifications {}
    obtain rfl := (always 0).of_run_ok (Nat.zero_le _) run
    exact always
  have member : guard ∈ Strategy.directs [{ modifications := [guarded], rootRule := some 1 }]
      pair.strategies := List.mem_singleton.2 rfl
  exact excludes_of_mem_directs (by decide) (by decide) always guard member

/-! ### The scores -/

variable {c c' : Conflict} {sol : Solution} {u : UpdateSequence}

/-- There is nothing to be done about the conflict but to guard the fact. -/
lemma directs_eq (presents : Presents u s c c') (ha : c.older ∈ (single fact).rules)
    (hb : c.newer ∈ newer.rules) (opposed : c.older.Opposed c.newer.toClause)
    (unsolved : c.solutions = []) (automatic : u.automatic = [⟨.direct, false⟩]) :
    ∃ sol, c'.directs = [sol] ∧ Scored u s guard sol := by
  have rules : ∀ r ∈ (single fact).rules, ∀ r' ∈ newer.rules, r.Opposed r'.toClause →
      r = fact ∧ r' = denial := by decide
  obtain ⟨older_eq, newer_eq⟩ := rules _ ha _ hb opposed
  have directs := presents.directs_of_one unsolved (v := guarded)
    (by rw [older_eq, newer_eq, fact_modifications])
    (by rw [older_eq, newer_eq, denial_modifications]) automatic
  rwa [older_eq] at directs

/-- The answer set stays as it is. -/
lemma pair_score (exact : s.Exact) (same : SameHeld f.answerSets [denied])
    (scored : Scored (pair.withFindings f) s guard sol) : sol.score = some ⟨some 0, some 1⟩ := by
  cases scored with
  | unscored off => cases off
  | scored _ reply run =>
      obtain ⟨f', rfl, told⟩ := previewed (exact.of_reply reply) run
      have distance : answerSetDistance f.answerSets f'.answerSets = 0 := by
        rw [answerSetDistance_congr same (told.answerSets.sameHeld guarded_sets)]
        decide +kernel
      have changes : guard.ruleDistance pair.programs = some 1 := by decide +kernel
      exact congrArg some (congrArg₂ Score.mk (congrArg some distance) changes)

/-- What holds once the further program is taken in. -/
def joined : AnswerSet := ⟨[b, a.complement, x], by decide⟩

lemma joined_sets (same : SameHeld f.answerSets [denied]) :
    ListsSets [joined] (JoinedWith further f.answerSets) := by
  have alone : ∀ ys, IsAnswerSet further.clauses ys ↔ ys = {l | l ∈ [x]} := by
    refine fun ys => ⟨fun answer => Set.ext fun l => ?_, fun e => ?_⟩
    · rw [answer.mem_iff]
      simp [further, Program.clauses, Clause.HoldsIn, eq_comm]
    · rw [e]
      exact ListsAnswerSet.isAnswerSet (by decide)
  have sets : ∀ xs, xs ∈ f.answerSets.map AnswerSet.held ↔ xs = denied.held := fun xs =>
    same.mem_iff.trans List.mem_singleton
  refine .singleton fun held => ?_
  simp only [JoinedWith, sets, alone, exists_eq_left]
  have union : joined.held = denied.held ∪ {l | l ∈ [x]} := by
    ext l
    simp only [joined, denied, AnswerSet.held, Set.mem_union, Set.mem_ofPred_eq, List.mem_cons,
      List.not_mem_nil, or_false, or_assoc]
  rw [union]

/-- The preview goes on, and there is a literal more. -/
lemma triple_score (exact : s.Exact) (same : SameHeld f.answerSets [denied])
    (scored : Scored (triple.withFindings f) s guard sol) : sol.score = some ⟨some 1, some 1⟩ := by
  cases scored with
  | unscored off => cases off
  | scored _ reply run =>
      obtain ⟨reference, rs, versions⟩ := versions
      obtain ⟨d, t, g, run'⟩ :=
        preview_total exact versions followed.clean (by decide) followed.before {}
      obtain ⟨f', rfl, told⟩ := previewed exact run'
      have isClean := previewed_isClean told
      obtain ⟨f'', rfl, sets⟩ := (followed.previews versions (by decide) exact
        (exact.of_reply reply) run' run).joined isClean followed.orderly clean apart
      have distance : answerSetDistance f.answerSets f''.answerSets = 1 := by
        rw [answerSetDistance_congr same
          (sets.sameHeld (joined_sets (told.answerSets.sameHeld guarded_sets)))]
        decide +kernel
      have changes : guard.ruleDistance triple.programs = some 1 := by decide +kernel
      exact congrArg some (congrArg₂ Score.mk (congrArg some distance) changes)

lemma exists_runs : ∃ d u' t g d' v' t' g',
    pair.detect.run Solver.exact { nextId := 5 } = (((.ok d, u'), t), g) ∧
      triple.detect.run Solver.exact { nextId := 5 } = (((.ok d', v'), t'), g') := by
  obtain ⟨d, u', t, g, run⟩ := detect_total_of_direct (u := pair) (by decide) exact_exact
    followed.clean (by decide) followed.before { nextId := 5 }
  obtain ⟨d', v', t', g', run'⟩ := detect_total_of_direct (u := triple) (by decide) exact_exact
    clean (by decide) followed.orderly { nextId := 5 }
  exact ⟨d, u', t, g, d', v', t', g', run, run'⟩

lemma pair_found {d : Detection} (exact : s.Exact)
    (found : (detectSequence pair.mark pair.programs).run s g = ((.ok d, t), g')) :
    ∃ f, d = .completed f ∧ Told (single fact) newer f ∧ SameHeld f.answerSets [denied] ∧
      f.conflicts ≠ [] := by
  obtain ⟨f, rfl, told⟩ :=
    detectPair_told exact followed.clean followed.before (by simp [single]) found
  refine ⟨f, rfl, told, told.answerSets.sameHeld fact_sets, ?_⟩
  obtain ⟨c, hc, -⟩ := (told.reported fact denial).2 ⟨contradiction.mem_older,
    contradiction.mem_newer, contradiction.opposed, denied.held,
    (fact_sets.mem_iff _).1 (List.mem_singleton.2 rfl), contradiction.older_holds,
    contradiction.newer_holds⟩
  exact List.ne_nil_of_mem hc

lemma pair_conflicts {v : UpdateSequence}
    (run : pair.detect.run Solver.exact g = (((.ok d, v), t), g')) : d.findings.conflicts ≠ [] := by
  obtain ⟨d₀, s₁, g₀, g₁, found, outcome⟩ := detect_ok run
  obtain ⟨f, rfl, -, -, conflicts⟩ := pair_found exact_exact found
  rcases outcome with ⟨_, e, -⟩ | ⟨_, cs, e, rfl, presents⟩
  · cases e
  cases e
  rintro (rfl : cs = [])
  exact conflicts (List.forall₂_nil_right_iff.1 presents)

end

end DeniedFact

open DeniedFact in
theorem detect_followed_denied : ∃ d u' t g d' v' t' g',
    pair.detect.run Solver.exact { nextId := 5 } = (((.ok d, u'), t), g) ∧
      triple.detect.run Solver.exact { nextId := 5 } = (((.ok d', v'), t'), g') ∧
      Followed 5 pair further triple ∧ Solver.exact.Exact ∧ d.findings.conflicts ≠ [] ∧
      SameHeld d.findings.answerSets d'.findings.answerSets ∧
      ∃ cs, cs.Perm d'.findings.conflicts ∧ List.Forall₂ (fun c c' => c.Agrees c' ∧
        List.Forall₂ (Undisturbed pair further triple.mark d.findings.answerSets)
          c.directs c'.directs) d.findings.conflicts cs := by
  obtain ⟨d, u', t, g, d', v', t', g', run, run'⟩ := exists_runs
  have conflicts := pair_conflicts run
  rcases detect_followed followed exact_exact exact_exact (Nat.le_refl 5) run conflicts run' with
    ⟨⟨_, e⟩, -⟩ | ⟨_, e, same, agree⟩ <;> cases e
  exact ⟨d, u', t, g, d', v', t', g', run, run', followed, exact_exact, conflicts, same, agree⟩

open DeniedFact in
/-- **A distance that the program which follows changes.**  With the fact guarded nothing is wrong
any more, so that the preview goes on to the further program. -/
theorem detect_followed_distance :
    (∀ p ∈ triple.programs, IsRead 5 p) ∧
      (triple.programs.Pairwise fun p q => p.ids.Disjoint q.ids) ∧
      Clean triple.mark triple.programs ∧ triple.programs = pair.programs ++ [further] ∧
      (∀ l ∈ mentioned pair.programs, ∀ m ∈ mentioned [further],
        l.atom.predicate ≠ m.atom.predicate) ∧ Solver.exact.Exact ∧
      ∃ d u' t g d' v' t' g',
        pair.detect.run Solver.exact { nextId := 5 } = (((.ok d, u'), t), g) ∧
        triple.detect.run Solver.exact { nextId := 5 } = (((.ok d', v'), t'), g') ∧
        (∃ c ∈ d.findings.conflicts, ∃ sol ∈ c.directs, sol.score = some ⟨some 0, some 1⟩) ∧
        ∀ c ∈ d'.findings.conflicts, ∀ sol ∈ c.directs, sol.score = some ⟨some 1, some 1⟩ := by
  obtain ⟨d, u', t, g, d', v', t', g', run, run'⟩ := exists_runs
  refine ⟨read, disjoint, clean, rfl, apart, exact_exact, d, u', t, g, d', v', t', g', run, run',
    ?_⟩
  obtain ⟨f, cs, s₁, g₀, g₁, found, rfl, conflicts, presents⟩ :=
    detect_conflicts run (pair_conflicts run)
  obtain ⟨_, e, told, same, -⟩ := pair_found exact_exact found
  cases e
  have conflicting : ∀ c ∈ f.conflicts, c.older ∈ (single fact).rules ∧ c.newer ∈ newer.rules ∧
      c.older.Opposed c.newer.toClause ∧ c.solutions = [] := by
    intro c hc
    obtain ⟨ha, hb, opposed, -⟩ := (told.reported _ _).1 ⟨c, hc, rfl, rfl⟩
    exact ⟨ha, hb, opposed, (detectSequence_found followed.before found hc).2.2⟩
  constructor
  · obtain ⟨c₀, hc₀⟩ := List.exists_mem_of_ne_nil _ conflicts
    obtain ⟨ha, hb, opposed, unsolved⟩ := conflicting c₀ hc₀
    obtain ⟨c, hc, presents⟩ := (forall₂_mem presents).1 c₀ hc₀
    obtain ⟨sol, directs, scored⟩ := directs_eq presents ha hb opposed unsolved rfl
    exact ⟨c, hc, sol, directs ▸ List.mem_singleton.2 rfl, pair_score exact_exact same scored⟩
  · obtain ⟨f', cs', s₂, g₂, g₃, found', rfl, agrees, presents'⟩ :=
      followed.detect exact_exact exact_exact found conflicts run'
    intro c hc sol hs
    obtain ⟨c₂, hc₂, presents⟩ := (forall₂_mem presents').2 c hc
    obtain ⟨ds, perm, alike⟩ := agrees.conflicts
    obtain ⟨c₁, hc₁, alike⟩ := (forall₂_mem alike).2 c₂ (perm.mem_iff.2 hc₂)
    obtain ⟨ha, hb, opposed, -⟩ := conflicting c₁ hc₁
    rw [← alike.older] at ha opposed
    rw [← alike.newer] at hb opposed
    have unsolved := (detectSequence_found followed.orderly found' hc₂).2.2
    obtain ⟨sol', directs, scored⟩ := directs_eq presents ha hb opposed unsolved rfl
    obtain rfl : sol = sol' := List.mem_singleton.1 (directs ▸ hs)
    exact triple_score exact_exact (agrees.answerSets.symm.trans same) scored

end UpdateSequence

end CausalUpdate
