import CausalUpdate.Proofs.Detection.Stopping
import CausalUpdate.Proofs.UpdateSequence.Accepting

/-!
# Scoring direct solutions

The direct solutions of a conflict come from its two rules alone, whatever programs these are in.
They are offered in the order in which they are found, each with a score, and the score says how far
the answer sets of a preview are from those that were found.

* `exists_directSolutions` — direct solutions are always found, and always the same.
* `Conflict.directs` — the direct solutions of a conflict.
* `Scored` — solutions and what scoring makes of them.
* `offerAll_presents` — the direct solutions that are offered.
* `detect_ok`, `detect_error` — detections that are completed, and detections that break off.
-/

namespace CausalUpdate

/-! ## Direct solutions -/

/-- What is collected is always the same if this is so for every item. -/
lemma Attempt.exists_collect {ε α β : Type} {f : α → Attempt ε (Option β)} {as : List α}
    (each : ∀ a ∈ as, ∃ b?, ∀ low, (f a).Yields low fun x _ => x = b?) :
    ∃ bs, ∀ low, (Attempt.collect f as).Yields low fun xs _ => xs = bs := by
  induction as with
  | nil => exact ⟨[], fun low => .pure fun _ _ => rfl⟩
  | cons a as ih =>
      obtain ⟨b?, first⟩ := each a List.mem_cons_self
      obtain ⟨bs, rest⟩ := ih fun a ha => each a (List.mem_cons_of_mem _ ha)
      refine ⟨b?.toList ++ bs, fun low => (first low).bind fun x n _ e => ?_⟩
      exact (rest n).bind fun xs n' _ e' => .pure fun _ _ => by rw [e, e']

lemma exists_directSolution? (rejected reference : Rule) :
    ∃ sol?, ∀ low, (directSolution? rejected reference).Yields low fun x _ => x = sol? := by
  have versions := fun low => findModifications_yields (ε := StrategyError) low rejected
    reference.toClause
  cases found : modifications rejected reference.toClause with
  | nil =>
      refine ⟨none, fun low => (versions low).bind fun vs n _ e => ?_⟩
      rw [e, found]
      exact .pure fun _ _ => rfl
  | cons first others =>
      have version : ∀ v ∈ first :: others, IsVersion rejected reference.toClause v :=
        fun v hv => isVersion_of_mem_modifications (found ▸ hv)
      have first_version := version first List.mem_cons_self
      have others_version := fun v hv => version v (List.mem_cons_of_mem _ hv)
      obtain ⟨sol, chosen, -⟩ := (Solution.Edits.fresh (some rejected.id) none).chooseAmong_total
        first_version others_version List.not_mem_nil fun v hv =>
          (others_version v hv).extension.id.trans first_version.extension.id.symm
      refine ⟨some sol, fun low => (versions low).bind fun vs n _ e => ?_⟩
      rw [e, found]
      exact .of_bind chosen (.pure fun _ _ => rfl)

/-- **Direct solutions are always found, and always the same.** -/
theorem exists_directSolutions (c : Conflict) :
    ∃ found, ∀ low, (directSolutions c).Yields low fun sols _ => sols = found :=
  Attempt.exists_collect fun d _ => exists_directSolution? d.1 d.2

/-- The solutions of a conflict that the direct method has found. -/
def Conflict.directs (c : Conflict) : List Solution :=
  c.solutions.filter fun s => s.strategy = Method.direct.name

/-- The solutions under the name of a method. -/
def Method.tag (m : Method) (found : List Solution) : List Solution :=
  found.map fun sol => { sol with strategy := m.name }

/-- What strategies offer of the direct solutions of a conflict: all of them, once for every direct
strategy. -/
def Strategy.directs (found : List Solution) (ss : List Strategy) : List Solution :=
  (ss.filter fun s => s.method = .direct).flatMap fun _ => Method.direct.tag found

section

variable {ps : List Program} {c c' : Conflict} {found : List Solution} {g g' : Ledger}

lemma Method.filter_tag (m : Method) (found : List Solution) :
    ((m.tag found).filter fun s => s.strategy = Method.direct.name) =
      if m = .direct then Method.direct.tag found else [] := by
  have name : ∀ s ∈ m.tag found, s.strategy = m.name := by
    intro s hs
    obtain ⟨sol, -, rfl⟩ := List.mem_map.1 hs
    rfl
  cases m with
  | direct =>
      rw [if_pos rfl]
      exact List.filter_eq_self.2 fun s hs => decide_eq_true (name s hs)
  | indirect =>
      rw [if_neg (by decide)]
      exact List.filter_eq_nil_iff.2 fun s hs => by simp [name s hs, Method.name]
  | rejectionRule =>
      rw [if_neg (by decide)]
      exact List.filter_eq_nil_iff.2 fun s hs => by simp [name s hs, Method.name]

/-- **The direct solutions of several strategies**, whatever the others find. -/
theorem Strategy.applyAll_directs {ss : List Strategy}
    (always : ∀ low, (directSolutions c).Yields low fun sols _ => sols = found)
    (run : (Strategy.applyAll ps c ss).run g = (.ok c', g')) :
    c'.directs = c.directs ++ Strategy.directs found ss := by
  induction ss generalizing c g with
  | nil =>
      have : (Except.ok c, g) = (Except.ok c', g') := run
      cases this
      exact (List.append_nil _).symm
  | cons s ss ih =>
      obtain ⟨c₁, g₁, first, rest⟩ := Attempt.bind_ok run
      obtain ⟨sols, g₂, searched, last⟩ := Attempt.bind_ok first
      obtain ⟨_, g₃, noted, last⟩ := Attempt.bind_ok last
      cases noted
      cases last
      have tagged : (c.addSolutions (s.method.tag sols)).directs =
          c.directs ++ if s.method = .direct then Method.direct.tag found else [] := by
        rw [Conflict.directs, Conflict.addSolutions, List.filter_append, Method.filter_tag]
        split
        · rename_i direct
          rw [direct] at searched
          rw [(always 0).of_run_ok (Nat.zero_le _) searched]
          rfl
        · rfl
      refine (ih (c := c.addSolutions (s.method.tag sols)) always rest).trans ?_
      rw [tagged, Strategy.directs, Strategy.directs, List.filter_cons]
      split <;> simp_all

end

/-! ## Scores -/

/-- How far the answer sets that a detection finds are from others; a detection that fails leaves
this open. -/
def Detection.distanceFrom (before : List AnswerSet) : Detection → Option Nat
  | .completed f => some (answerSetDistance before f.answerSets)
  | .failed _ => none

section

variable {α β : Type} {f : α → Updating β} {as : List α} {bs : List β} {s t : Solver}
  {g g' : Ledger}

/-- Work on a list is work on its items in turn, with a solver that replies in the same way. -/
lemma Updating.each_forall₂ (steady : ∀ a, (f a).Steady)
    (run : (each f as).run s g = ((.ok bs, t), g')) :
    List.Forall₂ (fun a b => ∃ s₁ t₁ g₁ g₂, s₁.reply = s.reply ∧
      (f a).run s₁ g₁ = ((.ok b, t₁), g₂)) as bs := by
  induction as generalizing bs s g with
  | nil =>
      have : ((Except.ok [], s), g) = ((Except.ok bs, t), g') := run
      cases this
      exact .nil
  | cons a as ih =>
      obtain ⟨b, s₁, g₁, first, rest⟩ := Updating.bind_ok run
      obtain ⟨bs', s₂, g₂, others, rest⟩ := Updating.bind_ok rest
      cases rest
      have reply := ((steady a).of_run first).1
      refine .cons ⟨s, s₁, g, g₁, rfl, first⟩ ((ih others).imp ?_)
      rintro a b ⟨s₃, t₃, g₃, g₄, reply', run⟩
      exact ⟨s₃, t₃, g₃, g₄, reply'.trans reply, run⟩

/-- Work on a list that breaks off does so at one of its items. -/
lemma Updating.each_error (steady : ∀ a, (f a).Steady) {e : UpdateError}
    (run : (each f as).run s g = ((.error e, t), g')) :
    ∃ a ∈ as, ∃ s₁ t₁ g₁ g₂, s₁.reply = s.reply ∧ g.nextId ≤ g₁.nextId ∧
      (f a).run s₁ g₁ = ((.error e, t₁), g₂) := by
  induction as generalizing s g with
  | nil => cases run
  | cons a as ih =>
      rcases Updating.bind_error run with failed | ⟨b, s₁, g₁, first, rest⟩
      · exact ⟨a, List.mem_cons_self, s, t, g, g', rfl, Nat.le_refl _, failed⟩
      rcases Updating.bind_error rest with failed | ⟨bs, s₂, g₂, -, last⟩
      · obtain ⟨reply, grows⟩ := (steady a).of_run first
        obtain ⟨a', ha, s₃, t₃, g₃, g₄, reply', grows', failed⟩ := ih failed
        exact ⟨a', List.mem_cons_of_mem _ ha, s₃, t₃, g₃, g₄, reply'.trans reply,
          Nat.le_trans grows grows', failed⟩
      · cases last

end

namespace UpdateSequence

variable {u u' : UpdateSequence} {s t : Solver} {g g' : Ledger} {c c' : Conflict}
  {cs cs' : List Conflict} {sol sol' : Solution} {d : Detection} {e : UpdateError} {next : Nat}

/-- The solution with the score that a preview gives it. -/
def scoredBy (u : UpdateSequence) (sol : Solution) (d : Detection) : Solution :=
  { sol with
    score := some
      { answerSets := d.distanceFrom u.answerSets, rules := sol.ruleDistance u.programs } }

/-- What becomes of a solution that is offered, with a solver that replies like another one. -/
inductive Scored (u : UpdateSequence) (s : Solver) (sol : Solution) : Solution → Prop
  | unscored (off : u.settings.scoreSolutions = false) : Scored u s sol sol
  | scored {d : Detection} {s₁ t : Solver} {g g' : Ledger}
      (on : u.settings.scoreSolutions = true) (reply : s₁.reply = s.reply)
      (previewed : (u.preview sol).run s₁ g = ((.ok d, t), g')) : Scored u s sol (u.scoredBy sol d)

lemma run_preview (u : UpdateSequence) (sol : Solution) (s : Solver) (g : Ledger) :
    (u.preview sol).run s g = match (sol.applyTo u.programs).run g with
      | (.ok ps, g') => (detectSequence u.mark ps).run s g'
      | (.error e, g') => ((.ok (.failed (.solution e)), s), g') := by
  rw [preview, Updating.run_work_bind]
  rcases (sol.applyTo u.programs).run g with ⟨_ | _, _⟩ <;> rfl

lemma score_ok (run : (u.score sol).run s g = ((.ok sol', t), g')) :
    ∃ d, (u.preview sol).run s g = ((.ok d, t), g') ∧ sol' = u.scoredBy sol d := by
  obtain ⟨d, s₁, g₁, previewed, rest⟩ := Updating.bind_ok run
  cases d <;> cases rest <;> exact ⟨_, previewed, rfl⟩

lemma score_error (run : (u.score sol).run s g = ((.error e, t), g')) :
    (u.preview sol).run s g = ((.error e, t), g') := by
  rcases Updating.bind_error run with failed | ⟨d, s₁, g₁, -, rest⟩
  · exact failed
  · cases rest

lemma Scored.strategy (h : Scored u s sol sol') : sol'.strategy = sol.strategy := by
  cases h <;> rfl

/-- **The direct solutions that are offered for a conflict**, in the order in which they are
found. -/
theorem offerSolutions_scored {found : List Solution}
    (always : ∀ low, (directSolutions c).Yields low fun sols _ => sols = found)
    (run : (u.offerSolutions c).run s g = ((.ok c', t), g')) :
    List.Forall₂ (Scored u s) (c.directs ++ Strategy.directs found u.automatic) c'.directs := by
  obtain ⟨c₁, s₁, g₁, attempted, rest⟩ := Updating.bind_ok run
  obtain ⟨applied, rfl⟩ := Updating.attempt_ok attempted
  rw [← Strategy.applyAll_directs always applied]
  split at rest
  · rename_i on
    obtain ⟨sols, s₂, g₂, each, rest⟩ := Updating.bind_ok rest
    cases rest
    refine List.rel_filter (fun {x y} h => ?_) ?_
    · simp only [Scored.strategy h]
    · refine (Updating.each_forall₂ u.score_steady each).imp ?_
      rintro x y ⟨s₃, t₃, g₃, g₄, reply, run⟩
      obtain ⟨d, previewed, rfl⟩ := score_ok run
      exact .scored on reply previewed
  · rename_i off
    cases rest
    exact List.forall₂_same.2 fun x _ => .unscored (by simpa using off)

/-- A conflict as it is offered: between the same rules, with the same witnesses, and with its direct
solutions in the order in which they are found. -/
structure Presents (u : UpdateSequence) (s : Solver) (c c' : Conflict) : Prop where
  older : c'.older = c.older
  newer : c'.newer = c.newer
  answerSets : c'.answerSets = c.answerSets
  directs : ∀ found, (∀ low, (directSolutions c).Yields low fun sols _ => sols = found) →
    List.Forall₂ (Scored u s) (c.directs ++ Strategy.directs found u.automatic) c'.directs

lemma Scored.of_reply {s₁ : Solver} (h : Scored u s₁ sol sol') (reply : s₁.reply = s.reply) :
    Scored u s sol sol' := by
  cases h with
  | unscored off => exact .unscored off
  | scored on reply' previewed => exact .scored on (reply'.trans reply) previewed

/-- If only the older rule has another version, and just one, then there is one direct solution. -/
lemma Presents.directs_of_one {v : Rule} (presents : Presents u s c c')
    (unsolved : c.solutions = []) (one : modifications c.older c.newer.toClause = [v])
    (none : modifications c.newer c.older.toClause = [])
    (automatic : u.automatic = [⟨.direct, false⟩]) : ∃ sol, c'.directs = [sol] ∧
      Scored u s { modifications := [v], rootRule := some c.older.id, strategy := "direct" } sol := by
  obtain ⟨found, always⟩ := exists_directSolutions c
  obtain ⟨g, run⟩ := directSolutions_of_one one none {}
  obtain rfl := (always 0).of_run_ok (Nat.zero_le _) run
  have scored := presents.directs _ always
  rw [automatic, Conflict.directs, unsolved] at scored
  obtain ⟨sol, rest, scored, nothing, directs⟩ := List.forall₂_cons_left_iff.1 scored
  rw [List.forall₂_nil_left_iff.1 nothing] at directs
  exact ⟨sol, directs, scored⟩

lemma Presents.of_reply {s₁ : Solver} (h : Presents u s₁ c c') (reply : s₁.reply = s.reply) :
    Presents u s c c' :=
  { h with directs := fun found always =>
      (h.directs found always).imp fun _ _ scored => scored.of_reply reply }

/-- **The conflicts are offered in the order in which they are found.** -/
theorem offerAll_presents (run : (u.offerAll cs).run s g = ((.ok cs', t), g')) :
    List.Forall₂ (Presents u s) cs cs' := by
  obtain ⟨cs₁, s₁, g₁, each, rest⟩ := Updating.bind_ok run
  cases rest
  refine (Updating.each_forall₂ u.offerSolutions_steady each).imp ?_
  rintro c c' ⟨s₂, t₂, g₂, g₃, reply, run⟩
  have offers := offerSolutions_offers run
  have presents : Presents u s₂ c c' := ⟨offers.older, offers.newer, offers.answerSets,
    fun found always => offerSolutions_scored always run⟩
  exact presents.of_reply reply

/-! ## Detections -/

/-- A detection on a sequence that is not broken off: what is found in the programs is offered. -/
theorem detect_ok (run : u.detect.run s g = (((.ok d, u'), t), g')) : ∃ d₀ s₁ g₀ g₁,
    (detectSequence u.mark u.programs).run s g₀ = ((.ok d₀, s₁), g₁) ∧
      ((∃ cause, d₀ = .failed cause ∧ d = .failed cause) ∨
        ∃ f cs, d₀ = .completed f ∧ d = .completed { f with conflicts := cs } ∧
          List.Forall₂ (Presents (u.withFindings f) s) f.conflicts cs) := by
  obtain ⟨g₀, g₁, -, -, run⟩ := tracked_run run
  rw [refresh, Solving.run_bind] at run
  rcases h : (detectSequence u.mark u.programs).run.run s g₀ with ⟨⟨e | f | cause, s₁⟩, g₂⟩
  · rw [h] at run
    cases run
  · rw [h] at run
    replace run : (_ >>= _ : Change).run s₁ g₂ = _ := run
    rw [Solving.run_bind] at run
    rcases offered : ((u.withFindings f).offerAll f.conflicts).run.run s₁ g₂ with
      ⟨⟨e | cs, s₂⟩, g₃⟩
    · rw [offered] at run
      cases run
    · rw [offered] at run
      cases run
      have reply := ((detectSequence_steady u.mark u.programs).of_run h).1
      exact ⟨_, s₁, g₀, g₂, h, Or.inr ⟨f, cs, rfl, rfl,
        (offerAll_presents offered).imp fun _ _ presents => presents.of_reply reply⟩⟩
  · rw [h] at run
    cases run
    exact ⟨_, s₁, g₀, g₂, h, Or.inl ⟨cause, rfl, rfl⟩⟩

/-- A preview of a suitable solution breaks off only at an identifier that cannot be read. -/
lemma preview_error (suits : Suits IsVersion next u.programs sol)
    (orderly : Orderly next u.programs)
    (run : (u.preview sol).run s g = ((.error e, t), g')) : ∃ long, e = .identifier long := by
  rw [run_preview] at run
  rcases application : (sol.applyTo u.programs).run g with ⟨e' | ps, g₁⟩
  · rw [application] at run
    cases run
  · rw [application] at run
    have applied := suits.applied IsVersion.like orderly application
    exact detectSequence_error (applied.like.orderly orderly) run

/-- Offering solutions on orderly programs breaks off only at such an identifier. -/
lemma offerSolutions_error (orderly : Orderly next u.programs) (ha : c.older ∈ rulesOf u.programs)
    (hb : c.newer ∈ rulesOf u.programs) (unsolved : c.solutions = []) (above : next ≤ g.nextId)
    (run : (u.offerSolutions c).run s g = ((.error e, t), g')) : ∃ long, e = .identifier long := by
  rcases Updating.bind_error run with failed | ⟨c₁, s₁, g₁, attempted, rest⟩
  · -- the strategies themselves do not fail
    obtain ⟨e', failed, -⟩ := Updating.attempt_error failed
    obtain ⟨c₁, e'', -⟩ := (applyAll_yields orderly ha hb (Nat.le_refl next) u.automatic).of_run
      above failed
    cases e''
  obtain ⟨applied, rfl⟩ := Updating.attempt_ok attempted
  have offers := Strategy.applyAll_offers applied
  split at rest
  · rcases Updating.bind_error rest with failed | ⟨sols, s₂, g₂, -, last⟩
    · obtain ⟨sol, hs, s₂, t₂, g₂, g₃, -, -, failed⟩ := Updating.each_error u.score_steady failed
      rcases offers.solutions sol hs with ⟨r, hr, -⟩ |
        ⟨m, found, g₄, g₅, later, -, searched, r, hr, same⟩
      · exact absurd (unsolved ▸ hr) List.not_mem_nil
      · have grows := (m.solutions_grows u.programs c).of_run searched
        have suits := (m.solutions_yields orderly ha hb (Nat.le_refl next)).of_run_ok
          (Nat.le_trans above later) searched r hr
        exact preview_error (suits.of_sameEdit same)
          (orderly.mono (Nat.le_trans above (Nat.le_trans later grows))) (score_error failed)
    · cases last
  · cases rest

/-- **A detection on orderly programs breaks off only at an identifier that cannot be read.** -/
theorem detect_error (orderly : Orderly next u.programs) (above : next ≤ g.nextId)
    (run : u.detect.run s g = (((.error e, u'), t), g')) : ∃ long, e = .identifier long := by
  obtain ⟨g₀, began, detected⟩ := detect_outcome run
  cases detected with
  | undetected failed => exact detectSequence_error orderly failed
  | @unoffered f _ s₁ _ g₁ _ found failed =>
      have grows := ((detectSequence_steady u.mark u.programs).of_run found).2
      rcases Updating.bind_error failed with failed | ⟨cs, s₂, g₂, -, rest⟩
      · obtain ⟨c, hc, s₂, t₂, g₂, g₃, -, later, failed⟩ :=
          Updating.each_error (u.withFindings f).offerSolutions_steady failed
        obtain ⟨ha, hb, unsolved⟩ := detectSequence_found orderly found hc
        exact offerSolutions_error (u := u.withFindings f) orderly ha hb unsolved (by omega) failed
      · cases rest

/-! ## Direct strategies -/

/-- Direct strategies do not fail. -/
lemma applyAll_of_direct {ps : List Program} {ss : List Strategy} {found : List Solution}
    (direct : ∀ a ∈ ss, a.method = .direct)
    (always : ∀ low, (directSolutions c).Yields low fun sols _ => sols = found) (g : Ledger) :
    ∃ g', (Strategy.applyAll ps c ss).run g =
      (.ok (c.addSolutions (Strategy.directs found ss)), g') := by
  induction ss generalizing c g with
  | nil =>
      refine ⟨g, ?_⟩
      rw [Strategy.directs, List.filter_nil, List.flatMap_nil, Conflict.addSolutions,
        List.append_nil]
      rfl
  | cons a ss ih =>
      obtain ⟨first, rest⟩ := List.forall_mem_cons.1 direct
      obtain ⟨sols, g₁, searched, rfl, -⟩ := always 0 g (Nat.zero_le _)
      have one : ∃ g₂, (a.apply ps c).run g =
          (.ok (c.addSolutions (Method.direct.tag sols)), g₂) := by
        rw [Strategy.apply, first, Attempt.run_bind,
          show Method.direct.solutions ps c = directSolutions c from rfl, searched]
        exact ⟨_, rfl⟩
      obtain ⟨g₂, one⟩ := one
      obtain ⟨g₃, others⟩ := ih (c := c.addSolutions (Method.direct.tag sols)) rest always g₂
      refine ⟨g₃, ?_⟩
      rw [Strategy.applyAll, Attempt.run_bind, one]
      refine others.trans ?_
      rw [Strategy.directs, Strategy.directs, List.filter_cons_of_pos (by simpa using first),
        List.flatMap_cons, Conflict.addSolutions, Conflict.addSolutions, Conflict.addSolutions,
        List.append_assoc]

/-- What strategies offer of the direct solutions of a conflict are new versions of its rules. -/
lemma excludes_of_mem_directs {found : List Solution} {ps : List Program} {ss : List Strategy}
    (ha : c.older ∈ rulesOf ps) (hb : c.newer ∈ rulesOf ps)
    (always : ∀ low, (directSolutions c).Yields low fun sols _ => sols = found) :
    ∀ sol ∈ Strategy.directs found ss, ∃ reference rs, sol.Excludes IsVersion ps reference rs := by
  intro sol hs
  obtain ⟨_, -, hs⟩ := List.mem_flatMap.1 hs
  obtain ⟨x, hx, rfl⟩ := List.mem_map.1 hs
  obtain ⟨_, _, run, rfl, -⟩ := always 0 {} (Nat.zero_le _)
  have same : ({ x with strategy := Method.direct.name } : Solution).SameEdit x :=
    ⟨rfl, rfl, rfl, rfl⟩
  rcases directSolutions_rejects run x hx with rejects | rejects
  · exact ⟨_, _, (rejects.excludes ha hb).of_sameEdit same⟩
  · exact ⟨_, _, (rejects.excludes hb ha).of_sameEdit same⟩

/-- A direct solution can be previewed, if identifiers can be read. -/
lemma preview_total {reference : Rule} {rs : List Rule} (exact : s.Exact)
    (versions : sol.Excludes IsVersion u.programs reference rs) (clean : Clean u.mark u.programs)
    (named : Named u.programs) (orderly : Orderly next u.programs) (g : Ledger) :
    ∃ d t g', (u.preview sol).run s g = ((.ok d, t), g') := by
  rw [run_preview]
  rcases application : (sol.applyTo u.programs).run g with ⟨e | ps, g₁⟩
  · exact ⟨_, _, _, rfl⟩
  · have applied := (Suits.excludes versions).applied IsVersion.like orderly application
    refine detectSequence_total exact (applied.clean orderly clean) (fun p hp r hr => ?_)
      (applied.like.orderly orderly) g₁
    -- the rules have the identifiers that were there before
    rcases applied.exists_id (mem_rulesOf.2 ⟨p, hp, hr⟩) with ⟨q, hq, id⟩ | added
    · obtain ⟨p', hp', hq⟩ := mem_rulesOf.1 hq
      have short := named p' hp' q hq
      rwa [Rule.Named, id] at short
    · rw [versions.versions.additions] at added
      exact absurd added List.not_mem_nil

lemma offerSolutions_total_of_direct (direct : ∀ a ∈ u.strategies, a.method = .direct)
    (exact : s.Exact) (clean : Clean u.mark u.programs) (named : Named u.programs)
    (orderly : Orderly next u.programs) (ha : c.older ∈ rulesOf u.programs)
    (hb : c.newer ∈ rulesOf u.programs) (unsolved : c.solutions = []) (g : Ledger) :
    ∃ c' t g', (u.offerSolutions c).run s g = ((.ok c', t), g') := by
  obtain ⟨found, always⟩ := exists_directSolutions c
  have applied : ∃ g', (Strategy.applyAll u.programs c u.automatic).run g =
      (.ok (c.addSolutions (Strategy.directs found u.automatic)), g') :=
    applyAll_of_direct (fun a ha => direct a (List.mem_of_mem_filter ha)) always g
  obtain ⟨g₁, applied⟩ := applied
  rw [offerSolutions, Updating.run_bind, Updating.run_attempt, applied]
  simp only
  split
  · have scores : ∃ sols t g', (Updating.each u.score
        (c.addSolutions (Strategy.directs found u.automatic)).solutions).run s g₁ =
          ((.ok sols, t), g') := by
      refine Updating.each_total u.score_steady (fun sol hs s₁ g₂ same _ => ?_) (Nat.zero_le _)
      rw [Conflict.addSolutions, unsolved, List.nil_append] at hs
      obtain ⟨reference, rs, versions⟩ := excludes_of_mem_directs ha hb always sol hs
      obtain ⟨d, t, g₃, previewed⟩ :=
        preview_total (exact.of_reply same) versions clean named orderly g₂
      rw [score, Updating.run_bind, previewed]
      exact ⟨_, _, _, rfl⟩
    obtain ⟨sols, t, g', scores⟩ := scores
    rw [Updating.run_bind, scores]
    exact ⟨_, _, _, rfl⟩
  · exact ⟨_, _, _, rfl⟩

/-- **With direct strategies only, a detection on clean programs is not broken off**, if identifiers
can be read. -/
theorem detect_total_of_direct (direct : ∀ a ∈ u.strategies, a.method = .direct) (exact : s.Exact)
    (clean : Clean u.mark u.programs) (named : Named u.programs) (orderly : Orderly next u.programs)
    (g : Ledger) : ∃ d u' t g', u.detect.run s g = (((.ok d, u'), t), g') := by
  rcases run : u.detect.run s g with ⟨⟨⟨e | d, u'⟩, t⟩, g'⟩
  swap
  · exact ⟨d, u', t, g', rfl⟩
  exfalso
  obtain ⟨g₀, -, detected⟩ := detect_outcome run
  cases detected with
  | undetected failed =>
      obtain ⟨d, t, g₁, total⟩ := detectSequence_total exact clean named orderly g₀
      rw [failed] at total
      cases total
  | @unoffered f _ s₁ _ g₁ _ found failed =>
      have reply := ((detectSequence_steady u.mark u.programs).of_run found).1
      have total : ∃ cs t g', ((u.withFindings f).offerAll f.conflicts).run s₁ g₁ =
          ((.ok cs, t), g') := by
        refine offerAll_total (fun c hc s₂ g₂ same _ => ?_) (Nat.zero_le _)
        obtain ⟨ha, hb, unsolved⟩ := detectSequence_found orderly found hc
        exact offerSolutions_total_of_direct (u := u.withFindings f) direct
          (exact.of_reply (same.trans reply)) clean named orderly ha hb unsolved g₂
      obtain ⟨cs, t, g', total⟩ := total
      rw [failed] at total
      cases total

end UpdateSequence

end CausalUpdate
