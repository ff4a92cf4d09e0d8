import CausalUpdate.Proofs.Detection.Running
import CausalUpdate.Proofs.Solution.Editing
import CausalUpdate.UpdateSequence.Resolve

/-!
# Offering solutions

A detection hands every conflict to the strategies.  What comes back is the same conflict with
solutions, each of which was found by a method and has been given a score since, and nothing that
was found is missing.  Identifiers of new rules come from the supply.

* `Offers` — what may happen to a conflict on its way.
* `detect_outcome` — the ways in which a detection on a sequence ends.
-/

namespace CausalUpdate

/-! ## Conflicts -/

/-- A method finds the solution, with identifiers from `low` on and below `high`. -/
def Finds (ps : List Program) (c : Conflict) (low high : Nat) (sol : Solution) : Prop :=
  ∃ (m : Method) (found : List Solution) (g g' : Ledger), low ≤ g.nextId ∧ g'.nextId ≤ high ∧
    (m.solutions ps c).run g = (.ok found, g') ∧ ∃ t ∈ found, sol.SameEdit t

/-- The second conflict is the first one with further solutions, which are those that the strategies
have found. -/
structure Offers (ps : List Program) (ss : List Strategy) (low high : Nat) (c c' : Conflict) :
    Prop where
  older : c'.older = c.older
  newer : c'.newer = c.newer
  answerSets : c'.answerSets = c.answerSets
  solutions : ∀ sol ∈ c'.solutions, (∃ t ∈ c.solutions, sol.SameEdit t) ∨ Finds ps c low high sol
  kept : ∀ t ∈ c.solutions, ∃ sol ∈ c'.solutions, sol.SameEdit t
  found : ∀ s ∈ ss, ∃ found g g', low ≤ g.nextId ∧
    (s.method.solutions ps c).run g = (.ok found, g') ∧
      ∀ t ∈ found, ∃ sol ∈ c'.solutions, sol.SameEdit t

section

variable {ps : List Program} {ss ss' : List Strategy} {c c' c'' : Conflict}
  {low low' high high' : Nat}

lemma Method.solutions_congr (m : Method) (older : c'.older = c.older)
    (newer : c'.newer = c.newer) : m.solutions ps c' = m.solutions ps c := by
  rcases c with ⟨a, b, ws, ss⟩
  rcases c' with ⟨a', b', ws', ss'⟩
  obtain rfl : a' = a := older
  obtain rfl : b' = b := newer
  cases m <;> rfl

lemma Finds.mono {sol : Solution} (h : Finds ps c low high sol) (hl : low' ≤ low)
    (hh : high ≤ high') : Finds ps c low' high' sol := by
  obtain ⟨m, found, g, g', above, below, rest⟩ := h
  exact ⟨m, found, g, g', Nat.le_trans hl above, Nat.le_trans below hh, rest⟩

lemma Offers.refl (ps : List Program) (low high : Nat) (c : Conflict) : Offers ps [] low high c c :=
  ⟨rfl, rfl, rfl, fun sol hs => Or.inl ⟨sol, hs, .refl sol⟩, fun t ht => ⟨t, ht, .refl t⟩,
    fun _ hs => absurd hs List.not_mem_nil⟩

lemma Offers.mono (h : Offers ps ss low high c c') (hl : low' ≤ low) (hh : high ≤ high') :
    Offers ps ss low' high' c c' := by
  refine ⟨h.older, h.newer, h.answerSets, fun sol hs => ?_, h.kept, fun s hs => ?_⟩
  · exact (h.solutions sol hs).imp id fun f => f.mono hl hh
  · obtain ⟨found, g, g', above, rest⟩ := h.found s hs
    exact ⟨found, g, g', Nat.le_trans hl above, rest⟩

lemma Offers.trans (h : Offers ps ss low high c c') (k : Offers ps ss' low high c' c'') :
    Offers ps (ss ++ ss') low high c c'' := by
  have keeps : ∀ {t}, (∃ sol ∈ c'.solutions, sol.SameEdit t) →
      ∃ sol ∈ c''.solutions, sol.SameEdit t := by
    rintro t ⟨r, hr, same⟩
    obtain ⟨sol, hs, same'⟩ := k.kept r hr
    exact ⟨sol, hs, same'.trans same⟩
  refine ⟨k.older.trans h.older, k.newer.trans h.newer, k.answerSets.trans h.answerSets,
    fun sol hs => ?_, fun t ht => keeps (h.kept t ht), fun s hs => ?_⟩
  · rcases k.solutions sol hs with ⟨t, ht, same⟩ | ⟨m, found, g, g', above, below, run, rest⟩
    · rcases h.solutions t ht with
        ⟨r, hr, same'⟩ | ⟨m, found, g, g', above, below, run, r, hr, same'⟩
      · exact Or.inl ⟨r, hr, same.trans same'⟩
      · exact Or.inr ⟨m, found, g, g', above, below, run, r, hr, same.trans same'⟩
    · rw [m.solutions_congr h.older h.newer] at run
      exact Or.inr ⟨m, found, g, g', above, below, run, rest⟩
  · rcases List.mem_append.1 hs with hs | hs
    · obtain ⟨found, g, g', above, run, all⟩ := h.found s hs
      exact ⟨found, g, g', above, run, fun t ht => keeps (all t ht)⟩
    · obtain ⟨found, g, g', above, run, all⟩ := k.found s hs
      rw [s.method.solutions_congr h.older h.newer] at run
      exact ⟨found, g, g', above, run, all⟩

/-! ## Strategies -/

lemma Strategy.apply_offers {s : Strategy} {g g' : Ledger}
    (run : (s.apply ps c).run g = (.ok c', g')) : Offers ps [s] g.nextId g'.nextId c c' := by
  obtain ⟨found, g₁, searched, rest⟩ := Attempt.bind_ok run
  obtain ⟨_, g₂, noted, rest⟩ := Attempt.bind_ok rest
  cases noted
  cases rest
  refine ⟨rfl, rfl, rfl, fun sol hs => ?_, fun t ht => ?_, fun s' hs => ?_⟩
  · rcases List.mem_append.1 hs with hs | hs
    · exact Or.inl ⟨sol, hs, .refl sol⟩
    · obtain ⟨t, ht, rfl⟩ := List.mem_map.1 hs
      exact Or.inr ⟨s.method, found, g, g₁, Nat.le_refl _, Nat.le_refl _, searched, t, ht,
        rfl, rfl, rfl, rfl⟩
  · exact ⟨t, List.mem_append_left _ ht, .refl t⟩
  · rw [List.mem_singleton.1 hs]
    refine ⟨found, g, g₁, Nat.le_refl _, searched, fun t ht => ?_⟩
    exact ⟨_, List.mem_append_right _ (List.mem_map_of_mem ht), rfl, rfl, rfl, rfl⟩

lemma Strategy.applyAll_offers {ss : List Strategy} {g g' : Ledger}
    (run : (Strategy.applyAll ps c ss).run g = (.ok c', g')) :
    Offers ps ss g.nextId g'.nextId c c' := by
  induction ss generalizing c g with
  | nil =>
      have : (Except.ok c, g) = (Except.ok c', g') := run
      cases this
      exact .refl ps _ _ _
  | cons s ss ih =>
      rw [applyAll] at run
      obtain ⟨c₁, g₁, first, rest⟩ := Attempt.bind_ok run
      have grows := (s.apply_grows ps _).of_run first
      have grows' := (Strategy.applyAll_grows ps c₁ ss).of_run rest
      exact ((apply_offers first).mono (Nat.le_refl _) grows').trans
        ((ih rest).mono grows (Nat.le_refl _))

end

/-! ## Sequences -/

/-- The work on one item, while the supply stays within bounds. -/
def Updating.Ran {α β : Type} (f : α → Updating β) (low high : Nat) (a : α) (b : β) : Prop :=
  ∃ s t g g', (f a).run s g = ((.ok b, t), g') ∧ low ≤ g.nextId ∧ g'.nextId ≤ high

lemma Updating.Ran.mono {α β : Type} {f : α → Updating β} {low low' high high' : Nat} {a : α}
    {b : β} (h : Ran f low high a b) (hl : low' ≤ low) (hh : high ≤ high') :
    Ran f low' high' a b := by
  obtain ⟨s, t, g, g', run, above, below⟩ := h
  exact ⟨s, t, g, g', run, Nat.le_trans hl above, Nat.le_trans below hh⟩

/-- Work on a list is work on its items. -/
lemma Updating.each_ok {α β : Type} {f : α → Updating β} (steady : ∀ a, (f a).Steady) {as : List α}
    {bs : List β} {s t : Solver} {g g' : Ledger} (run : (each f as).run s g = ((.ok bs, t), g')) :
    (∀ b ∈ bs, ∃ a ∈ as, Ran f g.nextId g'.nextId a b) ∧
      ∀ a ∈ as, ∃ b ∈ bs, Ran f g.nextId g'.nextId a b := by
  induction as generalizing bs s g with
  | nil =>
      have : ((Except.ok [], s), g) = ((Except.ok bs, t), g') := run
      cases this
      simp
  | cons a as ih =>
      obtain ⟨b, s₁, g₁, first, rest⟩ := Updating.bind_ok run
      obtain ⟨bs', s₂, g₂, others, rest⟩ := Updating.bind_ok rest
      cases rest
      have grows := ((steady a).of_run first).2
      have grows' := ((Steady.each steady as).of_run others).2
      have ran : Ran f g.nextId g'.nextId a b := ⟨s, s₁, g, g₁, first, Nat.le_refl _, grows'⟩
      obtain ⟨back, there⟩ := ih others
      constructor
      · refine List.forall_mem_cons.2 ⟨⟨a, List.mem_cons_self, ran⟩, fun b hb => ?_⟩
        obtain ⟨a, ha, ran⟩ := back b hb
        exact ⟨a, List.mem_cons_of_mem _ ha, ran.mono grows (Nat.le_refl _)⟩
      · refine List.forall_mem_cons.2 ⟨⟨b, List.mem_cons_self, ran⟩, fun a ha => ?_⟩
        obtain ⟨b, hb, ran⟩ := there a ha
        exact ⟨b, List.mem_cons_of_mem _ hb, ran.mono grows (Nat.le_refl _)⟩

/-- Work on a list is not broken off if the work on its items is not. -/
lemma Updating.each_total {α β : Type} {f : α → Updating β} (steady : ∀ a, (f a).Steady)
    {as : List α} {low : Nat} {s : Solver} {g : Ledger}
    (total : ∀ a ∈ as, ∀ s₁ g₁, s₁.reply = s.reply → low ≤ g₁.nextId →
      ∃ b t g₂, (f a).run s₁ g₁ = ((.ok b, t), g₂))
    (above : low ≤ g.nextId) : ∃ bs t g', (each f as).run s g = ((.ok bs, t), g') := by
  induction as generalizing s g with
  | nil => exact ⟨[], s, g, rfl⟩
  | cons a as ih =>
      obtain ⟨b, s₁, g₁, first⟩ := total a List.mem_cons_self s g rfl above
      obtain ⟨reply, grows⟩ := (steady a).of_run first
      obtain ⟨bs, t, g', rest⟩ := ih (fun a ha s₂ g₂ same =>
        total a (List.mem_cons_of_mem _ ha) s₂ g₂ (same.trans reply)) (Nat.le_trans above grows)
      refine ⟨b :: bs, t, g', ?_⟩
      rw [Updating.each, Updating.run_bind, first]
      show ((Updating.each f as) >>= fun bs => pure (b :: bs)).run s₁ g₁ = _
      rw [Updating.run_bind, rest]
      rfl

namespace UpdateSequence

variable {u u' : UpdateSequence} {s t : Solver} {g g' : Ledger}

lemma preview_steady (u : UpdateSequence) (sol : Solution) : (u.preview sol).Steady := by
  refine (Updating.Steady.work (sol.applyTo_grows u.programs)).bind fun o => ?_
  split
  · exact .pure _
  · exact detectSequence_steady _ _

lemma score_steady (u : UpdateSequence) (sol : Solution) : (u.score sol).Steady :=
  (u.preview_steady sol).bind fun _ => .pure _

lemma offerSolutions_steady (u : UpdateSequence) (c : Conflict) : (u.offerSolutions c).Steady := by
  refine (Updating.Steady.attempt (Strategy.applyAll_grows _ _ _)).bind fun c' => ?_
  split
  · exact (Updating.Steady.each u.score_steady _).bind fun _ => .pure _
  · exact .pure _

lemma offerAll_steady (u : UpdateSequence) (cs : List Conflict) : (u.offerAll cs).Steady :=
  (Updating.Steady.each u.offerSolutions_steady cs).bind fun _ =>
    (Updating.Steady.work (.note _ _ _)).bind fun _ => .pure _

/-- A score changes nothing about a solution but its score. -/
lemma sameEdit_of_score {sol sol' : Solution} (run : (u.score sol).run s g = ((.ok sol', t), g')) :
    sol'.SameEdit sol := by
  obtain ⟨d, s₁, g₁, -, rest⟩ := Updating.bind_ok run
  cases rest
  exact ⟨rfl, rfl, rfl, rfl⟩

lemma offerSolutions_offers {c c' : Conflict}
    (run : (u.offerSolutions c).run s g = ((.ok c', t), g')) :
    Offers u.programs u.automatic g.nextId g'.nextId c c' := by
  obtain ⟨c₁, s₁, g₁, attempted, rest⟩ := Updating.bind_ok run
  obtain ⟨applied, rfl⟩ := Updating.attempt_ok attempted
  have offers := Strategy.applyAll_offers applied
  split at rest
  · obtain ⟨ss, s₂, g₂, scored, rest⟩ := Updating.bind_ok rest
    cases rest
    have grows := ((Updating.Steady.each u.score_steady _).of_run scored).2
    have offers := offers.mono (Nat.le_refl _) grows
    obtain ⟨back, there⟩ := Updating.each_ok u.score_steady scored
    have scores : Offers u.programs [] g.nextId g'.nextId c₁ { c₁ with solutions := ss } := by
      refine ⟨rfl, rfl, rfl, fun sol hs => ?_, fun old hold => ?_,
        fun _ hs => absurd hs List.not_mem_nil⟩
      · obtain ⟨old, hold, _, _, _, _, ran, -⟩ := back sol hs
        exact Or.inl ⟨old, hold, sameEdit_of_score ran⟩
      · obtain ⟨sol, hs, _, _, _, _, ran, -⟩ := there old hold
        exact ⟨sol, hs, sameEdit_of_score ran⟩
    rw [← List.append_nil u.automatic]
    exact offers.trans scores
  · cases rest
    exact offers

/-- If every conflict can be offered solutions, then all of them can. -/
lemma offerAll_total {cs : List Conflict} {low : Nat}
    (total : ∀ c ∈ cs, ∀ s₁ g₁, s₁.reply = s.reply → low ≤ g₁.nextId →
      ∃ c' t g₂, (u.offerSolutions c).run s₁ g₁ = ((.ok c', t), g₂))
    (above : low ≤ g.nextId) : ∃ cs' t g', (u.offerAll cs).run s g = ((.ok cs', t), g') := by
  obtain ⟨cs', t, g', run⟩ := Updating.each_total u.offerSolutions_steady total above
  rw [offerAll, Updating.run_bind, run]
  exact ⟨_, _, _, rfl⟩

/-- Where no strategy is applied, nothing can go wrong. -/
lemma offerAll_total_of_none (none : u.strategies = []) {cs : List Conflict}
    (unsolved : ∀ c ∈ cs, c.solutions = []) (s : Solver) (g : Ledger) :
    ∃ cs' t g', (u.offerAll cs).run s g = ((.ok cs', t), g') := by
  refine offerAll_total (fun c hc s₁ g _ _ => ⟨c, s₁, g, ?_⟩) (Nat.zero_le _)
  have unsolved := unsolved c hc
  rw [offerSolutions, automatic, none]
  cases c
  obtain rfl : _ = [] := unsolved
  cases u.settings.scoreSolutions <;> rfl

/-- What is offered are the conflicts that were found. -/
lemma offerAll_offers {cs cs' : List Conflict}
    (run : (u.offerAll cs).run s g = ((.ok cs', t), g')) :
    (∀ c' ∈ cs', ∃ c ∈ cs, Offers u.programs u.automatic g.nextId g'.nextId c c') ∧
      ∀ c ∈ cs, ∃ c' ∈ cs', Offers u.programs u.automatic g.nextId g'.nextId c c' := by
  obtain ⟨cs₁, s₁, g₁, offered, rest⟩ := Updating.bind_ok run
  cases rest
  obtain ⟨back, there⟩ := Updating.each_ok u.offerSolutions_steady offered
  have offers : ∀ {c c'}, Updating.Ran u.offerSolutions g.nextId g₁.nextId c c' →
      Offers u.programs u.automatic g.nextId g₁.nextId c c' := by
    rintro c c' ⟨s, t, g, g', run, above, below⟩
    exact (offerSolutions_offers run).mono above below
  constructor
  · intro c' hc'
    obtain ⟨c, hc, ran⟩ := back c' hc'
    exact ⟨c, hc, offers ran⟩
  · intro c hc
    obtain ⟨c', hc', ran⟩ := there c hc
    exact ⟨c', hc', offers ran⟩

/-! ## Detections -/

/-- How a detection on a sequence ends, with the sequence as it is then, if the supply stays within
bounds. -/
inductive Detected (u : UpdateSequence) (s : Solver) (g : Ledger) (high : Nat) :
    Except UpdateError Detection → UpdateSequence → Prop
  | undetected {e : UpdateError} {t : Solver} {g' : Ledger}
      (detected : (detectSequence u.mark u.programs).run s g = ((.error e, t), g')) :
      Detected u s g high (.error e) u
  | unoffered {f : Findings} {e : UpdateError} {t t' : Solver} {g₁ g₂ : Ledger}
      (detected : (detectSequence u.mark u.programs).run s g = ((.ok (.completed f), t), g₁))
      (offered : ((u.withFindings f).offerAll f.conflicts).run t g₁ = ((.error e, t'), g₂)) :
      Detected u s g high (.error e) (u.withFindings f)
  | failed {cause : DetectionFailure} {t : Solver} {g' : Ledger}
      (detected : (detectSequence u.mark u.programs).run s g = ((.ok (.failed cause), t), g')) :
      Detected u s g high (.ok (.failed cause)) (u.withFindings {})
  | completed {f : Findings} {cs : List Conflict} {t : Solver} {g' : Ledger}
      (detected : (detectSequence u.mark u.programs).run s g = ((.ok (.completed f), t), g'))
      (back : ∀ c' ∈ cs, ∃ c ∈ f.conflicts, Offers u.programs u.automatic g'.nextId high c c')
      (there : ∀ c ∈ f.conflicts, ∃ c' ∈ cs, Offers u.programs u.automatic g'.nextId high c c') :
      Detected u s g high (.ok (.completed { f with conflicts := cs }))
        (u.withFindings { f with conflicts := cs })

/-- Tracking writes entries and does nothing else. -/
lemma tracked_run {operation : String} {change : Change} {o : Except UpdateError Detection}
    (run : (tracked operation change).run s g = (((o, u'), t), g')) :
    ∃ g₀ g₁, g₀.nextId = g.nextId ∧ g₁.nextId = g'.nextId ∧
      change.run s g₀ = (((o, u'), t), g₁) := by
  let g₀ := (Work.began "update" operation g).2
  rw [tracked, Solving.run_bind, Solving.run_work] at run
  replace run : (change >>= _ : Change).run s g₀ = _ := run
  rw [Solving.run_bind] at run
  rcases h : change.run s g₀ with ⟨⟨⟨o₁, u₁⟩, t₁⟩, g₁⟩
  rw [h] at run
  refine ⟨g₀, g₁, rfl, ?_⟩
  cases o₁ <;> cases run <;> exact ⟨rfl, h⟩

lemma refresh_outcome {o : Except UpdateError Detection}
    (run : u.refresh.run s g = (((o, u'), t), g')) : Detected u s g g'.nextId o u' := by
  rw [refresh, Solving.run_bind] at run
  rcases h : (detectSequence u.mark u.programs).run.run s g with ⟨⟨e | f | cause, t₁⟩, g₁⟩
  · rw [h] at run
    cases run
    exact .undetected h
  · rw [h] at run
    replace run : (_ >>= _ : Change).run t₁ g₁ = _ := run
    rw [Solving.run_bind] at run
    rcases offered : ((u.withFindings f).offerAll f.conflicts).run.run t₁ g₁ with
      ⟨⟨e | cs, t₂⟩, g₂⟩
    · rw [offered] at run
      cases run
      exact .unoffered h offered
    · rw [offered] at run
      cases run
      obtain ⟨back, there⟩ := offerAll_offers offered
      exact .completed h back there
  · rw [h] at run
    cases run
    exact .failed h

/-- **The ways in which a detection on a sequence ends.** -/
theorem detect_outcome {o : Except UpdateError Detection}
    (run : u.detect.run s g = (((o, u'), t), g')) :
    ∃ g₀, g₀.nextId = g.nextId ∧ Detected u s g₀ g'.nextId o u' := by
  obtain ⟨g₀, g₁, began, ended, run⟩ := tracked_run run
  exact ⟨g₀, began, ended ▸ refresh_outcome run⟩

end UpdateSequence

end CausalUpdate
