import CausalUpdate.Proofs.Detection.Sequence
import CausalUpdate.Proofs.Strategy.Finding
import CausalUpdate.Proofs.UpdateSequence.Offering

/-!
# Accepting solutions

What a detection on programs at work reports are conflicts between rules that can fire together,
with solutions that suit the programs.  A solution that is to be accepted is either refused, and
then nothing changes, or it is applied, and then the sequence is as a detection on the new programs
leaves it.
-/

namespace CausalUpdate

/-- A conflict as it is reported of the programs, while the supply has come to `next`. -/
structure Reported (next : Nat) (ps : List Program) (c : Conflict) : Prop where
  unblocked : Unblocked ps c
  suit : ∀ s ∈ c.solutions, Suits IsVersion next ps s

lemma Reported.mono {next next' : Nat} {ps : List Program} {c : Conflict} (h : Reported next ps c)
    (le : next ≤ next') : Reported next' ps c :=
  ⟨h.unblocked, fun s hs => (h.suit s hs).mono le⟩

/-- The conflicts that are reported. -/
def reports : Except UpdateError Detection → List Conflict
  | .ok d => d.findings.conflicts
  | .error _ => []

namespace UpdateSequence

variable {u u' : UpdateSequence} {s t : Solver} {g g' : Ledger} {o : Except UpdateError Detection}

/-! ## Steady changes -/

lemma tracked_steady {operation : String} {change : Change} (h : change.Steady) :
    (tracked operation change).Steady := by
  refine (Solving.Steady.work (.began _ _)).bind fun _ => h.bind fun ⟨outcome, u⟩ => ?_
  cases outcome with
  | ok d => exact (Solving.Steady.work (.completed _ _)).bind fun _ => .pure _
  | error e => exact (Solving.Steady.work (.failed _ _)).bind fun _ => .pure _

lemma refresh_steady (u : UpdateSequence) : u.refresh.Steady := by
  refine Solving.Steady.bind (detectSequence_steady u.mark u.programs) fun o => ?_
  split
  · exact .pure _
  · exact .pure _
  · refine Solving.Steady.bind (offerAll_steady _ _) fun o => ?_
    split <;> exact .pure _

lemma detect_steady (u : UpdateSequence) : u.detect.Steady :=
  tracked_steady u.refresh_steady

lemma accept_steady (u : UpdateSequence) (sol : Option Solution) : (u.accept sol).Steady := by
  refine tracked_steady ?_
  split
  · exact .pure _
  · refine (Solving.Steady.work (Solution.applyTo_grows _ _)).bind fun o => ?_
    split
    · exact (Solving.Steady.work (.note _ _ _)).bind fun _ => .pure _
    · exact (Solving.Steady.work (.note _ _ _)).bind fun _ => detect_steady _

/-! ## Offers -/

/-- On orderly programs strategies do not fail. -/
lemma applyAll_yields {next low : Nat} {ps : List Program} {c : Conflict}
    (orderly : Orderly next ps) (ha : c.older ∈ rulesOf ps) (hb : c.newer ∈ rulesOf ps)
    (le : next ≤ low)
    (ss : List Strategy) : (Strategy.applyAll ps c ss).Yields low fun _ _ => True := by
  induction ss generalizing c low with
  | nil => exact .pure fun _ _ => trivial
  | cons s ss ih =>
      have one : (s.apply ps c).Yields low fun c' _ => c'.older ∈ rulesOf ps ∧
          c'.newer ∈ rulesOf ps := by
        refine (s.method.solutions_yields orderly ha hb le).bind fun found n _ _ => ?_
        exact .note_bind (.pure fun _ _ => ⟨ha, hb⟩)
      exact one.bind fun c' n above there => ih there.1 there.2 (Nat.le_trans le above)

/-- Without scores, solutions can always be offered. -/
lemma offerAll_total_of_unscored (unscored : u.settings.scoreSolutions = false) {next : Nat}
    (orderly : Orderly next u.programs) {cs : List Conflict}
    (there : ∀ c ∈ cs, c.older ∈ rulesOf u.programs ∧ c.newer ∈ rulesOf u.programs) (s : Solver)
    (above : next ≤ g.nextId) : ∃ cs' t g', (u.offerAll cs).run s g = ((.ok cs', t), g') := by
  refine offerAll_total (fun c hc s₁ g _ above => ?_) above
  obtain ⟨ha, hb⟩ := there c hc
  obtain ⟨c', g', run, -⟩ := applyAll_yields orderly ha hb (Nat.le_refl _) u.automatic g above
  refine ⟨c', s₁, g', ?_⟩
  rw [offerSolutions, Updating.run_bind, Updating.run_attempt, run]
  simp only [unscored]
  rfl

/-! ## Detections -/

lemma Detected.programs_eq {high : Nat} (h : Detected u s g high o u') :
    u'.programs = u.programs := by
  cases h <;> rfl

lemma Detected.strategies_eq {high : Nat} (h : Detected u s g high o u') :
    u'.strategies = u.strategies := by
  cases h <;> rfl

lemma Detected.settings_eq {high : Nat} (h : Detected u s g high o u') :
    u'.settings = u.settings := by
  cases h <;> rfl

lemma Detected.mark_eq {high : Nat} (h : Detected u s g high o u') : u'.mark = u.mark := by
  cases h <;> rfl

lemma Detected.log_eq {high : Nat} (h : Detected u s g high o u') : u'.log = u.log := by
  cases h <;> rfl

/-- What strategies find is offered. -/
lemma Detected.found {high : Nat} (h : Detected u s g high o u') :
    ∀ c ∈ reports o, ∀ a ∈ u.automatic, ∃ found g₁ g₂,
      (a.method.solutions u.programs c).run g₁ = (.ok found, g₂) ∧
        ∀ t ∈ found, ∃ sol ∈ c.solutions, sol.SameEdit t := by
  cases h with
  | undetected _ => exact fun c hc => absurd hc List.not_mem_nil
  | unoffered _ _ => exact fun c hc => absurd hc List.not_mem_nil
  | failed _ => exact fun c hc => absurd hc List.not_mem_nil
  | completed detected back there =>
      intro c' hc' a ha
      obtain ⟨c, hc, offers⟩ := back c' hc'
      obtain ⟨found, g₁, g₂, -, run, offered⟩ := offers.found a ha
      rw [← a.method.solutions_congr offers.older offers.newer] at run
      exact ⟨found, g₁, g₂, run, offered⟩

/-- Where a conflict that is reported comes from: it was found by comparing, and whatever is offered
for it was found by a method. -/
lemma Detected.source {high : Nat} (h : Detected u s g high o u')
    (orderly : Orderly g.nextId u.programs) : ∀ c ∈ reports o,
      Placed u.programs c ∧ ∃ c₀, c₀.older ∈ rulesOf u.programs ∧ c₀.newer ∈ rulesOf u.programs ∧
        ∀ sol ∈ c.solutions, Finds u.programs c₀ g.nextId high sol := by
  cases h with
  | undetected _ => exact fun c hc => absurd hc List.not_mem_nil
  | unoffered _ _ => exact fun c hc => absurd hc List.not_mem_nil
  | failed _ => exact fun c hc => absurd hc List.not_mem_nil
  | completed detected back there =>
      intro c' hc'
      obtain ⟨c, hc, offers⟩ := back c' hc'
      have grows := ((detectSequence_steady u.mark u.programs).of_run detected).2
      obtain ⟨ha, hb, unsolved⟩ := detectSequence_found orderly detected hc
      refine ⟨?_, c, ha, hb, fun sol hs => ?_⟩
      · rw [Placed, offers.older, offers.newer]
        exact detectSequence_placed orderly detected hc
      · rcases offers.solutions sol hs with ⟨r, hr, -⟩ | found
        · rw [unsolved] at hr
          exact absurd hr List.not_mem_nil
        · exact found.mono grows (Nat.le_refl _)

/-- **Whatever is offered is suitable**, whatever the solver has said. -/
theorem Detected.suit {high : Nat} (h : Detected u s g high o u')
    (orderly : Orderly g.nextId u.programs) :
    ∀ c ∈ reports o, ∀ sol ∈ c.solutions, Suits IsVersion high u.programs sol := by
  intro c hc sol hs
  obtain ⟨-, c₀, ha, hb, finds⟩ := h.source orderly c hc
  obtain ⟨m, found, g₁, g₂, above, below, run, r, hr, same⟩ := finds sol hs
  have suits := (m.solutions_yields orderly ha hb (Nat.le_refl _)).of_run_ok above run r hr
  exact (suits.of_sameEdit same).mono below

/-- New rules that are offered have identifiers that were still in the supply before, and labels
that are free where the programs are seen as one. -/
lemma Detected.minted {high : Nat} (h : Detected u s g high o u')
    (orderly : Orderly g.nextId u.programs) :
    ∀ c ∈ reports o, ∀ sol ∈ c.solutions, ∀ r ∈ sol.additions,
      Minted g.nextId u.programs r := by
  intro c hc sol hs r hr
  obtain ⟨-, c₀, ha, hb, finds⟩ := h.source orderly c hc
  obtain ⟨m, found, g₁, g₂, above, below, run, t, ht, same⟩ := finds sol hs
  rw [same.additions] at hr
  exact (m.solutions_minted orderly ha hb g.nextId).of_run_ok above run t ht r hr

/-- **Whatever is reported can fire**, if the solver lists nothing but models. -/
theorem Detected.reported {high : Nat} (h : Detected u s g high o u')
    (live : Live u.mark g.nextId u.programs) (sound : s.Sound) :
    ∀ c ∈ reports o, Reported high u.programs c := by
  have suit := h.suit live.toOrderly
  cases h with
  | undetected _ => exact fun c hc => absurd hc List.not_mem_nil
  | unoffered _ _ => exact fun c hc => absurd hc List.not_mem_nil
  | failed _ => exact fun c hc => absurd hc List.not_mem_nil
  | completed detected back there =>
      intro c' hc'
      obtain ⟨c, hc, offers⟩ := back c' hc'
      obtain ⟨unblocked, -⟩ := detectSequence_unblocked live sound detected c hc
      refine ⟨⟨?_, ?_, ?_⟩, suit c' hc'⟩
      · exact offers.older ▸ unblocked.older
      · exact offers.newer ▸ unblocked.newer
      · rw [offers.older, offers.newer]
        exact unblocked.apart

/-! ## Acceptances -/

/-- The solution was not refused: it changes something and could be applied. -/
def Accepted (o : Except UpdateError Detection) : Prop :=
  ∀ d, o = .ok d → d.status ≠ "invalid_solution"

/-- How an acceptance ends. -/
inductive Acceptance (u : UpdateSequence) (s : Solver) (g : Ledger) (sol : Solution) (high : Nat) :
    Except UpdateError Detection → UpdateSequence → Prop
  | empty (empty : sol.isEmpty = true) : Acceptance u s g sol high (.ok (.failed .emptySolution)) u
  | refused {e : ProgramError} {g₀ g₁ : Ledger}
      (run : (sol.applyTo u.programs).run g₀ = (.error e, g₁)) :
      Acceptance u s g sol high (.ok (.failed (.solution e))) u
  | applied {ps : List Program} {g₀ g₁ g₂ : Ledger} {o : Except UpdateError Detection}
      {u' : UpdateSequence} (began : g₀.nextId = g.nextId)
      (run : (sol.applyTo u.programs).run g₀ = (.ok ps, g₁)) (noted : g₂.nextId = g₁.nextId)
      (detected :
        Detected { u with programs := ps, log := u.log ++ operationsOf sol } s g₂ high o u') :
      Acceptance u s g sol high o u'

/-- **The ways in which an acceptance ends.** -/
theorem accept_outcome {sol : Solution} (run : (u.accept (some sol)).run s g = (((o, u'), t), g')) :
    Acceptance u s g sol g'.nextId o u' := by
  obtain ⟨g₀, g₁, began, ended, run⟩ := tracked_run run
  rw [← ended]
  cases empty : sol.isEmpty with
  | true =>
      rw [Option.filter_some, if_neg (by simp [empty])] at run
      cases run
      exact .empty empty
  | false =>
      rw [Option.filter_some, if_pos (by simp [empty])] at run
      replace run : (u.applySolution sol).run s g₀ = (((o, u'), t), g₁) := run
      rw [applySolution, Solving.run_bind, Solving.run_work] at run
      rcases applied : (sol.applyTo u.programs).run g₀ with ⟨e | ps, g₂⟩
      · rw [applied] at run
        cases run
        exact .refused applied
      · rw [applied] at run
        replace run : (_ >>= _ : Change).run s g₂ = _ := run
        rw [Solving.run_bind] at run
        obtain ⟨g₃, noted, detected⟩ := detect_outcome run
        exact .applied began applied noted detected

lemma Detected.accepted {high : Nat} (h : Detected u s g high o u') : Accepted o := by
  rintro d rfl
  cases h with
  | failed detected => exact detectSequence_status_ne detected
  | completed detected _ _ => simp [Detection.status]

/-- A solution that changes something is accepted if it can be applied. -/
lemma Acceptance.accepted {sol : Solution} {high : Nat} (h : Acceptance u s g sol high o u')
    (changes : sol.isEmpty = false)
    (applies : ∀ g, ∃ ps g', (sol.applyTo u.programs).run g = (.ok ps, g')) : Accepted o := by
  cases h with
  | empty empty =>
      rw [changes] at empty
      cases empty
  | @refused e g₀ g₁ run =>
      obtain ⟨ps, g', run'⟩ := applies g₀
      rw [run] at run'
      cases run'
  | applied _ _ _ detected => exact detected.accepted

end UpdateSequence

end CausalUpdate
