import CausalUpdate.Detection.Detect
import CausalUpdate.Proofs.Supply

/-!
# Running detections

How work that asks a solver is taken apart, and what it leaves as it was: work is *steady* if the
solver goes on replying in the same way and no identifier is given back.  Every detection is steady.
-/

namespace CausalUpdate

variable {ε α β : Type}

/-! ## Taking work apart -/

lemma Solving.run_bind (x : Solving α) (f : α → Solving β) (s : Solver) (g : Ledger) :
    (x >>= f).run s g = (f (x.run s g).1.1).run (x.run s g).1.2 (x.run s g).2 :=
  rfl

lemma Solving.run_work (x : Work α) (s : Solver) (g : Ledger) :
    (work x).run s g = (((x g).1, s), (x g).2) :=
  rfl

/-- The solver is asked, and knows that it was. -/
lemma Solver.run_ask (p : Program) (s : Solver) (g : Ledger) :
    ∃ g', (Solver.ask p).run s g =
      ((s.reply s.asked p, { s with asked := p :: s.asked }), g') ∧ g'.nextId = g.nextId := by
  rw [Solver.ask, Solving.run_bind, show (modifyGet fun s => s.consult p : Solving _).run s g =
    ((s.reply s.asked p, { s with asked := p :: s.asked }), g) from rfl]
  generalize s.reply s.asked p = o
  rcases o with (_ | _ | _ | _) | _ <;> exact ⟨_, rfl, rfl⟩

namespace Updating

lemma run_bind (x : Updating α) (f : α → Updating β) (s : Solver) (g : Ledger) :
    (x >>= f).run s g = match x.run s g with
      | ((.ok a, s'), g') => (f a).run s' g'
      | ((.error e, s'), g') => ((.error e, s'), g') := by
  show (ExceptT.bindCont f (x.run s g).1.1) (x.run s g).1.2 (x.run s g).2 = _
  rcases x.run s g with ⟨⟨_ | _, _⟩, _⟩ <;> rfl

/-- Work that does not break off has parts that do not. -/
lemma bind_ok {x : Updating α} {f : α → Updating β} {s t : Solver} {g g' : Ledger} {b : β}
    (h : (x >>= f).run s g = ((.ok b, t), g')) :
    ∃ a s₁ g₁, x.run s g = ((.ok a, s₁), g₁) ∧ (f a).run s₁ g₁ = ((.ok b, t), g') := by
  rw [run_bind] at h
  rcases hx : x.run s g with ⟨⟨e | a, s₁⟩, g₁⟩
  · rw [hx] at h
    cases h
  · rw [hx] at h
    exact ⟨a, s₁, g₁, rfl, h⟩

/-- Work that breaks off does so in one of its parts. -/
lemma bind_error {x : Updating α} {f : α → Updating β} {s t : Solver} {g g' : Ledger}
    {e : UpdateError} (h : (x >>= f).run s g = ((.error e, t), g')) :
    x.run s g = ((.error e, t), g') ∨
      ∃ a s₁ g₁, x.run s g = ((.ok a, s₁), g₁) ∧ (f a).run s₁ g₁ = ((.error e, t), g') := by
  rw [run_bind] at h
  rcases hx : x.run s g with ⟨⟨e' | a, s₁⟩, g₁⟩
  · rw [hx] at h
    cases h
    exact Or.inl rfl
  · rw [hx] at h
    exact Or.inr ⟨a, s₁, g₁, rfl, h⟩

/-- What cannot break off is done, and the rest follows. -/
lemma run_work_bind (x : Work α) (f : α → Updating β) (s : Solver) (g : Ledger) :
    (work x >>= f).run s g = (f (x g).1).run s (x g).2 :=
  rfl

lemma run_attempt (reason : ε → UpdateError) (x : Attempt ε α) (s : Solver) (g : Ledger) :
    (attempt reason x).run s g = match x.run g with
      | (.ok a, g') => ((.ok a, s), g')
      | (.error e, g') => ((.error (reason e), s), g') := by
  show ((Except.mapError reason (x.run g).1, s), (x.run g).2) = _
  rcases x.run g with ⟨_ | _, _⟩ <;> rfl

lemma attempt_ok {reason : ε → UpdateError} {x : Attempt ε α} {s t : Solver} {g g' : Ledger} {a : α}
    (h : (attempt reason x).run s g = ((.ok a, t), g')) : x.run g = (.ok a, g') ∧ t = s := by
  rw [run_attempt] at h
  rcases hx : x.run g with ⟨e | a', g₁⟩
  · rw [hx] at h
    cases h
  · rw [hx] at h
    cases h
    exact ⟨rfl, rfl⟩

lemma attempt_error {reason : ε → UpdateError} {x : Attempt ε α} {s t : Solver} {g g' : Ledger}
    {e : UpdateError} (h : (attempt reason x).run s g = ((.error e, t), g')) :
    ∃ e', x.run g = (.error e', g') ∧ e = reason e' := by
  rw [run_attempt] at h
  rcases hx : x.run g with ⟨e' | a, g₁⟩
  · rw [hx] at h
    cases h
    exact ⟨e', rfl, rfl⟩
  · rw [hx] at h
    cases h

lemma run_ask (p : Program) (s : Solver) (g : Ledger) :
    ∃ g', (ExceptT.lift (Solver.ask p) : Updating _).run s g =
      ((.ok (s.reply s.asked p), { s with asked := p :: s.asked }), g') ∧ g'.nextId = g.nextId := by
  obtain ⟨g', asked, same⟩ := Solver.run_ask p s g
  refine ⟨g', ?_, same⟩
  show ((Except.ok ((Solver.ask p).run s g).1.1, ((Solver.ask p).run s g).1.2),
    ((Solver.ask p).run s g).2) = _
  rw [asked]

end Updating

/-! ## Steady work -/

/-- The solver goes on replying in the same way, and no identifier is given back. -/
def Solving.Steady (x : Solving α) : Prop :=
  ∀ s g, (x.run s g).1.2.reply = s.reply ∧ g.nextId ≤ (x.run s g).2.nextId

namespace Solving.Steady

lemma pure (a : α) : Steady (Pure.pure a) :=
  fun _ g => ⟨rfl, Nat.le_refl g.nextId⟩

lemma bind {x : Solving α} {f : α → Solving β} (hx : Steady x) (hf : ∀ a, Steady (f a)) :
    Steady (x >>= f) := by
  intro s g
  obtain ⟨reply, grows⟩ := hx s g
  obtain ⟨reply', grows'⟩ := hf (x.run s g).1.1 (x.run s g).1.2 (x.run s g).2
  exact ⟨reply'.trans reply, Nat.le_trans grows grows'⟩

lemma work {x : Work α} (hx : x.Grows) : Steady (Solving.work x) :=
  fun _ g => ⟨rfl, hx g⟩

lemma of_run {x : Solving α} (h : Steady x) {s t : Solver} {g g' : Ledger} {a : α}
    (run : x.run s g = ((a, t), g')) : t.reply = s.reply ∧ g.nextId ≤ g'.nextId := by
  have steady := h s g
  rwa [run] at steady

end Solving.Steady

/-- The work is steady, whether it breaks off or not. -/
def Updating.Steady (x : Updating α) : Prop :=
  Solving.Steady x.run

namespace Updating.Steady

lemma of_run {x : Updating α} (h : Steady x) {s t : Solver} {g g' : Ledger}
    {o : Except UpdateError α} (run : x.run s g = ((o, t), g')) :
    t.reply = s.reply ∧ g.nextId ≤ g'.nextId :=
  Solving.Steady.of_run h run

lemma pure (a : α) : Steady (Pure.pure a) :=
  Solving.Steady.pure _

lemma bind {x : Updating α} {f : α → Updating β} (hx : Steady x) (hf : ∀ a, Steady (f a)) :
    Steady (x >>= f) := by
  intro s g
  show ((x >>= f).run s g).1.2.reply = s.reply ∧ g.nextId ≤ ((x >>= f).run s g).2.nextId
  rw [run_bind]
  rcases h : x.run s g with ⟨⟨e | a, s'⟩, g'⟩
  · exact hx.of_run h
  · obtain ⟨reply, grows⟩ := hx.of_run h
    obtain ⟨reply', grows'⟩ := hf a s' g'
    exact ⟨reply'.trans reply, Nat.le_trans grows grows'⟩

lemma work {x : Work α} (hx : x.Grows) : Steady (Updating.work x) :=
  fun _ g => ⟨rfl, hx g⟩

lemma attempt {reason : ε → UpdateError} {x : Attempt ε α} (hx : x.Grows) :
    Steady (Updating.attempt reason x) :=
  fun _ g => ⟨rfl, hx g⟩

lemma ask (p : Program) : Steady (ExceptT.lift (Solver.ask p) : Updating _) := by
  intro s g
  obtain ⟨g', run, same⟩ := run_ask p s g
  show ((ExceptT.lift (Solver.ask p) : Updating _).run s g).1.2.reply = s.reply ∧
    g.nextId ≤ ((ExceptT.lift (Solver.ask p) : Updating _).run s g).2.nextId
  rw [run]
  exact ⟨rfl, Nat.le_of_eq same.symm⟩

lemma each {f : α → Updating β} (hf : ∀ a, Steady (f a)) (as : List α) :
    Steady (Updating.each f as) := by
  induction as with
  | nil => exact pure _
  | cons a as ih => exact (hf a).bind fun _ => ih.bind fun _ => pure _

end Updating.Steady

/-! ## Detections -/

lemma findingsOf_steady (mark : Mark) (older newer : Program) (models : List String) :
    (findingsOf mark older newer models).Steady := by
  refine Updating.Steady.bind (.work (AnswerSet.parseAll_grows models)) fun sets => ?_
  split
  · exact .pure _
  · exact (Updating.Steady.attempt (extractConflicts_grows _ _ _ _)).bind fun _ => .pure _

lemma detectPair_steady (mark : Mark) (older newer : Program) :
    (detectPair mark older newer).Steady := by
  refine (Updating.Steady.work (buildUpdateProgram_grows mark older newer)).bind fun p => ?_
  refine (Updating.Steady.ask p).bind fun o => ?_
  split
  · exact (Updating.Steady.work (.note _ _ _)).bind fun _ => .pure _
  · split
    · exact findingsOf_steady _ _ _ _
    · exact (Updating.Steady.work (.note _ _ _)).bind fun _ => .pure _

/-- **Every detection is steady.** -/
lemma detectFrom_steady (mark : Mark) (last position : Nat) (older : Program)
    (rest : List Program) : (detectFrom mark last position older rest).Steady := by
  induction rest generalizing position older with
  | nil => exact .pure _
  | cons newer rest ih =>
      cases rest with
      | nil => exact detectPair_steady mark older newer
      | cons next rest =>
          refine (detectPair_steady mark older newer).bind fun d => ?_
          split
          · exact (Updating.Steady.attempt (Program.merge_grows _ _)).bind fun _ => ih _ _
          · exact (Updating.Steady.work (.note _ _ _)).bind fun _ => .pure _

lemma detectSequence_steady (mark : Mark) (ps : List Program) :
    (detectSequence mark ps).Steady := by
  cases ps with
  | nil => exact .pure _
  | cons p ps => exact detectFrom_steady _ _ _ _ _

end CausalUpdate
