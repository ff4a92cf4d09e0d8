import CausalUpdate.Proofs.Detection.Folding
import CausalUpdate.Proofs.Detection.Pair
import CausalUpdate.Proofs.Program.Reading
import CausalUpdate.Proofs.UpdateSequence.Offering

/-!
# Answers that can be read

Whatever a solver makes of an update program, the literals in its answers are heads of that program.
If the programs can be written out, then so can these literals, and a text of any of them is read
back.  Merging programs takes over what their rules say and gives identifiers from the supply, which
are not negative.  So every update program that a detection asks about has such heads, and no answer
that is made of them is lost.

* `MergedStepwise.writable` — merging keeps programs that can be written.
* `Solver.ListsHeads` — solvers that answer with heads of the program.
* `detectSequence_reads`, `UpdateSequence.detect_reads` — no detection fails over such answers.
* `detection_reads_answers` — all of it, from single texts to detections.
-/

namespace CausalUpdate

/-! ## Programs -/

section Programs

variable {p q m : Program} {qs : List Program} {rs : List Rule} {n n' : Nat}

lemma Program.Writable.push {r : Rule} (h : p.Writable) (hr : r.Writable) :
    (p.push r).Writable := by
  intro q hq
  rcases List.mem_append.1 hq with hq | hq
  · exact h q hq
  · rwa [List.mem_singleton.1 hq]

/-- Gathering takes rules over as they are or with an identifier from the supply. -/
lemma Gathers.writable (h : Gathers p n rs q n') (hp : p.Writable) (hrs : ∀ r ∈ rs, r.Writable) :
    q.Writable := by
  induction h with
  | nil => exact hp
  | refused _ _ ih => exact ih hp (List.forall_mem_cons.1 hrs).2
  | asIs _ _ _ ih =>
      obtain ⟨hr, hrs⟩ := List.forall_mem_cons.1 hrs
      exact ih (hp.push hr) hrs
  | @renumbered p q n n' r rs _ _ _ ih =>
      obtain ⟨hr, hrs⟩ := List.forall_mem_cons.1 hrs
      have renumbered : (r.withId n).Writable := ⟨Int.natCast_nonneg n, hr.2⟩
      exact ih (hp.push renumbered) hrs

/-- **Programs that can be written are merged into such a program.** -/
lemma MergedStepwise.writable (h : MergedStepwise p qs m) (hp : p.Writable)
    (hqs : ∀ q ∈ qs, q.Writable) : m.Writable := by
  induction h with
  | nil => exact hp
  | @cons p q m k qs g g' run _ ih =>
      obtain ⟨hq, hqs⟩ := List.forall_mem_cons.1 hqs
      refine ih ((mergeInto_gathers run).writable hp fun r hr => ?_) hqs
      exact hq r (by simpa using hr)

end Programs

/-! ## Answers -/

/-- The literals of a set as a solver writes them, with a comma and a blank between any two. -/
def joinedTexts (ls : List Literal) : String :=
  String.intercalate ", " (ls.map Literal.text)

/-- All literals of the list are heads of the program. -/
def Program.HeadsOnly (p : Program) (ls : List Literal) : Prop :=
  ∀ l ∈ ls, ∃ c ∈ p.clauses, c.head = some l

/-- Asked about an update program under the mark, the solver answers with sets of its heads, as long
as it answers at all. -/
def Solver.ListsHeads (mark : Mark) (s : Solver) : Prop :=
  ∀ earlier older newer g solved,
    s.reply earlier (buildUpdateProgram older newer mark g).1 = .ok solved →
      ∃ sets : List (List Literal),
        (∀ ls ∈ sets, (buildUpdateProgram older newer mark g).1.HeadsOnly ls) ∧
          solved.models = sets.map joinedTexts

section Answers

variable {mark : Mark} {older newer : Program} {sets : List (List Literal)} {g : Ledger}

/-- **Sets of heads of an update program are read back**, all of them in their order. -/
theorem parseAll_heads (writable : older.Writable) (writable' : newer.Writable)
    (heads : ∀ ls ∈ sets, (buildUpdateProgram older newer mark g).1.HeadsOnly ls) (g' : Ledger) :
    (AnswerSet.parseAll (sets.map joinedTexts) g').1 = sets.map .ofList := by
  have readable : ∀ ls ∈ sets, ∀ l ∈ ls, l.Readable := by
    intro ls hls l hl
    obtain ⟨c, hc, head⟩ := heads ls hls l hl
    exact readable_updateProgram writable writable' g c hc l (by simp [Clause.literals, head])
  induction sets with
  | nil => rfl
  | cons ls sets ih =>
      obtain ⟨first, rest⟩ := List.forall_mem_cons.1 readable
      have parsed : AnswerSet.parse (joinedTexts ls).toList = .ok (.ofList ls) :=
        AnswerSet.parse_strung first (AnswerSet.strung_texts ls)
      rw [List.map_cons, List.map_cons, AnswerSet.parseAll, parsed,
        ← ih (fun ls hls => heads ls (List.mem_cons_of_mem _ hls)) rest]
      rfl

end Answers

/-! ## Detections -/

section Detections

variable {mark : Mark} {older newer : Program} {ps : List Program} {s t : Solver}
  {g g' : Ledger} {d : Detection}

lemma Solver.ListsHeads.of_reply (h : s.ListsHeads mark) (reply : t.reply = s.reply) :
    t.ListsHeads mark := by
  rwa [ListsHeads, reply]

lemma detectPair_reads (writable : older.Writable) (writable' : newer.Writable)
    (lists : s.ListsHeads mark) (run : (detectPair mark older newer).run s g = ((.ok d, t), g')) :
    d ≠ .failed .unreadableModels := by
  cases detectPair_outcome run with
  | refused => exact fun e => by cases e
  | inconsistent => exact fun e => by cases e
  | @unreadable solved g₁ replied lost =>
      obtain ⟨sets, heads, models⟩ := lists _ _ _ _ _ replied
      rw [models, parseAll_heads writable writable' heads, List.length_map, List.length_map] at lost
      exact absurd rfl lost
  | found => exact fun e => by cases e

/-- **No detection fails over an answer that is made of heads.** -/
theorem detectSequence_reads (writable : ∀ p ∈ ps, p.Writable) (lists : s.ListsHeads mark)
    (run : (detectSequence mark ps).run s g = ((.ok d, t), g')) :
    d ≠ .failed .unreadableModels := by
  rcases ps with _ | ⟨p, _ | ⟨newer, qs⟩⟩
  · cases run
    exact fun e => by cases e
  · cases run
    exact fun e => by cases e
  · obtain ⟨first, rest⟩ := List.forall_mem_cons.1 writable
    obtain ⟨before, q, back, m, s₁, g₁, t₁, g₂, split, merged, reply, last⟩ :=
      detectSequence_stepwise (List.cons_ne_nil newer qs) run
    rw [split] at rest
    obtain ⟨front, other⟩ := List.forall_mem_append.1 rest
    exact detectPair_reads (merged.writable first front) (other q List.mem_cons_self)
      (lists.of_reply reply) last

theorem UpdateSequence.detect_reads {u u' : UpdateSequence} {o : Except UpdateError Detection}
    (writable : ∀ p ∈ u.programs, p.Writable) (lists : s.ListsHeads u.mark)
    (run : u.detect.run s g = (((o, u'), t), g')) : o ≠ .ok (.failed .unreadableModels) := by
  obtain ⟨g₀, -, detected⟩ := detect_outcome run
  cases detected with
  | undetected => exact fun e => by cases e
  | unoffered => exact fun e => by cases e
  | failed detected =>
      have reads := detectSequence_reads writable lists detected
      exact fun e => reads (Except.ok.inj e)
  | completed => exact fun e => by cases e

/-- **A detection can read every answer that is made of heads.**  Readable literals are read back
from their texts, whatever separators stand between these, and from the text of their answer set.
Let programs say what has been read from texts, under positive identifiers, and let a solver answer
with sets of heads of the update programs it is asked about.  In the update program of each program
and those merged before it, no such set is lost, and no detection fails for want of reading one. -/
theorem detection_reads_answers {ls : List Literal} (readable : ∀ l ∈ ls, l.Readable)
    {u : UpdateSequence} (texts : ∀ p ∈ u.programs, p.FromText)
    (lists : s.ListsHeads u.mark) :
    ((∀ gap ∈ [", ", " ", "\t", "\n"],
        AnswerSet.parse (String.intercalate gap (ls.map Literal.text)).toList =
          .ok (.ofList ls)) ∧
      (∀ cs, Strung (ls.map fun l => l.text.toList) cs →
        AnswerSet.parse cs = .ok (.ofList ls)) ∧
      ∃ t, AnswerSet.parse (AnswerSet.ofList ls).text.toList = .ok t ∧ t ≈ .ofList ls) ∧
    (∀ p before newer back older, u.programs = p :: (before ++ newer :: back) →
      MergedStepwise p before older → ∀ g (sets : List (List Literal)),
        (∀ ls ∈ sets, (buildUpdateProgram older newer u.mark g).1.HeadsOnly ls) →
          ∀ g', (AnswerSet.parseAll (sets.map joinedTexts) g').1 = sets.map .ofList) ∧
    (∀ g d t g', (detectSequence u.mark u.programs).run s g = ((.ok d, t), g') →
      d ≠ .failed .unreadableModels) ∧
    ∀ g o u' t g', u.detect.run s g = (((o, u'), t), g') →
      o ≠ .ok (.failed .unreadableModels) := by
  have writable : ∀ p ∈ u.programs, p.Writable := fun p hp => (texts p hp).writable
  refine ⟨⟨fun gap hgap => ?_, fun cs strung => AnswerSet.parse_strung readable strung,
    AnswerSet.exists_parse_text fun l hl => readable l (mem_of_mem_distinct hl)⟩,
    fun p before newer back older split merged g sets heads g' => ?_,
    fun g d t g' run => detectSequence_reads writable lists run,
    fun g o u' t g' run => UpdateSequence.detect_reads writable lists run⟩
  · refine AnswerSet.parse_strung readable ?_
    have separates : gap.toList ≠ [] ∧ ∀ c ∈ gap.toList, c ∈ modelSeparators := by
      simp only [List.mem_cons, List.not_mem_nil, or_false] at hgap
      rcases hgap with rfl | rfl | rfl | rfl <;> simp [modelSeparators]
    have strung := strung_intercalate separates.1 separates.2 (ls.map fun l => l.text.toList)
    rwa [String.toList_intercalate, List.map_map]
  · rw [split] at writable
    obtain ⟨first, rest⟩ := List.forall_mem_cons.1 writable
    obtain ⟨front, other⟩ := List.forall_mem_append.1 rest
    exact parseAll_heads (merged.writable first front) (other newer List.mem_cons_self) heads g'

/-- A solver that puts all heads into one set. -/
theorem detection_reads_answers_heads :
    let p : Literal := ⟨⟨"p", ["a", "b"]⟩, false⟩
    let q : Literal := ⟨⟨"q", []⟩, true⟩
    let older : Program := { name := "older", rules := [{ head := some p, id := 1 }] }
    let newer : Program :=
      { name := "newer", rules := [{ head := some p.complement, negBody := [q], id := 2 }] }
    let u : UpdateSequence := { programs := [older, newer] }
    let s : Solver :=
      { reply := fun _ p => .ok ⟨true, [joinedTexts (p.clauses.filterMap Clause.head)]⟩ }
    (∀ l ∈ [p, q], l.Readable) ∧ (∀ p ∈ u.programs, p.FromText) ∧ s.ListsHeads u.mark ∧
      AnswerSet.parse "p(a,b)\t-q".toList = .ok (.ofList [p, q]) ∧
      ∀ g o u' t g', u.detect.run s g = (((o, u'), t), g') →
        o ≠ .ok (.failed .unreadableModels) := by
  intro p q older newer u s
  have readable : ∀ l ∈ [p, q], l.Readable := by decide
  have texts : ∀ p ∈ u.programs, p.FromText := by
    refine List.forall_mem_cons.2 ⟨⟨?_, by decide⟩, List.forall_mem_singleton.2 ⟨?_, by decide⟩⟩
    · exact ⟨some "p(a, b).", "older", older, { nextId := 1 }, { nextId := 2 }, rfl, rfl⟩
    · exact ⟨some "-p(a,b) :- not -q.", "newer", newer, { nextId := 2 }, { nextId := 3 }, rfl, rfl⟩
  have lists : s.ListsHeads u.mark := by
    intro earlier older newer g solved replied
    cases replied
    refine ⟨[_], List.forall_mem_singleton.2 fun l hl => ?_, rfl⟩
    obtain ⟨c, hc, head⟩ := List.mem_filterMap.1 hl
    exact ⟨c, hc, head⟩
  obtain ⟨⟨gaps, -⟩, -, -, detect⟩ := detection_reads_answers readable texts lists
  refine ⟨readable, texts, lists, ?_, detect⟩
  exact gaps "\t" (by simp)

end Detections

end CausalUpdate
