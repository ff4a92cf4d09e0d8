import CausalUpdate.Proofs.Program.Clean
import CausalUpdate.Proofs.StableModel.Enumeration
import CausalUpdate.Proofs.StableModel.Reduct
import CausalUpdate.Proofs.StableModel.Rendering
import CausalUpdate.Settings.Basic

/-!
# Solvers and what they promise

What is proved about conflicts holds for any solver that keeps its promise.  A *sound* solver lists
nothing but models of the program it is asked about; an *exact* one lists all of them, each once,
and answers every program that has rules.  `exact_exact` shows that the enumeration of stable models
makes such a solver.

`solve_lists_answerSets` says the same of a single call, with answer sets given by reduct.
-/

namespace CausalUpdate

open CausalUpdate.Text

namespace Solver

/-- The solver lists nothing but models. -/
def Sound (s : Solver) : Prop :=
  ∀ earlier p solved, ReadableProgram p → s.reply earlier p = .ok solved →
    ∀ m ∈ solved.models, IsModelText p m

/-- Only the replies matter, not what the solver has been asked. -/
lemma Sound.of_reply {s t : Solver} (h : s.Sound) (same : t.reply = s.reply) : t.Sound := by
  intro earlier p solved readable replied
  rw [same] at replied
  exact h earlier p solved readable replied

/-- The solver lists exactly the models, and answers every program that has rules. -/
structure Exact (s : Solver) : Prop where
  answers : ∀ earlier p, ReadableProgram p → p.rules ≠ [] → ∃ solved, s.reply earlier p = .ok solved
  models : ∀ earlier p solved, ReadableProgram p → s.reply earlier p = .ok solved →
    (solved.satisfiable = true ↔ solved.models ≠ []) ∧ Renders p solved.models

lemma Exact.of_reply {s t : Solver} (h : s.Exact) (same : t.reply = s.reply) : t.Exact := by
  rcases s with ⟨reply, asked⟩
  rcases t with ⟨reply', asked'⟩
  obtain rfl : reply' = reply := same
  exact ⟨h.answers, h.models⟩

lemma Exact.sound {s : Solver} (h : s.Exact) : s.Sound :=
  fun earlier p solved hp ho m hm => ((h.models earlier p solved hp ho).2.mem_iff m).1 hm

end Solver

/-! ## Plain programs -/

lemma isSymbol_of_isIdentifier {cs : List Char} (h : isIdentifier cs) (keyword : cs ≠ notKeyword) :
    isSymbol cs := by
  obtain ⟨⟨c, head, start⟩, rest⟩ := isIdentifier_iff.1 h
  have margin : isNameMargin c = false := by
    rw [Bool.eq_false_iff]
    intro hm
    simp only [isNameMargin, Bool.or_eq_true, decide_eq_true_eq] at hm
    rcases hm with rfl | rfl <;> exact absurd start (by decide)
  have names : cs.all isNameRest := by
    rw [List.all_eq_true]
    exact fun d hd => by simp [isNameRest, rest d hd]
  cases cs with
  | nil => simp at head
  | cons d cs =>
      rw [List.head?_cons, Option.some.injEq] at head
      subst head
      rw [isSymbol, names, nameStart?, List.dropWhile_cons_of_neg (by simp [margin])]
      simp [keyword, start]

lemma Literal.Readable.isPlain {l : Literal} (h : l.Readable) : l.isPlain := by
  rw [Literal.isPlain, isSymbol_of_isIdentifier h.predicate h.keyword, Bool.true_and,
    List.all_eq_true]
  intro t ht
  have hterm := h.terms t ht
  simp only [isTerm, Bool.and_eq_true, bne_iff_ne, ne_eq, Bool.or_eq_true] at hterm
  rw [isPlainTerm, Bool.or_eq_true]
  exact hterm.2.imp (fun hi => isSymbol_of_isIdentifier hi hterm.1) id

lemma ReadableProgram.isPlain {p : Program} (h : ReadableProgram p) : p.isPlain := by
  rw [Program.isPlain, List.all_eq_true]
  intro r hr
  rw [Clause.isPlain, List.all_eq_true]
  exact fun l hl => (h r.toClause (List.mem_map_of_mem hr) l hl).isPlain

/-! ## The solver that enumerates -/

/-- What is derived is a text of a literal. -/
lemma IsStable.exists_literal {p : Program} (h : ReadableProgram p) {atoms : List String}
    (stable : IsStable p.ground (· ∈ atoms)) :
    ∀ t ∈ atoms, ∃ l : Literal, l.Readable ∧ l.text = t := by
  intro t ht
  have derived := (stable.founded t).1 ht
  rw [Program.ground_eq] at derived
  obtain ⟨c, hc, l, head, e⟩ := exists_head_of_derivable derived
  exact ⟨l, h c hc l (by simp [Clause.literals, head]), e⟩

/-- **The enumeration lists exactly the models.** -/
theorem renders_modelsOf {p : Program} (h : ReadableProgram p) : Renders p (modelsOf p.ground) := by
  have found := stableSets_found p.ground
  refine ⟨?_, fun m => ?_⟩
  · refine (List.mergeSort_perm _ _).nodup_iff.2 ?_
    rw [List.Nodup, List.pairwise_map]
    refine found.different.imp_of_mem fun {s t} hs ht different e => different ?_
    exact modelText_inj ((found.stable s hs).exists_literal h)
      ((found.stable t ht).exists_literal h) e
  · rw [modelsOf, sortTexts, List.mem_mergeSort, List.mem_map]
    constructor
    · rintro ⟨s, hs, rfl⟩
      exact ⟨s, found.nodup s hs, found.stable s hs, rfl⟩
    · rintro ⟨atoms, nodup, stable, rfl⟩
      obtain ⟨s, hs, same⟩ := found.complete _ stable ⟨by simp, by simp⟩
      exact ⟨s, hs, modelText_congr (found.nodup s hs) nodup fun t => (same t).symm⟩

/-- **The solver that enumerates is exact.** -/
theorem exact_exact : Solver.exact.Exact where
  answers earlier p h hne := by
    refine ⟨Solved.ofRules p.ground, ?_⟩
    have nonempty : p.isEmpty = false := by
      rw [Program.isEmpty, List.isEmpty_eq_false_iff]
      exact hne
    simp only [Solver.exact, Program.solve, nonempty, Bool.false_eq_true, if_false,
      Program.grounding, h.isPlain, if_true]
    rfl
  models earlier p solved h ho := by
    simp only [Solver.exact, Program.solve] at ho
    split at ho
    · simp at ho
    · rw [Program.grounding, if_pos h.isPlain] at ho
      have : Solved.ofRules p.ground = solved := Except.ok.inj ho
      rw [← this, Solved.ofRules]
      exact ⟨by simp, renders_modelsOf h⟩

/-! ## A single call -/

/-- The text lists the atoms of the set in order, each of them once. -/
def WritesAtoms (held : Set String) (m : String) : Prop :=
  ∃ atoms : List String, atoms.Nodup ∧ (∀ a, a ∈ held ↔ a ∈ atoms) ∧ m = modelText atoms

lemma isModelText_iff {p : Program} {m : String} :
    IsModelText p m ↔ ∃ held, IsLeastOfReduct p.ground held ∧ WritesAtoms held m := by
  constructor
  · rintro ⟨atoms, nodup, stable, rfl⟩
    exact ⟨{a | a ∈ atoms}, isStable_iff_least.1 stable, atoms, nodup, fun a => Iff.rfl, rfl⟩
  · rintro ⟨held, least, atoms, nodup, same, rfl⟩
    obtain rfl : held = {a | a ∈ atoms} := Set.ext same
    exact ⟨atoms, nodup, isStable_iff_least.2 least, rfl⟩

/-- An answer set of finitely many rules can be written. -/
lemma IsLeastOfReduct.exists_writesAtoms {rules : List GroundRule} {held : Set String}
    (h : IsLeastOfReduct rules held) : ∃ m, WritesAtoms held m := by
  have found := stableSets_found rules
  obtain ⟨s, hs, same⟩ := found.complete _ (isStable_iff_least.2 h) ⟨by simp, by simp⟩
  exact ⟨modelText s, s, found.nodup s hs, same, rfl⟩

/-- **A call lists exactly the answer sets.**  For a program with rules that is asked for all of its
models, the call succeeds, no text is listed twice, what is listed are the texts of the answer sets,
and every answer set is among them.  That there is none is a result as well. -/
theorem solve_lists_answerSets {p : Program} (readable : ReadableProgram p) (rules : p.rules ≠ [])
    {settings : SolverSettings} (all : settings.maxModels = 0) :
    ∃ solved, p.solve.map settings.limit = .ok solved ∧
      (solved.satisfiable = true ↔ solved.models ≠ []) ∧
      solved.models.Nodup ∧
      (∀ m, m ∈ solved.models ↔ ∃ held, IsLeastOfReduct p.ground held ∧ WritesAtoms held m) ∧
      ∀ held, IsLeastOfReduct p.ground held → ∃ m ∈ solved.models, WritesAtoms held m := by
  obtain ⟨solved, replied⟩ := exact_exact.answers [] p readable rules
  obtain ⟨satisfiable, nodup, mem_iff⟩ := exact_exact.models [] p solved readable replied
  have listed : ∀ m, m ∈ solved.models ↔
      ∃ held, IsLeastOfReduct p.ground held ∧ WritesAtoms held m :=
    fun m => (mem_iff m).trans isModelText_iff
  refine ⟨solved, ?_, satisfiable, nodup, listed, fun held h => ?_⟩
  · rw [show p.solve = .ok solved from replied, Except.map, SolverSettings.limit, if_pos all]
  · obtain ⟨m, hm⟩ := h.exists_writesAtoms
    exact ⟨m, (listed m).2 ⟨held, h, hm⟩, hm⟩

/-- Two literals under default negation of each other, two that only support each other, a classical
negation and a constraint. -/
theorem solve_lists_answerSets_loops :
    let a : Literal := ⟨⟨"a", []⟩, false⟩
    let b : Literal := ⟨⟨"b", ["x", "0"]⟩, false⟩
    let c : Literal := ⟨⟨"c", []⟩, false⟩
    let p : Program := { rules := [
      { head := some a, negBody := [b], id := 1 },
      { head := some b, negBody := [a], id := 2 },
      { head := some c, body := [c], id := 3 },
      { head := some b.complement, body := [a], id := 4 },
      { body := [c], negBody := [a], id := 5 }] }
    ReadableProgram p ∧ p.rules ≠ [] ∧ (default : SolverSettings).maxModels = 0 ∧
      ∃ solved, p.solve.map (default : SolverSettings).limit = .ok solved ∧
        (solved.satisfiable = true ↔ solved.models ≠ []) ∧
        solved.models.Nodup ∧
        (∀ m, m ∈ solved.models ↔
          ∃ held, IsLeastOfReduct p.ground held ∧ WritesAtoms held m) ∧
        ∀ held, IsLeastOfReduct p.ground held → ∃ m ∈ solved.models, WritesAtoms held m :=
  have readable := show ReadableProgram _ by unfold ReadableProgram; decide
  ⟨readable, by decide, rfl, solve_lists_answerSets readable (by decide) rfl⟩

end CausalUpdate
