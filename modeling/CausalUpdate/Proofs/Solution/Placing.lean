import CausalUpdate.Proofs.Program.Made
import CausalUpdate.Proofs.Solution.Applying

/-!
# Where the rules of a solution end up

A solution that has been put together names every rule identifier once.  When it is applied, each of
its new versions is in the programs afterwards, and each of its additions as well, unless another
rule of the newest program has the identifier; for then the addition comes in under a new one.  What
the solution does not name stays where it is.

* `Solution.Composed` — solutions that have been put together.
* `Solution.clashes` — the identifiers under which additions do not come in.
* `Solution.applyTo_placed` — where the rules are afterwards.
-/

namespace CausalUpdate

variable {p q : Program} {ps qs : List Program} {r v : Rule} {rs vs : List Rule} {g g' : Ledger}

/-! ## Programs -/

namespace Program

lemma mem_of_modify (h : p.modify v = .ok q) : v ∈ q.rules := by
  obtain ⟨before, old, after, -, -, rfl⟩ := modify_in_place h
  simp

lemma kept_of_modify (h : p.modify v = .ok q) (hr : r ∈ p.rules) (other : r.id ≠ v.id) :
    r ∈ q.rules := by
  obtain ⟨before, old, after, split, same, rfl⟩ := modify_in_place h
  rw [split, List.mem_append, List.mem_cons] at hr
  rcases hr with hr | rfl | hr
  · exact List.mem_append_left _ hr
  · exact absurd same other
  · exact List.mem_append_right _ (List.mem_cons_of_mem _ hr)

lemma kept_of_erase {id : Int} (h : p.erase id = .ok q) (hr : r ∈ p.rules) (other : r.id ≠ id) :
    r ∈ q.rules := by
  obtain ⟨before, old, after, split, same, rfl⟩ := erase_in_place h
  rw [split, List.mem_append, List.mem_cons] at hr
  rcases hr with hr | rfl | hr
  · exact List.mem_append_left _ hr
  · exact absurd same other
  · exact List.mem_append_right _ hr

/-- The identifiers of rules that come in under new ones, if `next` is the first of these. -/
def clashes (p : Program) (next : Nat) : List Rule → List Int
  | [] => []
  | r :: rs =>
    if r.id ∈ p.ids then r.id :: (p.push (r.withId next)).clashes (next + 1) rs
    else (p.push r).clashes next rs

/-- What is added to a program joins what is there, and but for clashes it comes in as it is. -/
lemma addAll_placed (run : (p.addAll rs).run g = (.ok q, g')) : (∀ r ∈ p.rules, r ∈ q.rules) ∧
    ∀ r ∈ rs, r.id ∉ p.clashes g.nextId rs → r ∈ q.rules := by
  induction rs generalizing p g with
  | nil =>
      cases run
      exact ⟨fun r hr => hr, fun r hr => absurd hr List.not_mem_nil⟩
  | cons r rs ih =>
      obtain ⟨p₁, g₁, first, rest⟩ := Attempt.bind_ok run
      obtain ⟨old, new⟩ := ih rest
      obtain ⟨-, ⟨free, rfl, rfl⟩ | ⟨taken, rfl, rfl⟩⟩ := add_ok first
      · refine ⟨fun s hs => old s (List.mem_append_left _ hs), fun s hs own => ?_⟩
        rw [clashes, if_neg free] at own
        rcases List.mem_cons.1 hs with rfl | hs
        · exact old s (List.mem_append_right _ (List.mem_singleton.2 rfl))
        · exact new s hs own
      · refine ⟨fun s hs => old s (List.mem_append_left _ hs), fun s hs own => ?_⟩
        rw [clashes, if_pos taken, List.mem_cons, not_or] at own
        rcases List.mem_cons.1 hs with rfl | hs
        · exact absurd rfl own.1
        · exact new s hs own.2

end Program

/-! ## Sequences of programs -/

section

variable {edit : Program → Except ProgramError Program} {id : Int}

lemma kept_of_editHolders (keeps : ∀ p q, edit p = .ok q → r ∈ p.rules → r ∈ q.rules)
    (h : editHolders edit id ps = .ok qs) (hr : r ∈ rulesOf ps) : r ∈ rulesOf qs := by
  induction ps generalizing qs with
  | nil => exact absurd hr List.not_mem_nil
  | cons p ps ih =>
      rw [editHolders_cons] at h
      obtain ⟨q, first, h⟩ := Except.bind_ok h
      obtain ⟨qs', rest, h⟩ := Except.bind_ok h
      cases h
      rw [rulesOf_cons, List.mem_append] at hr ⊢
      refine hr.imp (fun hr => ?_) (ih rest)
      split at first
      · exact keeps p q first hr
      · cases first
        exact hr

/-- What an edit leaves in every program that it changes is left by an edit of the holders. -/
lemma mem_of_editHolders (leaves : ∀ p q, edit p = .ok q → r ∈ q.rules)
    (h : editHolders edit id ps = .ok qs) (held : Held ps id) : r ∈ rulesOf qs := by
  induction ps generalizing qs with
  | nil =>
      obtain ⟨p, hp, -⟩ := held
      exact absurd hp List.not_mem_nil
  | cons p ps ih =>
      rw [editHolders_cons] at h
      obtain ⟨q, first, h⟩ := Except.bind_ok h
      obtain ⟨qs', rest, h⟩ := Except.bind_ok h
      cases h
      rw [rulesOf_cons, List.mem_append]
      split at first
      · exact Or.inl (leaves p q first)
      · rename_i free
        obtain ⟨p', hp', inside⟩ := held
        rcases List.mem_cons.1 hp' with rfl | hp'
        · exact absurd inside free
        · exact Or.inr (ih rest ⟨p', hp', inside⟩)

lemma editHeld_ok (h : editHeld edit id ps = .ok qs) :
    Held ps id ∧ editHolders edit id ps = .ok qs := by
  unfold editHeld at h
  split at h
  · rename_i held
    exact ⟨held, h⟩
  · cases h

end

lemma kept_of_editEach {edit : Rule → Program → Except ProgramError Program}
    (keeps : ∀ v ∈ vs, ∀ p q, edit v p = .ok q → r ∈ p.rules → r ∈ q.rules)
    (h : editEach edit vs ps = .ok qs) (hr : r ∈ rulesOf ps) : r ∈ rulesOf qs := by
  induction vs generalizing ps with
  | nil =>
      cases h
      exact hr
  | cons v vs ih =>
      obtain ⟨ps₁, first, rest⟩ := Except.bind_ok h
      exact ih (fun w hw => keeps w (List.mem_cons_of_mem _ hw)) rest
        (kept_of_editHolders (keeps v List.mem_cons_self) (editHeld_ok first).2 hr)

/-- New versions of different rules are all there in the end. -/
lemma mem_of_editEach_modify (distinct : (vs.map Rule.id).Nodup)
    (h : editEach (fun v p => p.modify v) vs ps = .ok qs) (hv : v ∈ vs) : v ∈ rulesOf qs := by
  induction vs generalizing ps with
  | nil => exact absurd hv List.not_mem_nil
  | cons w vs ih =>
      obtain ⟨ps₁, first, rest⟩ := Except.bind_ok h
      obtain ⟨apart, distinct⟩ := List.nodup_cons.1 distinct
      rcases List.mem_cons.1 hv with rfl | hv
      · obtain ⟨held, edited⟩ := editHeld_ok first
        refine kept_of_editEach (fun w hw p q done inside => ?_) rest
          (mem_of_editHolders (fun _ _ => Program.mem_of_modify) edited held)
        exact Program.kept_of_modify done inside fun e => apart (e ▸ List.mem_map_of_mem hw)
      · exact ih distinct rest hv

lemma addToNewest_ok (run : (addToNewest rs ps).run g = (.ok qs, g')) :
    ∃ front p q, ps = front ++ [p] ∧ qs = front ++ [q] ∧ (p.addAll rs).run g = (.ok q, g') := by
  rcases List.eq_nil_or_concat ps with rfl | ⟨front, p, rfl⟩
  · cases run
  · rw [List.concat_eq_append, addToNewest_run] at run
    rcases added : (p.addAll rs).run g with ⟨e | q, g₁⟩
    · rw [added] at run
      cases run
    · rw [added] at run
      cases run
      exact ⟨front, p, q, List.concat_eq_append, rfl, added⟩

/-! ## Solutions -/

namespace Solution

variable {s t : Solution}

/-- The solution was begun without chosen versions, and these were then chosen one by one. -/
inductive Composed : Solution → Prop
  | begun {s : Solution} (empty : s.operations = []) : Composed s
  | choose {s t : Solution} {kind : OperationKind} {r : Rule} (composed : Composed s)
      (chosen : s.choose kind r = .ok t) : Composed t

lemma touched_eq (s : Solution) : s.touched =
    s.additions.map Rule.id ++ (s.modifications.map Rule.id ++ s.deletions.map Rule.id) := by
  simp [touched, operations, OperationKind.all, chosenFor, Function.comp_def]

lemma touched_push (s : Solution) (kind : OperationKind) (r : Rule) :
    (s.push kind r).touched.Perm (r.id :: s.touched) := by
  have last : ∀ ids : List Int, (ids ++ [r.id]).Perm (r.id :: ids) := fun ids =>
    List.perm_append_singleton _ _
  rw [touched_eq, touched_eq]
  cases kind with
  | add =>
      simp only [push, List.map_append, List.map_cons, List.map_nil]
      exact (last _).append_right _
  | modify =>
      simp only [push, List.map_append, List.map_cons, List.map_nil]
      exact (((last _).append_right _).append_left _).trans List.perm_middle
  | delete =>
      simp only [push, List.map_append, List.map_cons, List.map_nil, ← List.append_assoc]
      exact last _

/-- **A solution that has been put together names every identifier once.** -/
theorem Composed.nodup_touched (h : s.Composed) : s.touched.Nodup := by
  induction h with
  | begun empty =>
      rw [touched, empty]
      exact List.nodup_nil
  | @choose s t kind r _ chosen ih =>
      unfold Solution.choose at chosen
      split at chosen
      · cases chosen
      · rename_i fresh
        cases chosen
        exact (s.touched_push kind r).nodup_iff.2 (List.nodup_cons.2 ⟨fresh, ih⟩)

/-- The identifiers of additions that come in under new ones, if `next` is the first of these. -/
def clashes (s : Solution) (next : Nat) (ps : List Program) : List Int :=
  (ps.getLast?.map fun p => p.clashes next s.additions).getD []

/-- The steps of an application. -/
lemma applyTo_ok (run : (s.applyTo ps).run g = (.ok qs, g')) : ∃ ps₁ ps₂,
    (addToNewest s.additions ps).run g = (.ok ps₁, g') ∧
      editEach (fun v p => p.modify v) s.modifications ps₁ = .ok ps₂ ∧
        editEach (fun r p => p.erase r.id) s.deletions ps₂ = .ok qs := by
  obtain ⟨ps₁, g₁, added, run⟩ := Attempt.bind_ok run
  obtain ⟨ps₂, g₂, modified, run⟩ := Attempt.bind_ok run
  rw [Attempt.run_of, Prod.mk.injEq] at modified run
  obtain ⟨modified, rfl⟩ := modified
  obtain ⟨erased, rfl⟩ := run
  exact ⟨ps₁, ps₂, added, modified, erased⟩

/-- **Where the rules are after a solution has been applied.**  What the solution does not name is
kept, and every new version is there, and every addition whose identifier does not clash. -/
theorem applyTo_placed (distinct : s.touched.Nodup) (run : (s.applyTo ps).run g = (.ok qs, g')) :
    (∀ r ∈ rulesOf ps, r.id ∉ s.touched → r ∈ rulesOf qs) ∧
      (∀ v ∈ s.modifications, v ∈ rulesOf qs) ∧
      ∀ r ∈ s.additions, r.id ∉ s.clashes g.nextId ps → r ∈ rulesOf qs := by
  obtain ⟨ps₁, ps₂, added, modified, erased⟩ := applyTo_ok run
  rw [touched_eq] at distinct ⊢
  obtain ⟨-, changes, apart⟩ := List.nodup_append.1 distinct
  obtain ⟨versions, -, apart'⟩ := List.nodup_append.1 changes
  have kept_erased : ∀ r ∈ rulesOf ps₂, r.id ∉ s.deletions.map Rule.id → r ∈ rulesOf qs :=
    fun r hr other => kept_of_editEach (fun d hd p q done inside =>
      Program.kept_of_erase done inside fun e => other (e ▸ List.mem_map_of_mem hd)) erased hr
  have kept : ∀ r ∈ rulesOf ps₁, r.id ∉ s.modifications.map Rule.id ++ s.deletions.map Rule.id →
      r ∈ rulesOf qs := by
    intro r hr other
    rw [List.mem_append, not_or] at other
    refine kept_erased r (kept_of_editEach (fun v hv p q done inside => ?_) modified hr) other.2
    exact Program.kept_of_modify done inside fun e => other.1 (e ▸ List.mem_map_of_mem hv)
  obtain ⟨front, p, q, rfl, rfl, run⟩ := addToNewest_ok added
  obtain ⟨old, new⟩ := Program.addAll_placed run
  refine ⟨fun r hr other => ?_, fun v hv => ?_, fun r hr own => ?_⟩
  · rw [List.mem_append, not_or] at other
    refine kept r ?_ other.2
    simp only [rulesOf_append, rulesOf_cons, rulesOf_nil, List.append_nil, List.mem_append] at hr ⊢
    exact hr.imp id (old r)
  · refine kept_erased v (mem_of_editEach_modify versions modified hv) fun named => ?_
    exact apart' _ (List.mem_map_of_mem hv) _ named rfl
  · refine kept r ?_ fun named => apart _ (List.mem_map_of_mem hr) _ named rfl
    rw [clashes, List.getLast?_concat] at own
    simp [new r hr own]

end Solution

end CausalUpdate
