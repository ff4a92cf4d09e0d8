import CausalUpdate.Proofs.Program.Joining
import CausalUpdate.Proofs.Solution.Placing

/-!
# What a solution changes

A solution that has been put together is applied in three passes over the programs: additions, then
new versions, then deletions.  Where the identifiers within each program are distinct, the passes do
not get in each other's way.  In every program the deleted rules are gone and the new versions stand
in the places of the old ones, and the additions follow at the end of the newest program.

* `Solution.edited` — a program as a solution leaves it, but for additions.
* `Program.TakesIn` — under which identifiers additions come in.
* `Solution.applyTo_exact` — what the programs are afterwards, and when a solution must fail.
-/

namespace CausalUpdate

variable {p q : Program} {ps qs : List Program} {id : Int} {r v : Rule} {rs vs : List Rule}
  {next : Nat} {g g' : Ledger}

/-! ## Single edits -/

namespace Program

/-- The program without the rules that have one of the identifiers. -/
def without (gone : List Int) (p : Program) : Program :=
  { p with rules := p.rules.filter fun r => r.id ∉ gone }

lemma without_nil (p : Program) : p.without [] = p := by
  simp [without]

lemma without_without (id : Int) (gone : List Int) (p : Program) :
    (p.without [id]).without gone = p.without (id :: gone) := by
  simp only [without, List.filter_filter, List.mem_cons, List.not_mem_nil, or_false, not_or,
    ← Bool.decide_and, and_comm]

lemma filter_eq_self_of_not_mem (h : id ∉ rs.map Rule.id) :
    rs.filter (fun r => r.id ∉ [id]) = rs := by
  refine List.filter_eq_self.2 fun r hr => ?_
  rw [decide_eq_true_eq, List.mem_singleton]
  exact fun e => h (e ▸ List.mem_map_of_mem hr)

lemma without_of_not_mem (h : id ∉ p.ids) : p.without [id] = p := by
  rw [without, filter_eq_self_of_not_mem h]

lemma ids_without_sublist (gone : List Int) (p : Program) : (p.without gone).ids.Sublist p.ids :=
  List.filter_sublist.map Rule.id

/-- Modifying is replacing, where identifiers are distinct. -/
lemma eq_of_modify (distinct : p.ids.Nodup) (h : p.modify v = .ok q) : q = p.updated [v] := by
  obtain ⟨⟨-, held, -⟩, rfl⟩ := modify_ok h
  rw [set_position?_eq distinct held]
  rfl

/-- Erasing leaves out one rule only, where identifiers are distinct. -/
lemma eq_of_erase (distinct : p.ids.Nodup) (h : p.erase id = .ok q) : q = p.without [id] := by
  obtain ⟨before, old, after, split, rfl, rfl⟩ := erase_in_place h
  rw [ids, split, List.map_append, List.map_cons, List.nodup_middle, List.nodup_cons,
    List.mem_append, not_or] at distinct
  obtain ⟨⟨apart, apart'⟩, -⟩ := distinct
  rw [without, split, List.filter_append, List.filter_cons, filter_eq_self_of_not_mem apart,
    filter_eq_self_of_not_mem apart', if_neg (by simp)]

end Program

/-! ## Passes -/

/-- An edit of the holders of an identifier, where the other programs need no edit. -/
lemma eq_of_editHolders {edit : Program → Except ProgramError Program} {f : Program → Program}
    (holders : ∀ p ∈ ps, ∀ q, edit p = .ok q → q = f p) (others : ∀ p ∈ ps, id ∉ p.ids → p = f p)
    (h : editHolders edit id ps = .ok qs) : qs = ps.map f := by
  induction ps generalizing qs with
  | nil =>
      cases h
      rfl
  | cons p ps ih =>
      rw [editHolders_cons] at h
      obtain ⟨q, first, h⟩ := Except.bind_ok h
      obtain ⟨qs', rest, h⟩ := Except.bind_ok h
      cases h
      have front : q = f p := by
        split at first
        · exact holders p List.mem_cons_self q first
        · rename_i free
          cases first
          exact others p List.mem_cons_self free
      rw [List.map_cons, ← front, ih (fun p hp => holders p (List.mem_cons_of_mem _ hp))
        (fun p hp => others p (List.mem_cons_of_mem _ hp)) rest]

/-- **The pass of new versions.** -/
theorem eq_of_editEach_modify (distinct : ∀ p ∈ ps, p.ids.Nodup) (once : (vs.map Rule.id).Nodup)
    (h : editEach (fun v p => p.modify v) vs ps = .ok qs) :
    qs = ps.map (Program.updated vs) ∧ ∀ v ∈ vs, Held ps v.id := by
  induction vs generalizing ps with
  | nil =>
      cases h
      exact ⟨(List.map_id'' Program.updated_nil _).symm, fun v hv => absurd hv List.not_mem_nil⟩
  | cons v vs ih =>
      obtain ⟨ps₁, first, rest⟩ := Except.bind_ok h
      obtain ⟨held, edited⟩ := editHeld_ok first
      have step : ps₁ = ps.map (Program.updated [v]) :=
        eq_of_editHolders (fun p hp q => Program.eq_of_modify (distinct p hp))
          (fun p _ free => (Program.updated_of_not_mem free).symm) edited
      subst step
      obtain ⟨rfl, there⟩ := ih (by simpa using distinct) (List.nodup_cons.1 once).2 rest
      constructor
      · rw [List.map_map]
        exact List.map_congr_left fun p _ => Program.updated_updated once p
      · refine List.forall_mem_cons.2 ⟨held, fun w hw => ?_⟩
        simpa [Held] using there w hw

/-- **The pass of deletions.** -/
theorem eq_of_editEach_erase (distinct : ∀ p ∈ ps, p.ids.Nodup)
    (h : editEach (fun r p => p.erase r.id) rs ps = .ok qs) :
    qs = ps.map (Program.without (rs.map Rule.id)) ∧ ∀ r ∈ rs, Held ps r.id := by
  induction rs generalizing ps with
  | nil =>
      cases h
      exact ⟨(List.map_id'' Program.without_nil _).symm, fun r hr => absurd hr List.not_mem_nil⟩
  | cons r rs ih =>
      obtain ⟨ps₁, first, rest⟩ := Except.bind_ok h
      obtain ⟨held, edited⟩ := editHeld_ok first
      have step : ps₁ = ps.map (Program.without [r.id]) :=
        eq_of_editHolders (fun p hp q => Program.eq_of_erase (distinct p hp))
          (fun p _ free => (Program.without_of_not_mem free).symm) edited
      subst step
      have sub : ∀ p : Program, (p.without [r.id]).ids.Sublist p.ids :=
        Program.ids_without_sublist _
      obtain ⟨rfl, there⟩ := ih (List.forall_mem_map.2 fun p hp => (distinct p hp).sublist (sub p))
        rest
      constructor
      · rw [List.map_map]
        exact List.map_congr_left fun p _ => Program.without_without r.id _ p
      · refine List.forall_mem_cons.2 ⟨held, fun s hs => ?_⟩
        obtain ⟨q, hq, inside⟩ := there s hs
        obtain ⟨p, hp, rfl⟩ := List.mem_map.1 hq
        exact ⟨p, hp, (sub p).subset inside⟩

/-! ## Additions -/

/-- What is added does not bring in an identifier that none of it has. -/
lemma held_of_extended (h : Held (ps ++ [{ p with rules := p.rules ++ rs }]) id)
    (other : ∀ r ∈ rs, r.id ≠ id) : Held (ps ++ [p]) id := by
  obtain ⟨q, hq, inside⟩ := h
  rcases List.mem_append.1 hq with hq | hq
  · exact ⟨q, List.mem_append_left _ hq, inside⟩
  · rw [List.mem_singleton.1 hq, Program.ids, List.map_append, List.mem_append] at inside
    refine ⟨p, by simp, inside.resolve_right fun inside => ?_⟩
    obtain ⟨r, hr, e⟩ := List.mem_map.1 inside
    exact other r hr e

namespace Program

/-- A rule comes into the program as it is, or under an identifier from `next` upwards if its own is
taken there. -/
inductive TakesIn (p : Program) (next : Nat) (r : Rule) : Rule → Prop
  | asIs (free : r.id ∉ p.ids) : TakesIn p next r r
  | renumbered {k : Nat} (taken : r.id ∈ p.ids) (le : next ≤ k) : TakesIn p next r (r.withId k)

lemma TakesIn.mono {next' : Nat} (le : next ≤ next') (h : p.TakesIn next' r v) :
    p.TakesIn next r v := by
  cases h with
  | asIs free => exact .asIs free
  | renumbered taken le' => exact .renumbered taken (le.trans le')

lemma addAll_rules (run : (p.addAll rs).run g = (.ok q, g')) :
    q = { p with rules := p.rules ++ incoming p.ids g.nextId rs } := by
  induction rs generalizing p g with
  | nil =>
      cases run
      simp [incoming]
  | cons r rs ih =>
      obtain ⟨p₁, g₁, first, rest⟩ := Attempt.bind_ok run
      rw [ih rest, incoming]
      obtain ⟨-, ⟨free, rfl, rfl⟩ | ⟨taken, rfl, rfl⟩⟩ := add_ok first
      · rw [if_neg free, ids_push, push, List.append_assoc, List.singleton_append]
      · rw [if_pos taken, ids_push, push, List.append_assoc, List.singleton_append]
        rfl

end Program

/-- Rules with different identifiers, all of them from the supply, do not get in each other's
way. -/
lemma takesIn_incoming (once : (rs.map Rule.id).Nodup) (below : ∀ r ∈ rs, r.id < next) :
    List.Forall₂ (p.TakesIn next) rs (incoming p.ids next rs) := by
  induction rs generalizing next with
  | nil => exact .nil
  | cons r rs ih =>
      obtain ⟨apart, once⟩ := List.nodup_cons.1 once
      obtain ⟨first, rest⟩ := List.forall_mem_cons.1 below
      have onward : ∀ id, (∀ s ∈ rs, s.id ≠ id) → ∀ next,
          incoming (p.ids ++ [id]) next rs = incoming p.ids next rs := fun id other next =>
        incoming_congr fun s hs => by simp [other s hs]
      rw [incoming]
      split
      · rename_i taken
        have below : ∀ s ∈ rs, s.id < ((next + 1 : Nat) : Int) := fun s hs => by
          have := rest s hs
          omega
        rw [onward _ fun s hs => (rest s hs).ne]
        refine .cons (.renumbered taken (Nat.le_refl _)) ?_
        exact (ih once below).imp fun _ _ => .mono (Nat.le_succ _)
      · rename_i free
        rw [onward _ fun s hs e => apart (List.mem_map.2 ⟨s, hs, e⟩)]
        exact .cons (.asIs free) (ih once rest)

/-! ## Solutions -/

namespace Solution

variable {s : Solution}

/-- The program without the rules that the solution deletes, and with its new versions in the places
of the rules that it modifies. -/
def edited (s : Solution) (p : Program) : Program :=
  (p.updated s.modifications).without (s.deletions.map Rule.id)

lemma edited_append (s : Solution) (p : Program) (rs : List Rule)
    (other : ∀ r ∈ rs, ∀ v ∈ s.modifications ++ s.deletions, v.id ≠ r.id) :
    s.edited { p with rules := p.rules ++ rs } =
      { p with rules := (s.edited p).rules ++ rs } := by
  have same : ∀ r ∈ rs, r.updated s.modifications = r := fun r hr =>
    Rule.updated_of_forall_ne fun v hv => other r hr v (List.mem_append_left _ hv)
  have kept : ∀ r ∈ rs, r.id ∉ s.deletions.map Rule.id := fun r hr inside => by
    obtain ⟨d, hd, e⟩ := List.mem_map.1 inside
    exact other r hr d (List.mem_append_right _ hd) e
  simp only [edited, Program.updated, Program.without, List.map_append, List.filter_append,
    List.map_congr_left same, List.map_id']
  rw [List.filter_eq_self.2 fun r hr => decide_eq_true (kept r hr)]

lemma exists_mem_operations : (∃ kind, (kind, r) ∈ s.operations) ↔
    r ∈ s.additions ++ (s.modifications ++ s.deletions) := by
  simp [operations, OperationKind.all, chosenFor, exists_or]

lemma ids_edited_sublist (s : Solution) (p : Program) : (s.edited p).ids.Sublist p.ids := by
  rw [← Program.ids_updated s.modifications p]
  exact Program.ids_without_sublist _ _

lemma not_held_edited (ps : List Program) (hr : r ∈ s.deletions) :
    ¬ Held (ps.map s.edited) r.id := by
  rintro ⟨q, hq, inside⟩
  obtain ⟨p, -, rfl⟩ := List.mem_map.1 hq
  obtain ⟨r', hr', e⟩ := List.mem_map.1 inside
  have kept : r'.id ∉ s.deletions.map Rule.id := of_decide_eq_true (List.mem_filter.1 hr').2
  exact kept (e ▸ List.mem_map_of_mem hr)

/-- What comes in is neither modified nor deleted later on. -/
lemma ne_of_mem_incoming {taken : List Int} (distinct : s.touched.Nodup)
    (supplied : ∀ v ∈ s.modifications ++ s.deletions, Program.Taken next v)
    (hr : r ∈ incoming taken next s.additions) (hv : v ∈ s.modifications ++ s.deletions) :
    v.id ≠ r.id := by
  rcases mem_incoming hr with hr | ⟨k, le, e⟩
  · rw [touched_eq, ← List.map_append] at distinct
    obtain ⟨-, -, apart⟩ := List.nodup_append.1 distinct
    exact (apart _ (List.mem_map_of_mem hr) _ (List.mem_map_of_mem hv)).symm
  · have := (supplied v hv).2
    omega

/-- The passes of an application one after the other. -/
lemma applyTo_passes (distinct : s.touched.Nodup) (own : ∀ p ∈ ps, p.ids.Nodup)
    (taken : ∀ r ∈ rulesOf ps, Program.Taken g.nextId r)
    (supplied : ∀ r ∈ s.additions, Program.Taken g.nextId r)
    (run : (s.applyTo ps).run g = (.ok qs, g')) : ∃ front newest q,
      ps = front ++ [newest] ∧ qs = (front ++ [q]).map s.edited ∧
        q = { newest with rules := newest.rules ++ incoming newest.ids g.nextId s.additions } ∧
          (∀ p ∈ front ++ [q], p.ids.Nodup) ∧
            ∀ v ∈ s.modifications ++ s.deletions, Held (front ++ [q]) v.id := by
  obtain ⟨ps₁, ps₂, added, modified, erased⟩ := applyTo_ok run
  obtain ⟨front, newest, q, rfl, rfl, appended⟩ := addToNewest_ok added
  have numbered : Numbered g.nextId newest :=
    ⟨own newest (by simp), List.forall_mem_map.2 fun r hr => taken r (by simp [hr])⟩
  have own₁ : ∀ p ∈ front ++ [q], p.ids.Nodup := by
    rw [List.forall_mem_append, List.forall_mem_singleton] at own ⊢
    exact ⟨own.1, ((addAll_gathers appended).numbered numbered supplied).distinct⟩
  rw [touched_eq] at distinct
  have once : (s.modifications.map Rule.id).Nodup :=
    (List.nodup_append.1 (List.nodup_append.1 distinct).2.1).1
  obtain ⟨rfl, held⟩ := eq_of_editEach_modify own₁ once modified
  have own₂ : ∀ p ∈ (front ++ [q]).map (Program.updated s.modifications), p.ids.Nodup :=
    List.forall_mem_map.2 fun p hp => (p.ids_updated s.modifications).symm ▸ own₁ p hp
  obtain ⟨rfl, held'⟩ := eq_of_editEach_erase own₂ erased
  refine ⟨front, newest, q, rfl, List.map_map, Program.addAll_rules appended, own₁, fun v hv => ?_⟩
  rcases List.mem_append.1 hv with hv | hv
  · exact held v hv
  · simpa [Held] using held' v hv

/-- **What a solution changes.**  Let the programs have distinct identifiers, each of them on its
own, and let the solution have been put together, and let all identifiers come from the supply.  If
the solution can be applied, then the programs stay the same but for its deletions, its new versions
and, at the end of the newest program, its additions.  These come in as they are, or under new
identifiers where their own are taken there.  No deleted identifier is left.  If none of the
programs holds some rule that is to be modified or deleted, then the solution cannot be applied. -/
theorem applyTo_exact (composed : s.Composed) (own : ∀ p ∈ ps, p.ids.Nodup)
    (taken : ∀ r ∈ rulesOf ps, Program.Taken g.nextId r)
    (supplied : ∀ o ∈ s.operations, Program.Taken g.nextId o.2) :
    (∀ qs g', (s.applyTo ps).run g = (.ok qs, g') →
      (∃ front newest added, ps = front ++ [newest] ∧
        qs = front.map s.edited ++ [{ newest with rules := (s.edited newest).rules ++ added }] ∧
          List.Forall₂ (newest.TakesIn g.nextId) s.additions added) ∧
      qs.map Program.name = ps.map Program.name ∧ (∀ q ∈ qs, q.ids.Nodup) ∧
        ∀ r ∈ s.deletions, ¬ Held qs r.id) ∧
    ((∃ r ∈ s.modifications ++ s.deletions, ¬ Held ps r.id) →
      ∃ e g', (s.applyTo ps).run g = (.error e, g')) := by
  have distinct := composed.nodup_touched
  have supplied : ∀ r ∈ s.additions ++ (s.modifications ++ s.deletions),
      Program.Taken g.nextId r := fun r hr => by
    obtain ⟨kind, inside⟩ := exists_mem_operations.2 hr
    exact supplied _ inside
  obtain ⟨adds, changes⟩ := List.forall_mem_append.1 supplied
  have passes := fun qs g' (run : (s.applyTo ps).run g = (.ok qs, g')) =>
    applyTo_passes distinct own taken adds run
  refine ⟨fun qs g' run => ?_, fun ⟨v, hv, free⟩ => ?_⟩
  · obtain ⟨front, newest, q, rfl, rfl, rfl, own₁, -⟩ := passes qs g' run
    have once : (s.additions.map Rule.id).Nodup := by
      rw [touched_eq] at distinct
      exact (List.nodup_append.1 distinct).1
    have comesIn := takesIn_incoming (p := newest) once fun r hr => (adds r hr).2
    refine ⟨⟨front, newest, _, rfl, ?_, comesIn⟩, ?_, ?_, ?_⟩
    · rw [List.map_append, List.map_singleton,
        edited_append _ _ _ fun r hr v => ne_of_mem_incoming distinct changes hr]
    · simp [edited, Program.updated, Program.without]
    · exact List.forall_mem_map.2 fun p hp => (own₁ p hp).sublist (s.ids_edited_sublist p)
    · exact fun r hr => not_held_edited _ hr
  · rcases run : (s.applyTo ps).run g with ⟨e | qs, g'⟩
    · exact ⟨e, g', rfl⟩
    · obtain ⟨front, newest, q, rfl, -, rfl, -, held⟩ := passes qs g' run
      refine absurd (held_of_extended (held v hv) fun r hr => ?_) free
      exact (ne_of_mem_incoming distinct changes hr hv).symm

/-- Two programs share a rule of which there is a new version.  Of two additions one comes in under
a new identifier, and a rule of the older program is deleted, which cannot be done twice. -/
theorem applyTo_exact_shared :
    let a : Literal := ⟨⟨"a", []⟩, false⟩
    let b : Literal := ⟨⟨"b", []⟩, false⟩
    let shared : Rule := { head := some a, id := 1 }
    let gone : Rule := { head := some b, id := 2 }
    let denial : Rule := { head := some b.complement, id := 3 }
    let version : Rule := { head := some a, body := [b], id := 1 }
    let first : Rule := { head := some b, body := [a], id := 4 }
    let second : Rule := { head := some a, negBody := [b], id := 3 }
    let older : Program := { name := "older", rules := [shared, gone] }
    let newer : Program := { name := "newer", rules := [shared, denial] }
    let s : Solution :=
      { additions := [first, second], modifications := [version], deletions := [gone] }
    ∃ qs, (s.applyTo [older, newer]).run { nextId := 5 } = (.ok qs, { nextId := 6 }) ∧
      qs = [{ older with rules := [version] },
        { newer with rules := [version, denial, first, second.withId 5] }] ∧
      (∃ front newest added, [older, newer] = front ++ [newest] ∧
        qs = front.map s.edited ++ [{ newest with rules := (s.edited newest).rules ++ added }] ∧
          List.Forall₂ (newest.TakesIn 5) s.additions added) ∧
        ∃ e g', (s.applyTo qs).run { nextId := 6 } = (.error e, g') := by
  intro a b shared gone denial version first second older newer s
  have begun : Composed {} := .begun rfl
  have adding : Composed { additions := [first, second] } :=
    .choose (.choose begun (show choose {} .add first = .ok { additions := [first] } from rfl))
      (show choose _ .add second = .ok _ from rfl)
  have composed : s.Composed :=
    .choose (.choose adding (show choose _ .modify version = .ok _ from rfl))
      (show choose _ .delete gone = .ok s from rfl)
  obtain ⟨qs, run, explicit⟩ : ∃ qs,
      (s.applyTo [older, newer]).run { nextId := 5 } = (.ok qs, { nextId := 6 }) ∧
        qs = [{ older with rules := [version] },
          { newer with rules := [version, denial, first, second.withId 5] }] := ⟨_, rfl, rfl⟩
  obtain ⟨edited, -, own, erased⟩ :=
    (applyTo_exact composed (by decide) (by decide) (by decide)).1 qs _ run
  refine ⟨qs, run, explicit, edited, (applyTo_exact composed own ?_ (by decide)).2 ?_⟩
  · rw [explicit]
    decide
  · exact ⟨gone, by simp [s], erased gone (by simp [s])⟩

end Solution

end CausalUpdate
