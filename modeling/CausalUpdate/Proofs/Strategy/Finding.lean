import CausalUpdate.Proofs.Solution.Settling
import CausalUpdate.Proofs.Supply

/-!
# What strategies find

Every method looks for versions of rules of the programs, or for a new rule that takes its literals
from the conflict.  On orderly programs none of them fails, and what is found suits the programs,
provided that both rules of the conflict are among theirs.

* `Attempt.Yields` — work that never fails, and what comes out of it.
* `directSolutions_yields`, `indirectSolutions_yields`, `rejectionSolutions_yields` — what the
  methods find.
* `Method.solutions_yields` — whatever is found is suitable.
* `Method.solutions_minted` — where new rules have their identifiers and labels from.
* `Method.solutions_offered` — direct and indirect solutions choose among versions of rules.
-/

namespace CausalUpdate

/-! ## Work that never fails -/

/-- Once identifiers below `low` are handed out, the work never fails.  What comes out of it has a
property that may depend on how far the supply has come by then. -/
def Attempt.Yields {ε α : Type} (low : Nat) (x : Attempt ε α) (post : α → Nat → Prop) : Prop :=
  ∀ g, low ≤ g.nextId → ∃ a g', x.run g = (.ok a, g') ∧ post a g'.nextId ∧ g.nextId ≤ g'.nextId

namespace Attempt.Yields

variable {ε ε' α β : Type} {low : Nat} {x : Attempt ε α} {post : α → Nat → Prop} {g g' : Ledger}

lemma of_run (h : Yields low x post) {o : Except ε α} (above : low ≤ g.nextId)
    (run : x.run g = (o, g')) : ∃ a, o = .ok a ∧ post a g'.nextId := by
  obtain ⟨a, g₁, run', holds, -⟩ := h g above
  rw [run] at run'
  cases run'
  exact ⟨a, rfl, holds⟩

lemma of_run_ok (h : Yields low x post) {a : α} (above : low ≤ g.nextId)
    (run : x.run g = (.ok a, g')) : post a g'.nextId := by
  obtain ⟨b, e, holds⟩ := h.of_run above run
  cases e
  exact holds

lemma imp {post' : α → Nat → Prop} (h : Yields low x post) (imp : ∀ a n, post a n → post' a n) :
    Yields low x post' := by
  intro g above
  obtain ⟨a, g', run, holds, grows⟩ := h g above
  exact ⟨a, g', run, imp a _ holds, grows⟩

lemma pure {a : α} (h : ∀ n, low ≤ n → post a n) : Yields low (Pure.pure a : Attempt ε α) post :=
  fun g above => ⟨a, g, rfl, h _ above, Nat.le_refl _⟩

lemma bind {f : α → Attempt ε β} {post' : β → Nat → Prop} (h : Yields low x post)
    (k : ∀ a n, low ≤ n → post a n → Yields n (f a) post') : Yields low (x >>= f) post' := by
  intro g above
  obtain ⟨a, g₁, run, holds, grows⟩ := h g above
  obtain ⟨b, g₂, run', holds', grows'⟩ :=
    k a g₁.nextId (Nat.le_trans above grows) holds g₁ (Nat.le_refl _)
  refine ⟨b, g₂, ?_, holds', Nat.le_trans grows grows'⟩
  rw [run_bind, run]
  exact run'

/-- Wrapping failures makes no difference. -/
lemma adapt (h : Yields low x post) (wrap : ε → ε') : Yields low (Attempt.adapt wrap x) post := by
  intro g above
  obtain ⟨a, g', run, holds⟩ := h g above
  refine ⟨a, g', ?_, holds⟩
  show (Except.mapError wrap (x.run g).1, (x.run g).2) = _
  rw [run]
  rfl

/-- What is at hand is used as it is. -/
lemma of_bind {o : Except ε α} {a : α} {wrap : ε → ε'} {f : α → Attempt ε' β}
    {post : β → Nat → Prop} (h : o = .ok a) (rest : Yields low (f a) post) :
    Yields low (Attempt.adapt wrap (Attempt.of o) >>= f) post := by
  subst h
  exact rest

/-- Notes make no difference. -/
lemma note_bind {level : Level} {component message : String} {f : Unit → Attempt ε β}
    {post : β → Nat → Prop} (rest : Yields low (f ()) post) :
    Yields low (liftM (Work.note level component message) >>= f) post :=
  fun g above => rest (Work.note level component message g).2 above

/-- What is collected from some items was found for one of them. -/
lemma collect {f : α → Attempt ε (Option β)} {post : β → Nat → Prop}
    (mono : ∀ b n n', n ≤ n' → post b n → post b n') {as : List α}
    (h : ∀ a ∈ as, ∀ n, low ≤ n → Yields n (f a) fun b? n => ∀ b, b? = some b → post b n) :
    Yields low (Attempt.collect f as) fun bs n => ∀ b ∈ bs, post b n := by
  induction as generalizing low with
  | nil => exact pure fun _ _ b hb => absurd hb List.not_mem_nil
  | cons a as ih =>
      refine (h a List.mem_cons_self low (Nat.le_refl _)).bind fun b? n above found => ?_
      have rest := ih fun a ha n' above' =>
        h a (List.mem_cons_of_mem _ ha) n' (Nat.le_trans above above')
      refine rest.bind fun bs n' above' others => pure fun n'' above'' b hb => ?_
      rcases List.mem_append.1 hb with hb | hb
      · exact mono b n n'' (Nat.le_trans above' above'') (found b (by simpa using hb))
      · exact mono b n' n'' above'' (others b hb)

/-- What is found for some items was found for one of them. -/
lemma mapM {f : α → Attempt ε (List β)} {post : β → Nat → Prop}
    (mono : ∀ b n n', n ≤ n' → post b n → post b n') {as : List α}
    (h : ∀ a ∈ as, ∀ n, low ≤ n → Yields n (f a) fun bs n => ∀ b ∈ bs, post b n) :
    Yields low (as.mapM f) fun bss n => ∀ b ∈ bss.flatten, post b n := by
  induction as generalizing low with
  | nil => exact pure fun _ _ b hb => absurd hb List.not_mem_nil
  | cons a as ih =>
      rw [List.mapM_cons]
      refine (h a List.mem_cons_self low (Nat.le_refl _)).bind fun bs n above found => ?_
      have rest := ih fun a ha n' above' =>
        h a (List.mem_cons_of_mem _ ha) n' (Nat.le_trans above above')
      refine rest.bind fun bss n' above' others => pure fun n'' above'' b hb => ?_
      rw [List.flatten_cons, List.mem_append] at hb
      rcases hb with hb | hb
      · exact mono b n n'' (Nat.le_trans above' above'') (found b hb)
      · exact mono b n' n'' above'' (others b hb)

end Attempt.Yields

/-- Versions are there for the asking. -/
lemma findModifications_yields {ε : Type} (low : Nat) (rejected : Rule) (reference : Clause) :
    Attempt.Yields low (liftM (findModifications rejected reference) : Attempt ε (List Rule))
      fun found _ => found = modifications rejected reference :=
  fun g _ => ⟨_, _, rfl, rfl, Nat.le_refl g.nextId⟩

variable {next low : Nat} {ps : List Program} {merged : Program} {c : Conflict} {d : Rule × Rule}
  {rejected reference first r : Rule} {others : List Rule} {s t : Solution} {l : Literal}

/-- Both rules of a conflict stand in either direction. -/
lemma Conflict.forall_directions {P : Rule → Prop} (hd : d ∈ c.directions) (older : P c.older)
    (newer : P c.newer) : P d.1 ∧ P d.2 := by
  simp only [directions, List.mem_cons, List.not_mem_nil, or_false] at hd
  rcases hd with rfl | rfl
  · exact ⟨older, newer⟩
  · exact ⟨newer, older⟩

/-! ## Other versions of the rule -/

namespace Solution

lemma touched_of_modifications (additions : s.additions = []) (deletions : s.deletions = []) :
    s.touched = s.modifications.map Rule.id := by
  simp [touched, operations, OperationKind.all, chosenFor, additions, deletions,
    Function.comp_def]

lemma addVariants_total (touched : ∀ r ∈ others, r.id ∈ s.touched) :
    ∃ t, s.addVariants others = .ok t := by
  induction others generalizing s with
  | nil => exact ⟨s, rfl⟩
  | cons r others ih =>
      rw [addVariants, addVariant, if_pos (touched r List.mem_cons_self)]
      exact ih (s := { s with variants := pushVariant r s.variants })
        fun r hr => touched r (List.mem_cons_of_mem _ hr)

/-- Versions of one more rule can be chosen among. -/
lemma Edits.chooseAmong_total {kind : Rule → Prop} (h : s.Edits kind) (hfirst : kind first)
    (hothers : ∀ r ∈ others, kind r) (free : first.id ∉ s.modifications.map Rule.id)
    (same : ∀ r ∈ others, r.id = first.id) :
    ∃ t, s.chooseAmong .modify first others = .ok t ∧ t.Edits kind ∧
      t.modifications = s.modifications ++ [first] ∧ t.target = s.target := by
  have open' : first.id ∉ s.touched := by
    rwa [touched_of_modifications h.additions h.deletions]
  have chosen : s.chooseAmong .modify first others = (s.push .modify first).addVariants others := by
    rw [Solution.chooseAmong, choose, if_neg open']
    rfl
  obtain ⟨t, added⟩ : ∃ t, (s.push .modify first).addVariants others = .ok t := by
    refine addVariants_total fun r hr => ?_
    rw [touched_of_modifications (s := s.push .modify first) h.additions h.deletions, same r hr]
    simp [push]
  rw [chosen, added]
  exact ⟨t, rfl, h.chooseAmong hfirst hothers (chosen.trans added)⟩

end Solution

/-- A direct solution chooses among the versions that there are. -/
lemma directSolution?_edits (low : Nat) (rejected reference : Rule) :
    (directSolution? rejected reference).Yields low fun s? _ => ∀ s, s? = some s →
      s.Edits (Offered rejected reference.toClause) ∧ s.modifications.length = 1 := by
  refine (findModifications_yields low rejected reference.toClause).bind fun found n _ same => ?_
  subst same
  split
  · exact .pure fun _ _ s e => absurd e (by simp)
  · rename_i first others found
    have offered : ∀ r ∈ first :: others, Offered rejected reference.toClause r := fun r hr => by
      rwa [Offered, found]
    have id : ∀ r ∈ first :: others, r.id = rejected.id := fun r hr =>
      (isVersion_of_mem_modifications (offered r hr)).extension.id
    obtain ⟨t, chosen, versions, one, -⟩ :=
      (Solution.Edits.fresh (some rejected.id) none).chooseAmong_total
        (offered first List.mem_cons_self) (fun r hr => offered r (List.mem_cons_of_mem _ hr))
        List.not_mem_nil fun r hr =>
          (id r (List.mem_cons_of_mem _ hr)).trans (id first List.mem_cons_self).symm
    refine .of_bind chosen (.pure fun _ _ s e => ?_)
    obtain rfl : t = s := Option.some.inj e
    exact ⟨versions, by rw [one]; rfl⟩

lemma directSolution?_yields (low : Nat) (rejected reference : Rule) :
    (directSolution? rejected reference).Yields low fun s? _ =>
      ∀ s, s? = some s → s.Rejects rejected reference :=
  (directSolution?_edits low rejected reference).imp fun _ _ h s e =>
    ⟨(h s e).1.imp fun _ => Offered.isVersion, (h s e).2⟩

/-- Direct solutions reject one of the two rules against the other, and they are always found. -/
lemma directSolutions_yields (low : Nat) (c : Conflict) :
    (directSolutions c).Yields low fun found _ =>
      ∀ s ∈ found, s.Rejects c.older c.newer ∨ s.Rejects c.newer c.older := by
  refine .collect (fun _ _ _ _ h => h) fun d hd n _ => ?_
  refine (directSolution?_yields n d.1 d.2).imp fun s? _ h s e => ?_
  simp only [Conflict.directions, List.mem_cons, List.not_mem_nil, or_false] at hd
  rcases hd with rfl | rfl
  · exact Or.inl (h s e)
  · exact Or.inr (h s e)

/-- **Direct solutions reject one of the two rules** against the other one. -/
theorem directSolutions_rejects {found : List Solution} {g g' : Ledger}
    (run : (directSolutions c).run g = (.ok found, g')) :
    ∀ s ∈ found, s.Rejects c.older c.newer ∨ s.Rejects c.newer c.older :=
  (directSolutions_yields 0 c).of_run_ok (Nat.zero_le _) run

/-- If only the older rule has another version, and just one, then that is what is found. -/
lemma directSolutions_of_one {v : Rule} (one : modifications c.older c.newer.toClause = [v])
    (none : modifications c.newer c.older.toClause = []) (g : Ledger) : ∃ g',
      (directSolutions c).run g =
        (.ok [{ modifications := [v], rootRule := some c.older.id }], g') := by
  simp only [directSolutions, Conflict.directions, Attempt.collect, directSolution?,
    findModifications, one, none]
  exact ⟨_, rfl⟩

/-! ## Merging -/

/-- The program has rules of the programs, among them one for everything that they say. -/
structure Merged (ps : List Program) (m : Program) : Prop where
  ids : m.ids.Nodup
  unrepeated : m.Unrepeated
  there : ∀ r ∈ m.rules, r ∈ rulesOf ps
  covers : ∀ r ∈ rulesOf ps, ∃ q ∈ m.rules, q.toClause ≈ r.toClause

lemma mergedPrograms_yields (orderly : Orderly next ps) (nonempty : ps ≠ []) (low : Nat) :
    (mergedPrograms ps).Yields low fun m _ => Merged ps m := by
  refine Attempt.Yields.adapt (fun g _ => ?_) _
  cases ps with
  | nil => exact absurd rfl nonempty
  | cons p qs =>
      obtain ⟨m, g', run, gathers⟩ := merge_gathers p qs none g fun q hq r hr =>
        orderly.nonempty r (mem_rulesOf.2 ⟨q, List.mem_cons_of_mem _ hq, hr⟩)
      have orderly : Orderly next (p :: qs ++ []) := by rwa [List.append_nil]
      obtain ⟨after, there, covers⟩ := orderly.merge run
      have first : m ∈ [m] := List.mem_singleton.2 rfl
      exact ⟨m, g', run, ⟨after.ids_nodup first, after.unrepeated m first, there, covers⟩,
        gathers.le⟩

/-! ## Other versions of rules that derive a body literal -/

/-- The solution keeps rules from deriving a literal that one rule of the conflict asks for: it
gives them versions against the other one.  These are all rules that could derive the literal while
both rules of the conflict fire, up to equivalence. -/
structure Solution.Deprives (ps : List Program) (c : Conflict) (d : Rule × Rule) (l : Literal)
    (s : Solution) : Prop where
  direction : d ∈ c.directions
  body : l ∈ d.1.body
  target : s.target = some l
  excludes : ∃ rs, s.Excludes IsVersion ps d.2 rs ∧ ∀ r ∈ rulesOf ps, r.Derives l →
    ¬ Exclusive c.older.toClause r.toClause → ¬ Exclusive c.newer.toClause r.toClause →
      ∃ q ∈ rs, q.toClause ≈ r.toClause

/-- Excluding rules takes in one version of each. -/
lemma excludeAll_yields {kind : Rule → Prop} {rs : List Rule} {reference : Clause}
    (h : s.Edits kind) (versions : ∀ r ∈ rs, ∀ v ∈ modifications r reference, kind v)
    (distinct : (s.modifications.map Rule.id ++ rs.map Rule.id).Nodup) (low : Nat) :
    (excludeAll reference l s rs).Yields low fun t? _ => ∀ t, t? = some t → t.Edits kind ∧
      t.modifications.map Rule.id = s.modifications.map Rule.id ++ rs.map Rule.id ∧
      t.target = s.target := by
  induction rs generalizing s low with
  | nil =>
      refine .pure fun _ _ t e => ?_
      obtain rfl : s = t := Option.some.inj e
      exact ⟨h, by simp, rfl⟩
  | cons r rs ih =>
      rw [excludeAll]
      refine (findModifications_yields low r reference).bind fun found n _ same => ?_
      have version : ∀ v ∈ found, IsVersion r reference v := fun v hv =>
        isVersion_of_mem_modifications (same ▸ hv)
      cases found with
      | nil => exact .note_bind (.pure fun _ _ t e => absurd e (by simp))
      | cons first others =>
          have first_version := version first List.mem_cons_self
          have others_version := fun v hv => version v (List.mem_cons_of_mem _ hv)
          have kinds := fun v hv => versions r List.mem_cons_self v (same ▸ hv)
          have id := first_version.extension.id
          have free : first.id ∉ s.modifications.map Rule.id := by
            rw [id]
            exact fun taken => (List.nodup_append.1 distinct).2.2 _ taken _
              (by simp) rfl
          obtain ⟨t, chosen, edits, modifications, target⟩ :=
            h.chooseAmong_total (kinds first List.mem_cons_self)
              (fun v hv => kinds v (List.mem_cons_of_mem _ hv)) free fun v hv =>
                (others_version v hv).extension.id.trans id.symm
          have ids : t.modifications.map Rule.id ++ rs.map Rule.id =
              s.modifications.map Rule.id ++ (r :: rs).map Rule.id := by
            simp [modifications, id]
          refine .of_bind chosen ((ih edits (fun r hr => versions r (List.mem_cons_of_mem _ hr))
            (ids ▸ distinct) n).imp fun t? _ h u e => ?_)
          rw [← ids, ← target]
          exact h u e

/-- An indirect solution chooses among the versions that there are of all rules that could derive
the literal. -/
lemma indirectSolution?_excludes (merge : Merged ps merged) (hd : d ∈ c.directions)
    (hreference : d.2 ∈ rulesOf ps) (low : Nat) :
    (indirectSolution? merged c d.1 d.2 l).Yields low fun s? _ => ∀ s, s? = some s →
      s.target = some l ∧ ∃ rs, s.Excludes Offered ps d.2 rs ∧ ∀ r ∈ rulesOf ps, r.Derives l →
        ¬ Exclusive c.older.toClause r.toClause → ¬ Exclusive c.newer.toClause r.toClause →
          ∃ q ∈ rs, q.toClause ≈ r.toClause := by
  have among : ∀ r ∈ dependencies merged c l, r ∈ merged.rules ∧ r.Derives l ∧
      ¬ Exclusive c.older.toClause r.toClause ∧ ¬ Exclusive c.newer.toClause r.toClause := by
    simp [dependencies]
  have free : ∀ r ∈ dependencies merged c l, ¬ Exclusive d.2.toClause r.toClause := by
    intro r hr
    obtain ⟨-, -, older, newer⟩ := among r hr
    exact (Conflict.forall_directions (P := fun q => ¬ Exclusive q.toClause r.toClause) hd older
      newer).2
  have sub : (dependencies merged c l).Sublist merged.rules := List.filter_sublist
  have distinct : ((dependencies merged c l).map Rule.id).Nodup := merge.ids.sublist (sub.map _)
  have apart : (dependencies merged c l).Pairwise (Apart d.2.toClause) :=
    ((Program.unrepeated_iff.1 merge.unrepeated).sublist sub).imp_of_mem fun hq hr different =>
      ⟨different, free _ hq, free _ hr⟩
  have covers : ∀ r ∈ rulesOf ps, r.Derives l → ¬ Exclusive c.older.toClause r.toClause →
      ¬ Exclusive c.newer.toClause r.toClause →
        ∃ q ∈ dependencies merged c l, q.toClause ≈ r.toClause := by
    intro r hr derives older newer
    obtain ⟨q, hq, e⟩ := merge.covers r hr
    refine ⟨q, List.mem_filter.2 ⟨hq, ?_⟩, e⟩
    rw [decide_eq_true_eq]
    exact ⟨Clause.sameHead_equivalence.trans e.1 derives, fun h => older (h.of_equiv e),
      fun h => newer (h.of_equiv e)⟩
  rw [indirectSolution?]
  split
  · exact .pure fun _ _ s e => absurd e (by simp)
  · rename_i rs nonempty
    have fresh : ({ rootRule := some d.1.id, target := some l } : Solution).Edits fun v =>
        ∃ r ∈ dependencies merged c l, Offered r d.2.toClause v := .fresh _ _
    refine (excludeAll_yields fresh (fun r hr v version => ⟨r, hr, version⟩)
      (by simpa using distinct) low).imp fun s? _ h s e => ?_
    obtain ⟨versions, ids, target⟩ := h s e
    exact ⟨target, _, ⟨versions, by simpa using ids, hreference,
      fun r hr => merge.there r (among r hr).1, by simpa using nonempty, distinct, apart⟩, covers⟩

lemma indirectSolution?_yields (merge : Merged ps merged) (hd : d ∈ c.directions)
    (hl : l ∈ d.1.body) (hreference : d.2 ∈ rulesOf ps) (low : Nat) :
    (indirectSolution? merged c d.1 d.2 l).Yields low fun s? _ =>
      ∀ s, s? = some s → s.Deprives ps c d l := by
  refine (indirectSolution?_excludes merge hd hreference low).imp fun s? _ h s e => ?_
  obtain ⟨target, rs, excludes, covers⟩ := h s e
  exact ⟨hd, hl, target, rs, excludes.imp Offered.isVersion,
    covers⟩

lemma mem_of_mem_unsharedLiterals {ls ms : List Literal} (h : l ∈ unsharedLiterals ls ms) :
    l ∈ ls :=
  mem_of_mem_distinct (List.mem_filter.1 h).1

/-- What holds of the solution for each literal holds of all of them. -/
lemma indirectSolutions_yields_of {post : Solution → Prop} (orderly : Orderly next ps)
    (ha : c.older ∈ rulesOf ps) (low : Nat) (one : ∀ merged, Merged ps merged →
      ∀ d ∈ c.directions, ∀ l ∈ d.1.body, ∀ n, (indirectSolution? merged c d.1 d.2 l).Yields n
        fun s? _ => ∀ s, s? = some s → post s) :
    (indirectSolutions ps c).Yields low fun found _ => ∀ s ∈ found, post s := by
  have nonempty : ps ≠ [] := by
    rintro rfl
    exact List.not_mem_nil ha
  refine (mergedPrograms_yields orderly nonempty low).bind fun merged n _ merge => ?_
  have search : (c.directions.mapM fun (rejected, reference) =>
      Attempt.collect (indirectSolution? merged c rejected reference)
        (unsharedLiterals rejected.body reference.body)).Yields n fun bss _ =>
          ∀ s ∈ bss.flatten, post s :=
    .mapM (fun _ _ _ _ h => h) fun d hd n _ => .collect (fun _ _ _ _ h => h) fun l hl n _ =>
      one merged merge d hd l (mem_of_mem_unsharedLiterals hl) n
  exact search.bind fun bss _ _ h => .pure fun _ _ => h

/-- **Indirect solutions deprive a rule of a conflict of a literal**, and they are always found. -/
theorem indirectSolutions_yields (orderly : Orderly next ps) (ha : c.older ∈ rulesOf ps)
    (hb : c.newer ∈ rulesOf ps) (low : Nat) : (indirectSolutions ps c).Yields low fun found _ =>
      ∀ s ∈ found, ∃ d l, s.Deprives ps c d l :=
  indirectSolutions_yields_of orderly ha low fun _ merge d hd l hl n =>
    (indirectSolution?_yields merge hd hl (Conflict.forall_directions hd ha hb).2 n).imp
      fun _ _ h s e => ⟨d, l, h s e⟩

/-! ## New rules -/

/-- The solution adds a rule which derives a literal that one rule of the conflict negates by
default, whenever the other one fires. -/
structure Solution.Asserts (next : Nat) (ps : List Program) (c : Conflict) (d : Rule × Rule)
    (l : Literal) (s : Solution) : Prop where
  direction : d ∈ c.directions
  negBody : l ∈ d.1.negBody
  target : s.target = some l
  adds : ∃ r, s.Adds next ps r ∧ r.toClause = ⟨some l, d.2.body, d.2.negBody⟩

lemma Solution.Asserts.mono {next' : Nat} (h : s.Asserts next ps c d l) (le : next ≤ next') :
    s.Asserts next' ps c d l := by
  obtain ⟨r, adds, clause⟩ := h.adds
  exact { h with adds := ⟨r, adds.mono le, clause⟩ }

lemma rejectionSolution?_yields (orderly : Orderly next ps) (hd : d ∈ c.directions)
    (hl : l ∈ d.1.negBody) (hrejected : d.1 ∈ rulesOf ps) (hreference : d.2 ∈ rulesOf ps)
    (le : next ≤ low) : (rejectionSolution? merged d.1 d.2 l).Yields low fun s? n =>
      ∀ s, s? = some s → s.Asserts n ps c d l := by
  rw [rejectionSolution?]
  split
  · exact .pure fun _ _ s e => absurd e (by simp)
  · intro g above
    refine ⟨_, _, rfl, fun s e => ?_, Nat.le_succ g.nextId⟩
    obtain rfl := Option.some.inj e
    have numbered := orderly.numbered d.2 hreference
    have inside : ∀ m, m = l ∨ m ∈ d.2.completeBody → m ∈ mentioned ps := by
      rintro m (rfl | hm)
      · exact mem_mentioned_iff_rulesOf.2
          ⟨d.1, hrejected, by simp [Clause.literals, Clause.completeBody, hl]⟩
      · exact mem_mentioned_iff_rulesOf.2 ⟨d.2, hreference, by simp [Clause.literals, hm]⟩
    refine ⟨hd, hl, rfl, _, ⟨rfl, rfl, rfl, rfl, fun q hq => ?_, ?_, rfl, fun m hm => ?_⟩, rfl⟩
    · have taken := (orderly.numbered q hq).2
      show q.id ≠ (g.nextId : Int)
      omega
    · show 0 < (g.nextId : Int) ∧ (g.nextId : Int) < ((g.nextId + 1 : Nat) : Int)
      omega
    · exact inside m (List.mem_cons.1 hm)

/-- What holds of the solution for each literal holds of all of them. -/
lemma rejectionSolutions_yields_of {post : Solution → Nat → Prop} (orderly : Orderly next ps)
    (ha : c.older ∈ rulesOf ps) (mono : ∀ s n n', n ≤ n' → post s n → post s n')
    (one : ∀ merged, Merged ps merged → ∀ d ∈ c.directions, ∀ l ∈ d.1.negBody, ∀ n, low ≤ n →
      (rejectionSolution? merged d.1 d.2 l).Yields n fun s? n => ∀ s, s? = some s → post s n) :
    (rejectionSolutions ps c).Yields low fun found n => ∀ s ∈ found, post s n := by
  have nonempty : ps ≠ [] := by
    rintro rfl
    exact List.not_mem_nil ha
  refine (mergedPrograms_yields orderly nonempty low).bind fun merged n above merge => ?_
  have search : (c.directions.mapM fun (rejected, reference) =>
      Attempt.collect (rejectionSolution? merged rejected reference)
        (unsharedLiterals rejected.negBody reference.negBody)).Yields n fun bss n =>
          ∀ s ∈ bss.flatten, post s n :=
    .mapM mono fun d hd n' above' => .collect mono fun l hl n'' above'' =>
      one merged merge d hd l (mem_of_mem_unsharedLiterals hl) n'' (by omega)
  exact search.bind fun bss n' _ h => .pure fun n'' le s hs => mono s n' n'' le (h s hs)

/-- **Rejection solutions assert a literal that a rule of the conflict negates by default**, and
they are always found. -/
theorem rejectionSolutions_yields (orderly : Orderly next ps) (ha : c.older ∈ rulesOf ps)
    (hb : c.newer ∈ rulesOf ps) (le : next ≤ low) :
    (rejectionSolutions ps c).Yields low fun found n =>
      ∀ s ∈ found, ∃ d l, s.Asserts n ps c d l := by
  refine rejectionSolutions_yields_of orderly ha (fun s n n' le ⟨d, l, h⟩ => ⟨d, l, h.mono le⟩)
    fun merged _ d hd l hl n above => ?_
  obtain ⟨hrejected, hreference⟩ := Conflict.forall_directions hd ha hb
  exact (rejectionSolution?_yields orderly hd hl hrejected hreference (by omega)).imp
    fun s? _ h s e => ⟨d, l, h s e⟩

/-! ## Methods -/

/-- **On orderly programs every method finds solutions that suit them**, if the rules of the
conflict are among theirs. -/
theorem Method.solutions_yields (m : Method) (orderly : Orderly next ps)
    (ha : c.older ∈ rulesOf ps) (hb : c.newer ∈ rulesOf ps) (le : next ≤ low) :
    (m.solutions ps c).Yields low fun found n => ∀ s ∈ found, Suits IsVersion n ps s := by
  cases m with
  | direct =>
      refine (directSolutions_yields low c).imp fun found n h s hs => ?_
      rcases h s hs with rejects | rejects
      · exact .excludes (rejects.excludes ha hb)
      · exact .excludes (rejects.excludes hb ha)
  | indirect =>
      refine (indirectSolutions_yields orderly ha hb low).imp fun found n h s hs => ?_
      obtain ⟨d, l, deprives⟩ := h s hs
      obtain ⟨rs, excludes, -⟩ := deprives.excludes
      exact .excludes excludes
  | rejectionRule =>
      refine (rejectionSolutions_yields orderly ha hb le).imp fun found n h s hs => ?_
      obtain ⟨d, l, asserts⟩ := h s hs
      obtain ⟨r, adds, -⟩ := asserts.adds
      exact .adds adds

/-- The rule has an identifier from `low` on, and its label is the first free one where the programs
are seen as one, from the number of rules upwards. -/
structure Minted (low : Nat) (ps : List Program) (r : Rule) : Prop where
  id : (low : Int) ≤ r.id
  label : ∃ m, Merged ps m ∧ r.label = nextFreeLabel (m.rules.map Rule.label) m.size

/-- **New rules take their identifiers from the supply**, and from nowhere else, and their labels
are free where the programs are seen as one. -/
theorem Method.solutions_minted (m : Method) (orderly : Orderly next ps)
    (ha : c.older ∈ rulesOf ps) (hb : c.newer ∈ rulesOf ps) (low : Nat) :
    (m.solutions ps c).Yields low fun found _ =>
      ∀ s ∈ found, ∀ r ∈ s.additions, Minted low ps r := by
  cases m with
  | direct =>
      refine (directSolutions_yields low c).imp fun found n h s hs r hr => ?_
      rcases h s hs with rejects | rejects <;>
        exact absurd (rejects.versions.additions ▸ hr) List.not_mem_nil
  | indirect =>
      refine (indirectSolutions_yields orderly ha hb low).imp fun found n h s hs r hr => ?_
      obtain ⟨d, l, deprives⟩ := h s hs
      obtain ⟨rs, excludes, -⟩ := deprives.excludes
      exact absurd (excludes.versions.additions ▸ hr) List.not_mem_nil
  | rejectionRule =>
      refine rejectionSolutions_yields_of orderly ha (fun _ _ _ _ h => h)
        fun merged merge d _ l _ n le => ?_
      rw [rejectionSolution?]
      split
      · exact .pure fun _ _ s e => absurd e (by simp)
      · intro g above
        refine ⟨_, _, rfl, fun s e r hr => ?_, Nat.le_succ g.nextId⟩
        obtain rfl := Option.some.inj e
        rw [List.mem_singleton.1 hr]
        refine ⟨?_, merged, merge, rfl⟩
        show (low : Int) ≤ (g.nextId : Int)
        omega

/-- Direct and indirect solutions choose among the versions that there are of rules of the
programs. -/
theorem Method.solutions_offered (m : Method) (orderly : Orderly next ps)
    (ha : c.older ∈ rulesOf ps) (hb : c.newer ∈ rulesOf ps) (known : m ≠ .rejectionRule)
    (low : Nat) : (m.solutions ps c).Yields low fun found _ => ∀ s ∈ found,
      s.Edits fun v => ∃ r ∈ rulesOf ps, ∃ reference, Offered r reference v := by
  cases m with
  | direct =>
      refine .collect (fun _ _ _ _ h => h) fun d hd n _ => ?_
      refine (directSolution?_edits n d.1 d.2).imp fun s? _ h s e => ?_
      have there := (Conflict.forall_directions (P := (· ∈ rulesOf ps)) hd ha hb).1
      exact (h s e).1.imp fun v version => ⟨d.1, there, _, version⟩
  | indirect =>
      refine indirectSolutions_yields_of orderly ha low fun merged merge d hd l _ n => ?_
      have reference := (Conflict.forall_directions (P := (· ∈ rulesOf ps)) hd ha hb).2
      refine (indirectSolution?_excludes merge hd reference n).imp fun s? _ h s e => ?_
      obtain ⟨-, rs, excludes, -⟩ := h s e
      exact excludes.versions.imp fun v ⟨r, hr, version⟩ => ⟨r, excludes.there r hr, _, version⟩
  | rejectionRule => exact absurd rfl known

end CausalUpdate
