import CausalUpdate.Proofs.Grammar.Basic
import CausalUpdate.Proofs.Text.Parentheses

/-!
# Parts of a text as they are cut

A part with blanks around it is found by trimming, and parts with commas between them by cutting at
the commas outside parentheses, as long as no part has blanks at its ends or such a comma in it.

* `spaced_iff` — the first.
* `listed_iff` — the second.
* `listed_trim_iff` — blanks at the ends of a list belong to its first and its last part.
-/

namespace CausalUpdate.Grammar

open CausalUpdate.Text

variable {α : Type} {part : List Char → α → Prop} {cs : List Char} {a : α} {as : List α}

/-! ## Blanks around a part -/

lemma Gap.append {gap others : List Char} (h : Gap gap) (k : Gap others) : Gap (gap ++ others) :=
  List.forall_mem_append.2 ⟨h, k⟩

lemma Gap.nil : Gap [] := fun _ h => absurd h List.not_mem_nil

/-- No part has blanks at its ends. -/
def Trimmed (part : List Char → α → Prop) : Prop :=
  ∀ cs a, part cs a → trim cs = cs

lemma Spaced.of_part (h : part cs a) : Spaced part cs a :=
  ⟨[], cs, [], .nil, .nil, h, by simp⟩

lemma Spaced.of_trim (h : part (trim cs) a) : Spaced part cs a := by
  obtain ⟨before, after, hb, ha, e⟩ := exists_blanks_around cs
  exact ⟨before, trim cs, after, hb, ha, h, e⟩

/-- **A part with blanks around it is found by trimming.** -/
lemma spaced_iff (trimmed : Trimmed part) : Spaced part cs a ↔ part (trim cs) a := by
  refine ⟨?_, Spaced.of_trim⟩
  rintro ⟨before, inner, after, hb, ha, h, rfl⟩
  rwa [trim_between hb ha, trimmed inner a h]

lemma Spaced.before {gap : List Char} (blank : Gap gap) (h : Spaced part cs a) :
    Spaced part (gap ++ cs) a := by
  obtain ⟨before, inner, after, hb, ha, h, rfl⟩ := h
  exact ⟨gap ++ before, inner, after, blank.append hb, ha, h, by simp⟩

lemma Spaced.behind {gap : List Char} (blank : Gap gap) (h : Spaced part cs a) :
    Spaced part (cs ++ gap) a := by
  obtain ⟨before, inner, after, hb, ha, h, rfl⟩ := h
  exact ⟨before, inner, after ++ gap, hb, ha.append blank, h, by simp⟩

lemma Spaced.of_spaced_trim (h : Spaced part (trim cs) a) : Spaced part cs a := by
  obtain ⟨before, after, hb, ha, e⟩ := exists_blanks_around cs
  rw [e]
  exact (h.before hb).behind ha

/-! ## Commas between parts -/

lemma isFlat_of_isBlank {c : Char} (h : isBlank c) : isFlat c := by
  simp only [isFlat, Bool.and_eq_true, bne_iff_ne, ne_eq]
  constructor <;> rintro rfl <;> exact absurd h (by decide)

/-- No part is cut at a comma. -/
def Uncut (part : List Char → α → Prop) : Prop :=
  ∀ cs a, part cs a → Unbroken [','] cs

lemma Gap.unbroken {separators gap : List Char} (h : Gap gap)
    (marks : ∀ c ∈ separators, isBlank c = false) : Unbroken separators gap := by
  refine Unbroken.of_flat (fun c hc => isFlat_of_isBlank (h c hc)) fun c hc separates => ?_
  exact absurd (h c hc) (by simp [marks c separates])

lemma Gap.uncut {gap : List Char} (h : Gap gap) : Unbroken [','] gap :=
  h.unbroken (List.forall_mem_singleton.2 (by decide))

lemma Uncut.spaced (h : Uncut part) : Uncut (Spaced part) := by
  rintro cs a ⟨before, inner, after, hb, ha, hi, rfl⟩
  exact (hb.uncut.append (h inner a hi)).append ha.uncut

lemma Listed.of_joined {ps : List (List Char)} (joined : Joined [','] ps cs)
    (parts : List.Forall₂ part ps as) : Listed part cs as := by
  induction joined generalizing as with
  | last p =>
      cases parts with
      | cons h rest =>
          cases rest
          exact .one h
  | more p separates _ ih =>
      obtain rfl := List.mem_singleton.1 separates
      cases parts with
      | cons h rest => exact .more h (ih rest)

/-- **Parts with commas between them are found by cutting.** -/
lemma listed_iff (uncut : Uncut part) : Listed part cs as ↔
    ∃ ps, topLevelPieces [','] cs = some ps ∧ List.Forall₂ part ps as := by
  constructor
  · intro h
    induction h with
    | @one cs a last => exact ⟨[cs], (uncut cs a last).topLevelPieces_eq, .cons last .nil⟩
    | @more cs ds a as first _ ih =>
        obtain ⟨ps, cut, parts⟩ := ih
        refine ⟨cs :: ps, ?_, .cons first parts⟩
        rw [topLevelPieces, (uncut cs a first).cut (by decide) (by simp), ← topLevelPieces, cut]
        rfl
  · rintro ⟨ps, cut, parts⟩
    exact .of_joined (joined_of_topLevelPieces (by decide) (by decide) cut) parts

/-- Every character of a list stands in a part or is a comma. -/
lemma Listed.char_cases {P : Char → Prop} (h : Listed part cs as)
    (parts : ∀ ds a, part ds a → ∀ c ∈ ds, P c) (comma : P ',') : ∀ c ∈ cs, P c := by
  induction h with
  | one last => exact parts _ _ last
  | more first _ ih =>
      rw [List.forall_mem_append, List.forall_mem_cons]
      exact ⟨parts _ _ first, comma, ih⟩

/-! ## Blanks around a list -/

lemma Listed.before {gap : List Char} (blank : Gap gap) (h : Listed (Spaced part) cs as) :
    Listed (Spaced part) (gap ++ cs) as := by
  cases h with
  | one last => exact .one (last.before blank)
  | more first rest =>
      rw [← List.append_assoc]
      exact .more (first.before blank) rest

lemma Listed.behind {gap : List Char} (blank : Gap gap) (h : Listed (Spaced part) cs as) :
    Listed (Spaced part) (cs ++ gap) as := by
  induction h with
  | one last => exact .one (last.behind blank)
  | more first _ ih =>
      rw [List.append_assoc, List.cons_append]
      exact .more first ih

section

variable (trimmed : Trimmed part)

include trimmed

lemma Spaced.dropWhile (h : Spaced part cs a) : Spaced part (cs.dropWhile isBlank) a := by
  rw [spaced_iff trimmed] at h ⊢
  rwa [trim_dropWhile]

lemma Spaced.rdropWhile (h : Spaced part cs a) : Spaced part (cs.rdropWhile isBlank) a := by
  rw [spaced_iff trimmed] at h ⊢
  rwa [trim_rdropWhile]

lemma Listed.rdropWhile (h : Listed (Spaced part) cs as) :
    Listed (Spaced part) (cs.rdropWhile isBlank) as := by
  induction h with
  | one last => exact .one (last.rdropWhile trimmed)
  | more first _ ih =>
      rw [rdropWhile_append_cons (by decide)]
      exact .more first ih

/-- **Blanks at the ends of a list belong to its first and its last part.** -/
lemma listed_trim_iff : Listed (Spaced part) (trim cs) as ↔ Listed (Spaced part) cs as := by
  constructor
  · intro h
    obtain ⟨before, after, hb, ha, e⟩ := exists_blanks_around cs
    rw [e]
    exact (h.before hb).behind ha
  · intro h
    cases h with
    | one last =>
        rw [spaced_iff trimmed] at last
        exact .one (.of_trim (by rwa [trim_trim]))
    | more first rest =>
        rw [trim_append_cons (by decide)]
        exact .more (first.dropWhile trimmed) (rest.rdropWhile trimmed)

end

end CausalUpdate.Grammar
