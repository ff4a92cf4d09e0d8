import CausalUpdate.Text.Blank
import Mathlib.Data.List.DropRight
import Mathlib.Tactic.Common

/-!
# Trimming

Trimming a text takes the characters of a class from its ends and nothing else, mostly the blanks.
So it undoes whatever is put of them around a text that has none at its ends, and it goes to either
end on its own if there is a character between them that is not blank.
-/

namespace CausalUpdate.Text

lemma dropWhile_eq_self_of_head? {strip : Char → Bool} {cs : List Char}
    (h : ∀ c, cs.head? = some c → strip c = false) : cs.dropWhile strip = cs := by
  cases cs with
  | nil => rfl
  | cons c cs => rw [List.dropWhile_cons_of_neg (by simp [h c rfl])]

/-- There is nothing to trim if neither end is stripped. -/
lemma trimBy_eq_self_of_ends {strip : Char → Bool} {cs : List Char}
    (head : ∀ c, cs.head? = some c → strip c = false)
    (last : ∀ c, cs.getLast? = some c → strip c = false) : trimBy strip cs = cs := by
  rw [trimBy, dropWhile_eq_self_of_head? head, dropWhile_eq_self_of_head?, List.reverse_reverse]
  simpa using last

/-- There is nothing to trim from a text without blanks. -/
lemma trim_eq_self {cs : List Char} (h : ∀ c ∈ cs, isBlank c = false) : trim cs = cs :=
  trimBy_eq_self_of_ends (fun c hc => h c (List.mem_of_mem_head? hc))
    fun c hc => h c (List.mem_of_getLast? hc)

/-! ## Any class of characters -/

section

variable {strip : Char → Bool} {before after : List Char}

/-- What is trimmed are characters of the class at the ends. -/
lemma exists_stripped_around (strip : Char → Bool) (cs : List Char) :
    ∃ before after, (∀ c ∈ before, strip c) ∧ (∀ c ∈ after, strip c) ∧
      cs = before ++ trimBy strip cs ++ after := by
  refine ⟨cs.takeWhile strip, (cs.dropWhile strip).rtakeWhile strip,
    fun c => List.mem_takeWhile_imp, fun c => List.mem_rtakeWhile_imp, ?_⟩
  rw [List.append_assoc, trimBy, ← List.rdropWhile, List.rdropWhile_append_rtakeWhile,
    List.takeWhile_append_dropWhile]

lemma trimBy_stripped_append (stripped : ∀ c ∈ before, strip c) (cs : List Char) :
    trimBy strip (before ++ cs) = trimBy strip cs := by
  rw [trimBy, List.dropWhile_append_of_pos stripped, trimBy]

lemma trimBy_append_stripped (stripped : ∀ c ∈ after, strip c) (cs : List Char) :
    trimBy strip (cs ++ after) = trimBy strip cs := by
  rw [trimBy, List.dropWhile_append, trimBy]
  split
  · rename_i none
    rw [List.isEmpty_iff.1 none, List.dropWhile_eq_nil_iff.2 stripped]
  · rw [List.reverse_append, List.dropWhile_append_of_pos (by simpa using stripped)]

/-- **Characters of the class around a text are trimmed.** -/
lemma trimBy_between (hb : ∀ c ∈ before, strip c) (ha : ∀ c ∈ after, strip c) (cs : List Char) :
    trimBy strip (before ++ cs ++ after) = trimBy strip cs := by
  rw [trimBy_append_stripped ha, trimBy_stripped_append hb]

lemma trimBy_trimBy (cs : List Char) : trimBy strip (trimBy strip cs) = trimBy strip cs := by
  obtain ⟨before, after, hb, ha, e⟩ := exists_stripped_around strip cs
  conv_rhs => rw [e]
  exact (trimBy_between hb ha _).symm

lemma length_trimBy_le (strip : Char → Bool) (cs : List Char) :
    (trimBy strip cs).length ≤ cs.length := by
  obtain ⟨before, after, -, -, e⟩ := exists_stripped_around strip cs
  conv_rhs => rw [e]
  simp only [List.length_append]
  omega

/-- No character of the class is left in front. -/
lemma head?_trimBy {cs : List Char} {c : Char} (h : (trimBy strip cs).head? = some c) :
    strip c = false := by
  obtain ⟨ds, hds⟩ := List.head?_eq_some_iff.1 h
  rw [Bool.eq_false_iff]
  intro stripped
  have front : ∀ b ∈ [c], strip b := by simpa using stripped
  have shorter : trimBy strip (trimBy strip cs) = trimBy strip ds := by
    rw [hds]
    exact trimBy_stripped_append front ds
  have le := length_trimBy_le strip ds
  rw [← shorter, trimBy_trimBy, hds, List.length_cons] at le
  omega

end

/-! ## Blanks -/

lemma trim_eq_rdropWhile (cs : List Char) :
    trim cs = (cs.dropWhile isBlank).rdropWhile isBlank :=
  rfl

/-- What is trimmed are blanks at the ends. -/
lemma exists_blanks_around (cs : List Char) :
    ∃ before after, (∀ c ∈ before, isBlank c) ∧ (∀ c ∈ after, isBlank c) ∧
      cs = before ++ trim cs ++ after :=
  exists_stripped_around isBlank cs

lemma trim_blanks_append {before : List Char} (blank : ∀ c ∈ before, isBlank c) (cs : List Char) :
    trim (before ++ cs) = trim cs :=
  trimBy_stripped_append blank cs

lemma trim_append_blanks {after : List Char} (blank : ∀ c ∈ after, isBlank c) (cs : List Char) :
    trim (cs ++ after) = trim cs :=
  trimBy_append_stripped blank cs

/-- **Blanks around a text are trimmed.** -/
lemma trim_between {before after : List Char} (hb : ∀ c ∈ before, isBlank c)
    (ha : ∀ c ∈ after, isBlank c) (cs : List Char) : trim (before ++ cs ++ after) = trim cs :=
  trimBy_between hb ha cs

lemma trim_trim (cs : List Char) : trim (trim cs) = trim cs :=
  trimBy_trimBy cs

/-- No blank is left in front. -/
lemma head?_trim {cs : List Char} {c : Char} (h : (trim cs).head? = some c) :
    isBlank c = false :=
  head?_trimBy h

lemma trim_dropWhile (cs : List Char) : trim (cs.dropWhile isBlank) = trim cs := by
  conv_rhs => rw [← List.takeWhile_append_dropWhile (p := isBlank) (l := cs)]
  exact (trim_blanks_append (fun c => List.mem_takeWhile_imp) _).symm

lemma trim_rdropWhile (cs : List Char) : trim (cs.rdropWhile isBlank) = trim cs := by
  conv_rhs => rw [← List.rdropWhile_append_rtakeWhile (p := isBlank) (l := cs)]
  exact (trim_append_blanks (fun c => List.mem_rtakeWhile_imp) _).symm

lemma rdropWhile_append_cons {c : Char} (h : isBlank c = false) (xs ys : List Char) :
    (xs ++ c :: ys).rdropWhile isBlank = xs ++ c :: ys.rdropWhile isBlank := by
  have stays : ¬ isBlank c = true := by simp [h]
  have split : xs ++ c :: ys = (xs ++ [c]) ++ ys := by simp
  rw [split, List.rdropWhile, List.reverse_append, List.dropWhile_append]
  split
  · rename_i none
    rw [List.reverse_append, List.reverse_singleton, List.singleton_append,
      List.dropWhile_cons_of_neg stays, List.rdropWhile, List.isEmpty_iff.1 none]
    simp
  · rw [List.reverse_append, List.reverse_reverse, List.rdropWhile]
    simp

/-- Between the ends stands a character that is not blank, so that each is trimmed on its own. -/
lemma trim_append_cons {c : Char} (h : isBlank c = false) (xs ys : List Char) :
    trim (xs ++ c :: ys) = xs.dropWhile isBlank ++ c :: ys.rdropWhile isBlank := by
  have stays : ¬ isBlank c = true := by simp [h]
  have left : (xs ++ c :: ys).dropWhile isBlank = xs.dropWhile isBlank ++ c :: ys := by
    rw [List.dropWhile_append, List.dropWhile_cons_of_neg stays]
    split
    · rename_i none
      rw [List.isEmpty_iff.1 none, List.nil_append]
    · rfl
  rw [trim_eq_rdropWhile, left, rdropWhile_append_cons h]

end CausalUpdate.Text
