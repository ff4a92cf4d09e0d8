import CausalUpdate.AnswerSet.Parse
import CausalUpdate.Proofs.Literal.Reading
import CausalUpdate.Solver.Models
import Mathlib.Data.List.Basic

/-!
# Reading a solver's models

A model is written as the texts of its literals in order, separated by a comma and a blank.  It
might as well be strung together by blanks, tabs and line feeds, and with braces around it: between
two separators stands an empty piece, which is passed over, and so every literal is read back.

* `Strung` — texts with separators between them.
* `Strung.topLevelPieces` — they come through a cut.
* `parse_strung`, `parse_braced` — readable literals are read back.
* `parseAll_eq_map` — nothing is left out from a list of such models.
-/

namespace CausalUpdate

open CausalUpdate.Text

/-! ## Strings of texts -/

/-- The characters between two literals of a model. -/
def modelSeparators : List Char :=
  [',', ' ', '\t', '\n']

/-- The text is made of these texts in order, with separators between any two of them. -/
inductive Strung : List (List Char) → List Char → Prop
  | nil : Strung [] []
  | single {p : List Char} : Strung [p] p
  | cons {p q cs : List Char} {ps : List (List Char)} {gap : List Char} (some : gap ≠ [])
      (separates : ∀ c ∈ gap, c ∈ modelSeparators) (rest : Strung (q :: ps) cs) :
      Strung (p :: q :: ps) (p ++ (gap ++ cs))

/-- Texts may have the same separators everywhere. -/
lemma strung_intercalate {gap : List Char} (some : gap ≠ [])
    (separates : ∀ c ∈ gap, c ∈ modelSeparators) : ∀ ps, Strung ps (gap.intercalate ps)
  | [] => .nil
  | [p] => by
      rw [List.intercalate_singleton]
      exact .single
  | p :: q :: ps => by
      rw [List.intercalate_cons_cons, List.append_assoc]
      exact .cons some separates (strung_intercalate some separates (q :: ps))

/-- A solver puts a comma and a blank between two texts. -/
lemma strung_commas (ts : List String) :
    Strung (ts.map String.toList) (String.intercalate ", " ts).toList := by
  rw [String.toList_intercalate]
  exact strung_intercalate (by simp) (by simp [modelSeparators]) _

/-- Separators behind a text end its piece, and there is nothing between them. -/
lemma cut_gap {p gap : List Char} (unbroken : Unbroken modelSeparators p) (some : gap ≠ [])
    (separates : ∀ c ∈ gap, c ∈ modelSeparators) (ys : List Char) :
    topLevelPiecesFrom modelSeparators 0 (p ++ (gap ++ ys)) =
      (topLevelPiecesFrom modelSeparators 0 ys).map
        (p :: List.replicate (gap.length - 1) [] ++ ·) := by
  have flat : ∀ c ∈ modelSeparators, isFlat c := by simp [modelSeparators, isFlat]
  induction gap generalizing p with
  | nil => exact absurd rfl some
  | cons c gap ih =>
      obtain ⟨hc, separates⟩ := List.forall_mem_cons.1 separates
      have first := unbroken.cut (flat c hc) hc (gap ++ ys)
      rw [List.cons_append, first]
      cases gap with
      | nil => rfl
      | cons d gap =>
          have rest := ih .nil (List.cons_ne_nil d gap) separates
          rw [List.nil_append] at rest
          rw [rest, Option.map_map]
          rfl

namespace Strung

variable {ps : List (List Char)} {cs : List Char} {c : Char}

lemma ne_nil (h : Strung ps cs) (some : ps ≠ []) (filled : ∀ p ∈ ps, p ≠ []) : cs ≠ [] := by
  cases h with
  | nil => exact absurd rfl some
  | single => exact filled _ List.mem_cons_self
  | cons => exact List.append_ne_nil_of_left_ne_nil (filled _ List.mem_cons_self) _

/-- The text begins as one of its parts does. -/
lemma exists_mem_of_head? (h : Strung ps cs) (filled : ∀ p ∈ ps, p ≠ [])
    (head : cs.head? = some c) : ∃ p ∈ ps, c ∈ p := by
  cases h with
  | nil => exact absurd head (by simp)
  | single => exact ⟨_, List.mem_cons_self, List.mem_of_mem_head? head⟩
  | @cons p q cs ps gap _ _ rest =>
      rw [List.head?_append_of_ne_nil _ (filled p List.mem_cons_self)] at head
      exact ⟨p, List.mem_cons_self, List.mem_of_mem_head? head⟩

/-- The text ends as one of its parts does. -/
lemma exists_mem_of_getLast? (h : Strung ps cs) (filled : ∀ p ∈ ps, p ≠ [])
    (last : cs.getLast? = some c) : ∃ p ∈ ps, c ∈ p := by
  induction h with
  | nil => exact absurd last (by simp)
  | single => exact ⟨_, List.mem_cons_self, List.mem_of_getLast? last⟩
  | @cons p q cs ps gap _ _ rest ih =>
      have filled := fun r hr => filled r (List.mem_cons_of_mem p hr)
      have some := rest.ne_nil (List.cons_ne_nil q ps) filled
      rw [List.getLast?_append_of_ne_nil _ (List.append_ne_nil_of_right_ne_nil gap some),
        List.getLast?_append_of_ne_nil _ some] at last
      obtain ⟨r, hr, hc⟩ := ih filled last
      exact ⟨r, List.mem_cons_of_mem p hr, hc⟩

/-- **The parts come through a cut**, possibly with empty pieces between them. -/
lemma topLevelPieces (h : Strung ps cs) (unbroken : ∀ p ∈ ps, Unbroken modelSeparators p)
    (filled : ∀ p ∈ ps, blankOnly p = false) :
    ∃ qs, topLevelPieces modelSeparators cs = some qs ∧
      qs.filter (fun q => !blankOnly q) = ps := by
  induction h with
  | nil => exact ⟨[[]], rfl, rfl⟩
  | @single p =>
      refine ⟨[p], (unbroken p List.mem_cons_self).topLevelPieces_eq, ?_⟩
      simp [filled p List.mem_cons_self]
  | @cons p q cs ps gap some separates rest ih =>
      obtain ⟨unbroken_p, unbroken⟩ := List.forall_mem_cons.1 unbroken
      obtain ⟨filled_p, filled⟩ := List.forall_mem_cons.1 filled
      obtain ⟨qs, cut, kept⟩ := ih unbroken filled
      rw [Text.topLevelPieces] at cut
      refine ⟨p :: List.replicate (gap.length - 1) [] ++ qs, ?_, ?_⟩
      · rw [Text.topLevelPieces, cut_gap unbroken_p some separates, cut, Option.map_some]
      · have blank : (List.replicate (gap.length - 1) []).filter (fun q => !blankOnly q) = [] :=
          List.filter_eq_nil_iff.2 fun q hq => by simp [List.eq_of_mem_replicate hq, blankOnly]
        rw [List.cons_append, List.filter_cons_of_pos (by simp [filled_p]), List.filter_append,
          blank, List.nil_append, kept]

end Strung

/-! ## Models -/

namespace Literal

lemma parseAll_texts {ls : List Literal} (h : ∀ l ∈ ls, l.Readable) :
    parseAll (ls.map fun l => l.text.toList) = .ok ls := by
  induction ls with
  | nil => rfl
  | cons l ls ih =>
      rw [List.map_cons, parseAll, (h l List.mem_cons_self).parse_text,
        ih fun m hm => h m (List.mem_cons_of_mem _ hm)]
      rfl

namespace Readable

variable {l : Literal}

lemma not_blankOnly (h : l.Readable) : blankOnly l.text.toList = false := by
  obtain ⟨c, hc⟩ := List.exists_mem_of_ne_nil _ h.text_ne_nil
  rw [blankOnly, List.all_eq_false]
  exact ⟨c, hc, by simp [h.text_chars c hc]⟩

/-- No brace stands in a literal. -/
lemma text_no_brace (h : l.Readable) : ∀ c ∈ l.text.toList, c ≠ '\x7b' ∧ c ≠ '\x7d' := by
  have marks : ∀ c ∈ ['-', '(', ',', ')'], c ≠ '\x7b' ∧ c ≠ '\x7d' := by simp
  intro c hc
  rcases h.text_char_cases c hc with hc | hc
  · constructor <;> rintro rfl <;> exact absurd hc (by decide)
  · exact marks c hc

lemma unbroken_in_model (h : l.Readable) : Unbroken modelSeparators l.text.toList := by
  refine h.unbroken_text ?_
  simp only [modelSeparators, List.forall_mem_cons, List.not_mem_nil, false_implies, implies_true,
    and_true]
  decide

end Readable

end Literal

namespace AnswerSet

variable {ls : List Literal}

section Strung

variable {cs : List Char} (readable : ∀ l ∈ ls, l.Readable)
  (strung : Strung (ls.map fun l => l.text.toList) cs)

include readable in
lemma forall_mem_texts {P : List Char → Prop} (h : ∀ l : Literal, l.Readable → P l.text.toList) :
    ∀ p ∈ ls.map (fun l => l.text.toList), P p := by
  intro p hp
  obtain ⟨l, hl, rfl⟩ := List.mem_map.1 hp
  exact h l (readable l hl)

include readable in
lemma texts_ne_nil : ∀ p ∈ ls.map (fun l => l.text.toList), p ≠ [] :=
  forall_mem_texts readable fun _ hl => hl.text_ne_nil

include readable strung

/-- Neither end of a model is a blank or a brace. -/
lemma trimBy_strung {strip : Char → Bool} (harmless : ∀ l : Literal, l.Readable →
    ∀ c ∈ l.text.toList, strip c = false) : trimBy strip cs = cs := by
  have filled := texts_ne_nil readable
  have inside : ∀ {c}, (∃ p ∈ ls.map (fun l => l.text.toList), c ∈ p) → strip c = false := by
    rintro c ⟨p, hp, hc⟩
    exact forall_mem_texts readable (P := fun p => ∀ c ∈ p, strip c = false) harmless p hp c hc
  exact trimBy_eq_self_of_ends (fun c hc => inside (strung.exists_mem_of_head? filled hc))
    fun c hc => inside (strung.exists_mem_of_getLast? filled hc)

lemma trim_strung : trim cs = cs :=
  trimBy_strung readable strung fun _ hl => hl.text_chars

lemma trimBraces_strung : trimBy (fun c => c = '\x7b' || c = '\x7d') cs = cs :=
  trimBy_strung readable strung fun l hl c hc => by simp [hl.text_no_brace c hc]

/-- What stands inside the braces is read. -/
lemma parse_of_insideBraces {text : List Char} (inner : insideBraces text = cs) :
    AnswerSet.parse text = .ok (.ofList ls) := by
  rw [AnswerSet.parse, inner]
  by_cases none : ls = []
  · subst none
    cases strung
    rfl
  · have nonempty : cs.isEmpty = false :=
      List.isEmpty_eq_false_iff.2 (strung.ne_nil (by simpa using none) (texts_ne_nil readable))
    obtain ⟨ps, cut, kept⟩ := strung.topLevelPieces
      (forall_mem_texts readable fun l hl => hl.unbroken_in_model)
      (forall_mem_texts readable fun l hl => hl.not_blankOnly)
    rw [modelSeparators] at cut
    simp only [nonempty, Bool.false_eq_true, if_false, cut, kept,
      Literal.parseAll_texts readable]
    rfl

/-- **Literals with separators between them are read back.** -/
lemma parse_strung : AnswerSet.parse cs = .ok (.ofList ls) := by
  refine parse_of_insideBraces readable strung ?_
  rw [insideBraces, trim_strung readable strung, trimBraces_strung readable strung,
    trim_strung readable strung]

/-- Braces around them make no difference. -/
lemma parse_braced : AnswerSet.parse ('\x7b' :: (cs ++ ['\x7d'])) = .ok (.ofList ls) := by
  refine parse_of_insideBraces readable strung ?_
  have whole : trim ('\x7b' :: (cs ++ ['\x7d'])) = '\x7b' :: (cs ++ ['\x7d']) := by
    refine trimBy_eq_self_of_ends (fun c hc => ?_) fun c hc => ?_
    · obtain rfl : '\x7b' = c := by simpa using hc
      decide
    · obtain rfl : '\x7d' = c := by simpa [List.getLast?_cons] using hc
      decide
  have inner : trimBy (fun c => c = '\x7b' || c = '\x7d') ('\x7b' :: (cs ++ ['\x7d'])) = cs := by
    rw [← List.singleton_append, ← List.append_assoc, trimBy_between (by simp) (by simp),
      trimBraces_strung readable strung]
  rw [insideBraces, whole, inner, trim_strung readable strung]

end Strung

lemma strung_texts (ls : List Literal) : Strung (ls.map fun l => l.text.toList)
    (String.intercalate ", " (ls.map Literal.text)).toList := by
  have strung := strung_commas (ls.map Literal.text)
  rwa [List.map_map] at strung

/-- The literals of a set in the order of their texts are those of the set. -/
lemma ofList_sorted (s : AnswerSet) : ofList s.sorted ≈ s := by
  refine ⟨fun l hl => ?_, fun l hl => ?_⟩
  · exact Literal.among_of_mem (List.mem_mergeSort.1 (mem_of_mem_distinct hl))
  · exact Literal.among_distinct.2 (Literal.among_of_mem (List.mem_mergeSort.2 hl))

/-- **An answer set is read back as it is written.** -/
theorem exists_parse_text {s : AnswerSet} (readable : ∀ l ∈ s.literals, l.Readable) :
    ∃ t, AnswerSet.parse s.text.toList = .ok t ∧ t ≈ s := by
  have sorted : ∀ l ∈ s.sorted, l.Readable := fun l hl => readable l (List.mem_mergeSort.1 hl)
  have braced := parse_braced sorted (strung_texts s.sorted)
  refine ⟨.ofList s.sorted, ?_, s.ofList_sorted⟩
  rw [← braced, text, texts]
  simp

/-- **A model of readable literals is read back**, in the order in which it is written. -/
theorem parse_modelText (h : ∀ l ∈ ls, l.Readable) :
    AnswerSet.parse (modelText (ls.map Literal.text)).toList =
      .ok (.ofList (Literal.sortByText ls)) := by
  have sorted : sortTexts (ls.map Literal.text) = (Literal.sortByText ls).map Literal.text := by
    rw [Literal.sortByText, sortTexts]
    refine (List.map_mergeSort ?_).symm
    exact fun _ _ _ _ => rfl
  rw [modelText, sorted]
  exact parse_strung (fun l hl => h l (List.mem_mergeSort.1 hl)) (strung_texts _)

/-- Texts that can be read are all read. -/
lemma parseAll_eq_map {models : List String} {read : String → AnswerSet}
    (h : ∀ m ∈ models, AnswerSet.parse m.toList = .ok (read m)) (g : Ledger) :
    (AnswerSet.parseAll models g).1 = models.map read := by
  induction models generalizing g with
  | nil => rfl
  | cons m models ih =>
      rw [AnswerSet.parseAll, h m List.mem_cons_self, List.map_cons,
        ← ih (fun n hn => h n (List.mem_cons_of_mem _ hn)) g]
      rfl

end AnswerSet

end CausalUpdate
