import CausalUpdate.Proofs.Text.Pieces

/-!
# The cut outside parentheses

A cut carries along how many parentheses are open.  Here is what it gives, said without that number:
a text whose parentheses are balanced is cut into balanced texts that have all their separators
between parentheses, and the cut can be undone by putting one separator between any two of them.
No other pieces do.  A text whose parentheses are not balanced is not cut at all.

Parentheses are counted.  A text that is read from inside `depth` parentheses closes these as well
(`Closes`), and its first piece does so (`IsPiece`); both are settled one character at a time, as
the cut is (`closes_cons`, `isPiece_cons`, `Joined.cons_iff`).

* `Balanced`, `Undivided`, `Joined` — what is asked of pieces.
* `topLevelPiecesFrom_eq_none_iff`, `topLevelPiecesFrom_eq_some_iff` — the cut from any depth.
* `topLevelPieces_unique_cut` — the cut of a whole text.
-/

namespace CausalUpdate.Text

/-- No beginning of the text has more closing parentheses than opening ones, and the whole text has
as many of either kind. -/
structure Balanced (cs : List Char) : Prop where
  opened : ∀ front, front <+: cs → front.count ')' ≤ front.count '('
  closed : cs.count '(' = cs.count ')'

/-- No separator of the text stands outside all parentheses. -/
def Undivided (separators cs : List Char) : Prop :=
  ∀ front c back, cs = front ++ c :: back → c ∈ separators → front.count '(' ≠ front.count ')'

/-- The text is made of the pieces, with one separator between any two that follow each other. -/
inductive Joined (separators : List Char) : List (List Char) → List Char → Prop
  | last (p : List Char) : Joined separators [p] p
  | more (p : List Char) {c : Char} {ps : List (List Char)} {cs : List Char}
      (separates : c ∈ separators) (rest : Joined separators ps cs) :
      Joined separators (p :: ps) (p ++ c :: cs)

/-- The pieces make up the text, and each of them is balanced and undivided. -/
structure TopLevelCut (separators cs : List Char) (ps : List (List Char)) : Prop where
  joined : Joined separators ps cs
  balanced : ∀ p ∈ ps, Balanced p
  undivided : ∀ p ∈ ps, Undivided separators p

/-! ## Inside parentheses -/

/-- The text is balanced behind `depth` opening parentheses. -/
structure Closes (depth : Nat) (cs : List Char) : Prop where
  opened : ∀ front, front <+: cs → front.count ')' ≤ depth + front.count '('
  closed : depth + cs.count '(' = cs.count ')'

/-- The text closes `depth` parentheses and has no separator outside all of them. -/
structure IsPiece (separators : List Char) (depth : Nat) (cs : List Char) : Prop where
  closes : Closes depth cs
  inside : ∀ front c back, cs = front ++ c :: back → c ∈ separators →
    depth + front.count '(' ≠ front.count ')'

lemma closes_zero_iff {cs : List Char} : Closes 0 cs ↔ Balanced cs :=
  ⟨fun h => ⟨by simpa using h.opened, by simpa using h.closed⟩,
    fun h => ⟨by simpa using h.opened, by simpa using h.closed⟩⟩

lemma isPiece_zero_iff {separators cs : List Char} :
    IsPiece separators 0 cs ↔ Balanced cs ∧ Undivided separators cs := by
  constructor
  · rintro ⟨closes, inside⟩
    exact ⟨closes_zero_iff.1 closes, by simpa [Undivided] using inside⟩
  · rintro ⟨balanced, undivided⟩
    exact ⟨closes_zero_iff.2 balanced, by simpa [Undivided] using undivided⟩

/-! ## One character -/

lemma count_cons_parts (x c : Char) (cs : List Char) :
    (c :: cs).count x = [c].count x + cs.count x := by
  rw [List.count_cons, List.count_singleton, Nat.add_comm]

/-- The depth after a character, by counting. -/
lemma depthAfter_eq_some_iff {depth inner : Nat} {c : Char} :
    depthAfter depth c = some inner ↔ inner + [c].count ')' = depth + [c].count '(' := by
  unfold depthAfter
  split
  · simp [eq_comm]
  · split <;> simp <;> omega
  · rename_i opens closes
    have no_opening : '(' ∉ [c] := by simpa [eq_comm] using opens
    have no_closing : ')' ∉ [c] := by simpa [eq_comm] using closes
    rw [List.count_eq_zero_of_not_mem no_opening, List.count_eq_zero_of_not_mem no_closing,
      Option.some.injEq, eq_comm]
    rfl

lemma closes_nil_iff {depth : Nat} : Closes depth [] ↔ depth = 0 := by
  constructor
  · exact fun h => by simpa using h.closed
  · rintro rfl
    exact ⟨fun front hf => by simp [List.prefix_nil.1 hf], rfl⟩

lemma closes_cons {depth : Nat} {c : Char} {cs : List Char} :
    Closes depth (c :: cs) ↔ ∃ inner, depthAfter depth c = some inner ∧ Closes inner cs := by
  constructor
  · rintro ⟨opened, closed⟩
    have first := opened [c] (List.prefix_append [c] cs)
    refine ⟨depth + [c].count '(' - [c].count ')',
      depthAfter_eq_some_iff.2 (by omega), fun front hf => ?_, ?_⟩
    · have longer := opened (c :: front) ((List.prefix_cons_inj c).2 hf)
      rw [count_cons_parts ')', count_cons_parts '('] at longer
      omega
    · rw [count_cons_parts ')', count_cons_parts '('] at closed
      omega
  · rintro ⟨inner, after, opened, closed⟩
    rw [depthAfter_eq_some_iff] at after
    refine ⟨fun front hf => ?_, ?_⟩
    · rcases List.prefix_cons_iff.1 hf with rfl | ⟨shorter, rfl, behind⟩
      · exact Nat.zero_le _
      · have := opened shorter behind
        rw [count_cons_parts ')', count_cons_parts '(']
        omega
    · rw [count_cons_parts ')', count_cons_parts '(']
      omega

section

variable {separators : List Char} (opening : '(' ∉ separators) (closing : ')' ∉ separators)

include opening closing

/-- A separator is no parenthesis and leaves the depth as it is. -/
lemma depthAfter_of_mem {c : Char} (separates : c ∈ separators) (depth : Nat) :
    depthAfter depth c = some depth := by
  refine depthAfter_flat ?_ depth
  simp only [isFlat, Bool.and_eq_true, bne_iff_ne, ne_eq]
  exact ⟨fun e => opening (e ▸ separates), fun e => closing (e ▸ separates)⟩

/-- A separator at the beginning stands at the depth behind it, so this depth says whether it cuts. -/
lemma isPiece_cons {depth : Nat} {c : Char} {cs : List Char} :
    IsPiece separators depth (c :: cs) ↔ ∃ inner, depthAfter depth c = some inner ∧
      (c ∈ separators → inner ≠ 0) ∧ IsPiece separators inner cs := by
  constructor
  · rintro ⟨closes, inside⟩
    obtain ⟨inner, after, rest⟩ := closes_cons.1 closes
    refine ⟨inner, after, fun separates => ?_, rest, fun front d back e hd => ?_⟩
    · rw [depthAfter_of_mem opening closing separates, Option.some.injEq] at after
      simpa [after] using inside [] c cs rfl separates
    · have longer := inside (c :: front) d back (by rw [e, List.cons_append]) hd
      rw [count_cons_parts ')', count_cons_parts '('] at longer
      rw [depthAfter_eq_some_iff] at after
      omega
  · rintro ⟨inner, after, uncut, closes, inside⟩
    refine ⟨closes_cons.2 ⟨inner, after, closes⟩, fun front d back e hd => ?_⟩
    cases front with
    | nil =>
        obtain ⟨rfl, -⟩ := List.cons.inj e
        rw [depthAfter_of_mem opening closing hd, Option.some.injEq] at after
        simpa [after] using uncut hd
    | cons b front =>
        obtain ⟨rfl, rfl⟩ := List.cons.inj e
        have shorter := inside front d back rfl hd
        rw [depthAfter_eq_some_iff] at after
        rw [count_cons_parts ')', count_cons_parts '(']
        omega

end

lemma isPiece_nil_iff {separators : List Char} {depth : Nat} :
    IsPiece separators depth [] ↔ depth = 0 :=
  ⟨fun h => closes_nil_iff.1 h.closes, fun h => ⟨closes_nil_iff.2 h, by simp⟩⟩

/-! ## Pieces put together -/

namespace Joined

variable {separators cs : List Char} {c : Char} {ps : List (List Char)}

lemma ne_nil (h : Joined separators ps cs) : ps ≠ [] := by
  cases h <;> exact List.cons_ne_nil _ _

lemma nil_iff : Joined separators ps [] ↔ ps = [[]] := by
  constructor
  · intro h
    generalize e : ([] : List Char) = ds at h
    cases h with
    | last p => rw [← e]
    | more p => simp at e
  · rintro rfl
    exact .last []

/-- The first character separates an empty piece from the others, or belongs to the first piece. -/
lemma cons_iff : Joined separators ps (c :: cs) ↔
    (∃ rest, ps = [] :: rest ∧ c ∈ separators ∧ Joined separators rest cs) ∨
      ∃ p rest, ps = (c :: p) :: rest ∧ Joined separators (p :: rest) cs := by
  constructor
  · intro h
    generalize e : c :: cs = ds at h
    cases h with
    | last p => exact Or.inr ⟨cs, [], by rw [e], .last cs⟩
    | @more p d rest ds separates joined =>
        cases p with
        | nil =>
            obtain ⟨rfl, rfl⟩ := List.cons.inj e
            exact Or.inl ⟨rest, rfl, separates, joined⟩
        | cons b p =>
            obtain ⟨rfl, rfl⟩ := List.cons.inj e
            exact Or.inr ⟨p, rest, rfl, .more p separates joined⟩
  · rintro (⟨rest, rfl, separates, joined⟩ | ⟨p, rest, rfl, joined⟩)
    · exact .more [] separates joined
    · cases joined with
      | last => exact .last (c :: cs)
      | more _ separates joined => exact .more (c :: p) separates joined

end Joined

/-! ## The cut -/

/-- The text is made of pieces, of which the first one closes `depth` parentheses. -/
def CutFrom (separators : List Char) (depth : Nat) (cs : List Char) : List (List Char) → Prop
  | [] => False
  | p :: ps => Joined separators (p :: ps) cs ∧ IsPiece separators depth p ∧
      ∀ q ∈ ps, IsPiece separators 0 q

lemma cutFrom_zero_iff {separators cs : List Char} {ps : List (List Char)} :
    CutFrom separators 0 cs ps ↔ TopLevelCut separators cs ps := by
  cases ps with
  | nil => exact ⟨False.elim, fun h => h.joined.ne_nil rfl⟩
  | cons p ps =>
      rw [CutFrom, ← List.forall_mem_cons (p := IsPiece separators 0)]
      simp only [isPiece_zero_iff]
      exact ⟨fun ⟨joined, pieces⟩ => ⟨joined, fun q hq => (pieces q hq).1, fun q hq => (pieces q hq).2⟩,
        fun h => ⟨h.joined, fun q hq => ⟨h.balanced q hq, h.undivided q hq⟩⟩⟩

lemma cutFrom_nil_iff {separators : List Char} {depth : Nat} {ps : List (List Char)} :
    CutFrom separators depth [] ps ↔ depth = 0 ∧ ps = [[]] := by
  cases ps with
  | nil => simp [CutFrom]
  | cons p ps =>
      rw [CutFrom, Joined.nil_iff, List.cons.injEq]
      constructor
      · rintro ⟨⟨rfl, rfl⟩, piece, -⟩
        exact ⟨isPiece_nil_iff.1 piece, rfl, rfl⟩
      · rintro ⟨rfl, rfl, rfl⟩
        exact ⟨⟨rfl, rfl⟩, isPiece_nil_iff.2 rfl, by simp⟩

lemma topLevelPiecesFrom_eq_none_iff {separators cs : List Char} {depth : Nat} :
    topLevelPiecesFrom separators depth cs = none ↔ ¬ Closes depth cs := by
  induction cs generalizing depth with
  | nil =>
      rw [closes_nil_iff, topLevelPiecesFrom]
      split <;> simp_all
  | cons c cs ih =>
      rw [closes_cons, topLevelPiecesFrom]
      cases depthAfter depth c with
      | none => simp
      | some inner => simp [ih]

section

variable {separators : List Char} (opening : '(' ∉ separators) (closing : ')' ∉ separators)
  {depth inner : Nat} {c : Char} {cs : List Char} {ps : List (List Char)}

include opening closing

/-- A separator outside parentheses ends an empty piece. -/
lemma cutFrom_cons_of_cut (after : depthAfter depth c = some 0) (separates : c ∈ separators) :
    CutFrom separators depth (c :: cs) ps ↔
      ∃ rest, ps = [] :: rest ∧ CutFrom separators 0 cs rest := by
  obtain rfl : depth = 0 :=
    Option.some.inj ((depthAfter_of_mem opening closing separates depth).symm.trans after)
  constructor
  · intro h
    cases ps with
    | nil => exact h.elim
    | cons p ps =>
        obtain ⟨joined, piece, pieces⟩ := h
        rcases Joined.cons_iff.1 joined with ⟨rest, e, -, joined⟩ | ⟨p', rest, e, -⟩
        · obtain ⟨rfl, rfl⟩ := List.cons.inj e
          refine ⟨ps, rfl, ?_⟩
          cases ps with
          | nil => exact joined.ne_nil rfl
          | cons q ps => exact ⟨joined, List.forall_mem_cons.1 pieces⟩
        · obtain ⟨rfl, rfl⟩ := List.cons.inj e
          obtain ⟨inner, after', uncut, -⟩ := (isPiece_cons opening closing).1 piece
          exact absurd (Option.some.inj (after'.symm.trans after)) (uncut separates)
  · rintro ⟨rest, rfl, h⟩
    cases rest with
    | nil => exact h.elim
    | cons q rest =>
        obtain ⟨joined, pieces⟩ := h
        exact ⟨Joined.cons_iff.2 (Or.inl ⟨_, rfl, separates, joined⟩), isPiece_nil_iff.2 rfl,
          List.forall_mem_cons.2 pieces⟩

/-- Any other character belongs to the first piece. -/
lemma cutFrom_cons_of_uncut (after : depthAfter depth c = some inner)
    (uncut : ¬ (inner = 0 ∧ c ∈ separators)) :
    CutFrom separators depth (c :: cs) ps ↔
      ∃ p rest, ps = (c :: p) :: rest ∧ CutFrom separators inner cs (p :: rest) := by
  constructor
  · intro h
    cases ps with
    | nil => exact h.elim
    | cons p ps =>
        obtain ⟨joined, piece, pieces⟩ := h
        rcases Joined.cons_iff.1 joined with ⟨rest, e, separates, -⟩ | ⟨p', rest, e, joined⟩
        · obtain ⟨rfl, rfl⟩ := List.cons.inj e
          rw [depthAfter_of_mem opening closing separates, isPiece_nil_iff.1 piece] at after
          exact absurd ⟨(Option.some.inj after).symm, separates⟩ uncut
        · obtain ⟨rfl, rfl⟩ := List.cons.inj e
          obtain ⟨inner', after', -, piece⟩ := (isPiece_cons opening closing).1 piece
          obtain rfl := Option.some.inj (after'.symm.trans after)
          exact ⟨p', ps, rfl, joined, piece, pieces⟩
  · rintro ⟨p, rest, rfl, joined, piece, pieces⟩
    exact ⟨Joined.cons_iff.2 (Or.inr ⟨p, rest, rfl, joined⟩), (isPiece_cons opening closing).2
      ⟨inner, after, fun separates e => uncut ⟨e, separates⟩, piece⟩, pieces⟩

/-- A text with an unbalanced beginning is made of no pieces. -/
lemma not_cutFrom_cons (broken : depthAfter depth c = none) :
    ¬ CutFrom separators depth (c :: cs) ps := by
  intro h
  cases ps with
  | nil => exact h.elim
  | cons p ps =>
      obtain ⟨joined, piece, -⟩ := h
      rcases Joined.cons_iff.1 joined with ⟨rest, -, separates, -⟩ | ⟨p', rest, e, -⟩
      · rw [depthAfter_of_mem opening closing separates] at broken
        cases broken
      · obtain ⟨rfl, rfl⟩ := List.cons.inj e
        obtain ⟨inner, after, -⟩ := (isPiece_cons opening closing).1 piece
        rw [broken] at after
        cases after

/-- **From any depth, a cut gives the pieces that a text is made of.** -/
lemma topLevelPiecesFrom_eq_some_iff :
    topLevelPiecesFrom separators depth cs = some ps ↔ CutFrom separators depth cs ps := by
  induction cs generalizing depth ps with
  | nil =>
      rw [cutFrom_nil_iff, topLevelPiecesFrom]
      split <;> simp_all [eq_comm]
  | cons c cs ih =>
      rw [topLevelPiecesFrom]
      cases after : depthAfter depth c with
      | none => simpa using not_cutFrom_cons opening closing after
      | some inner =>
          by_cases cuts : inner = 0 ∧ c ∈ separators
          · obtain ⟨rfl, separates⟩ := cuts
            rw [cutFrom_cons_of_cut opening closing after separates]
            simp only [List.contains_iff_mem.2 separates, decide_true, Bool.and_self, if_true,
              Option.map_eq_some_iff, ih]
            exact exists_congr fun rest => ⟨fun h => ⟨h.2.symm, h.1⟩, fun h => ⟨h.2, h.1.symm⟩⟩
          · rw [cutFrom_cons_of_uncut opening closing after cuts]
            have joins : (decide (inner = 0) && separators.contains c) = false := by
              simpa using cuts
            simp only [joins, Bool.false_eq_true, if_false, Option.map_eq_some_iff, ih]
            constructor
            · rintro ⟨_ | ⟨p, rest⟩, h, rfl⟩
              · exact h.elim
              · exact ⟨p, rest, rfl, h⟩
            · rintro ⟨p, rest, rfl, h⟩
              exact ⟨p :: rest, h, rfl⟩

/-- What is cut can be put together again. -/
lemma joined_of_topLevelPieces (cut : topLevelPieces separators cs = some ps) :
    Joined separators ps cs :=
  (cutFrom_zero_iff.1 ((topLevelPiecesFrom_eq_some_iff opening closing).1 cut)).joined

/-- **A text is cut outside parentheses in the only way there is.**  The separators are no
parentheses.  A text is not cut exactly if its parentheses are not balanced; and the pieces of a
text that is cut are the only ones it can be made of that are balanced and undivided. -/
theorem topLevelPieces_unique_cut (cs : List Char) :
    (topLevelPieces separators cs = none ↔ ¬ Balanced cs) ∧
      ∀ ps, topLevelPieces separators cs = some ps ↔ TopLevelCut separators cs ps := by
  refine ⟨?_, fun ps => ?_⟩
  · rw [topLevelPieces, topLevelPiecesFrom_eq_none_iff, closes_zero_iff]
  · rw [topLevelPieces, topLevelPiecesFrom_eq_some_iff opening closing, cutFrom_zero_iff]

end

/-- Separators at the ends, next to each other and inside parentheses. -/
theorem topLevelPieces_unique_cut_nested :
    ('(' ∉ [',', ';'] ∧ ')' ∉ [',', ';']) ∧
      TopLevelCut [',', ';'] "f(a,(b;c));,g,".toList
        ["f(a,(b;c))".toList, [], ['g'], []] ∧
      ¬ Balanced "f(a)),(b".toList :=
  ⟨⟨by decide, by decide⟩,
    ((topLevelPieces_unique_cut (by decide) (by decide) _).2 _).1 (by decide),
    (@topLevelPieces_unique_cut [','] (by decide) (by decide) _).1.1 (by decide)⟩

end CausalUpdate.Text
