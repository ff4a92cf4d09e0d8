import CausalUpdate.FileTree.Basic
import CausalUpdate.Proofs.Literal.Text
import CausalUpdate.Proofs.Text.Pieces
import CausalUpdate.Store.Name
import CausalUpdate.Store.Selection

/-!
# Names and files of stored programs

What is left of a name holds safe characters only, and nothing more is taken from it the next time.
With a plain suffix behind it, such a name is the name of one file; it is the stem of that file, and
the files of a directory whose names end in the suffix are those that are found by it.

* `safeName_safeName` — names are made safe once and for all.
* `PlainSuffix` — a dot with letters and digits behind it.
* `steps_fileName`, `stem_append` — from names to files and back.
* `eq_or_suffix_of_fileStem_eq` — the only two files with one stem.
* `Selection.ofSuffix_plain`, `fits_suffix_iff` — the files that are found.
-/

namespace CausalUpdate

open CausalUpdate.Text

/-! ## Safe names -/

lemma isSafe_cases {c : Char} (h : isSafe c) : isIdentifierRest c ∨ c = '.' ∨ c = '-' := by
  simp only [isSafe, Bool.or_eq_true, decide_eq_true_eq] at h
  rcases h with ((h | rfl) | h) | h
  · exact Or.inl (isIdentifierRest_of_isAlphanum h)
  · exact Or.inl (by decide)
  · exact Or.inr (Or.inl h)
  · exact Or.inr (Or.inr h)

lemma not_isBlank_of_isSafe {c : Char} (h : isSafe c) : isBlank c = false := by
  rcases isSafe_cases h with h | rfl | rfl
  · exact not_isBlank_of_isIdentifierRest h
  · decide
  · decide

lemma isSafe_of_isAlphanum {c : Char} (h : c.isAlphanum) : isSafe c := by
  simp [isSafe, h]

lemma not_mem_of_safe {cs : List Char} (safe : ∀ c ∈ cs, isSafe c) {c : Char}
    (h : isSafe c = false) : c ∉ cs := by
  intro hc
  rw [safe c hc] at h
  cases h

lemma isSafe_joinUnsafe (inRun : Bool) (cs : List Char) : ∀ c ∈ joinUnsafe inRun cs, isSafe c := by
  induction cs generalizing inRun with
  | nil => exact fun c hc => absurd hc List.not_mem_nil
  | cons d cs ih =>
      rw [joinUnsafe]
      split
      · rename_i safe
        exact List.forall_mem_cons.2 ⟨safe, ih false⟩
      · split
        · exact ih true
        · exact List.forall_mem_cons.2 ⟨by decide, ih true⟩

lemma joinUnsafe_eq_self {cs : List Char} (safe : ∀ c ∈ cs, isSafe c) (inRun : Bool) :
    joinUnsafe inRun cs = cs := by
  induction cs generalizing inRun with
  | nil => rfl
  | cons c cs ih =>
      obtain ⟨hc, safe⟩ := List.forall_mem_cons.1 safe
      rw [joinUnsafe, if_pos hc, ih safe]

lemma isSafe_safeName (cs : List Char) : ∀ c ∈ safeName cs, isSafe c := by
  obtain ⟨before, after, -, -, e⟩ :=
    exists_stripped_around (fun c => c = '.' || c = '_') (joinUnsafe false (trim cs))
  intro c hc
  refine isSafe_joinUnsafe false (trim cs) c ?_
  rw [e]
  exact List.mem_append_left _ (List.mem_append_right _ hc)

/-- **Names are made safe once and for all.** -/
theorem safeName_safeName (cs : List Char) : safeName (safeName cs) = safeName cs := by
  have safe := isSafe_safeName cs
  have blanks : trim (safeName cs) = safeName cs :=
    trim_eq_self fun c hc => not_isBlank_of_isSafe (safe c hc)
  rw [safeName, blanks, joinUnsafe_eq_self safe]
  exact trimBy_trimBy _

/-! ## Files -/

/-- The suffix is a dot with letters and digits behind it. -/
def PlainSuffix (suffix : String) : Prop :=
  ∃ ext : List Char, suffix.toList = '.' :: ext ∧ ext ≠ [] ∧ ∀ c ∈ ext, c.isAlphanum

section

variable {suffix : String} {cs key : List Char}

namespace PlainSuffix

lemma safe (plain : PlainSuffix suffix) : ∀ c ∈ suffix.toList, isSafe c := by
  obtain ⟨ext, e, -, alphanum⟩ := plain
  rw [e]
  exact List.forall_mem_cons.2 ⟨by decide, fun c hc => isSafe_of_isAlphanum (alphanum c hc)⟩

lemma two_le_length (plain : PlainSuffix suffix) : 2 ≤ suffix.toList.length := by
  obtain ⟨ext, e, some, -⟩ := plain
  have := List.length_pos_iff.2 some
  rw [e, List.length_cons]
  omega

/-- The name of a program file is neither empty nor made of dots only. -/
lemma named (plain : PlainSuffix suffix) {file : String} (ends : suffix.toList <:+ file.toList) :
    file ≠ "" ∧ file ≠ "." ∧ file ≠ ".." := by
  obtain ⟨ext, e, some, alphanum⟩ := plain
  obtain ⟨c, hc⟩ := List.exists_mem_of_ne_nil ext some
  have inside : c ∈ file.toList := ends.subset (e ▸ List.mem_cons_of_mem _ hc)
  have other : c ≠ '.' := by
    rintro rfl
    exact absurd (alphanum _ hc) (by decide)
  refine ⟨?_, ?_, ?_⟩ <;> rintro rfl <;> simp [other] at inside

end PlainSuffix

/-- A text without slashes that is no single dot is one step of a way. -/
lemma steps_eq_singleton {text : String} (whole : '/' ∉ text.toList)
    (long : 2 ≤ text.toList.length) : Path.steps text = [text] := by
  have parts : Path.parts text = [text] := by
    rw [Path.parts, pieces_of_not_mem whole, List.map_singleton, String.ofList_toList]
  have kept : text ≠ "" ∧ text ≠ "." := by
    constructor <;> rintro rfl <;> simp at long
  rw [Path.steps, parts, List.filter_cons_of_pos (by simpa using kept), List.filter_nil]

lemma safe_fileName (plain : PlainSuffix suffix) (safe : ∀ c ∈ key, isSafe c) :
    ∀ c ∈ (String.ofList key ++ suffix).toList, isSafe c := by
  rw [String.toList_append, String.toList_ofList]
  exact List.forall_mem_append.2 ⟨safe, plain.safe⟩

/-- A safe name with the suffix behind it is one step of a way. -/
lemma steps_fileName (plain : PlainSuffix suffix) (safe : ∀ c ∈ key, isSafe c) :
    Path.steps (String.ofList key ++ suffix) = [String.ofList key ++ suffix] := by
  have long := plain.two_le_length
  refine steps_eq_singleton (not_mem_of_safe (safe_fileName plain safe) (by decide)) ?_
  rw [String.toList_append, List.length_append]
  omega

/-- The extension of a name that ends in the suffix is the suffix without its dot. -/
lemma takeWhile_suffix {ext : List Char} (alphanum : ∀ c ∈ ext, c.isAlphanum) (cs : List Char) :
    ((cs ++ '.' :: ext).reverse.takeWhile fun c => c ≠ '.') = ext.reverse := by
  have inside : ∀ c ∈ ext.reverse, decide (c ≠ '.') = true := by
    intro c hc
    rw [decide_eq_true_eq]
    rintro rfl
    exact absurd (alphanum _ (List.mem_reverse.1 hc)) (by decide)
  rw [List.reverse_append, List.reverse_cons, List.append_assoc,
    List.takeWhile_append_of_pos inside]
  simp

/-- **What stands before the suffix is the stem**, if there is anything; otherwise the suffix is. -/
lemma stem_append (plain : PlainSuffix suffix) (cs : List Char) :
    stem (cs ++ suffix.toList) = if cs = [] then suffix.toList else cs := by
  obtain ⟨ext, e, some, alphanum⟩ := plain
  have long : ext.isEmpty = false := by
    rwa [List.isEmpty_eq_false_iff]
  have start : (cs ++ '.' :: ext).take
      ((cs ++ '.' :: ext).length - ext.reverse.length - 1) = cs := by
    have length : (cs ++ '.' :: ext).length - ext.reverse.length - 1 = cs.length := by
      rw [List.length_append, List.length_cons, List.length_reverse]
      omega
    rw [length, List.take_left']
    rfl
  have shorter : ext.reverse.length ≠ (cs ++ '.' :: ext).length := by
    rw [List.length_append, List.length_cons, List.length_reverse]
    omega
  rw [e, stem]
  simp only [takeWhile_suffix alphanum, start, List.isEmpty_reverse, long, Bool.false_or,
    Bool.or_eq_true, decide_eq_true_eq, shorter, false_or, List.isEmpty_iff]
  split
  · rename_i h
    rw [h, List.nil_append]
  · rfl

lemma stem_isPrefix (cs : List Char) : stem cs <+: cs := by
  unfold stem
  simp only
  split
  · exact List.prefix_rfl
  · exact List.take_prefix _ _

/-- The name under which a file is listed. -/
def fileStem (file : String) : String :=
  String.ofList (stem file.toList)

lemma fileStem_append (plain : PlainSuffix suffix) (some : cs ≠ []) :
    fileStem (String.ofList cs ++ suffix) = String.ofList cs := by
  rw [fileStem, String.toList_append, String.toList_ofList, stem_append plain, if_neg some]

lemma fileStem_suffix (plain : PlainSuffix suffix) : fileStem suffix = suffix := by
  have stem := stem_append plain []
  rw [List.nil_append, if_pos rfl] at stem
  rw [fileStem, stem, String.ofList_toList]

lemma fileStem_suffix_suffix (plain : PlainSuffix suffix) :
    fileStem (suffix ++ suffix) = suffix := by
  have some : suffix.toList ≠ [] := by
    have := plain.two_le_length
    rintro none
    simp [none] at this
  have stem := fileStem_append plain some
  rwa [String.ofList_toList] at stem

/-- **Two program files with one stem** are the one whose name is nothing but the suffix, and the
one whose name is the suffix twice. -/
lemma eq_or_suffix_of_fileStem_eq {a b : String} (plain : PlainSuffix suffix)
    (ha : suffix.toList <:+ a.toList) (hb : suffix.toList <:+ b.toList)
    (e : fileStem a = fileStem b) :
    a = b ∨ a = suffix ∧ b = suffix ++ suffix ∨ a = suffix ++ suffix ∧ b = suffix := by
  obtain ⟨cs, ha⟩ := ha
  obtain ⟨ds, hb⟩ := hb
  have same := String.ofList_injective e
  rw [← ha, ← hb, stem_append plain, stem_append plain] at same
  have name : ∀ {c : String} {cs : List Char}, cs ++ suffix.toList = c.toList →
      c = String.ofList cs ++ suffix := by
    intro c cs h
    rw [← String.toList_inj, ← h, String.toList_append, String.toList_ofList]
  rw [name ha, name hb]
  split at same <;> split at same
  · rename_i h h'
    exact Or.inl (by rw [h, h'])
  · rename_i h _
    refine Or.inr (Or.inl ?_)
    rw [h, ← same, String.ofList_toList]
    exact ⟨String.empty_append, rfl⟩
  · rename_i _ h
    refine Or.inr (Or.inr ?_)
    rw [h, same, String.ofList_toList]
    exact ⟨rfl, String.empty_append⟩
  · exact Or.inl (by rw [same])

/-! ## Finding files -/

/-- A pattern without marks is fitted by nothing but itself. -/
lemma fits_exactly (cs ds : List Char) :
    Pattern.fits (cs.map .exactly) ds = true ↔ ds = cs := by
  induction cs generalizing ds with
  | nil => simp [Pattern.fits]
  | cons c cs ih =>
      cases ds with
      | nil => simp [Pattern.fits]
      | cons d ds =>
          rw [List.map_cons, Pattern.fits, Bool.and_eq_true, decide_eq_true_eq, ih,
            List.cons.injEq, eq_comm]

lemma someEnd_iff {p : List Char → Bool} {cs : List Char} :
    Pattern.someEnd p cs = true ↔ ∃ ds, ds <:+ cs ∧ p ds = true := by
  induction cs with
  | nil => simp [Pattern.someEnd]
  | cons c cs ih =>
      rw [Pattern.someEnd, Bool.or_eq_true, ih]
      constructor
      · rintro (whole | ⟨ds, sub, hds⟩)
        · exact ⟨c :: cs, List.suffix_rfl, whole⟩
        · exact ⟨ds, sub.trans (List.suffix_cons c cs), hds⟩
      · rintro ⟨ds, sub, hds⟩
        rcases List.suffix_cons_iff.1 sub with rfl | sub
        · exact Or.inl hds
        · exact Or.inr ⟨ds, sub, hds⟩

lemma elementsFrom_plain (plain : ∀ c ∈ cs, c ≠ '*' ∧ c ≠ '?' ∧ c ≠ '[') :
    Pattern.elementsFrom 0 cs = cs.map .exactly := by
  induction cs with
  | nil => rfl
  | cons c cs ih =>
      obtain ⟨⟨star, mark, bracket⟩, plain⟩ := List.forall_mem_cons.1 plain
      rw [List.map_cons, ← ih plain]
      rw [Pattern.elementsFrom.eq_def]
      split <;> simp_all

/-- **The names that fit a star with the suffix behind it are those that end in the suffix.** -/
lemma fits_suffix_iff (plain : PlainSuffix suffix) :
    Pattern.fits (Pattern.ofChars ('*' :: suffix.toList)) cs = true ↔ suffix.toList <:+ cs := by
  have unmarked : ∀ c ∈ suffix.toList, c ≠ '*' ∧ c ≠ '?' ∧ c ≠ '[' := by
    intro c hc
    have safe := plain.safe c hc
    refine ⟨?_, ?_, ?_⟩ <;> rintro rfl <;> exact absurd safe (by decide)
  have elements : Pattern.ofChars ('*' :: suffix.toList) = .run :: suffix.toList.map .exactly := by
    rw [Pattern.ofChars, Pattern.elementsFrom, elementsFrom_plain unmarked]
  rw [elements, Pattern.fits, someEnd_iff]
  simp only [fits_exactly]
  constructor
  · rintro ⟨ds, sub, rfl⟩
    exact sub
  · exact fun sub => ⟨suffix.toList, sub, rfl⟩

/-- A plain suffix selects names that fit a star with the suffix behind it. -/
lemma Selection.ofSuffix_plain (plain : PlainSuffix suffix) : Selection.ofSuffix suffix =
    .ok { parts := [.fitting (Pattern.ofChars ('*' :: suffix.toList))] } := by
  have pattern : ("*" ++ suffix).toList = '*' :: suffix.toList := by
    rw [String.toList_append]
    rfl
  have unslashed : '/' ∉ '*' :: suffix.toList := by
    rw [List.mem_cons, not_or]
    exact ⟨by decide, not_mem_of_safe plain.safe (by decide)⟩
  have steps : Path.steps ("*" ++ suffix) = ["*" ++ suffix] := by
    have long := plain.two_le_length
    refine steps_eq_singleton (pattern ▸ unslashed) ?_
    rw [pattern, List.length_cons]
    omega
  obtain ⟨ext, e, -, -⟩ := id plain
  have starless : '*' ∉ suffix.toList := not_mem_of_safe plain.safe (by decide)
  have single : hasAdjacentStars ('*' :: suffix.toList) = false := by
    have uncut := piecesAt_of_not_mem (b := '*') starless
    rw [e] at uncut ⊢
    rw [hasAdjacentStars, piecesAt, if_neg (by decide), uncut]
    rfl
  have part : SelectionPart.ofChars ('*' :: suffix.toList) =
      .ok (.fitting (Pattern.ofChars ('*' :: suffix.toList))) := by
    have other : '*' :: suffix.toList ≠ ['*', '*'] := by
      rw [e]
      simp
    rw [SelectionPart.ofChars, if_neg other, single]
    rfl
  have file : decide (('*' :: suffix.toList).getLast? = some '/') = false := by
    rw [decide_eq_false_iff_not]
    exact fun last => unslashed (List.mem_of_getLast? last)
  rw [Selection.ofSuffix]
  simp only [steps, List.mapM_cons, List.mapM_nil, pattern, part, file]
  rfl

end

end CausalUpdate
