import CausalUpdate.Proofs.Program.Language
import CausalUpdate.Proofs.Store.Files
import CausalUpdate.UpdateSequence.Basic

/-!
# Listing stored programs

The files of a listing come in the order of their names, and the texts of those that can be read are
listed under their stems, so that a later file takes the place of an earlier one with the same stem.
One file alone can hide all others: if its bytes are not UTF-8, there is no listing at all.

* `Store.programPlaces_eq` — the files that are looked at.
* `Store.texts_ok`, `Store.texts_error` — reading them, up to the first that is no text.
* `Store.keys_listing`, `Store.mem_listing` — the order of the keys, and the text under each.
* `Store.lists_listing`, `Store.available_cases` — what is listed, if anything is.
* `UpdateSequence.listing_of_files` — listing and loading all programs, whatever the files hold.
-/

namespace CausalUpdate

open CausalUpdate.Text CausalUpdate.Grammar

/-- What a pattern of names takes from a directory. -/
lemma Selection.takeFrom_fitting (t : FileTree) (es : List Pattern.Element) (p : Place) :
    Selection.takeFrom t false [.fitting es] p =
      .ok ((((t.names p.path).filter fun name => Pattern.fits es name.toList).map p.step).filter
        fun q => t.has q.path).eraseDups := by
  have single : ∀ qs : List Place, qs.mapM (fun q => Selection.takeFrom t false [] q) =
      Except.ok (qs.map fun q => [q]) := fun qs => List.mapM_pure
  rw [Selection.takeFrom]
  simp only [List.isEmpty_nil, Bool.not_false, Bool.and_self, if_true, pure_bind, single]
  show Except.ok (List.map (fun q => [q]) _).flatten.eraseDups = _
  rw [← List.flatMap_def, List.flatMap_singleton']

namespace Store

variable {s : Store} {file text name : String} {files : List String} {g : Ledger}

/-! ## Program files -/

/-- A file of the directory that ends in the suffix and reads as a text. -/
def HasText (s : Store) (file text : String) : Prop :=
  s.suffix.toList <:+ file.toList ∧
    ∃ bytes, s.tree.read (s.directory ++ [file]) = .ok bytes ∧ decodeText file bytes = .ok text

/-- A file of the directory that ends in the suffix and holds bytes that are not UTF-8. -/
def IsUndecodable (s : Store) (file : String) : Prop :=
  s.suffix.toList <:+ file.toList ∧
    ∃ bytes, s.tree.read (s.directory ++ [file]) = .ok bytes ∧ String.fromUTF8? bytes = none

/-- The names in the directory that end in the suffix. -/
def programNames (s : Store) : List String :=
  (s.tree.names s.directory).filter fun file => s.suffix.toList.isSuffixOf file.toList

lemma pairwise_programNames (s : Store) : s.programNames.Pairwise (· < ·) :=
  FileTree.pairwise_names.filter _

lemma ends_of_mem_programNames (h : file ∈ s.programNames) : s.suffix.toList <:+ file.toList := by
  simpa using (List.mem_filter.1 h).2

lemma mem_programNames_of_read (plain : PlainSuffix s.suffix)
    (ends : s.suffix.toList <:+ file.toList) {bytes : ByteArray}
    (read : s.tree.read (s.directory ++ [file]) = .ok bytes) : file ∈ s.programNames := by
  obtain ⟨filled, -, ahead⟩ := plain.named ends
  exact List.mem_filter.2 ⟨FileTree.mem_names_of_read read filled ahead, by simpa using ends⟩

/-- The place of a file of the directory. -/
def placeOf (s : Store) (file : String) : Place :=
  ⟨[file], s.directory ++ [file]⟩

/-- **The places of program files are those of the names that end in the suffix**, in order. -/
lemma programPlaces_eq (plain : PlainSuffix s.suffix) :
    s.programPlaces = .ok (s.programNames.map s.placeOf) := by
  have fitting : (s.tree.names s.directory).filter
      (fun name => Pattern.fits (Pattern.ofChars ('*' :: s.suffix.toList)) name.toList) =
        s.programNames := by
    refine List.filter_congr fun name _ => ?_
    rw [Bool.eq_iff_iff, fits_suffix_iff plain, List.isSuffixOf_iff_suffix]
  have steps : s.programNames.map (Place.step { path := s.directory }) =
      s.programNames.map s.placeOf := by
    refine List.map_congr_left fun name hname => ?_
    obtain ⟨filled, here, ahead⟩ := plain.named (ends_of_mem_programNames hname)
    simp [Place.step, Path.next, placeOf, filled, here, ahead]
  have there : (s.programNames.map s.placeOf).filter (fun q => s.tree.has q.path) =
      s.programNames.map s.placeOf := by
    refine List.filter_eq_self.2 fun q hq => ?_
    obtain ⟨name, hname, rfl⟩ := List.mem_map.1 hq
    exact FileTree.has_of_mem_names (List.mem_filter.1 hname).1
  have apart : (s.programNames.map s.placeOf).Nodup := by
    refine List.Nodup.map ?_ ((pairwise_programNames s).imp String.ne_of_lt)
    intro a b e
    simpa [placeOf] using e
  have sorted : (s.programNames.map s.placeOf).Pairwise
      fun p q => Selection.inOrder p.way q.way = true := by
    rw [List.pairwise_map]
    refine (pairwise_programNames s).imp fun {a b} lt => ?_
    have le := string_le_of_lt lt
    simp [Selection.inOrder, placeOf, le]
  rw [programPlaces, Selection.ofSuffix_plain plain]
  show (Selection.places _ s.tree s.directory).mapError StoreFault.path = _
  rw [Selection.places, Selection.takeFrom_fitting, fitting, steps, there, eraseDups_eq_self apart]
  show Except.ok ((s.programNames.map s.placeOf).mergeSort _) = _
  rw [List.mergeSort_of_pairwise sorted]

/-! ## Texts -/

/-- The text of a file of the directory, if there is a file that can be read. -/
def textOf (s : Store) (file : String) : Except StoreFault (Option String) :=
  match s.tree.read (s.directory ++ [file]) with
  | .error _ => .ok none
  | .ok bytes => (decodeText file bytes).map some

lemma decodeText_error_iff {bytes : ByteArray} {e : StoreFault} : decodeText file bytes = .error e ↔
    String.fromUTF8? bytes = none ∧ e = .undecodable file := by
  unfold decodeText
  split
  · rename_i none
    simp [none, eq_comm]
  · rename_i some
    simp [some]

lemma hasText_iff : s.HasText file text ↔
    s.suffix.toList <:+ file.toList ∧ s.textOf file = .ok (some text) := by
  unfold HasText textOf
  cases s.tree.read (s.directory ++ [file]) with
  | error e => simp
  | ok bytes => simp [Except.map_eq_ok_iff]

lemma isUndecodable_iff : s.IsUndecodable file ↔
    s.suffix.toList <:+ file.toList ∧ s.textOf file = .error (.undecodable file) := by
  unfold IsUndecodable textOf
  cases s.tree.read (s.directory ++ [file]) with
  | error e => simp
  | ok bytes => simp [Except.map_eq_error_iff, decodeText_error_iff]

lemma textOf_error {e : StoreFault} (failed : s.textOf file = .error e) :
    e = .undecodable file := by
  unfold textOf at failed
  split at failed
  · cases failed
  · exact (decodeText_error_iff.1 (Except.map_eq_error_iff.1 failed)).2

lemma unifyBreaks_eq_self {cs : List Char} (h : '\r' ∉ cs) : unifyBreaks cs = cs := by
  fun_induction unifyBreaks cs with
  | case1 => simp at h
  | case2 => simp at h
  | case3 c cs _ _ ih => rw [ih (List.not_mem_of_not_mem_cons h)]
  | case4 => rfl

lemma fromUTF8?_toUTF8 (t : String) : String.fromUTF8? t.toUTF8 = some t :=
  dif_pos t.isValidUTF8

/-- A text without carriage returns is read as it was written. -/
lemma decodeText_toUTF8 (h : '\r' ∉ text.toList) : decodeText file text.toUTF8 = .ok text := by
  rw [decodeText, fromUTF8?_toUTF8]
  show Except.ok (String.ofList (unifyBreaks text.toList)) = _
  rw [unifyBreaks_eq_self h, String.ofList_toList]

/-- The texts of those files of a list that can be read. -/
def texts (s : Store) : List String → Except StoreFault (List (String × String))
  | [] => .ok []
  | file :: files =>
    match s.textOf file with
    | .error e => .error e
    | .ok none => s.texts files
    | .ok (some text) => (s.texts files).map ((file, text) :: ·)

/-- A listing with the text of one more file. -/
def insertFile (found : List (String × String)) (e : String × String) : List (String × String) :=
  insertText (fileStem e.1) e.2 found

/-- The listing of files with their texts. -/
def listing (found : List (String × String)) : List (String × String) :=
  found.foldl insertFile []

lemma collectTexts_run (files : List String) (found : List (String × String)) (g : Ledger) :
    ((s.collectTexts found (files.map s.placeOf)).run g).1 =
      (s.texts files).map (List.foldl insertFile found) := by
  induction files generalizing found g with
  | nil => rfl
  | cons file files ih =>
      rw [List.map_cons, collectTexts, texts, textOf]
      cases read : s.tree.read (s.directory ++ [file]) with
      | error e =>
          simp only [placeOf, read]
          exact ih found _
      | ok bytes =>
          simp only [placeOf, read, List.getLast?_singleton, Option.getD_some, Attempt.run_bind,
            Attempt.run_of]
          cases decodeText file bytes with
          | error e => rfl
          | ok text =>
              refine (ih _ g).trans ?_
              show _ = ((s.texts files).map ((file, text) :: ·)).map _
              cases s.texts files <;> rfl

lemma available_run (plain : PlainSuffix s.suffix) (g : Ledger) :
    (s.available.run g).1 = (s.texts s.programNames).map listing := by
  rw [available, Attempt.run_bind, Attempt.run_of, programPlaces_eq plain]
  exact collectTexts_run _ _ _

/-- Reading ends at a file that is no text. -/
lemma texts_error {e : StoreFault} (failed : s.texts files = .error e) :
    ∃ file ∈ files, s.textOf file = .error e := by
  induction files with
  | nil => cases failed
  | cons file files ih =>
      rw [texts] at failed
      split at failed
      · rename_i here
        cases failed
        exact ⟨file, List.mem_cons_self, here⟩
      · obtain ⟨bad, hbad, rest⟩ := ih failed
        exact ⟨bad, List.mem_cons_of_mem _ hbad, rest⟩
      · cases rest : s.texts files with
        | error e' =>
            rw [rest] at failed
            cases failed
            obtain ⟨bad, hbad, rest⟩ := ih rest
            exact ⟨bad, List.mem_cons_of_mem _ hbad, rest⟩
        | ok found =>
            rw [rest] at failed
            cases failed

/-- Reading that goes through gives the texts of all files that can be read, in order. -/
lemma texts_ok {found : List (String × String)} (read : s.texts files = .ok found) :
    (found.map Prod.fst).Sublist files ∧ (∀ file ∈ files, ∃ text?, s.textOf file = .ok text?) ∧
      ∀ file text, (file, text) ∈ found ↔ file ∈ files ∧ s.textOf file = .ok (some text) := by
  induction files generalizing found with
  | nil =>
      cases read
      simp
  | cons file files ih =>
      rw [texts] at read
      split at read
      · cases read
      · rename_i here
        obtain ⟨sub, clean, mem⟩ := ih read
        refine ⟨sub.cons _, List.forall_mem_cons.2 ⟨⟨_, here⟩, clean⟩, fun f text => ?_⟩
        rw [mem, List.mem_cons, or_and_right, or_iff_right]
        rintro ⟨rfl, other⟩
        cases here.symm.trans other
      · rename_i text here
        obtain ⟨rest, e, rfl⟩ := Except.map_eq_ok_iff.1 read
        obtain ⟨sub, clean, mem⟩ := ih e
        refine ⟨sub.cons_cons _, List.forall_mem_cons.2 ⟨⟨_, here⟩, clean⟩, fun f text' => ?_⟩
        rw [List.mem_cons, List.mem_cons, mem, or_and_right, Prod.mk.injEq]
        refine or_congr ⟨?_, ?_⟩ Iff.rfl
        · rintro ⟨rfl, rfl⟩
          exact ⟨rfl, here⟩
        · rintro ⟨rfl, other⟩
          cases here.symm.trans other
          exact ⟨rfl, rfl⟩

/-! ## Entries -/

lemma keys_insertText (name text : String) (found : List (String × String)) :
    (insertText name text found).map Prod.fst =
      if name ∈ found.map Prod.fst then found.map Prod.fst else found.map Prod.fst ++ [name] := by
  induction found with
  | nil => rfl
  | cons e found ih =>
      obtain ⟨n, t⟩ := e
      rw [insertText]
      by_cases same : n = name
      · rw [if_pos same]
        simp [same]
      · rw [if_neg same, List.map_cons, ih]
        simp only [List.map_cons, List.mem_cons, Ne.symm same, false_or]
        split <;> rfl

/-- Under distinct names, a new text takes the place of the old one and all others stay. -/
lemma mem_insertText {name text : String} {found : List (String × String)}
    (distinct : (found.map Prod.fst).Nodup) {e : String × String} :
    e ∈ insertText name text found ↔ e = (name, text) ∨ e.1 ≠ name ∧ e ∈ found := by
  induction found with
  | nil => simp [insertText]
  | cons f found ih =>
      obtain ⟨n, t⟩ := f
      obtain ⟨fresh, distinct⟩ := List.nodup_cons.1 distinct
      rw [insertText]
      by_cases same : n = name
      · subst same
        have apart : ∀ e ∈ found, e.1 ≠ n := by
          intro e he h
          exact fresh (List.mem_map.2 ⟨e, he, h⟩)
        rw [if_pos rfl, List.mem_cons, List.mem_cons]
        refine or_congr Iff.rfl ⟨fun he => ⟨apart e he, Or.inr he⟩, ?_⟩
        rintro ⟨ne, rfl | he⟩
        · exact absurd rfl ne
        · exact he
      · rw [if_neg same, List.mem_cons, List.mem_cons, ih distinct]
        constructor
        · rintro (rfl | rfl | ⟨ne, he⟩)
          · exact Or.inr ⟨same, Or.inl rfl⟩
          · exact Or.inl rfl
          · exact Or.inr ⟨ne, Or.inr he⟩
        · rintro (rfl | ⟨ne, rfl | he⟩)
          · exact Or.inr (Or.inl rfl)
          · exact Or.inl rfl
          · exact Or.inr (Or.inr ⟨ne, he⟩)

lemma listing_concat (found : List (String × String)) (e : String × String) :
    listing (found ++ [e]) = insertText (fileStem e.1) e.2 (listing found) := by
  rw [listing, List.foldl_append]
  rfl

/-- **The keys of a listing are the stems of the files**, in their order. -/
lemma keys_listing (found : List (String × String)) :
    (listing found).map Prod.fst = (found.map fun e => fileStem e.1).eraseDups := by
  induction found using List.reverseRecOn with
  | nil => rfl
  | append_singleton found e ih =>
      rw [listing_concat, keys_insertText, ih, List.map_append, List.map_singleton,
        eraseDups_concat]

/-- **The text under a key is that of the last file with this stem.** -/
lemma mem_listing {found : List (String × String)}
    (sorted : (found.map Prod.fst).Pairwise (· < ·)) {key text : String} :
    (key, text) ∈ listing found ↔ ∃ file, (file, text) ∈ found ∧ fileStem file = key ∧
      ∀ e ∈ found, fileStem e.1 = key → e.1 ≤ file := by
  induction found using List.reverseRecOn with
  | nil => simp [listing]
  | append_singleton found last ih =>
      rw [List.map_append, List.pairwise_append] at sorted
      obtain ⟨sorted, -, before⟩ := sorted
      have smaller : ∀ e ∈ found, e.1 < last.1 := fun e he =>
        before e.1 (List.mem_map_of_mem he) last.1 (by simp)
      have distinct : ((listing found).map Prod.fst).Nodup := by
        rw [keys_listing]
        exact nodup_eraseDups _
      rw [listing_concat, mem_insertText distinct, ih sorted]
      constructor
      · rintro (e | ⟨other, file, here, rfl, latest⟩)
        · cases e
          refine ⟨last.1, by simp, rfl, fun e he _ => ?_⟩
          rcases List.mem_append.1 he with he | he
          · exact string_le_of_lt (smaller e he)
          · obtain rfl := List.mem_singleton.1 he
            exact String.le_refl _
        · refine ⟨file, List.mem_append_left _ here, rfl, fun e he stem => ?_⟩
          rcases List.mem_append.1 he with he | he
          · exact latest e he stem
          · rw [List.mem_singleton.1 he] at stem
            exact absurd stem.symm other
      · rintro ⟨file, here, rfl, latest⟩
        rcases List.mem_append.1 here with here | here
        · refine Or.inr ⟨fun stem => ?_, file, here, rfl, fun e he =>
            latest e (List.mem_append_left _ he)⟩
          exact latest last (by simp) stem.symm (smaller _ here)
        · rw [← List.mem_singleton.1 here]
          exact Or.inl rfl

/-- The entries are what a listing of the directory has to be.  Every file that can be read is
listed under its stem, unless its name is nothing but the suffix and another file is the suffix
twice; and the stems stand in the order of the names of the files, so that one of two names comes
later only if it is greater or a part of the other. -/
structure Lists (s : Store) (entries : List (String × String)) : Prop where
  mem_iff : ∀ key text, (key, text) ∈ entries ↔ ∃ file, s.HasText file text ∧
    fileStem file = key ∧ (file = s.suffix → ∀ text, ¬ s.HasText (s.suffix ++ s.suffix) text)
  byFile : ∃ files : List String, files.Pairwise (· < ·) ∧
    (∀ file, file ∈ files ↔ ∃ text, s.HasText file text) ∧
    entries.map Prod.fst = (files.map fileStem).eraseDups
  distinct : (entries.map Prod.fst).Nodup
  ordered : (entries.map Prod.fst).Pairwise fun k l => k < l ∨ l.toList <+: k.toList

/-- What has been read is listed. -/
lemma lists_listing (plain : PlainSuffix s.suffix) {found : List (String × String)}
    (read : s.texts s.programNames = .ok found) : s.Lists (listing found) := by
  obtain ⟨sub, -, mem⟩ := texts_ok read
  have held : ∀ file text, (file, text) ∈ found ↔ s.HasText file text := by
    intro file text
    rw [mem, hasText_iff]
    refine ⟨fun h => ⟨ends_of_mem_programNames h.1, h.2⟩, fun h => ⟨?_, h.2⟩⟩
    obtain ⟨bytes, there, -⟩ := (hasText_iff.2 h).2
    exact mem_programNames_of_read plain h.1 there
  have sorted := (pairwise_programNames s).sublist sub
  have longer := lt_append (t := s.suffix) (plain.named List.suffix_rfl).1
  constructor
  · intro key text
    rw [mem_listing sorted]
    refine exists_congr fun file => ?_
    rw [held]
    refine and_congr_right fun here => and_congr_right fun stem => ?_
    constructor
    · rintro latest rfl twice other
      have same := (fileStem_suffix_suffix plain).trans (fileStem_suffix plain).symm
      exact latest _ ((held _ _).2 other) (same.trans stem) longer
    · intro alone e he same
      have there := (held _ _).1 he
      rcases eq_or_suffix_of_fileStem_eq plain there.1 here.1 (same.trans stem.symm) with
        e | ⟨e, rfl⟩ | ⟨e, file⟩
      · exact e ▸ String.le_refl _
      · rw [e]
        exact string_le_of_lt longer
      · exact absurd (e ▸ there) (alone file _)
  · refine ⟨found.map Prod.fst, sorted, fun file => ?_, ?_⟩
    · simp only [List.mem_map, Prod.exists, exists_and_right, exists_eq_right, held]
    · rw [keys_listing, List.map_map]
      rfl
  · rw [keys_listing]
    exact nodup_eraseDups _
  · rw [keys_listing]
    refine List.Pairwise.sublist (eraseDups_sublist _) ?_
    rw [List.pairwise_map] at sorted ⊢
    refine sorted.imp fun {e f} lt => ?_
    have order := lt_or_isPrefix_of_lt lt (stem_isPrefix e.1.toList) (stem_isPrefix f.1.toList)
    show (fileStem e.1).toList < (fileStem f.1).toList ∨ _
    rwa [fileStem, fileStem, String.toList_ofList, String.toList_ofList]

/-! ## All programs -/

/-- A listing fails at a file that is no text, if there is one, and goes through otherwise. -/
lemma available_cases (plain : PlainSuffix s.suffix) (g : Ledger) :
    (∃ file, s.IsUndecodable file ∧ (s.available.run g).1 = .error (.undecodable file)) ∨
    (∀ file, ¬ s.IsUndecodable file) ∧
      ∃ entries, s.Lists entries ∧ (s.available.run g).1 = .ok entries := by
  rw [available_run plain]
  cases read : s.texts s.programNames with
  | error e =>
      obtain ⟨file, hfile, failed⟩ := texts_error read
      obtain rfl := textOf_error failed
      exact Or.inl ⟨file, isUndecodable_iff.2 ⟨ends_of_mem_programNames hfile, failed⟩, rfl⟩
  | ok found =>
      obtain ⟨-, clean, -⟩ := texts_ok read
      refine Or.inr ⟨fun file bad => ?_, listing found, lists_listing plain read, rfl⟩
      obtain ⟨bytes, there, -⟩ := bad.2
      obtain ⟨text?, read⟩ := clean file (mem_programNames_of_read plain bad.1 there)
      cases read.symm.trans (isUndecodable_iff.1 bad).2

end Store

/-! ## Programs -/

/-- A program can be read from the text. -/
def Program.Parses (text : String) : Prop :=
  ∃ name g p g', (Program.parse (some text) name).run g = (.ok p, g')

/-- What can be read once can be read under every name, whatever identifiers have been taken. -/
lemma Program.Parses.run {text : String} (h : Program.Parses text) (name : String) (g : Ledger) :
    ∃ p g', (Program.parse (some text) name).run g = (.ok p, g') := by
  obtain ⟨name', g₁, p, g₂, run⟩ := h
  obtain ⟨rs, g₃, read, some, -⟩ := parse_ok_iff_parseRules.1 run
  have again := parseRules_of_writesText (writesText_of_parseRules read) g
  refine ⟨_, _, parse_ok_iff_parseRules.2 ⟨_, _, again, fun none => some ?_, rfl⟩⟩
  have clauses := (mintAll_apply 0 (rs.map Rule.toClause) g).1
  rw [none] at clauses
  exact List.map_eq_nil_iff.1 clauses.symm

/-- The programs are those that can be read from the entries, in order and each under the key of its
text. -/
def ReadFrom (entries : List (String × String)) (programs : List (String × Program)) : Prop :=
  ∃ kept, kept.Sublist entries ∧ (∀ e ∈ entries, e ∈ kept ↔ Program.Parses e.2) ∧
    List.Forall₂ (fun e q => q.1 = e.1 ∧
      ∃ g g', (Program.parse (some e.2) e.1).run g = (.ok q.2, g')) kept programs

namespace UpdateSequence

/-- Of the texts, those are kept that programs can be read from. -/
lemma parseStored_reads (entries : List (String × String)) (g : Ledger) :
    ReadFrom entries (parseStored entries g).1 := by
  induction entries generalizing g with
  | nil => exact ⟨[], .slnil, by simp, .nil⟩
  | cons e entries ih =>
      obtain ⟨name, text⟩ := e
      rcases run : (Program.parse (some text) name).run g with ⟨failed | p, g'⟩
      · have refused : ¬ Program.Parses text := by
          intro parses
          obtain ⟨p, g', other⟩ := parses.run name g
          cases run.symm.trans other
        obtain ⟨kept, sub, mem, all⟩ := ih (Work.note .warning "update"
          s!"Skipping stored program '{name}': {failed.message}" g').2
        refine ⟨kept, sub.cons _, List.forall_mem_cons.2 ⟨?_, mem⟩, ?_⟩
        · exact iff_of_false (fun h => refused ((mem _ (sub.subset h)).1 h)) refused
        · rw [parseStored, Work.bind_apply, run]
          exact all
      · obtain ⟨kept, sub, mem, all⟩ := ih g'
        refine ⟨(name, text) :: kept, sub.cons_cons _, List.forall_mem_cons.2 ⟨?_, ?_⟩, ?_⟩
        · exact iff_of_true List.mem_cons_self ⟨name, g, p, g', run⟩
        · intro e he
          rw [List.mem_cons, mem e he, or_iff_right_of_imp]
          rintro rfl
          exact ⟨name, g, p, g', run⟩
        · rw [parseStored, Work.bind_apply, run]
          exact .cons ⟨rfl, g, g', run⟩ all

/-- **Listing and loading, whatever the files hold.**  Loading a name fails only at bytes that are
not UTF-8.  So does listing: one file with such bytes is enough, and then nothing is listed and no
program is loaded.  If there is none, all files that can be read are listed, and of these texts
those that write a program are loaded, with the program they write. -/
theorem listing_of_files {u : UpdateSequence} {s : Store} (store : u.store = some s)
    (plain : PlainSuffix s.suffix) (g : Ledger) :
    (∀ name e, ((s.load name).run g).1 = .error e ↔ ∃ path bytes,
      s.bytesOf name = .ok (path, bytes) ∧ String.fromUTF8? bytes = none ∧
        e = .undecodable (path.getLast?.getD "")) ∧
    ((∃ file, s.IsUndecodable file ∧ (s.available.run g).1 = .error (.undecodable file) ∧
      (u.loadAvailable.run g).1 = .error (.undecodable file)) ∨
    (∀ file, ¬ s.IsUndecodable file) ∧ ∃ entries programs,
      (s.available.run g).1 = .ok entries ∧ s.Lists entries ∧
      (u.loadAvailable.run g).1 = .ok programs ∧ ReadFrom entries programs) := by
  constructor
  · intro name e
    rw [Store.load_run plain]
    cases s.bytesOf name with
    | error failed => simp
    | ok found =>
        obtain ⟨path, bytes⟩ := found
        rw [Store.decodeText_error_iff]
        constructor
        · rintro ⟨none, rfl⟩
          exact ⟨path, bytes, rfl, none, rfl⟩
        · rintro ⟨path, bytes, ⟨⟩, none, rfl⟩
          exact ⟨none, rfl⟩
  · have loads : ∀ r g', s.available.run g = (r, g') → (u.loadAvailable.run g).1 =
        r.map fun entries => (parseStored entries g').1 := by
      intro r g' run
      rw [loadAvailable, store]
      simp only [Attempt.run_bind, run]
      cases r <;> rfl
    rcases run : s.available.run g with ⟨r, g'⟩
    have loaded := loads r g' run
    rcases Store.available_cases plain g with ⟨file, bad, failed⟩ | ⟨clean, entries, lists, listed⟩
    · rw [run] at failed
      obtain rfl : r = _ := failed
      exact Or.inl ⟨file, bad, rfl, loaded⟩
    · rw [run] at listed
      obtain rfl : r = _ := listed
      exact Or.inr ⟨clean, entries, _, rfl, lists, loaded, parseStored_reads entries g'⟩

/-- A byte that no text has, beside a program. -/
theorem listing_of_files_byte :
    let good : Store := { tree := { files := [(["a.lp"], "a.\n".toUTF8)] } }
    let bad : Store := { tree := good.tree.put ["b.lp"] ⟨#[0xff]⟩ }
    PlainSuffix ".lp" ∧
    (∃ file, ((UpdateSequence.loadAvailable { store := some bad }).run {}).1 =
      .error (.undecodable file)) ∧
    ∃ entries, (good.available.run {}).1 = .ok entries ∧ ("a", "a.\n") ∈ entries := by
  intro good bad
  have plain : PlainSuffix ".lp" := ⟨['l', 'p'], rfl, by decide, List.all_eq_true.1 rfl⟩
  refine ⟨plain, ?_, ?_⟩
  · have undecodable : bad.IsUndecodable "b.lp" := ⟨by decide, _, rfl, by decide⟩
    rcases (listing_of_files (u := { store := some bad }) rfl plain {}).2 with
      ⟨file, -, -, failed⟩ | ⟨clean, -⟩
    · exact ⟨file, failed⟩
    · exact absurd undecodable (clean _)
  · have text : good.HasText "a.lp" "a.\n" :=
      ⟨by decide, _, rfl, Store.decodeText_toUTF8 (by decide)⟩
    rcases (listing_of_files (u := { store := some good }) rfl plain {}).2 with
      ⟨file, ⟨-, bytes, read, none⟩, -⟩ | ⟨-, entries, programs, listed, lists, -⟩
    · have found := FileTree.mem_paths_of_read read
      obtain rfl : file = "a.lp" := by simpa [good, FileTree.paths] using found
      cases read
      rw [Store.fromUTF8?_toUTF8] at none
      cases none
    · refine ⟨entries, listed, (lists.mem_iff _ _).2 ⟨"a.lp", text, by decide, ?_⟩⟩
      intro same
      exact absurd same (by decide)

end UpdateSequence

end CausalUpdate
