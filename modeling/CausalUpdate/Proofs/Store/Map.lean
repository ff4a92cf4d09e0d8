import CausalUpdate.Proofs.Store.Listing

/-!
# The store as a map

What is left of a name is the key of a program.  `Keeps` says that a store holds one file for every
key of a map, under the name that the key makes with the suffix and with the text of the program,
and that there is nothing else in its directory.  Storing and deleting change the map at one key,
and loading reads it there.  So after any run of calls the store answers from the latest program
that was stored under a key and not deleted since (`Store.shows_latest`).

* `Keeps.stored`, `Keeps.deleted` — what one change of a file preserves.
* `Keeps.perform`, `Keeps.performAll` — what a call and a run of calls preserve.
* `Keeps.load_run`, `Keeps.available_run` — what is seen of the map.
* `Shows` — all that the store answers, from the map.
-/

namespace CausalUpdate

open CausalUpdate.Text CausalUpdate.Grammar

/-! ## Calls -/

inductive StoreCall
  | persist (program : Option Program) (name : Option String)
  | load (name : String)
  | delete (name : String)

inductive StoreAnswer
  | done (ok : Bool)
  | text (text : String)
deriving DecidableEq

/-- The rules of the program say something, no two of them the same, and can be read. -/
structure Storable (p : Program) : Prop where
  nonempty : ∀ r ∈ p.rules, r.isEmpty = false
  unrepeated : p.Unrepeated
  readable : ReadableProgram p

namespace StoreCall

/-- The program that is to be stored, if there is one, is storable. -/
def Clean : StoreCall → Prop
  | persist (some p) _ => Storable p
  | _ => True

/-- The key under which a call can change something. -/
def key? : StoreCall → Option (List Char)
  | persist (some p) name => some (safeName (Store.nameFor p name).toList)
  | delete name => some (safeName name.toList)
  | _ => none

end StoreCall

/-- What is stored under a key after a call that was answered, if `stored` was before. -/
def recorded (key : List Char) (stored : Option Program) : StoreCall × StoreAnswer → Option Program
  | (.persist (some p) name, .done true) =>
    if safeName (Store.nameFor p name).toList = key then some p else stored
  | (.delete name, .done true) => if safeName name.toList = key then none else stored
  | _ => stored

/-- The program that was stored last under a key and not deleted since. -/
def latest (key : List Char) (history : List (StoreCall × StoreAnswer)) : Option Program :=
  history.foldl (recorded key) none

/-- What was stored under a key just now is the latest program there. -/
lemma latest_persisted {key : List Char} {p : Program} {name : Option String}
    (same : safeName (Store.nameFor p name).toList = key)
    (history : List (StoreCall × StoreAnswer)) :
    latest key (history ++ [(.persist (some p) name, .done true)]) = some p := by
  rw [latest, List.foldl_append, List.foldl_cons, List.foldl_nil, recorded, if_pos same]

namespace Store

/-- A call of a store and its answer. -/
def perform (s : Store) : StoreCall → Attempt StoreFault (StoreAnswer × Store)
  | .persist program name => do
    let result ← s.persist program name
    return (.done result.1, result.2)
  | .load name => do
    let text ← s.load name
    return (.text text, s)
  | .delete name => do
    let result ← s.deleteName name
    return (.done result.1, result.2)

/-- Calls of a store, one after the other, and their answers. -/
def performAll (s : Store) : List StoreCall → Attempt StoreFault (List StoreAnswer × Store)
  | [] => return ([], s)
  | call :: calls => do
    let (answer, s) ← s.perform call
    let (answers, s) ← s.performAll calls
    return (answer :: answers, s)

/-- The directory is there and there is nothing in it. -/
def IsEmpty (s : Store) : Prop :=
  s.tree.isDirectory s.directory ∧ ∀ path ∈ s.tree.paths, s.directory <+: path → path = s.directory

/-- The store holds the programs of a map by key: one file for every key, and nothing else. -/
structure Keeps (s : Store) (shelf : List Char → Option Program) : Prop where
  isDirectory : s.tree.isDirectory s.directory
  flat : ∀ path ∈ s.tree.directories, s.directory <+: path → path = s.directory
  files : ∀ path bytes, s.tree.files.lookup path = some bytes → s.directory <+: path →
    ∃ key p, shelf key = some p ∧ path = s.directory ++ [s.fileOf key]
  holds : ∀ key p, shelf key = some p →
    s.tree.files.lookup (s.directory ++ [s.fileOf key]) = some (storedText p).toUTF8
  keyed : ∀ key p, shelf key = some p → key ≠ [] ∧ safeName key = key ∧
    (s.fileOf key).utf8ByteSize ≤ nameLimit
  clean : ∀ key p, shelf key = some p → p.rules ≠ [] ∧ Storable p

variable {s : Store} {shelf : List Char → Option Program} {key : List Char} {p : Program}
  {name : String} {g : Ledger}

/-- The store with the text of a program in the file of a key. -/
def withFile (s : Store) (key : List Char) (p : Program) : Store :=
  { s with tree := s.tree.put (s.directory ++ [s.fileOf key]) (storedText p).toUTF8 }

/-- The store without the file of a key. -/
def withoutFile (s : Store) (key : List Char) : Store :=
  { s with tree := s.tree.erase (s.directory ++ [s.fileOf key]) }

/-- There is nothing against storing the program under the name: it has rules, something is left of
the name, and the name of the file is short enough. -/
def Takes (s : Store) (p : Program) (name : Option String) : Prop :=
  p.rules ≠ [] ∧ safeName (nameFor p name).toList ≠ [] ∧
    (s.fileOf (safeName (nameFor p name).toList)).utf8ByteSize + temporaryMargin ≤ nameLimit

instance (s : Store) (p : Program) (name : Option String) : Decidable (s.Takes p name) :=
  inferInstanceAs (Decidable (_ ∧ _ ∧ _))

lemma IsEmpty.keeps (empty : s.IsEmpty) : s.Keeps fun _ => none where
  isDirectory := empty.1
  flat path hpath := empty.2 path (FileTree.mem_paths_iff.2 (Or.inr hpath))
  files path bytes found below := by
    have here := empty.2 path (FileTree.mem_paths_iff.2 (Or.inl ⟨bytes, found⟩)) below
    rw [here, (FileTree.isDirectory_iff.1 empty.1).1] at found
    cases found
  holds _ _ h := by cases h
  keyed _ _ h := by cases h
  clean _ _ h := by cases h

/-! ## Files of keys -/

lemma fileOf_injective {key key' : List Char} (h : s.fileOf key = s.fileOf key') : key = key' := by
  have chars := congrArg String.toList h
  rw [fileOf, fileOf, String.toList_append, String.toList_append, String.toList_ofList,
    String.toList_ofList] at chars
  exact List.append_cancel_right chars

lemma named_fileOf (plain : PlainSuffix s.suffix) (key : List Char) :
    s.fileOf key ≠ "" ∧ s.fileOf key ≠ "." ∧ s.fileOf key ≠ ".." := by
  refine plain.named ⟨key, ?_⟩
  rw [fileOf, String.toList_append, String.toList_ofList]

lemma return_not_mem_storedText (readable : ReadableProgram p) :
    '\r' ∉ (storedText p).toList := by
  rw [storedText, String.toList_append, List.mem_append, not_or]
  exact ⟨return_not_mem_source readable, by decide⟩

namespace Keeps

lemma pathFor (h : s.Keeps shelf) (plain : PlainSuffix s.suffix) (name : String) :
    s.pathFor name =
      if safeName name.toList = [] then .error (.invalidName name)
      else if nameLimit < (s.fileOf (safeName name.toList)).utf8ByteSize then
        .error (.path .longName)
      else .ok (s.directory ++ [s.fileOf (safeName name.toList)]) := by
  obtain ⟨filled, here, ahead⟩ := named_fileOf plain (safeName name.toList)
  have directory : s.tree.kind s.directory = .directory := by
    have there := h.isDirectory
    unfold FileTree.isDirectory at there
    split at there
    · assumption
    · cases there
  have next : Path.next s.directory (s.fileOf (safeName name.toList)) =
      s.directory ++ [s.fileOf (safeName name.toList)] := by
    rw [Path.next, if_neg (by simp [filled, here]), if_neg ahead]
  rw [pathFor_eq plain, FileTree.walk, directory]
  simp only [FileTree.walk, next]
  split
  · rfl
  · split <;> rfl

/-- A file that can be read is that of a key. -/
lemma exists_of_read (h : s.Keeps shelf) {file : String} {bytes : ByteArray}
    (read : s.tree.read (s.directory ++ [file]) = .ok bytes) :
    ∃ key p, shelf key = some p ∧ file = s.fileOf key ∧ bytes = (storedText p).toUTF8 := by
  rw [FileTree.read_ok_iff] at read
  obtain ⟨key, p, stored, same⟩ := h.files _ _ read (List.prefix_append _ _)
  obtain rfl : file = s.fileOf key := by simpa using same
  exact ⟨key, p, stored, rfl, Option.some.inj (read.symm.trans (h.holds key p stored))⟩

lemma bytesOf_of_some (h : s.Keeps shelf) (plain : PlainSuffix s.suffix)
    (stored : shelf (safeName name.toList) = some p) : s.bytesOf name =
      .ok (s.directory ++ [s.fileOf (safeName name.toList)], (storedText p).toUTF8) := by
  obtain ⟨filled, -, short⟩ := h.keyed _ _ stored
  rw [bytesOf, h.pathFor plain, if_neg filled, if_neg (Nat.not_lt.2 short)]
  show (s.tree.read _).mapError StoreError.path >>= _ = _
  rw [FileTree.read_ok_iff.2 (h.holds _ _ stored)]
  rfl

lemma bytesOf_of_none (h : s.Keeps shelf) (plain : PlainSuffix s.suffix)
    (missing : shelf (safeName name.toList) = none) : ∃ e, s.bytesOf name = .error e := by
  rw [bytesOf, h.pathFor plain]
  split
  · exact ⟨_, rfl⟩
  · split
    · exact ⟨_, rfl⟩
    · show ∃ e, (s.tree.read _).mapError StoreError.path >>= _ = .error e
      cases read : s.tree.read (s.directory ++ [s.fileOf (safeName name.toList)]) with
      | error e => exact ⟨_, rfl⟩
      | ok bytes =>
          obtain ⟨key, p, stored, same, -⟩ := h.exists_of_read read
          rw [← fileOf_injective same, missing] at stored
          cases stored

/-- **Loading a name gives the text of its program**, and nothing if there is none. -/
lemma load_run (h : s.Keeps shelf) (plain : PlainSuffix s.suffix) (name : String) (g : Ledger) :
    ((s.load name).run g).1 = .ok ((shelf (safeName name.toList)).elim "" storedText) := by
  rw [Store.load_run plain]
  cases stored : shelf (safeName name.toList) with
  | none =>
      obtain ⟨e, bytes⟩ := h.bytesOf_of_none plain stored
      rw [bytes]
      rfl
  | some p =>
      rw [h.bytesOf_of_some plain stored]
      exact decodeText_toUTF8 (return_not_mem_storedText (h.clean _ _ stored).2.readable)

/-! ## Changes -/

/-- Nothing but a file can have the path of a key. -/
lemma not_isDirectory (h : s.Keeps shelf) (plain : PlainSuffix s.suffix) (key : List Char) :
    s.tree.isDirectory (s.directory ++ [s.fileOf key]) = false := by
  obtain ⟨filled, -, ahead⟩ := named_fileOf plain key
  rw [Bool.eq_false_iff]
  intro directory
  obtain ⟨none, outside | root | ⟨path, hpath, below⟩⟩ := FileTree.isDirectory_iff.1 directory
  · simp [ahead] at outside
  · exact FileTree.append_ne_root filled root
  · have deeper := (List.prefix_append s.directory _).trans below
    rcases FileTree.mem_paths_iff.1 hpath with ⟨bytes, found⟩ | listed
    · obtain ⟨key', p, stored, rfl⟩ := h.files path bytes found deeper
      have same := below.eq_of_length (by simp)
      rw [same, found] at none
      cases none
    · rw [h.flat path listed deeper] at below
      have := below.length_le
      rw [List.length_append, List.length_singleton] at this
      omega

lemma above_fileOf (plain : PlainSuffix s.suffix) (key : List Char) :
    Path.above (s.directory ++ [s.fileOf key]) = s.directory :=
  FileTree.above_append (named_fileOf plain key).1 (named_fileOf plain key).2.2

/-- The files of different keys have different paths. -/
lemma path_ne {key key' : List Char} (other : key ≠ key') :
    s.directory ++ [s.fileOf key'] ≠ s.directory ++ [s.fileOf key] := by
  intro same
  exact other (fileOf_injective (by simpa using same)).symm

/-- **A program that is stored is held under its key**, and nothing else changes. -/
lemma stored (h : s.Keeps shelf) (filled : key ≠ []) (safe : safeName key = key)
    (short : (s.fileOf key).utf8ByteSize ≤ nameLimit) (rules : p.rules ≠ [])
    (storable : Storable p) :
    (s.withFile key p).Keeps fun k => if key = k then some p else shelf k where
  isDirectory := FileTree.isDirectory_put h.isDirectory
  flat := h.flat
  files path bytes found below := by
    have found := FileTree.lookup_put.symm.trans found
    split at found
    · rename_i same
      exact ⟨key, p, if_pos rfl, same⟩
    · rename_i other
      obtain ⟨k, q, held, rfl⟩ := h.files path bytes found below
      refine ⟨k, q, ?_, rfl⟩
      rw [if_neg, held]
      rintro rfl
      exact other rfl
  holds k q held := by
    refine FileTree.lookup_put.trans ?_
    split at held
    · rename_i same
      cases held
      exact if_pos (same ▸ rfl)
    · rename_i other
      exact (if_neg (path_ne other)).trans (h.holds k q held)
  keyed k q held := by
    split at held
    · rename_i same
      exact same ▸ ⟨filled, safe, short⟩
    · exact h.keyed k q held
  clean k q held := by
    split at held
    · cases held
      exact ⟨rules, storable⟩
    · exact h.clean k q held

lemma of_without {k : List Char} {q : Program}
    (held : (if key = k then none else shelf k) = some q) : key ≠ k ∧ shelf k = some q := by
  split at held
  · cases held
  · exact ⟨‹_›, held⟩

/-- **A program that is deleted is gone**, and nothing else changes. -/
lemma deleted (h : s.Keeps shelf) (plain : PlainSuffix s.suffix) (key : List Char) :
    (s.withoutFile key).Keeps fun k => if key = k then none else shelf k where
  isDirectory := FileTree.isDirectory_erase h.isDirectory (above_fileOf plain key)
  flat path listed below := by
    rcases List.mem_cons.1 listed with rfl | listed
    · exact above_fileOf plain key
    · exact h.flat path listed below
  files path bytes found below := by
    have found := FileTree.lookup_erase.symm.trans found
    split at found
    · cases found
    · rename_i other
      obtain ⟨k, q, held, rfl⟩ := h.files path bytes found below
      refine ⟨k, q, ?_, rfl⟩
      rw [if_neg, held]
      rintro rfl
      exact other rfl
  holds k q held := by
    obtain ⟨other, held⟩ := of_without held
    refine FileTree.lookup_erase.trans ?_
    exact (if_neg (path_ne other)).trans (h.holds k q held)
  keyed k q held := h.keyed k q (of_without held).2
  clean k q held := h.clean k q (of_without held).2

lemma writeFault?_eq_none_iff (h : s.Keeps shelf) (plain : PlainSuffix s.suffix)
    (key : List Char) :
    s.writeFault? (s.fileOf key) (s.directory ++ [s.fileOf key]) = none ↔
      (s.fileOf key).utf8ByteSize + temporaryMargin ≤ nameLimit := by
  rw [writeFault?, h.not_isDirectory plain, ← Nat.not_lt]
  by_cases long : nameLimit < (s.fileOf key).utf8ByteSize + temporaryMargin
  · rw [if_pos long]
    exact iff_of_false (by simp) fun short => short long
  · rw [if_neg long]
    exact iff_of_true rfl long

/-- Storing a program writes its file, if there is nothing against that. -/
lemma persist_run (h : s.Keeps shelf) (plain : PlainSuffix s.suffix) (p : Program)
    (name : Option String) (g : Ledger) :
    ((s.persist (some p) name).run g).1 =
      if s.Takes p name then .ok (true, s.withFile (safeName (nameFor p name).toList) p)
      else .ok (false, s) := by
  by_cases rules : p.rules = []
  · rw [persist_empty (by simp [Option.filter, Program.isEmpty, rules]), if_neg]
    exact fun takes => takes.1 rules
  have some : p.isEmpty = false := by
    simp [Program.isEmpty, rules]
  have located := h.pathFor plain (nameFor p name)
  rw [Store.persist_run plain some]
  by_cases filled : safeName (nameFor p name).toList = []
  · rw [if_pos filled] at located
    rw [located, if_neg]
    exact fun takes => takes.2.1 filled
  by_cases long : nameLimit < (s.fileOf (safeName (nameFor p name).toList)).utf8ByteSize
  · rw [if_neg filled, if_pos long] at located
    rw [located, if_neg]
    rintro ⟨-, -, short⟩
    omega
  rw [if_neg filled, if_neg long] at located
  rw [located, fileFor_eq plain filled]
  refine if_congr ?_ rfl rfl
  refine (h.writeFault?_eq_none_iff plain _).trans ?_
  exact ⟨fun short => ⟨rules, filled, short⟩, fun takes => takes.2.2⟩

/-- Deleting a name removes its file and tells whether there was one. -/
lemma deleteName_run (h : s.Keeps shelf) (plain : PlainSuffix s.suffix) (name : String)
    (g : Ledger) : ((s.deleteName name).run g).1 =
      if (shelf (safeName name.toList)).isSome then
        .ok (true, s.withoutFile (safeName name.toList))
      else .ok (false, s) := by
  rw [Store.deleteName_run plain]
  cases stored : shelf (safeName name.toList) with
  | none =>
      obtain ⟨e, bytes⟩ := h.bytesOf_of_none plain stored
      rw [bytes]
      rfl
  | some p =>
      rw [h.bytesOf_of_some plain stored]
      rfl

/-! ## Runs -/

/-- Storing a program goes through, and the map holds it if it was stored. -/
lemma perform_persist (h : s.Keeps shelf) (plain : PlainSuffix s.suffix) (storable : Storable p)
    (name : Option String) (g : Ledger) : ∃ ok s', ((s.persist (some p) name).run g).1 =
      .ok (ok, s') ∧ s'.suffix = s.suffix ∧
        s'.Keeps fun key => recorded key (shelf key) (.persist (some p) name, .done ok) := by
  rw [h.persist_run plain]
  split
  · rename_i takes
    obtain ⟨rules, filled, short⟩ := takes
    exact ⟨true, _, rfl, rfl, h.stored filled (safeName_safeName _)
      (Nat.le_of_add_right_le short) rules storable⟩
  · exact ⟨false, s, rfl, rfl, h⟩

/-- Deleting a name goes through, and the map holds nothing there afterwards. -/
lemma perform_delete (h : s.Keeps shelf) (plain : PlainSuffix s.suffix) (name : String)
    (g : Ledger) : ∃ ok s', ((s.deleteName name).run g).1 = .ok (ok, s') ∧ s'.suffix = s.suffix ∧
      s'.Keeps fun key => recorded key (shelf key) (.delete name, .done ok) := by
  rw [h.deleteName_run plain]
  split
  · exact ⟨true, _, rfl, rfl, h.deleted plain _⟩
  · exact ⟨false, s, rfl, rfl, h⟩

/-- **What one call preserves.**  It goes through, and the map is what the call and its answer make
of it. -/
lemma perform (h : s.Keeps shelf) (plain : PlainSuffix s.suffix) {call : StoreCall}
    (clean : call.Clean) (g : Ledger) : ∃ answer s' g',
      (s.perform call).run g = (.ok (answer, s'), g') ∧ s'.suffix = s.suffix ∧
        s'.Keeps fun key => recorded key (shelf key) (call, answer) := by
  cases call with
  | persist program name =>
      cases program with
      | none =>
          have refused : ((s.persist none name).run g).1 = .ok (false, s) :=
            persist_empty rfl name g
          exact ⟨_, _, _, Attempt.run_bind_pure refused _, rfl, h⟩
      | some p =>
          obtain ⟨ok, s', went, suffix, keeps⟩ := h.perform_persist plain clean name g
          exact ⟨_, _, _, Attempt.run_bind_pure went _, suffix, keeps⟩
  | load name =>
      exact ⟨_, _, _, Attempt.run_bind_pure (h.load_run plain name g) _, rfl, h⟩
  | delete name =>
      obtain ⟨ok, s', went, suffix, keeps⟩ := h.perform_delete plain name g
      exact ⟨_, _, _, Attempt.run_bind_pure went _, suffix, keeps⟩

/-- **What a run of calls preserves.** -/
lemma performAll (h : s.Keeps shelf) (plain : PlainSuffix s.suffix) {calls : List StoreCall}
    (clean : ∀ call ∈ calls, call.Clean) (g : Ledger) : ∃ answers s' g',
      (s.performAll calls).run g = (.ok (answers, s'), g') ∧ s'.suffix = s.suffix ∧
        answers.length = calls.length ∧
        s'.Keeps fun key => (calls.zip answers).foldl (recorded key) (shelf key) := by
  induction calls generalizing s shelf g with
  | nil => exact ⟨[], s, g, rfl, rfl, rfl, h⟩
  | cons call calls ih =>
      obtain ⟨first, clean⟩ := List.forall_mem_cons.1 clean
      obtain ⟨answer, s₁, g₁, run, suffix, keeps⟩ := h.perform plain first g
      obtain ⟨answers, s', g', runs, suffix', length, keeps⟩ := ih keeps (suffix ▸ plain) clean g₁
      refine ⟨answer :: answers, s', g', ?_, suffix'.trans suffix, ?_, keeps⟩
      · rw [Store.performAll, Attempt.run_bind, run]
        simp only
        rw [Attempt.run_bind, runs]
        rfl
      · rw [List.length_cons, List.length_cons, length]

/-! ## What can be seen -/

lemma hasText_iff (h : s.Keeps shelf) {file text : String} : s.HasText file text ↔
    ∃ key p, shelf key = some p ∧ file = s.fileOf key ∧ text = storedText p := by
  constructor
  · rintro ⟨-, bytes, read, decoded⟩
    obtain ⟨key, p, held, rfl, rfl⟩ := h.exists_of_read read
    have readable := (h.clean _ _ held).2.readable
    rw [decodeText_toUTF8 (return_not_mem_storedText readable)] at decoded
    exact ⟨key, p, held, rfl, (Except.ok.inj decoded).symm⟩
  · rintro ⟨key, p, held, rfl, rfl⟩
    refine ⟨⟨key, ?_⟩, _, FileTree.read_ok_iff.2 (h.holds _ _ held),
      decodeText_toUTF8 (return_not_mem_storedText (h.clean _ _ held).2.readable)⟩
    rw [fileOf, String.toList_append, String.toList_ofList]

/-- **The listing shows the map**: every key with the text of its program, and nothing else. -/
lemma available_run (h : s.Keeps shelf) (plain : PlainSuffix s.suffix) (g : Ledger) :
    ∃ entries, (s.available.run g).1 = .ok entries ∧ s.Lists entries ∧
      ∀ key text, (key, text) ∈ entries ↔
        ∃ p, shelf key.toList = some p ∧ text = storedText p := by
  rcases available_cases plain g with ⟨file, ⟨-, bytes, read, bad⟩, -⟩ | ⟨-, entries, lists, run⟩
  · obtain ⟨key, p, -, -, rfl⟩ := h.exists_of_read read
    rw [fromUTF8?_toUTF8] at bad
    cases bad
  · refine ⟨entries, run, lists, fun key text => ?_⟩
    have stem : ∀ k p, shelf k = some p → fileStem (s.fileOf k) = String.ofList k := fun k p held =>
      fileStem_append plain (h.keyed k p held).1
    rw [lists.mem_iff]
    constructor
    · rintro ⟨file, text, rfl, -⟩
      obtain ⟨k, p, held, rfl, rfl⟩ := h.hasText_iff.1 text
      rw [stem k p held, String.toList_ofList]
      exact ⟨p, held, rfl⟩
    · rintro ⟨p, held, rfl⟩
      refine ⟨s.fileOf key.toList, h.hasText_iff.2 ⟨_, p, held, rfl, rfl⟩, ?_, fun bare => ?_⟩
      · rw [stem _ p held, String.ofList_toList]
      · have none : s.fileOf key.toList = s.fileOf [] := by
          rw [bare, fileOf]
          exact String.empty_append.symm
        exact absurd (fileOf_injective none) (h.keyed _ p held).1

/-- The text of a program is read as its clauses, under any name. -/
lemma parse_storedText (storable : Storable p) (rules : p.rules ≠ []) (name : String) (g : Ledger) :
    ∃ q g', (Program.parse (some (storedText p)) name).run g = (.ok q, g') ∧
      q.clauses = p.clauses := by
  have nonempty : ∀ c ∈ p.clauses, c.isEmpty = false := by
    intro c hc
    obtain ⟨r, hr, rfl⟩ := List.mem_map.1 hc
    exact storable.nonempty r hr
  have written := (writesText_source nonempty storable.readable).line_feed
  obtain ⟨q, g', run, -, clauses, -⟩ :=
    Program.parse_of_writesText rules storable.unrepeated written name g
  exact ⟨q, g', run, clauses⟩

end Keeps

/-- The store answers from a map by key. -/
structure Shows (s : Store) (shelf : List Char → Option Program) : Prop where
  /-- Loading a name gives the text of the program under its key, and nothing if there is none. -/
  load : ∀ name g, ((s.load name).run g).1 =
    .ok ((shelf (safeName name.toList)).elim "" storedText)
  /-- There is nothing under a name of which nothing is left. -/
  unnamed : shelf [] = none
  /-- Storing and deleting go through; they change nothing under another key. -/
  others : ∀ call : StoreCall, call.Clean → ∀ g, ∃ answer s' g',
    (s.perform call).run g = (.ok (answer, s'), g') ∧
      ∀ name, call.key? ≠ some (safeName name.toList) → ∀ g₁ g₂,
        ((s'.load name).run g₁).1 = ((s.load name).run g₂).1
  /-- A program is stored if there is nothing against it. -/
  persist : ∀ p name g, ∃ s', ((s.persist (some p) name).run g).1 =
    .ok (decide (s.Takes p name), s')
  /-- A program is deleted if there is one. -/
  delete : ∀ name g, ∃ s', ((s.deleteName name).run g).1 =
    .ok ((shelf (safeName name.toList)).isSome, s')
  /-- What is loaded is read as the program that was stored. -/
  readsBack : ∀ name g text, ((s.load name).run g).1 = .ok text → text ≠ "" →
    ∃ p, shelf (safeName name.toList) = some p ∧ ∀ title g₁, ∃ q g₂,
      (Program.parse (some text) title).run g₁ = (.ok q, g₂) ∧ q.clauses = p.clauses
  /-- The listing holds every key with the text that is loaded under it. -/
  available : ∀ g, ∃ entries, (s.available.run g).1 = .ok entries ∧
    (∀ key text, (key, text) ∈ entries ↔ ∃ p, shelf key.toList = some p ∧ text = storedText p) ∧
    ∀ e ∈ entries, ∀ g', ((s.load e.1).run g').1 = .ok e.2

lemma recorded_of_key?_ne {call : StoreCall} (other : call.key? ≠ some key)
    (stored : Option Program) (answer : StoreAnswer) :
    recorded key stored (call, answer) = stored := by
  unfold recorded
  split
  · rename_i e
    obtain ⟨rfl, rfl⟩ := Prod.mk.inj e
    exact if_neg fun same => other (congrArg some same)
  · rename_i e
    obtain ⟨rfl, rfl⟩ := Prod.mk.inj e
    exact if_neg fun same => other (congrArg some same)
  · rfl

lemma Keeps.shows (h : s.Keeps shelf) (plain : PlainSuffix s.suffix) : s.Shows shelf where
  load name g := h.load_run plain name g
  unnamed := by
    cases held : shelf [] with
    | none => rfl
    | some p => exact absurd rfl (h.keyed _ _ held).1
  others call clean g := by
    obtain ⟨answer, s', g', run, suffix, keeps⟩ := h.perform plain clean g
    refine ⟨answer, s', g', run, fun name other g₁ g₂ => ?_⟩
    rw [h.load_run plain, keeps.load_run (suffix ▸ plain), recorded_of_key?_ne other]
  persist p name g := by
    rw [h.persist_run plain]
    split
    · exact ⟨_, by rw [decide_eq_true ‹_›]⟩
    · exact ⟨_, by rw [decide_eq_false ‹_›]⟩
  delete name g := by
    rw [h.deleteName_run plain]
    cases (shelf (safeName name.toList)).isSome
    · exact ⟨_, rfl⟩
    · exact ⟨_, rfl⟩
  readsBack name g text loaded some := by
    rw [h.load_run plain] at loaded
    cases held : shelf (safeName name.toList) with
    | none =>
        rw [held] at loaded
        exact absurd (Except.ok.inj loaded).symm some
    | some p =>
        rw [held] at loaded
        obtain rfl := Except.ok.inj loaded
        obtain ⟨rules, storable⟩ := h.clean _ _ held
        exact ⟨p, rfl, Keeps.parse_storedText storable rules⟩
  available g := by
    obtain ⟨entries, run, -, mem⟩ := h.available_run plain g
    refine ⟨entries, run, mem, fun e he g' => ?_⟩
    obtain ⟨p, held, text⟩ := (mem e.1 e.2).1 he
    rw [h.load_run plain, (h.keyed _ _ held).2.1, held, text]
    rfl

/-- **The store is a map by key.**  After any run of calls from an empty directory, all of which go
through, the store answers from the programs that were stored last under each key and not deleted
since. -/
theorem shows_latest (plain : PlainSuffix s.suffix) (empty : s.IsEmpty) {calls : List StoreCall}
    (clean : ∀ call ∈ calls, call.Clean) (g : Ledger) : ∃ answers s' g',
      (s.performAll calls).run g = (.ok (answers, s'), g') ∧ answers.length = calls.length ∧
        s'.Shows fun key => latest key (calls.zip answers) := by
  obtain ⟨answers, s', g', run, suffix, length, keeps⟩ := empty.keeps.performAll plain clean g
  exact ⟨answers, s', g', run, length, keeps.shows (suffix ▸ plain)⟩

/-- A name with blanks and marks, under which a program is stored and by which it is loaded. -/
theorem shows_latest_birds :
    let s : Store := {}
    let p : Program := { rules := [{ head := some ⟨⟨"bird", ["tweety"]⟩, false⟩, id := 1 }] }
    let call : StoreCall := .persist (some p) (some "  ?my birds!")
    PlainSuffix ".lp" ∧ s.IsEmpty ∧ call.Clean ∧ ∃ s' g',
      (s.performAll [call]).run {} = (.ok ([.done true], s'), g') ∧
        ∀ g, ((s'.load "my birds").run g).1 = .ok "bird(tweety).\n" := by
  intro s p call
  have plain : PlainSuffix ".lp" := ⟨['l', 'p'], rfl, by decide, List.all_eq_true.1 rfl⟩
  have empty : s.IsEmpty := ⟨rfl, fun path hpath => absurd hpath List.not_mem_nil⟩
  have clean : call.Clean := ⟨by decide, Program.unrepeated_iff.2 (by decide), by
    unfold ReadableProgram
    decide⟩
  refine ⟨plain, empty, clean, ?_⟩
  obtain ⟨answers, s', g', run, -, shows⟩ :=
    shows_latest (s := s) plain empty (List.forall_mem_singleton.2 clean) {}
  obtain ⟨s₁, stored⟩ := (empty.keeps.shows plain).persist p (some "  ?my birds!") {}
  rw [decide_eq_true (by decide : s.Takes p (some "  ?my birds!"))] at stored
  have performed : (s.perform call).run {} = _ := Attempt.run_bind_pure stored _
  have answered : answers = [.done true] := by
    rw [performAll, Attempt.run_bind, performed] at run
    cases run
    rfl
  subst answered
  have same : safeName (nameFor p (some "  ?my birds!")).toList = safeName "my birds".toList := by
    decide
  have text : storedText p = "bird(tweety).\n" := rfl
  refine ⟨s', g', run, fun g => ?_⟩
  rw [shows.load]
  generalize safeName "my birds".toList = key at same ⊢
  have held : latest key ([call].zip [.done true]) = some p := latest_persisted same []
  rw [held, ← text]
  rfl

end Store

end CausalUpdate
