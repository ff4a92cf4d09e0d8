import CausalUpdate.FileTree.Basic
import CausalUpdate.Proofs.Text.Order
import Mathlib.Data.List.Infix

/-!
# Files of a tree

Writing and deleting change one file and leave all others as they are (`lookup_put`,
`lookup_erase`), and a directory stays one.  The names in a directory are in order, none of them
twice, and every file that can be read there is among them.
-/

namespace CausalUpdate

namespace FileTree

variable {t : FileTree} {path other directory : Path} {bytes : ByteArray} {name : String}

/-! ## Kinds -/

lemma read_ok_iff : t.read path = .ok bytes ↔ t.files.lookup path = some bytes := by
  unfold read kind
  cases t.files.lookup path with
  | some found => simp
  | none =>
      simp only [reduceCtorEq, iff_false]
      split <;> rename_i kind
      · split at kind <;> cases kind
      · rintro ⟨⟩
      · rintro ⟨⟩

lemma isDirectory_iff : t.isDirectory path ↔ t.files.lookup path = none ∧
    (path.all (· = "..") ∨ path = Path.root ∨ ∃ p ∈ t.paths, path <+: p) := by
  unfold isDirectory kind
  cases t.files.lookup path with
  | some found => simp
  | none =>
      simp only [Bool.or_eq_true, decide_eq_true_eq, List.any_eq_true, List.isPrefixOf_iff_prefix,
        or_assoc, true_and]
      split <;> rename_i kind
      · split at kind
        · rename_i directory
          exact iff_of_true rfl directory
        · cases kind
      · split at kind
        · exact absurd rfl kind
        · rename_i missing
          exact iff_of_false Bool.noConfusion missing

lemma has_iff : t.has path ↔ t.isDirectory path ∨ ∃ bytes, t.read path = .ok bytes := by
  unfold has isDirectory read
  cases t.kind path <;> simp

lemma mem_paths_iff : path ∈ t.paths ↔
    (∃ bytes, t.files.lookup path = some bytes) ∨ path ∈ t.directories := by
  rw [paths, List.mem_append, ← Option.isSome_iff_exists, List.mem_map]
  refine or_congr ⟨?_, fun found => ?_⟩ Iff.rfl
  · rintro ⟨f, hf, rfl⟩
    rw [Option.isSome_iff_ne_none]
    intro none
    simpa using List.lookup_eq_none_iff.1 none f hf
  · obtain ⟨bytes, found⟩ := Option.isSome_iff_exists.1 found
    obtain ⟨before, after, e, -⟩ := List.lookup_eq_some_iff.1 found
    exact ⟨(path, bytes), by simp [e], rfl⟩

lemma mem_paths_of_read (read : t.read path = .ok bytes) : path ∈ t.paths :=
  mem_paths_iff.2 (Or.inl ⟨bytes, read_ok_iff.1 read⟩)

/-- Names are found impossible before a walk begins, and nowhere else. -/
lemma walk_ne_impossible (t : FileTree) (here : Path) (parts : List String) :
    t.walk here parts ≠ .error .impossible := by
  induction parts generalizing here with
  | nil => rintro ⟨⟩
  | cons part parts ih =>
      rw [walk]
      split
      · rintro ⟨⟩
      · rintro ⟨⟩
      · split
        · rintro ⟨⟩
        · exact ih _

lemma read_ne_impossible (t : FileTree) (path : Path) : t.read path ≠ .error .impossible := by
  unfold read
  split <;> rintro ⟨⟩

/-! ## Writing and deleting -/

lemma lookup_without (files : List (Path × ByteArray)) :
    (files.filter fun f => f.1 ≠ path).lookup other =
      if other = path then none else files.lookup other := by
  induction files with
  | nil => simp
  | cons f files ih =>
      obtain ⟨here, found⟩ := f
      by_cases same : here = path
      · rw [List.filter_cons_of_neg (by simpa using same), ih]
        split
        · rfl
        · rename_i apart
          rw [List.lookup_cons, beq_false_of_ne (same ▸ apart)]
      · rw [List.filter_cons_of_pos (by simpa using same), List.lookup_cons, List.lookup_cons, ih]
        by_cases e : other = here
        · rw [if_neg (e ▸ same), if_neg (e ▸ same), e, beq_self_eq_true]
        · rw [beq_false_of_ne e]

/-- Writing changes one file. -/
lemma lookup_put : (t.put path bytes).files.lookup other =
    if other = path then some bytes else t.files.lookup other := by
  rw [put, List.lookup_append, lookup_without]
  by_cases e : other = path
  · rw [if_pos e, if_pos e, e, List.lookup_cons_self]
    rfl
  · rw [if_neg e, if_neg e, List.lookup_cons, beq_false_of_ne e, List.lookup_nil, Option.or_none]

/-- Deleting removes one file. -/
lemma lookup_erase : (t.erase path).files.lookup other =
    if other = path then none else t.files.lookup other :=
  lookup_without t.files

/-- A directory stays one when a file is written in it. -/
lemma isDirectory_put (h : t.isDirectory directory) :
    (t.put (directory ++ [name]) bytes).isDirectory directory := by
  refine isDirectory_iff.2 ⟨?_, Or.inr (Or.inr ⟨directory ++ [name], ?_, List.prefix_append _ _⟩)⟩
  · rw [lookup_put, if_neg (by simp)]
    exact (isDirectory_iff.1 h).1
  · refine mem_paths_iff.2 (Or.inl ⟨bytes, ?_⟩)
    rw [lookup_put, if_pos rfl]

lemma append_ne_root (filled : name ≠ "") : directory ++ [name] ≠ Path.root := by
  intro root
  obtain ⟨-, last⟩ := List.append_inj' (root.trans (List.nil_append [""]).symm) rfl
  exact filled (List.singleton_inj.1 last)

lemma above_append (filled : name ≠ "") (ahead : name ≠ "..") :
    Path.above (directory ++ [name]) = directory := by
  rw [Path.above, if_neg (append_ne_root filled), if_neg (by simp [ahead]), List.dropLast_concat]

/-- A directory stays one when a file is deleted from it. -/
lemma isDirectory_erase (h : t.isDirectory directory)
    (above : Path.above (directory ++ [name]) = directory) :
    (t.erase (directory ++ [name])).isDirectory directory := by
  refine isDirectory_iff.2 ⟨?_, Or.inr (Or.inr ⟨directory, ?_, List.prefix_rfl⟩)⟩
  · rw [lookup_erase, if_neg (by simp)]
    exact (isDirectory_iff.1 h).1
  · exact mem_paths_iff.2 (Or.inr (List.mem_cons.2 (Or.inl above.symm)))

/-! ## Names -/

lemma mem_names : name ∈ t.names directory ↔
    name ≠ "" ∧ name ≠ ".." ∧ ∃ rest, directory ++ name :: rest ∈ t.paths := by
  simp only [names, List.mem_mergeSort, List.mem_eraseDups, List.mem_filterMap, waysBelow,
    List.mem_filter, below?]
  constructor
  · rintro ⟨way, ⟨⟨p, hp, found⟩, named⟩, head⟩
    split at found
    · rename_i below
      obtain ⟨rest, rfl⟩ := List.isPrefixOf_iff_prefix.1 below
      cases found
      rw [List.drop_left] at named head
      obtain ⟨tail, rfl⟩ := List.head?_eq_some_iff.1 head
      simp only [List.head?_cons, Option.any_some, decide_eq_true_eq] at named
      exact ⟨named.1, named.2, tail, hp⟩
    · cases found
  · rintro ⟨filled, ahead, rest, hp⟩
    refine ⟨name :: rest, ⟨⟨_, hp, ?_⟩, ?_⟩, rfl⟩
    · rw [if_pos (List.isPrefixOf_iff_prefix.2 (List.prefix_append _ _)), List.drop_left]
    · simp [filled, ahead]

lemma pairwise_names : (t.names directory).Pairwise (· < ·) :=
  Text.pairwise_lt_sort (Text.nodup_eraseDups _)

/-- What is in a directory is there. -/
lemma has_of_mem_names (h : name ∈ t.names directory) : t.has (directory ++ [name]) := by
  obtain ⟨-, -, rest, below⟩ := mem_names.1 h
  rw [has_iff]
  cases found : t.files.lookup (directory ++ [name]) with
  | some bytes => exact Or.inr ⟨bytes, read_ok_iff.2 found⟩
  | none =>
      refine Or.inl (isDirectory_iff.2 ⟨found, Or.inr (Or.inr ⟨_, below, rest, ?_⟩)⟩)
      rw [List.append_assoc, List.singleton_append]

lemma mem_names_of_read (read : t.read (directory ++ [name]) = .ok bytes) (filled : name ≠ "")
    (ahead : name ≠ "..") : name ∈ t.names directory :=
  mem_names.2 ⟨filled, ahead, [], mem_paths_of_read read⟩

end FileTree

end CausalUpdate
