import CausalUpdate.Proofs.FileTree.Files
import CausalUpdate.Proofs.Store.Name
import CausalUpdate.Proofs.Work
import CausalUpdate.Store.Basic

/-!
# The file of a name

With a plain suffix, a program name leads to a single file of the directory, or nothing is left of
it.  No name leads to a path that cannot be, so that what stands against reading or writing a file
is noted and never left to the caller.
-/

namespace CausalUpdate

open CausalUpdate.Text

namespace Store

variable {s : Store} {name : String}

/-- The name of the file for what is left of a name. -/
def fileOf (s : Store) (key : List Char) : String :=
  String.ofList key ++ s.suffix

/-- The way to the file of a program name is a single name, if anything is left of it. -/
lemma wayTo_eq (plain : PlainSuffix s.suffix) (name : String) : s.wayTo name =
    if safeName name.toList = [] then .error (.invalidName name)
    else .ok [s.fileOf (safeName name.toList)] := by
  rw [wayTo]
  simp only [steps_fileName plain (isSafe_safeName name.toList), ← String.toList_eq_nil_iff,
    String.isEmpty_iff, String.toList_ofList, fileOf]

lemma fileFor_eq (plain : PlainSuffix s.suffix) (filled : safeName name.toList ≠ []) :
    s.fileFor name = .ok (s.fileOf (safeName name.toList)) := by
  rw [fileFor, wayTo_eq plain, if_neg filled]
  rfl

lemma pathFor_eq (plain : PlainSuffix s.suffix) (name : String) : s.pathFor name =
    if safeName name.toList = [] then .error (.invalidName name)
    else (s.tree.walk s.directory [s.fileOf (safeName name.toList)]).mapError .path := by
  have possible : nullCharacter ∉ (s.fileOf (safeName name.toList)).toList :=
    not_mem_of_safe (safe_fileName plain (isSafe_safeName name.toList)) (by decide)
  rw [pathFor, wayTo_eq plain]
  split
  · rfl
  · show (s.tree.locate s.directory [_]).mapError _ = _
    rw [FileTree.locate, if_neg]
    simpa using possible

lemma mapError_path_ne_impossible {α : Type} {x : Except PathError α}
    (h : x ≠ .error .impossible) : x.mapError StoreError.path ≠ .error (.path .impossible) := by
  cases x with
  | ok a => rintro ⟨⟩
  | error e =>
      rintro ⟨⟩
      exact h rfl

lemma pathFor_ne_impossible (plain : PlainSuffix s.suffix) (name : String) :
    s.pathFor name ≠ .error (.path .impossible) := by
  rw [pathFor_eq plain]
  split
  · rintro ⟨⟩
  · exact mapError_path_ne_impossible (s.tree.walk_ne_impossible _ _)

lemma bytesOf_ne_impossible (plain : PlainSuffix s.suffix) (name : String) :
    s.bytesOf name ≠ .error (.path .impossible) := by
  intro impossible
  rcases Except.bind_error impossible with failed | ⟨path, -, rest⟩
  · exact pathFor_ne_impossible plain name failed
  · rcases Except.bind_error rest with failed | ⟨_, -, rest⟩
    · exact mapError_path_ne_impossible (s.tree.read_ne_impossible path) failed
    · cases rest

/-- Loading a name reads its file; what stands against that is noted and answered with nothing. -/
lemma load_run (plain : PlainSuffix s.suffix) (name : String) (g : Ledger) :
    ((s.load name).run g).1 = match s.bytesOf name with
      | .ok (path, bytes) => decodeText (path.getLast?.getD "") bytes
      | .error _ => .ok "" := by
  have possible := bytesOf_ne_impossible plain name
  rw [load]
  cases bytes : s.bytesOf name with
  | ok found => simp only [Attempt.run_of]
  | error e =>
      simp only
      split
      · cases ‹Except.error e = _›
      · rename_i h
        rw [h] at bytes
        exact absurd bytes possible
      · rfl
      · rfl

/-- Deleting a name erases its file; what stands against that is noted and answered with a
refusal. -/
lemma deleteName_run (plain : PlainSuffix s.suffix) (name : String) (g : Ledger) :
    ((s.deleteName name).run g).1 = match s.bytesOf name with
      | .ok (path, _) => .ok (true, { s with tree := s.tree.erase path })
      | .error _ => .ok (false, s) := by
  have possible := bytesOf_ne_impossible plain name
  rw [deleteName]
  cases bytes : s.bytesOf name with
  | ok found => rfl
  | error e =>
      simp only
      split
      · cases ‹Except.error e = _›
      · rename_i h
        rw [h] at bytes
        exact absurd bytes possible
      · rfl
      · rfl

/-- The name under which a program is stored: its own one, if none is given or an empty one. -/
def nameFor (p : Program) (name : Option String) : String :=
  (name.filter fun n => !n.isEmpty).getD p.name

lemma persist_empty {program : Option Program} (empty : program.filter (fun p => !p.isEmpty) = none)
    (name : Option String) (g : Ledger) : ((s.persist program name).run g).1 = .ok (false, s) := by
  rw [persist, empty]
  rfl

/-- Storing a program writes its file; what stands against that is noted and answered with a
refusal. -/
lemma persist_run (plain : PlainSuffix s.suffix) {p : Program} (some : p.isEmpty = false)
    (name : Option String) (g : Ledger) :
    ((s.persist (.some p) name).run g).1 = match s.pathFor (nameFor p name) with
      | .ok path =>
        if s.writeFault? ((s.fileFor (nameFor p name)).toOption.getD "") path = none then
          .ok (true, { s with tree := s.tree.put path (storedText p).toUTF8 })
        else .ok (false, s)
      | .error _ => .ok (false, s) := by
  have possible := pathFor_ne_impossible plain (nameFor p name)
  have filled : (Option.some p).filter (fun p => !p.isEmpty) = .some p := by
    simp [Option.filter, some]
  rw [persist, filled]
  dsimp only
  unfold nameFor at possible ⊢
  generalize (name.filter fun n => !n.isEmpty).getD p.name = key at possible ⊢
  cases located : s.pathFor key with
  | error e =>
      rcases e with - | e
      · rfl
      · cases e with
        | impossible => exact absurd located possible
        | _ => rfl
  | ok path =>
      dsimp only
      generalize s.writeFault? _ path = fault
      cases s.tree.has path <;> cases fault <;> rfl

end Store

end CausalUpdate
