import CausalUpdate.CommandLine.Run
import CausalUpdate.Settings.Environment
import Std.Time.Format

/-!
# The program

Loads what a command may need from the file system, leads the dialogue of an update over the
console, and writes back the files that were stored.
-/

open CausalUpdate CausalUpdate.CommandLine

/-- A file, if it can be read, added to a tree. -/
def loadFile (t : FileTree) (name : String) : IO FileTree := do
  try
    let bytes ← IO.FS.readBinFile name
    return t.put (Path.ofText name) bytes
  catch _ => return t

/-- A file or a directory with its files, added to a tree. -/
def loadPath (t : FileTree) (name : String) : IO FileTree := do
  let here ← IO.currentDir
  let path := here / name
  if ← path.isDir then
    let entries ← path.readDir
    entries.foldlM (fun t e => loadFile t (name ++ "/" ++ e.fileName))
      (t.putDirectory (Path.ofText name))
  else loadFile t name

/-- The directories on the way to a path, added to a tree, and what the path means itself. -/
def loadWay (t : FileTree) (name : String) : IO FileTree := do
  let parts := Path.parts name
  let ways := (List.range parts.length).map fun n => String.intercalate "/" (parts.take n)
  let here ← IO.currentDir
  let directories ← ways.filterM fun (way : String) => (here / way).isDir
  loadPath (directories.foldl (fun t way => t.putDirectory (Path.ofText way)) t) name

/-- Everything that a list of words may mean, also behind `=`. -/
def loadTree (settings : Settings) (words : List String) : IO FileTree := do
  let named := words.flatMap fun word => word :: (splitOption word).2.toList
  (settings.store.directory :: named.filter fun name => !name.isEmpty).foldlM loadWay {}

/-- The path of a file as it is written. -/
def writtenPath (path : Path) : String :=
  String.intercalate "/" path

/-- Write the files that a run has stored. -/
def storeChanges (before after : FileTree) : IO Unit :=
  (after.changedSince before).forM fun (path, bytes) => do
    if !path.dropLast.isEmpty then IO.FS.createDirAll (writtenPath path.dropLast)
    IO.FS.writeBinFile (writtenPath path) bytes

/-- The environment variables that settings are taken from. -/
def readEnvironment : IO Environment := do
  let read ← Environment.names.mapM fun name => do
    let value ← IO.getEnv name
    return value.map fun value => (name, value)
  return read.filterMap id

/-- Print what a dialogue has printed so far. -/
def showOutput (r : Running) : IO Running := do
  let (text, dialogue) := r.dialogue.takeOutput
  let console ← IO.getStdout
  console.putStr text
  console.flush
  return { r with dialogue }

/-- Lead a dialogue to its end. -/
def converse (stage : Stage) (r : Running) : IO Outcome := do
  let input ← IO.getStdin
  let mut stage := stage
  let mut r ← showOutput r
  repeat
    match stage with
    | .ended exit => return r.outcome exit
    | .asking question =>
      IO.print (r.dialogue.shown question)
      (← IO.getStdout).flush
      let line ← input.getLine
      if line.isEmpty then return r.outcome .aborted
      let answered := r.step (Dialogue.answer question ((inputLines line).headD ""))
      stage := answered.1
      r ← showOutput answered.2
  return r.outcome .aborted

/-- Run the command that the words ask for. -/
def main (words : List String) : IO UInt32 := do
  match Settings.ofEnvironment (← readEnvironment) with
  | .error e => do
    IO.eprintln e.message
    return 1
  | .ok settings => do
    let before ← loadTree settings words
    let now ← Std.Time.PlainDateTime.now
    let outcome ←
      match Start.of settings before (now.format "uuuuMMdd_HHmmss") words with
      | .ended outcome => pure outcome
      | .running stage r => converse stage r
    IO.print outcome.output
    storeChanges before outcome.tree
    IO.eprint outcome.exit.report
    return outcome.exit.code.toUInt32
