/-
# ModuleBundler.Main — the command line.

Gathers the files that the command may look at into a tree, runs the command on it, prints what it
prints and writes what it has changed.
-/
import ModuleBundler.Command.Reach

namespace ModuleBundler.Main

open Command

/-- The variables that a command looks at. -/
def variableNames : List String :=
  ["HOME", "XDG_CONFIG_HOME", "RUST_LOG", "MINIPACK_EXTENSIONS", "MINIPACK_INDEX_FILES",
    "MINIPACK_MODULE_CACHE", "MINIPACK_MODULE_COMMENTS", "MINIPACK_REJECT_CYCLES"]

/-- The variables that are set. -/
def environment : IO Settings.Environment :=
  variableNames.filterMapM fun name => do
    return (← IO.getEnv name).map fun value => (name, value)

/-- The place that an absolute path names without links. -/
def placeOf (path : Path) : List String :=
  path.normalized.components.filterMap fun
    | .name text => some text
    | _ => none

/-- A tree with the directories above a place. -/
def withParents (tree : FileTree) (place : List String) : FileTree :=
  (List.range place.length).foldl (fun tree length =>
    let above := place.take length
    match tree.entryAt? above with
    | some _ => tree
    | none => tree.put above .directory) tree

/-- The tree with only the working directory. -/
def bareTree (working : Path) : FileTree :=
  let place := placeOf working
  (withParents ⟨[], place⟩ place).put place .directory

/-- Adds the file under a path to a tree, if there is one: the file itself at its own place, and a
link to it where the path names another place. -/
def gather (tree : FileTree) (path : Path) : IO FileTree := do
  let full := tree.workingPath.join path
  try
    let content ← IO.FS.readBinFile full.text
    let own := (← IO.FS.realPath full.text).toString
    let place := placeOf ⟨own⟩
    let tree := (withParents tree place).put place (.file content)
    let named := placeOf full
    if named == place then return tree
    return (withParents tree named).put named (.link own)
  catch _ => return tree

/-- Adds files to a tree, and those that they name in turn. -/
partial def gatherAll (policy : ExtensionPolicy) (tree : FileTree) (seen : List Path) :
    List Path → IO FileTree
  | [] => return tree
  | path :: paths => do
    if seen.contains path then gatherAll policy tree seen paths
    else
      let tree ← gather tree path
      gatherAll policy tree (path :: seen) (paths ++ moduleFiles tree policy path)

/-- The tree of files that a command may look at. -/
def treeFor (environment : Settings.Environment) (entry : Path) (options : Options) :
    IO FileTree := do
  let working := (← IO.FS.realPath (← IO.currentDir)).toString
  let tree ← (settingsFiles environment options).foldlM gather (bareTree ⟨working⟩)
  let policy := policyOf tree environment options
  gatherAll policy tree [] (entryFiles tree policy entry options)

/-- A level as messages name it. -/
def levelName : LogLevel → String
  | .error => "ERROR"
  | .warn => "WARN "
  | .info => "INFO "
  | .debug => "DEBUG"
  | .trace => "TRACE"

/-- Writes the files that a command has changed. -/
def writeChanges (before after : FileTree) : IO Unit := do
  for (place, entry) in after.entries do
    match entry with
    | .file content =>
      if before.entryAt? place != some entry then
        IO.FS.createDirAll (FileTree.pathOf place.dropLast).text
        IO.FS.writeBinFile (FileTree.pathOf place).text content
    | _ => pure ()

/-- Runs a command with its arguments: the exit code. -/
def runWith (arguments : List String) : IO UInt32 := do
  let environment ← environment
  let tree ← match read arguments with
    | .run entry options => treeFor environment entry options
    | _ => pure (bareTree ⟨"/"⟩)
  let outcome := run tree environment arguments
  for record in outcome.log do
    IO.eprintln ("[" ++ levelName record.level ++ " " ++ record.target ++ "] " ++ record.message)
  (← IO.getStdout).putStr outcome.output
  try
    writeChanges tree outcome.tree
  catch error =>
    IO.eprintln ("Error: " ++ toString error)
    return 1
  match outcome.error with
  | some error => IO.eprintln (errorText error)
  | none => if outcome.exitCode == 2 then IO.eprint helpText
  return outcome.exitCode.toUInt32

end ModuleBundler.Main

def main (arguments : List String) : IO UInt32 :=
  ModuleBundler.Main.runWith arguments
