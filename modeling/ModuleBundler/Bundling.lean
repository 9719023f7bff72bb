/-
# ModuleBundler.Bundling — from an entry to a bundle.

One run finds the modules of a project, checks the graph, settles what becomes of circular
imports, and writes the bundle.  What the run has to say is collected in a log.
-/
import ModuleBundler.Discovery
import ModuleBundler.Graph.Cycles
import ModuleBundler.Graph.Manifest
import ModuleBundler.Registry
import ModuleBundler.Settings.Basic

namespace ModuleBundler

/-- How much a message matters, the most important first. -/
inductive LogLevel
  | error
  | warn
  | info
  | debug
  | trace
  deriving DecidableEq, Repr

/-- The rank of a level. -/
def LogLevel.rank : LogLevel → Nat
  | error => 1
  | warn => 2
  | info => 3
  | debug => 4
  | trace => 5

/-- A message of a run. -/
structure LogRecord where
  level : LogLevel
  /-- the part of the program that speaks -/
  target : String
  message : String
  deriving DecidableEq, Repr

/-- A bundle with the graph that it was made from. -/
structure Bundle where
  code : String
  graph : ModuleGraph
  deriving DecidableEq, Repr

/-- Why a run fails. -/
inductive ProjectError
  | build (error : BuildError)
  | settings (error : SettingsError)
  | directory (path : Path)
  | write (path : Path)
  deriving DecidableEq, Repr

/-- The wording of an error. -/
def ProjectError.message : ProjectError → String
  | build error => error.message
  | settings error => error.message
  | directory path => "Failed to create directory " ++ path.text
  | write path => "Failed to write " ++ path.text

namespace Bundling

/-- A message about the run as a whole. -/
def say (level : LogLevel) (message : String) : LogRecord :=
  ⟨level, "minipack::orchestrator", message⟩

/-- Whether modules that import each other are an error: they may be refused, and without a cache
they would run forever. -/
def refusesCycles (settings : Settings) : Bool :=
  settings.rejectCycles || !settings.moduleCache

/-- Settles what becomes of modules that import each other. -/
def checkCycles (settings : Settings) (graph : ModuleGraph) : Except BuildError (List LogRecord) :=
  let chains := (graph.cycles?.getD []).map graph.cycleChain
  match chains with
  | [] => .ok []
  | first :: _ =>
    if refusesCycles settings then .error (.cycle first)
    else .ok (chains.map fun chain => say .warn ("Circular import: " ++ chainText chain))

/-- Makes the bundle of a graph. -/
def generate (settings : Settings) (graph : ModuleGraph) :
    Except BuildError Bundle × List LogRecord :=
  match graph.validate with
  | .error error => (.error error, [])
  | .ok () =>
    match checkCycles settings graph with
    | .error error => (.error error, [])
    | .ok warnings =>
      let code := graph.bundle settings.runtimeOptions
      let done := say .info ("Bundled " ++ toString graph.size ++ " module(s) into " ++
        toString code.utf8ByteSize ++ " bytes")
      (.ok ⟨code, graph⟩, warnings ++ [done])

/-- Bundles a project. -/
def bundle (tree : FileTree) (settings : Settings) (compiler : Compiler) (entry : Path) :
    Except BuildError Bundle × List LogRecord :=
  let start := say .info ("Bundling " ++ entry.text)
  match (Discovery.build tree compiler (Resolver.new settings.extensionPolicy) entry).1 with
  | .error error => (.error error, [start])
  | .ok graph =>
    let found : LogRecord :=
      ⟨.info, "minipack::graph_builder",
        "Discovered " ++ toString graph.size ++ " module(s) from " ++ entry.text⟩
    let (result, log) := generate settings graph
    (result, start :: found :: log)

/-! ## Writing -/

/-- Writes a text to a file and makes the directories above it; those that were made stay where the
file cannot be written. -/
def writeText (tree : FileTree) (path : Path) (text : String) :
    Except ProjectError Unit × FileTree :=
  match tree.makeParents path with
  | (false, tree) => (.error (.directory (path.parent?.getD path)), tree)
  | (true, tree) =>
    match tree.write? path text.toUTF8 with
    | none => (.error (.write path), tree)
    | some tree => (.ok (), tree)

/-- What comes of a run: its result, its messages and the files afterwards. -/
structure Outcome (α : Type) where
  result : Except ProjectError α
  log : List LogRecord
  tree : FileTree

/-- Bundles a project and writes the bundle to a file if one is named. -/
def bundleTo (tree : FileTree) (settings : Settings) (compiler : Compiler) (entry : Path)
    (output : Option Path) : Outcome Bundle :=
  match bundle tree settings compiler entry with
  | (.error error, log) => ⟨.error (.build error), log, tree⟩
  | (.ok bundle, log) =>
    match output with
    | none => ⟨.ok bundle, log, tree⟩
    | some path =>
      match writeText tree path bundle.code with
      | (.error error, tree) => ⟨.error error, log, tree⟩
      | (.ok (), tree) =>
        ⟨.ok bundle, log ++ [say .info ("Wrote bundle to " ++ path.text)], tree⟩

/-- Writes the manifest of a graph to a file. -/
def writeManifest (tree : FileTree) (graph : ModuleGraph) (path : Path) : Outcome Unit :=
  match writeText tree path graph.manifest with
  | (.error error, tree) => ⟨.error error, [], tree⟩
  | (.ok (), tree) => ⟨.ok (), [say .info ("Wrote module graph to " ++ path.text)], tree⟩

end Bundling

end ModuleBundler
