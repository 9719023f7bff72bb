/-
# ModuleBundler.Command.Reach — the files that a command may look at.

A command is a function of the files, so they have to be gathered before it runs.  The paths listed
here are all that it may ask for: the settings files, the candidates for the entry, and for each
module that has been gathered the candidates for its specifiers.  More paths than needed do no harm.
-/
import ModuleBundler.Command.Run

namespace ModuleBundler.Command

open Settings (Environment)

/-- The settings files that options may ask for. -/
def settingsFiles (environment : Environment) (options : Options) : List Path :=
  (Settings.userFile? environment).toList ++ options.config.toList ++ [Settings.fileName]

/-- How specifiers are completed, by the settings files that have been gathered. -/
def policyOf (tree : FileTree) (environment : Environment) (options : Options) :
    ExtensionPolicy :=
  match Settings.load tree environment options.config with
  | .ok settings => (options.apply settings).extensionPolicy
  | .error _ => (options.apply Settings.standard).extensionPolicy

/-- The candidates for the entry, and the files that are written. -/
def entryFiles (tree : FileTree) (policy : ExtensionPolicy) (entry : Path) (options : Options) :
    List Path :=
  Resolver.candidates policy tree.workingPath entry.text ++ options.output.toList ++
    options.emitGraph.toList

/-- The candidates for everything that a module names. -/
def moduleFiles (tree : FileTree) (policy : ExtensionPolicy) (path : Path) : List Path :=
  match (tree.canonical? path).map fun place => (place, Discovery.read tree place) with
  | some (place, .ok source) =>
    match Compiler.standard place source with
    | .ok compiled =>
      compiled.specifiers.flatMap (Resolver.candidates policy (Resolver.directoryOf place))
    | .error _ => []
  | _ => []

end ModuleBundler.Command
