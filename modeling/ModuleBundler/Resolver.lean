/-
# ModuleBundler.Resolver — from specifiers to files.

A specifier is joined to the directory of the module that names it, and completed by the policy's
extensions to a list of candidates.  The first candidate that is a file is meant.  A resolver
remembers what it has found, for every directory and specifier; what it has not found it looks for
again.
-/
import ModuleBundler.Error
import ModuleBundler.FileTree

namespace ModuleBundler

/-- How specifiers are completed to names of files. -/
structure ExtensionPolicy where
  /-- tried in order behind names without an extension -/
  extensions : List String
  /-- also try the index file of a directory -/
  indexFiles : Bool
  deriving DecidableEq, Repr

namespace ExtensionPolicy

/-- One extension, and no index files. -/
def standard : ExtensionPolicy :=
  ⟨[".js"], false⟩

/-- The names to try, in order, for a path that has been joined. -/
def candidates (policy : ExtensionPolicy) (path : Path) : List Path :=
  let named :=
    if path.extension?.isSome then [path]
    else policy.extensions.map fun ext => ⟨path.text ++ ext⟩
  let indices :=
    if policy.indexFiles then policy.extensions.map fun ext => path.join ⟨"index" ++ ext⟩ else []
  named ++ indices

end ExtensionPolicy

/-- A specifier that has been found from a directory. -/
structure Found where
  directory : Path
  specifier : String
  path : Path
  deriving DecidableEq, Repr

/-- Finds files for specifiers and remembers them. -/
structure Resolver where
  policy : ExtensionPolicy
  found : List Found
  deriving DecidableEq, Repr

namespace Resolver

/-- A resolver that has found nothing yet. -/
def new (policy : ExtensionPolicy) : Resolver :=
  ⟨policy, []⟩

/-- What has been found for a specifier from a directory, however the directory is spelled. -/
def remembered? (resolver : Resolver) (directory : Path) (specifier : String) : Option Path :=
  (resolver.found.find? fun entry =>
    entry.specifier == specifier && entry.directory.same directory).map (·.path)

/-- The names to try for a specifier from a directory. -/
def candidates (policy : ExtensionPolicy) (directory : Path) (specifier : String) : List Path :=
  policy.candidates (directory.join ⟨specifier⟩).normalized

/-- Looks for a specifier from a directory without remembering anything. -/
def search (tree : FileTree) (policy : ExtensionPolicy) (directory : Path) (specifier : String)
    (importer : Option Path) : Except BuildError Path :=
  let candidates := candidates policy directory specifier
  match candidates.find? tree.isFile with
  | none => .error (.resolution specifier importer (.noSuchFile candidates))
  | some candidate =>
    match tree.canonical? candidate with
    | none => .error (.resolution specifier importer (.noCanonicalPath candidate))
    | some path => .ok path

/-- Finds the file for a specifier from a directory, and remembers it. -/
def resolveFrom (tree : FileTree) (resolver : Resolver) (directory : Path) (specifier : String)
    (importer : Option Path) : Except BuildError Path × Resolver :=
  match resolver.remembered? directory specifier with
  | some path => (.ok path, resolver)
  | none =>
    match search tree resolver.policy directory specifier importer with
    | .ok path => (.ok path, { resolver with found := ⟨directory, specifier, path⟩ :: resolver.found })
    | .error error => (.error error, resolver)

/-- What has been found is not looked for again, whatever has become of the files. -/
theorem resolveFrom_of_remembered (tree : FileTree) (resolver : Resolver) (directory : Path)
    (specifier : String) (importer : Option Path) {path : Path}
    (h : resolver.remembered? directory specifier = some path) :
    resolver.resolveFrom tree directory specifier importer = (.ok path, resolver) := by
  simp [resolveFrom, h]

/-- The directory from which a module names others. -/
def directoryOf (importer : Path) : Path :=
  importer.parent?.getD ⟨"/"⟩

/-- Finds the file for a specifier of a module. -/
def resolve (tree : FileTree) (resolver : Resolver) (specifier : String) (importer : Path) :
    Except BuildError Path × Resolver :=
  resolver.resolveFrom tree (directoryOf importer) specifier (some importer)

/-- Finds the file that a project starts from, taken from the working directory. -/
def resolveEntry (tree : FileTree) (resolver : Resolver) (entry : Path) :
    Except BuildError Path × Resolver :=
  resolver.resolveFrom tree tree.workingPath entry.text none

end Resolver

end ModuleBundler
