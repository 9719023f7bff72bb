/-
# ModuleBundler.Discovery — the graph of a project.

Starting from the entry, every module that is reached by specifiers is read, compiled and added to
the graph, breadth first.  A module is compiled when it is first found, and queued; when its turn
comes, its specifiers are resolved, and where they lead to a path that is known, its identity is
used again.
-/
import ModuleBundler.Graph.Basic
import ModuleBundler.Resolver

namespace ModuleBundler.Discovery

/-- The text of a file. -/
def read (tree : FileTree) (path : Path) : Except BuildError String :=
  match tree.find? path with
  | some (.file content) =>
    match String.fromUTF8? content with
    | some text => .ok text
    | none => .error (.io path .invalidText)
  | some _ => .error (.io path (.other "Is a directory (os error 21)"))
  | none => .error (.io path (.other "No such file or directory (os error 2)"))

/-- The state of a build. -/
structure Builder where
  resolver : Resolver
  graph : ModuleGraph
  /-- the identities of the modules whose specifiers have not been resolved yet -/
  worklist : List Nat
  deriving DecidableEq, Repr

/-- A build that has found nothing yet. -/
def Builder.start (resolver : Resolver) : Builder :=
  ⟨resolver, .empty, []⟩

/-- Reads and compiles a new module, gives it the next identity and queues it. -/
def discover (tree : FileTree) (compiler : Compiler) (builder : Builder) (path : Path) :
    Except BuildError (Nat × Builder) := do
  let source ← read tree path
  let compiled ← compiler path source
  let (id, graph) := builder.graph.addModule path source compiled
  return (id, { builder with graph := graph, worklist := builder.worklist ++ [id] })

/-- The identity of the module under a path, which is known or new. -/
def identify (tree : FileTree) (compiler : Compiler) (builder : Builder) (path : Path) :
    Except BuildError (Nat × Builder) :=
  match builder.graph.idOfPath? path with
  | some id => .ok (id, builder)
  | none => discover tree compiler builder path

/-- Resolves a specifier of a module and records where it leads. -/
def link (tree : FileTree) (compiler : Compiler) (id : Nat) (importer : Path) (builder : Builder)
    (specifier : String) : Except BuildError Unit × Builder :=
  match builder.resolver.resolve tree specifier importer with
  | (.error error, resolver) => (.error error, { builder with resolver := resolver })
  | (.ok path, resolver) =>
    match identify tree compiler { builder with resolver := resolver } path with
    | .error error => (.error error, { builder with resolver := resolver })
    | .ok (target, builder) =>
      (.ok (), { builder with graph := builder.graph.addMapping id specifier target })

/-- Resolves specifiers of a module in order, up to the first that fails. -/
def linkAll (tree : FileTree) (compiler : Compiler) (id : Nat) (importer : Path) :
    (builder : Builder) → (specifiers : List String) → Except BuildError Unit × Builder
  | builder, [] => (.ok (), builder)
  | builder, specifier :: specifiers =>
    match link tree compiler id importer builder specifier with
    | (.error error, builder) => (.error error, builder)
    | (.ok (), builder) => linkAll tree compiler id importer builder specifiers

/-- Resolves all specifiers of a module that has been compiled. -/
def expand (tree : FileTree) (compiler : Compiler) (builder : Builder) (id : Nat) :
    Except BuildError Unit × Builder :=
  match builder.graph.get? id with
  | none => (.error (.invalidGraph (.unregistered id)), builder)
  | some record => linkAll tree compiler id record.path builder record.specifiers

/-- Expands modules from the front of the worklist, one in each step, until it is empty. -/
def drain (tree : FileTree) (compiler : Compiler) :
    (steps : Nat) → (builder : Builder) → Except BuildError Unit × Builder
  | 0, builder => (.ok (), builder)
  | steps + 1, builder =>
    match builder.worklist with
    | [] => (.ok (), builder)
    | id :: worklist =>
      match expand tree compiler { builder with worklist := worklist } id with
      | (.error error, builder) => (.error error, builder)
      | (.ok (), builder) => drain tree compiler steps builder

/-- More steps than there are modules: every module is a file of the tree, or stands under a path
that was found before. -/
def stepsFor (tree : FileTree) (resolver : Resolver) : Nat :=
  tree.entries.length + resolver.found.length + 1

/-- Finds all modules that are reached from an entry. -/
def build (tree : FileTree) (compiler : Compiler) (resolver : Resolver) (entry : Path) :
    Except BuildError ModuleGraph × Resolver :=
  match resolver.resolveEntry tree entry with
  | (.error error, resolver) => (.error error, resolver)
  | (.ok path, resolver) =>
    match discover tree compiler (.start resolver) path with
    | .error error => (.error error, resolver)
    | .ok (_, builder) =>
      match drain tree compiler (stepsFor tree resolver) builder with
      | (.error error, builder) => (.error error, builder.resolver)
      | (.ok (), builder) => (.ok builder.graph, builder.resolver)

end ModuleBundler.Discovery
