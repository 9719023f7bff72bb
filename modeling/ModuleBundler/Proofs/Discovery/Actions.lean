/-
# ModuleBundler.Proofs.Discovery.Actions — what a build does, and how often.

A build calls the compiler, puts identities into its worklist and takes them out again.  Here every
step of a build is given together with its actions; without them it is the step itself
(`fst_linkAllLogged`, `fst_expandLogged`).  The loop that drains the worklist is given as a relation
without any bound, so that `Builds` holds of a build only if its loop comes to an end.
-/
import ModuleBundler.Proofs.Discovery.Outcome

namespace ModuleBundler.Discovery

/-- An action of a build. -/
inductive Action
  /-- the compiler is called for the file under a path -/
  | compile (path : Path)
  /-- an identity enters the worklist -/
  | queue (id : Nat)
  /-- the module of an identity from the worklist is expanded -/
  | expand (id : Nat)
  deriving DecidableEq, Repr

/-- The paths for which the compiler is called. -/
def compiledPaths (actions : List Action) : List Path :=
  actions.filterMap fun
    | .compile path => some path
    | _ => none

/-- The identities that enter the worklist. -/
def queuedIds (actions : List Action) : List Nat :=
  actions.filterMap fun
    | .queue id => some id
    | _ => none

/-- The identities whose modules are expanded. -/
def expandedIds (actions : List Action) : List Nat :=
  actions.filterMap fun
    | .expand id => some id
    | _ => none

theorem compiledPaths_append (before after : List Action) :
    compiledPaths (before ++ after) = compiledPaths before ++ compiledPaths after :=
  List.filterMap_append

theorem queuedIds_append (before after : List Action) :
    queuedIds (before ++ after) = queuedIds before ++ queuedIds after :=
  List.filterMap_append

theorem expandedIds_append (before after : List Action) :
    expandedIds (before ++ after) = expandedIds before ++ expandedIds after :=
  List.filterMap_append

/-! ## Steps with their actions -/

section

variable (tree : FileTree) (compiler : Compiler)

/-- Reads and compiles a new module: `discover` with its actions. -/
def discoverLogged (builder : Builder) (path : Path) :
    Except BuildError (Nat × Builder) × List Action :=
  match read tree path with
  | .error error => (.error error, [])
  | .ok source =>
    match compiler path source with
    | .error error => (.error error, [.compile path])
    | .ok compiled =>
      let (id, graph) := builder.graph.addModule path source compiled
      (.ok (id, { builder with graph := graph, worklist := builder.worklist ++ [id] }),
        [.compile path, .queue id])

/-- The identity of the module under a path: `identify` with its actions. -/
def identifyLogged (builder : Builder) (path : Path) :
    Except BuildError (Nat × Builder) × List Action :=
  match builder.graph.idOfPath? path with
  | some id => (.ok (id, builder), [])
  | none => discoverLogged tree compiler builder path

/-- Resolves a specifier: `link` with its actions. -/
def linkLogged (id : Nat) (importer : Path) (builder : Builder) (specifier : String) :
    (Except BuildError Unit × Builder) × List Action :=
  match builder.resolver.resolve tree specifier importer with
  | (.error error, resolver) => ((.error error, { builder with resolver := resolver }), [])
  | (.ok path, resolver) =>
    match identifyLogged tree compiler { builder with resolver := resolver } path with
    | (.error error, actions) => ((.error error, { builder with resolver := resolver }), actions)
    | (.ok (target, builder), actions) =>
      ((.ok (), { builder with graph := builder.graph.addMapping id specifier target }), actions)

/-- Resolves specifiers in order: `linkAll` with its actions. -/
def linkAllLogged (id : Nat) (importer : Path) :
    (builder : Builder) → (specifiers : List String) →
      (Except BuildError Unit × Builder) × List Action
  | builder, [] => ((.ok (), builder), [])
  | builder, specifier :: specifiers =>
    match linkLogged tree compiler id importer builder specifier with
    | ((.error error, builder), actions) => ((.error error, builder), actions)
    | ((.ok (), builder), actions) =>
      let others := linkAllLogged id importer builder specifiers
      (others.1, actions ++ others.2)

/-- Expands a module: `expand` with its actions. -/
def expandLogged (builder : Builder) (id : Nat) :
    (Except BuildError Unit × Builder) × List Action :=
  match builder.graph.get? id with
  | none => ((.error (.invalidGraph (.unregistered id)), builder), [.expand id])
  | some record =>
    let linked := linkAllLogged tree compiler id record.path builder record.specifiers
    (linked.1, .expand id :: linked.2)

/-- The worklist is drained: modules are expanded from its front until it is empty or one of them
fails. -/
inductive Drains : Builder → List Action → Except BuildError Unit × Builder → Prop
  | finished {builder : Builder} (empty : builder.worklist = []) :
      Drains builder [] (.ok (), builder)
  | failed {builder last : Builder} {id : Nat} {worklist : List Nat} {error : BuildError}
      {actions : List Action} (queued : builder.worklist = id :: worklist)
      (expanded : expandLogged tree compiler { builder with worklist := worklist } id =
        ((.error error, last), actions)) :
      Drains builder actions (.error error, last)
  | step {builder next : Builder} {id : Nat} {worklist : List Nat} {actions others : List Action}
      {result : Except BuildError Unit × Builder} (queued : builder.worklist = id :: worklist)
      (expanded : expandLogged tree compiler { builder with worklist := worklist } id =
        ((.ok (), next), actions))
      (drains : Drains next others result) :
      Drains builder (actions ++ others) result

/-- A build comes to an end, with the actions that it takes. -/
inductive Builds (resolver : Resolver) (entry : Path) :
    List Action → Except BuildError ModuleGraph × Resolver → Prop
  | unresolved {error : BuildError} {after : Resolver}
      (found : resolver.resolveEntry tree entry = (.error error, after)) :
      Builds resolver entry [] (.error error, after)
  | refused {path : Path} {after : Resolver} {error : BuildError} {actions : List Action}
      (found : resolver.resolveEntry tree entry = (.ok path, after))
      (refused : discoverLogged tree compiler (.start after) path = (.error error, actions)) :
      Builds resolver entry actions (.error error, after)
  | drained {path : Path} {after : Resolver} {id : Nat} {builder last : Builder}
      {result : Except BuildError Unit} {actions others : List Action}
      (found : resolver.resolveEntry tree entry = (.ok path, after))
      (discovered : discoverLogged tree compiler (.start after) path =
        (.ok (id, builder), actions))
      (drains : Drains tree compiler builder others (result, last)) :
      Builds resolver entry (actions ++ others) (result.map fun _ => last.graph, last.resolver)

end

/-! ## Without their actions the steps are those of a build -/

section

variable (tree : FileTree) (compiler : Compiler)

theorem fst_discoverLogged (builder : Builder) (path : Path) :
    (discoverLogged tree compiler builder path).1 = discover tree compiler builder path := by
  have unfolded : discover tree compiler builder path =
      (read tree path >>= fun source => compiler path source >>= fun compiled => _) := rfl
  rw [discoverLogged, unfolded]
  cases read tree path with
  | error error => rfl
  | ok source =>
    show _ = (compiler path source >>= fun compiled => _)
    dsimp only
    cases compiler path source with
    | error error => rfl
    | ok compiled => rfl

theorem fst_identifyLogged (builder : Builder) (path : Path) :
    (identifyLogged tree compiler builder path).1 = identify tree compiler builder path := by
  rw [identifyLogged, identify]
  cases builder.graph.idOfPath? path with
  | some id => rfl
  | none => exact fst_discoverLogged tree compiler builder path

theorem fst_linkLogged (id : Nat) (importer : Path) (builder : Builder) (specifier : String) :
    (linkLogged tree compiler id importer builder specifier).1 =
      link tree compiler id importer builder specifier := by
  rw [linkLogged, link]
  cases builder.resolver.resolve tree specifier importer with
  | mk result resolver =>
    cases result with
    | error error => rfl
    | ok path =>
      dsimp only
      rw [← fst_identifyLogged]
      cases identifyLogged tree compiler { builder with resolver := resolver } path with
      | mk identified actions => cases identified <;> rfl

theorem fst_linkAllLogged (id : Nat) (importer : Path) (builder : Builder)
    (specifiers : List String) :
    (linkAllLogged tree compiler id importer builder specifiers).1 =
      linkAll tree compiler id importer builder specifiers := by
  induction specifiers generalizing builder with
  | nil => rfl
  | cons specifier specifiers ih =>
    rw [linkAllLogged, linkAll, ← fst_linkLogged]
    cases linkLogged tree compiler id importer builder specifier with
    | mk linked actions =>
      obtain ⟨result, next⟩ := linked
      cases result with
      | error error => rfl
      | ok value => exact ih next

theorem fst_expandLogged (builder : Builder) (id : Nat) :
    (expandLogged tree compiler builder id).1 = expand tree compiler builder id := by
  rw [expandLogged, expand]
  cases builder.graph.get? id with
  | none => rfl
  | some record => exact fst_linkAllLogged tree compiler id record.path builder record.specifiers

/-- A loop that has not used up its steps has come to its end. -/
theorem exists_drains_of_drain (steps : Nat) (builder : Builder)
    (ended : (drain tree compiler steps builder).1 = .ok () →
      (drain tree compiler steps builder).2.worklist = []) :
    ∃ actions, Drains tree compiler builder actions (drain tree compiler steps builder) := by
  induction steps generalizing builder with
  | zero => exact ⟨[], .finished (ended rfl)⟩
  | succ steps ih =>
    rw [drain] at ended ⊢
    cases queued : builder.worklist with
    | nil => exact ⟨[], .finished queued⟩
    | cons id worklist =>
      rw [queued] at ended
      dsimp only at ended ⊢
      have erased := fst_expandLogged tree compiler { builder with worklist := worklist } id
      cases expanded : expandLogged tree compiler { builder with worklist := worklist } id with
      | mk outcome actions =>
        rw [expanded] at erased
        obtain ⟨result, next⟩ := outcome
        rw [← erased] at ended ⊢
        cases result with
        | error error => exact ⟨actions, .failed queued expanded⟩
        | ok value =>
          obtain ⟨others, drains⟩ := ih next ended
          exact ⟨actions ++ others, .step queued expanded drains⟩

end

end ModuleBundler.Discovery
