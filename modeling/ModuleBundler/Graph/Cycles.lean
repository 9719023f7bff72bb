/-
# ModuleBundler.Graph.Cycles — modules that import each other.

`reached` collects the modules that a module imports, directly or through others.  Two modules
belong to one group if each is reached from the other; `cycles?` lists the groups by their lowest
identities.  `cycleChain` spells out a shortest way around through the lowest member of a group: a
search through what the members import remembers for each module which one led to it, and the chain
is told back from the first one that imports the lowest member.
-/
import ModuleBundler.Graph.Basic

namespace ModuleBundler.ModuleGraph

/-- Adds to what has been found everything that the pending modules lead to; every step deals with
one pending module. -/
def grow (graph : ModuleGraph) : (steps : Nat) → (pending found : List Nat) → List Nat
  | 0, _, found => found
  | _, [], found => found
  | steps + 1, id :: pending, found =>
    let targets := ((graph.get? id).map ModuleRecord.targets).getD []
    let fresh := distinct (targets.filter fun target => !found.contains target)
    grow graph steps (pending ++ fresh) (found ++ fresh)

/-- The modules that a module imports, directly or through others. -/
def reached (graph : ModuleGraph) (id : Nat) : List Nat :=
  grow graph (graph.size + 1) [id] []

/-- The modules of a table that reach a module and are reached from it. -/
def groupOf (table : List (Nat × List Nat)) (id : Nat) (reached : List Nat) : List Nat :=
  (table.filter fun entry => reached.contains entry.1 && entry.2.contains id).map (·.1)

/-- The groups of a table, each listed at its lowest member. -/
def groups (table : List (Nat × List Nat)) : List (List Nat) :=
  table.filterMap fun entry =>
    if entry.2.contains entry.1 then
      let group := groupOf table entry.1 entry.2
      if group.head? == some entry.1 then some group else none
    else none

/-- Whether every module that is imported is in the graph. -/
def isClosed (graph : ModuleGraph) : Bool :=
  graph.edges.all fun edge => edge.2 < graph.size

/-- The groups of modules that import each other, a module that imports itself included; `none`
where an import leads out of the graph. -/
def cycles? (graph : ModuleGraph) : Option (List (List Nat)) :=
  if graph.isClosed then
    some (groups ((List.range graph.size).map fun id => (id, graph.reached id)))
  else none

/-- What a search for a way back knows: the modules that wait for their turn, and for every module
that it has come across the one that led to it. -/
structure Search where
  queue : List Nat
  origins : List (Nat × Nat)
  deriving DecidableEq, Repr

namespace Search

/-- The search as it begins. -/
def begun (start : Nat) : Search :=
  ⟨[start], []⟩

/-- The module that led to another one. -/
def originOf? (search : Search) (id : Nat) : Option Nat :=
  (search.origins.find? fun entry => entry.1 == id).map (·.2)

/-- Comes across a module that waits for its turn from now on. -/
def meet (search : Search) (importer target : Nat) : Search :=
  ⟨search.queue ++ [target], search.origins ++ [(target, importer)]⟩

/-- Goes through what a module imports, up to the start: whether the start is among it, and what is
known then.  Only members of the group count, and the start has no origin. -/
def visit (start : Nat) (members : List Nat) (importer : Nat) :
    (search : Search) → (targets : List Nat) → Bool × Search
  | search, [] => (false, search)
  | search, target :: targets =>
    if target = start then (true, search)
    else if members.contains target && (search.originOf? target).isNone then
      visit start members importer (search.meet importer target) targets
    else visit start members importer search targets

/-- The identities on the way back from a module to the start, put before what is known of the
chain; `none` where an origin is missing or the steps do not suffice. -/
def wayBack? (search : Search) (start : Nat) : (steps id : Nat) → (chain : List Nat) →
    Option (List Nat)
  | steps, id, chain =>
    if id = start then some chain
    else
      match steps with
      | 0 => none
      | steps + 1 =>
        match search.originOf? id with
        | none => none
        | some origin => wayBack? search start steps origin (origin :: chain)

end Search

/-- Deals with the modules that wait, the first one first, until one of them imports the start:
that module, if there is one, and what is known then; `none` where the steps do not suffice. -/
def closing? (graph : ModuleGraph) (start : Nat) (members : List Nat) :
    (steps : Nat) → Search → Option (Option (Nat × Search))
  | 0, _ => none
  | steps + 1, search =>
    match search.queue with
    | [] => some none
    | id :: queue =>
      let targets := ((graph.get? id).map ModuleRecord.targets).getD []
      match Search.visit start members id { search with queue := queue } targets with
      | (true, search) => some (some (id, search))
      | (false, search) => closing? graph start members steps search

/-- The identities on a shortest way around through the lowest of some modules, first and last the
lowest, without leaving these modules, and no identities where there is no such way; `none` where
the search does not come to an end or does not find back. -/
def cycleIds? (graph : ModuleGraph) (members : List Nat) : Option (List Nat) :=
  match members.min? with
  | none => some []
  | some start =>
    match graph.closing? start members (members.length + 1) (.begun start) with
    | none => none
    | some none => some []
    | some (some (id, search)) => search.wayBack? start search.origins.length id [id, start]

/-- The identities on a shortest way around, which is always found. -/
def cycleIds (graph : ModuleGraph) (members : List Nat) : List Nat :=
  (graph.cycleIds? members).getD []

/-- The paths on a shortest way around through the lowest of some modules. -/
def cycleChain (graph : ModuleGraph) (members : List Nat) : List Path :=
  (graph.cycleIds members).filterMap fun id => (graph.get? id).map (·.path)

end ModuleBundler.ModuleGraph
