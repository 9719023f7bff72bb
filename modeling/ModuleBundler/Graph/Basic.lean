/-
# ModuleBundler.Graph.Basic — the modules of a project and who imports whom.

A graph holds modules in the order in which they were found; the identity of a module is its
position.  No two modules have the same path, however it is spelled: a table of the paths that are
known is asked before a module is added.  The mapping of a module leads from its specifiers to
identities, in the order in which they were recorded.
-/
import ModuleBundler.Compiler
import ModuleBundler.Digest

namespace ModuleBundler

/-- A module with its place in a graph. -/
structure ModuleRecord where
  id : Nat
  path : Path
  specifiers : List String
  code : String
  /-- where specifiers lead -/
  mapping : List (String × Nat)
  /-- the fingerprint of the text that the module was compiled from -/
  contentHash : String
  deriving DecidableEq, Repr

namespace ModuleRecord

/-- A module that has just been compiled; its specifiers do not lead anywhere yet. -/
def ofCompiled (id : Nat) (path : Path) (source : String) (compiled : CompiledModule) :
    ModuleRecord :=
  { id := id
    path := path
    specifiers := compiled.specifiers
    code := compiled.code
    mapping := []
    contentHash := Digest.ofText source }

/-- The identity that a specifier leads to. -/
def resolve? (record : ModuleRecord) (specifier : String) : Option Nat :=
  (record.mapping.find? fun entry => entry.1 == specifier).map (·.2)

/-- Records where a specifier leads; the first record of a specifier stays. -/
def addMapping (record : ModuleRecord) (specifier : String) (target : Nat) : ModuleRecord :=
  match record.resolve? specifier with
  | some _ => record
  | none => { record with mapping := record.mapping ++ [(specifier, target)] }

/-- A recorded specifier leads to what was recorded first. -/
theorem resolve?_addMapping_self (record : ModuleRecord) (specifier : String) (target : Nat) :
    (record.addMapping specifier target).resolve? specifier =
      some ((record.resolve? specifier).getD target) := by
  unfold addMapping
  cases h : record.resolve? specifier with
  | some id => simpa using h
  | none =>
    simp only [resolve?, Option.map_eq_none_iff] at h
    simp [resolve?, List.find?_append, h]

/-- The other specifiers lead where they led before. -/
theorem resolve?_addMapping_of_ne (record : ModuleRecord) {specifier other : String} (target : Nat)
    (h : other ≠ specifier) :
    (record.addMapping specifier target).resolve? other = record.resolve? other := by
  unfold addMapping
  split
  · rfl
  · simp [resolve?, List.find?_append, Ne.symm h]

/-- The identities that a module imports, in the order of its mapping. -/
def targets (record : ModuleRecord) : List Nat :=
  record.mapping.map (·.2)

end ModuleRecord

/-- The modules of a project in the order in which they were found. -/
structure ModuleGraph where
  modules : List ModuleRecord
  /-- the paths that are known, each with the identity of its module -/
  identities : List (Path × Nat)
  /-- the identity of the module that is added next -/
  nextId : Nat
  deriving DecidableEq, Repr

namespace ModuleGraph

/-- The graph without modules. -/
def empty : ModuleGraph :=
  ⟨[], [], 0⟩

def size (graph : ModuleGraph) : Nat :=
  graph.modules.length

/-- The module with an identity. -/
def get? (graph : ModuleGraph) (id : Nat) : Option ModuleRecord :=
  graph.modules[id]?

/-- The identity of the module that stands under a path, however the path is spelled. -/
def idOfPath? (graph : ModuleGraph) (path : Path) : Option Nat :=
  (graph.identities.find? fun entry => entry.1.same path).map (·.2)

/-- The module that stands under a path. -/
def getByPath? (graph : ModuleGraph) (path : Path) : Option ModuleRecord :=
  (graph.idOfPath? path).bind graph.get?

/-- The module that was found first. -/
def entryModule? (graph : ModuleGraph) : Option ModuleRecord :=
  graph.modules.head?

/-- Adds a module under a path that is not known yet. -/
def push (graph : ModuleGraph) (path : Path) (source : String) (compiled : CompiledModule) :
    ModuleGraph :=
  { modules := graph.modules ++ [.ofCompiled graph.nextId path source compiled]
    identities := graph.identities ++ [(path, graph.nextId)]
    nextId := graph.nextId + 1 }

/-- Adds a module under a path; a path that is known keeps its module. -/
def addModule (graph : ModuleGraph) (path : Path) (source : String) (compiled : CompiledModule) :
    Nat × ModuleGraph :=
  match graph.idOfPath? path with
  | some id => (id, graph)
  | none => (graph.nextId, graph.push path source compiled)

/-- Records where a specifier of a module leads; an identity that no module has changes nothing. -/
def addMapping (graph : ModuleGraph) (id : Nat) (specifier : String) (target : Nat) :
    ModuleGraph :=
  { graph with modules := graph.modules.modify id fun record => record.addMapping specifier target }

theorem size_addMapping (graph : ModuleGraph) (id : Nat) (specifier : String) (target : Nat) :
    (graph.addMapping id specifier target).size = graph.size := by
  simp [addMapping, size]

/-- Only the module of the identity changes. -/
theorem get?_addMapping (graph : ModuleGraph) (id other : Nat) (specifier : String) (target : Nat) :
    (graph.addMapping id specifier target).get? other =
      if id = other then (graph.get? other).map (·.addMapping specifier target)
      else graph.get? other := by
  simp only [addMapping, get?, List.getElem?_modify]
  split <;> simp

/-- A list of identities without those that occur in it before. -/
def distinct : List Nat → List Nat
  | [] => []
  | id :: ids => id :: (distinct ids).filter (· != id)

theorem mem_distinct {id : Nat} {ids : List Nat} : id ∈ distinct ids ↔ id ∈ ids := by
  induction ids with
  | nil => simp [distinct]
  | cons first rest ih =>
    by_cases h : id = first <;> simp [distinct, ih, h]

theorem nodup_distinct (ids : List Nat) : (distinct ids).Nodup := by
  induction ids with
  | nil => simp [distinct]
  | cons first rest ih =>
    simp only [distinct, List.nodup_cons]
    exact ⟨by simp, ih.filter _⟩

/-- Who imports whom, each pair once. -/
def edges (graph : ModuleGraph) : List (Nat × Nat) :=
  graph.modules.flatMap fun record => (distinct record.targets).map fun target => (record.id, target)

/-- What is wrong with one specifier of a module. -/
def specifierFault? (graph : ModuleGraph) (record : ModuleRecord) (specifier : String) :
    Option GraphFault :=
  match record.resolve? specifier with
  | none => some (.unresolved specifier record.path)
  | some target =>
    if target < graph.size then none else some (.unknownTarget specifier record.path target)

/-- The first thing that is wrong with the modules from a position on. -/
def faultFrom? (graph : ModuleGraph) : (position : Nat) → List ModuleRecord → Option GraphFault
  | _, [] => none
  | position, record :: records =>
    if record.id ≠ position then some (.misplaced record.id position)
    else
      match record.specifiers.findSome? (graph.specifierFault? record) with
      | some fault => some fault
      | none => faultFrom? graph (position + 1) records

/-- Checks that identities are positions and that every specifier leads to a module. -/
def validate (graph : ModuleGraph) : Except BuildError Unit :=
  match graph.faultFrom? 0 graph.modules with
  | some fault => .error (.invalidGraph fault)
  | none => .ok ()

end ModuleGraph

end ModuleBundler
