/-
# ModuleBundler.Proofs.Execution.Loading — the registry of a graph, and a machine at work on it.

The registry of a graph is an object (`registryTerm`): under every identity there is an array of a
factory and a mapping.  Evaluating it makes two objects for each module, in order, and then the
registry; the linking function makes a cache behind them if modules are kept, and requires the first
module.  So running the script of a graph is requiring its first module on a machine that is
`Linked` (`follows_execute`).  A specifier leads where the graph says, unless it is `__proto__`: as a
property it does not come into being.
-/
import ModuleBundler.Proofs.Discovery.Mappings
import ModuleBundler.Proofs.Execution.Refinement
import ModuleBundler.Proofs.Graph.Imports

namespace ModuleBundler

namespace ModuleGraph

/-- What running a bundle depends on: identities are positions, no specifier of a module is recorded
twice, and every recorded specifier leads to a module. -/
structure Sound (graph : ModuleGraph) : Prop extends graph.WellFormed where
  keys : ∀ record ∈ graph.modules, (record.mapping.map (·.1)).Nodup
  closed : graph.Closed
  inhabited : 0 < graph.size

end ModuleGraph

theorem Discovery.sound_of_build {tree : FileTree} {compiler : Compiler} {resolver : Resolver}
    {entry : Path} {graph : ModuleGraph}
    (built : (build tree compiler resolver entry).1 = .ok graph) : graph.Sound := by
  have closed := ModuleGraph.closed_of_isClosed (isClosed_of_build built)
  obtain ⟨stage, run, done, last, rfl⟩ := exists_run_of_build built
  refine ⟨run.wellFormed, fun record mem => ?_, closed, Nat.zero_lt_of_lt run.id_lt_size⟩
  rw [run.keys_of_done done last mem]
  exact nodup_eraseDups _

namespace Execution

variable {M : Type}

/-! ## Scripts of graphs -/

/-- The text of the body of a module's factory. -/
def factoryBody (record : ModuleRecord) : String :=
  "\n" ++ record.code ++ "\n"

/-- Where the specifiers of a module lead, as an object. -/
def mappingTerm (record : ModuleRecord) : Term :=
  .object (.ofList (record.mapping.map fun entry => (entry.1, .number entry.2)))

/-- The identity of a module with its factory and mapping. -/
def registryField (record : ModuleRecord) : String × Term :=
  (record.id.repr, .array (.ofList [.script (factoryBody record), mappingTerm record]))

/-- All modules of a graph. -/
def registryTerm (graph : ModuleGraph) : Term :=
  .object (.ofList (graph.modules.map registryField))

/-- What a bundle does: its linking function, applied to its registry. -/
def script? (options : RuntimeOptions) (graph : ModuleGraph) : Option Term :=
  (ofScript? (Registry.runtime options).toList).map fun linking =>
    .call linking (.ofList [registryTerm graph])

theorem script?_eq (options : RuntimeOptions) (graph : ModuleGraph) :
    script? options graph =
      some (.call (Linking.function options.moduleCache) (.ofList [registryTerm graph])) := by
  rw [script?, ofScript?_runtime]
  rfl

/-- Where a specifier of a module leads when the bundle runs. -/
def leadsTo (graph : ModuleGraph) (id : Nat) (name : String) : Option Nat :=
  if name = "__proto__" then none else (graph.get? id).bind fun record => record.resolve? name

theorem exists_entry_of_leadsTo {graph : ModuleGraph} {id target : Nat} {name : String}
    (leads : leadsTo graph id name = some target) :
    ∃ record, graph.get? id = some record ∧ (name, target) ∈ record.mapping := by
  unfold leadsTo at leads
  split at leads
  · exact absurd leads (by simp)
  · obtain ⟨record, found, resolved⟩ := Option.bind_eq_some_iff.mp leads
    obtain ⟨⟨key, value⟩, isEntry, rfl⟩ := Option.map_eq_some_iff.mp resolved
    obtain rfl : key = name := by simpa using List.find?_some isEntry
    exact ⟨record, found, List.mem_of_find?_eq_some isEntry⟩

theorem imports_of_leadsTo {graph : ModuleGraph} {id target : Nat} {name : String}
    (leads : leadsTo graph id name = some target) : graph.Imports id target := by
  obtain ⟨record, found, mem⟩ := exists_entry_of_leadsTo leads
  exact ⟨record, found, List.mem_map_of_mem mem⟩

/-- A specifier leads where it is recorded to lead, unless it is `__proto__`. -/
theorem leadsTo_of_mem {graph : ModuleGraph} (sound : graph.Sound) {id target : Nat}
    {record : ModuleRecord} (found : graph.get? id = some record) {name : String}
    (mem : (name, target) ∈ record.mapping) :
    leadsTo graph id name = if name = "__proto__" then none else some target := by
  have keys := sound.keys record (List.mem_of_getElem? found)
  rw [leadsTo, found]
  show (if name = "__proto__" then none else record.resolve? name) = _
  rw [ModuleRecord.resolve?_of_mem keys mem]

/-- The linking of a graph. -/
def linking (options : RuntimeOptions) (graph : ModuleGraph) (factories : Factories M) : Setup M :=
  ⟨options.moduleCache, leadsTo graph, factories⟩

/-! ## Objects of the registry -/

/-- The properties of a mapping. -/
def mappingBindings : List (String × Nat) → Bindings
  | [] => []
  | entry :: entries =>
    if entry.1 = "__proto__" then mappingBindings entries
    else mappingBindings entries ++ [(entry.1, .number entry.2)]

/-- The objects that are made for modules, the first of which gets a number. -/
def objectsFrom (number : Nat) : List ModuleRecord → List Bindings
  | [] => []
  | record :: records =>
    mappingBindings record.mapping :: positions 0 [.factory number, .object (2 * number)] ::
      objectsFrom (number + 1) records

/-- The properties of the registry for modules, the first of which gets a number. -/
def entriesFrom (number : Nat) : List ModuleRecord → Bindings
  | [] => []
  | record :: records =>
    entriesFrom (number + 1) records ++ [(record.id.repr, .object (2 * number + 1))]

/-- A machine on which modules have been evaluated. -/
def Machine.load (number : Nat) (records : List ModuleRecord) (machine : Machine M) : Machine M :=
  { machine with
    objects := machine.objects ++ objectsFrom number records
    scripts := machine.scripts ++ records.map factoryBody }

section

variable (call : Value → List Value → Exec M Value) (scopes : List Nat)

theorem eval_mapping (entries : List (String × Nat)) (machine : Machine M) :
    (Fields.ofList (entries.map fun entry => (entry.1, .number entry.2))).eval call scopes machine =
      .ok (mappingBindings entries) machine := by
  induction entries with
  | nil => rfl
  | cons entry entries ih =>
    by_cases isProto : entry.1 = "__proto__"
    · simp [mappingBindings, ih, isProto]
    · simp [mappingBindings, ih, isProto]

/-- Evaluating a module makes its mapping and then its entry. -/
theorem eval_field (record : ModuleRecord) {number : Nat} {machine : Machine M}
    (objects : machine.objects.length = 2 * number) (scripts : machine.scripts.length = number) :
    (registryField record).2.eval call scopes machine =
      .ok (.object (2 * number + 1)) (machine.load number [record]) := by
  simp [registryField, mappingTerm, eval_mapping, Machine.load, objectsFrom, Machine.addScript,
    Machine.allocate, objects, scripts]

theorem Machine.load_load (machine : Machine M) (number : Nat) (record : ModuleRecord)
    (records : List ModuleRecord) :
    (machine.load number [record]).load (number + 1) records =
      machine.load number (record :: records) := by
  simp [load, objectsFrom]

theorem eval_records (records : List ModuleRecord) {number : Nat} {machine : Machine M}
    (objects : machine.objects.length = 2 * number) (scripts : machine.scripts.length = number) :
    (Fields.ofList (records.map registryField)).eval call scopes machine =
      .ok (entriesFrom number records) (machine.load number records) := by
  induction records generalizing number machine with
  | nil => simp [entriesFrom, Machine.load, objectsFrom]
  | cons record records ih =>
    have first := eval_field call scopes record objects scripts
    have grown : (machine.load number [record]).objects.length = 2 * (number + 1) := by
      simp [Machine.load, objectsFrom, objects]
      omega
    have more : (machine.load number [record]).scripts.length = number + 1 := by
      simp [Machine.load, scripts]
    have rest := ih grown more
    rw [Machine.load_load] at rest
    have key : (registryField record).1 = record.id.repr := rfl
    simp [first, rest, key, repr_ne_proto, entriesFrom]

end

/-! What is found in these objects. -/

theorem lookup_mappingBindings {entries : List (String × Nat)}
    (distinct : (entries.map (·.1)).Nodup) (name : String) :
    (mappingBindings entries).lookup name =
      if name = "__proto__" then none
      else ((entries.find? fun entry => entry.1 == name).map (·.2)).map .number := by
  induction entries with
  | nil => simp [mappingBindings]
  | cons entry entries ih =>
    obtain ⟨isNew, distinct⟩ := List.nodup_cons.mp distinct
    have rest := ih distinct
    by_cases isProto : entry.1 = "__proto__"
    · rw [mappingBindings, if_pos isProto, rest]
      by_cases same : name = "__proto__"
      · rw [if_pos same, if_pos same]
      · simp [isProto, Ne.symm same]
    · by_cases same : name = entry.1
      · -- no other entry has this key, so what is written first is found
        have absent : (entries.find? fun other => other.1 == name) = none := by
          rw [List.find?_eq_none]
          rintro other mem isKey
          exact isNew (List.mem_map.mpr ⟨other, mem, (beq_iff_eq.mp isKey).trans same⟩)
        rw [absent] at rest
        have notProto : name ≠ "__proto__" := same ▸ isProto
        rw [if_neg notProto] at rest
        simp [mappingBindings, List.lookup_append, ← same, rest, notProto]
      · have differs : (name == entry.1) = false := beq_false_of_ne same
        have differs' : (entry.1 == name) = false := beq_false_of_ne (Ne.symm same)
        simp [mappingBindings, List.lookup_append, isProto, rest, List.lookup_cons, differs,
          differs']

theorem getElem?_objectsFrom_mapping (records : List ModuleRecord) (number id : Nat) :
    (objectsFrom number records)[2 * id]? =
      records[id]?.map fun record => mappingBindings record.mapping := by
  induction records generalizing number id with
  | nil => simp [objectsFrom]
  | cons record records ih =>
    cases id with
    | zero => simp [objectsFrom]
    | succ id =>
      have place : 2 * (id + 1) = 2 * id + 1 + 1 := by omega
      simp [objectsFrom, place, ih]

theorem getElem?_objectsFrom_entry (records : List ModuleRecord) (number id : Nat) :
    (objectsFrom number records)[2 * id + 1]? =
      records[id]?.map fun _ => positions 0 [.factory (number + id), .object (2 * (number + id))] := by
  induction records generalizing number id with
  | nil => simp [objectsFrom]
  | cons record records ih =>
    cases id with
    | zero => simp [objectsFrom]
    | succ id =>
      have place : 2 * (id + 1) + 1 = 2 * id + 1 + 1 + 1 := by omega
      have shifted : number + 1 + id = number + (id + 1) := by omega
      simp [objectsFrom, place, ih, shifted]

theorem length_objectsFrom (number : Nat) (records : List ModuleRecord) :
    (objectsFrom number records).length = 2 * records.length := by
  induction records generalizing number with
  | nil => rfl
  | cons record records ih =>
    simp [objectsFrom, ih]
    omega

theorem lookup_entriesFrom {records : List ModuleRecord} {number : Nat}
    (placed : records.map (·.id) = List.range' number records.length) (id : Nat) :
    (entriesFrom number records).lookup id.repr =
      if number ≤ id ∧ id < number + records.length then some (.object (2 * id + 1)) else none := by
  induction records generalizing number with
  | nil =>
    have outside : ¬ (number ≤ id ∧ id < number + 0) := by omega
    rw [List.length_nil, if_neg outside]
    rfl
  | cons record records ih =>
    rw [List.map_cons, List.length_cons, List.range'_succ] at placed
    obtain ⟨first, rest⟩ := List.cons.inj placed
    rw [entriesFrom, List.lookup_append, ih rest, List.length_cons, first]
    by_cases same : id = number
    · subst same
      rw [if_neg (by omega)]
      simp
    · have differs : (id.repr == number.repr) = false :=
        beq_false_of_ne fun equal => same (repr_injective equal)
      have later : (number + 1 ≤ id ∧ id < number + 1 + records.length) ↔
          (number ≤ id ∧ id < number + (records.length + 1)) := by omega
      have missing : List.lookup id.repr [(number.repr, Value.object (2 * number + 1))] = none := by
        simp [List.lookup_cons, differs]
      rw [missing, Option.or_none]
      exact if_congr later rfl rfl

/-! ## A machine at work -/

/-- Where the linking function of a graph keeps what it works with. -/
def siteOf (caches : Bool) (graph : ModuleGraph) : Site where
  scope := 0
  registry := 2 * graph.size
  cache := 2 * graph.size + 1
  entry id := 2 * id + 1
  mapping id := 2 * id
  base := if caches then 2 * graph.size + 2 else 2 * graph.size + 1

theorem siteOf_fits (caches : Bool) (graph : ModuleGraph) :
    (siteOf caches graph).Fits caches graph.size := by
  constructor <;> cases caches <;> simp [siteOf] <;> omega

/-- The machine when the registry has been made. -/
def Machine.loaded (graph : ModuleGraph) (memory : M) : Machine M :=
  ((Machine.start memory).load 0 graph.modules).allocate (entriesFrom 0 graph.modules)

/-- The machine when the linking function has been called. -/
def Machine.entered (caches : Bool) (graph : ModuleGraph) (memory : M) : Machine M :=
  ((Machine.loaded graph memory).log (.call "" [.object (2 * graph.size)])).enter
    ((Linking.body caches).bindings ["modules"] [.object (2 * graph.size)] [0])

/-- The machine when the first module is required. -/
def Machine.working (caches : Bool) (graph : ModuleGraph) (memory : M) : Machine M :=
  if caches then
    ((Machine.entered caches graph memory).allocate []).assign 0 "cache"
      (.object (2 * graph.size + 1))
  else Machine.entered caches graph memory

section

variable (graph : ModuleGraph) (memory : M)

theorem length_objects_loaded :
    (Machine.loaded graph memory).objects.length = 2 * graph.size + 1 := by
  simp [Machine.loaded, Machine.load, Machine.start, length_objectsFrom, ModuleGraph.size]

theorem length_objects_working (caches : Bool) :
    (Machine.working caches graph memory).objects.length = (siteOf caches graph).base := by
  cases caches <;>
    simp [Machine.working, Machine.entered, siteOf, length_objects_loaded]

theorem scopes_loaded : (Machine.loaded graph memory).scopes = [] := by
  simp [Machine.loaded, Machine.load, Machine.start]

@[simp] theorem trace_working (caches : Bool) :
    (Machine.working caches graph memory).trace = [.call "" [.object (2 * graph.size)]] := by
  cases caches <;>
    simp [Machine.working, Machine.entered, Machine.loaded, Machine.load, Machine.start]

@[simp] theorem memory_working (caches : Bool) :
    (Machine.working caches graph memory).memory = memory := by
  cases caches <;>
    simp [Machine.working, Machine.entered, Machine.loaded, Machine.load, Machine.start]

theorem scripts_working (caches : Bool) :
    (Machine.working caches graph memory).scripts = graph.modules.map factoryBody := by
  cases caches <;>
    simp [Machine.working, Machine.entered, Machine.loaded, Machine.load, Machine.start]

theorem binds_working (caches : Bool) :
    (Machine.working caches graph memory).Binds 0 ((siteOf caches graph).bindings caches) := by
  intro name
  cases caches with
  | false =>
    simp [Machine.working, Machine.entered, scopes_loaded, Linking.body, Block.bindings,
      Block.functions, Statement.variables, Block.variables, parameterBindings, Site.bindings,
      siteOf, requireFunction]
  | true =>
    by_cases isCache : name = "cache"
    · simp [Machine.working, Machine.entered, scopes_loaded, Site.bindings, siteOf, isCache,
        List.lookup_cons]
    · have differs : (name == "cache") = false := beq_false_of_ne isCache
      simp [Machine.working, Machine.entered, scopes_loaded, Linking.body, Block.bindings,
        Block.functions, Statement.variables, Block.variables, parameterBindings, Site.bindings,
        siteOf, requireFunction, isCache, differs, List.lookup_cons]

theorem own_working (caches : Bool) {place : Nat} (inside : place ≤ 2 * graph.size) (key : String) :
    (Machine.working caches graph memory).own place key =
      if place = 2 * graph.size then (entriesFrom 0 graph.modules).lookup key
      else read (objectsFrom 0 graph.modules) place key := by
  have notCache : place ≠ 2 * graph.size + 1 := by omega
  have registry : (Machine.working caches graph memory).own place key =
      (Machine.loaded graph memory).own place key := by
    cases caches <;>
      simp [Machine.working, Machine.entered, length_objects_loaded, notCache]
  rw [registry]
  show read (objectsFrom 0 graph.modules ++ [entriesFrom 0 graph.modules]) place key = _
  rw [read_concat, length_objectsFrom]
  rfl

/-- The linking function ends by requiring the first module. -/
theorem exec_requireFirst {site : Site} {caches : Bool} {machine : Machine M}
    (outer : machine.Binds 0 (site.bindings caches)) (factories : Factories M) (depth : Nat) :
    (Block.ofList [.function "require" ["id"] (Linking.require caches),
        .expression (.call (.name "require") (.ofList [.number 0]))]).exec
      (invoke factories depth) [0] machine =
    next (invoke factories depth (requireFunction caches site.scope) [.number 0] machine)
      fun _ => pure none := by
  simp [outer _, Site.bindings]

theorem exec_body (factories : Factories M) (depth : Nat) (caches : Bool) :
    (Linking.body caches).exec (invoke factories depth) [0] (Machine.entered caches graph memory) =
      next (invoke factories depth (requireFunction caches 0) [.number 0]
        (Machine.working caches graph memory)) fun _ => pure none := by
  have outer := binds_working graph memory caches
  cases caches with
  | false => exact exec_requireFirst outer factories depth
  | true =>
    have place : (Machine.entered true graph memory).objects.length = 2 * graph.size + 1 := by
      simp [Machine.entered, length_objects_loaded]
    refine Eq.trans ?_ (exec_requireFirst outer factories depth)
    simp [Linking.body, place, Machine.working]

/-- Running a script is requiring the first module. -/
theorem execute_script (options : RuntimeOptions) {script : Term}
    (is : script? options graph = some script) (factories : Factories M) (depth : Nat) :
    execute factories (depth + 1) memory script =
      next (invoke factories depth (requireFunction options.moduleCache 0) [.number 0]
        (Machine.working options.moduleCache graph memory)) fun _ => pure .undefined := by
  rw [script?_eq] at is
  obtain rfl := Option.some.inj is
  have evaluated : (Fields.ofList (graph.modules.map registryField)).eval
      (invoke factories (depth + 1)) [] (Machine.start memory) =
        .ok (entriesFrom 0 graph.modules) ((Machine.start memory).load 0 graph.modules) :=
    eval_records _ _ graph.modules rfl rfl
  have place : ((Machine.start memory).load 0 graph.modules).objects.length = 2 * graph.size := by
    simp [Machine.load, Machine.start, length_objectsFrom, ModuleGraph.size]
  have called : execute factories (depth + 1) memory
      (.call (Linking.function options.moduleCache) (.ofList [registryTerm graph])) =
        invoke factories (depth + 1) (.closure "" ["modules"] (Linking.body options.moduleCache) [])
          [.object (2 * graph.size)] (Machine.loaded graph memory) := by
    simp [execute, Linking.function, registryTerm, evaluated, place, Machine.loaded]
  rw [called, invoke_closure, scopes_loaded]
  show next ((Linking.body options.moduleCache).exec (invoke factories depth) [0]
    (Machine.entered options.moduleCache graph memory)) _ = _
  rw [exec_body, next_next]
  rfl

/-- The registry has every module. -/
theorem registered_working {graph : ModuleGraph} (sound : graph.Sound) (memory : M) (caches : Bool)
    {id : Nat} (inside : id < graph.size) :
    Registered (siteOf caches graph) id (Machine.working caches graph memory) where
  entry := by
    have placed : graph.modules.map (·.id) = List.range' 0 graph.modules.length := by
      rw [sound.ids, List.range_eq_range']
      rfl
    have isModule : 0 ≤ id ∧ id < 0 + graph.modules.length := by
      rw [Nat.zero_add]
      exact ⟨Nat.zero_le id, inside⟩
    show (Machine.working caches graph memory).own (2 * graph.size) id.repr = _
    rw [own_working graph memory caches (Nat.le_refl _), if_pos rfl, lookup_entriesFrom placed,
      if_pos isModule]
    rfl
  factory := by
    show (Machine.working caches graph memory).own (2 * id + 1) (Nat.repr 0) = _
    rw [own_working graph memory caches (by omega), if_neg (by omega), read,
      getElem?_objectsFrom_entry, List.getElem?_eq_getElem inside]
    simp [positions]
  mapping := by
    show (Machine.working caches graph memory).own (2 * id + 1) (Nat.repr 1) = _
    rw [own_working graph memory caches (by omega), if_neg (by omega), read,
      getElem?_objectsFrom_entry, List.getElem?_eq_getElem inside]
    have differs : (Nat.repr 1 == Nat.repr 0) = false := by decide
    simp [positions, List.lookup_cons, differs, siteOf]

/-- Mappings lead where specifiers lead. -/
theorem leads_working {graph : ModuleGraph} (sound : graph.Sound) (memory : M) (caches : Bool)
    {id : Nat} (inside : id < graph.size) (name : String) :
    (Machine.working caches graph memory).own ((siteOf caches graph).mapping id) name =
      (leadsTo graph id name).map .number := by
  obtain ⟨record, found⟩ : ∃ record, graph.modules[id]? = some record :=
    ⟨_, List.getElem?_eq_getElem inside⟩
  have keys := sound.keys record (List.mem_of_getElem? found)
  show (Machine.working caches graph memory).own (2 * id) name = _
  rw [own_working graph memory caches (by omega), if_neg (by omega), read,
    getElem?_objectsFrom_mapping, found]
  show (mappingBindings record.mapping).lookup name = _
  rw [lookup_mappingBindings keys, leadsTo, ModuleGraph.get?, found]
  by_cases isProto : name = "__proto__"
  · rw [if_pos isProto, if_pos isProto]
    rfl
  · rw [if_neg isProto, if_neg isProto]
    rfl

/-- Nothing has happened yet, and everything is in its place. -/
theorem linked_working {graph : ModuleGraph} (sound : graph.Sound) (options : RuntimeOptions)
    (factories : Factories M) (memory : M) :
    Linked (linking options graph factories) graph.size (siteOf options.moduleCache graph)
      (Machine.working options.moduleCache graph memory) where
  outside := by
    show 0 < (Machine.working options.moduleCache graph memory).scopes.length
    cases options.moduleCache <;> simp [Machine.working, Machine.entered]
  outer := binds_working graph memory options.moduleCache
  base_le := Nat.le_of_eq (length_objects_working graph memory options.moduleCache).symm
  registered _ inside := registered_working sound memory options.moduleCache inside
  leads _ inside name := leads_working sound memory options.moduleCache inside name
  kept _ run started := absurd started (by simp [Event.started?])
  absent caches id _ := by
    have caches : options.moduleCache = true := caches
    rw [caches]
    simp [Machine.working, Machine.entered, siteOf, length_objects_loaded]
  exports run started := absurd started (by simp [Event.started?])
  placed event mem run isRun := by
    rw [trace_working, List.mem_singleton] at mem
    subst mem
    exact absurd isRun (by simp [Event.run?])
  distinct run started := absurd started (by simp [Event.started?])
  objects run value mem := by
    rw [trace_working, List.mem_singleton] at mem
    exact absurd mem Event.noConfusion

/-- What running a script comes to. -/
theorem follows_execute {graph : ModuleGraph} (sound : graph.Sound) {options : RuntimeOptions}
    {script : Term} (is : script? options graph = some script) (factories : Factories M)
    {within : Nat → List Event → Nat → Prop}
    (descends : Descends (linking options graph factories) graph.size within) (depth : Nat)
    (memory : M) :
    (∃ answer events after,
      execute factories (depth + 1) memory script = (answer.exporting .undefined).result after ∧
      Carried (linking options graph factories) graph.size (siteOf options.moduleCache graph)
        (.require 0) (Machine.working options.moduleCache graph memory) answer events after) ∨
    (¬ Enough within depth [.call "" [.object (2 * graph.size)]] 0 ∧ ∃ events after,
      execute factories (depth + 1) memory script = .error .exhausted after ∧
      Interrupted (linking options graph factories) (siteOf options.moduleCache graph)
        (.require 0) (Machine.working options.moduleCache graph memory) events after) := by
  have linked := linked_working sound options factories memory
  have follows := follows_require (siteOf_fits options.moduleCache graph)
    (fun id _ name target leads => sound.closed id target (imports_of_leadsTo leads)) descends depth
    _ 0 linked sound.inhabited
  rw [trace_working] at follows
  rw [execute_script graph memory options is factories depth]
  rcases follows with
    ⟨answer, events, after, ends, carried⟩ | ⟨short, events, after, ends, interrupted⟩
  · refine Or.inl ⟨answer, events, after, ?_, carried⟩
    have ends : invoke factories depth (requireFunction options.moduleCache 0) [.number 0]
      (Machine.working options.moduleCache graph memory) = _ := ends
    rw [ends]
    cases answer <;> rfl
  · refine Or.inr ⟨short, events, after, ?_, interrupted⟩
    have ends : invoke factories depth (requireFunction options.moduleCache 0) [.number 0]
      (Machine.working options.moduleCache graph memory) = _ := ends
    rw [ends]
    rfl

end

end Execution

end ModuleBundler
