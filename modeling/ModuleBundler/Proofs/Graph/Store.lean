/-
# ModuleBundler.Proofs.Graph.Store — identities, paths and the table of paths.

A graph is `WellFormed` if identities are positions, no two modules have the same path, and the
table of paths lists exactly the modules.  Adding modules and recording mappings keep this.  In a
well-formed graph looking a path up is exact in both directions (`WellFormed.idOfPath?_eq_some_iff`,
`idOfPath?_eq_none_iff`).  What mappings leave alone is the `outline`.
-/
import Mathlib.Data.List.Nodup
import ModuleBundler.Graph.Basic

namespace ModuleBundler

/-- A module without where its specifiers lead. -/
def ModuleRecord.bare (record : ModuleRecord) : ModuleRecord :=
  { record with mapping := [] }

theorem ModuleRecord.bare_addMapping (record : ModuleRecord) (specifier : String) (target : Nat) :
    (record.addMapping specifier target).bare = record.bare := by
  rw [addMapping]
  split <;> rfl

namespace ModuleGraph

/-- All about the modules of a graph but where their specifiers lead. -/
def outline (graph : ModuleGraph) : List ModuleRecord :=
  graph.modules.map ModuleRecord.bare

theorem length_outline (graph : ModuleGraph) : graph.outline.length = graph.size :=
  List.length_map _

theorem outline_addMapping (graph : ModuleGraph) (id : Nat) (specifier : String) (target : Nat) :
    (graph.addMapping id specifier target).outline = graph.outline := by
  refine List.ext_getElem? fun i => ?_
  rw [outline, outline, List.getElem?_map, List.getElem?_map, addMapping, List.getElem?_modify]
  cases graph.modules[i]? with
  | none => rfl
  | some record =>
    show some (ModuleRecord.bare
      (if id = i then record.addMapping specifier target else record)) = _
    split
    · rw [ModuleRecord.bare_addMapping]
      rfl
    · rfl

theorem outline_push (graph : ModuleGraph) (path : Path) (source : String)
    (compiled : CompiledModule) :
    (graph.push path source compiled).outline =
      graph.outline ++ [.ofCompiled graph.nextId path source compiled] :=
  List.map_append

theorem outline_of_get? {graph : ModuleGraph} {id : Nat} {record : ModuleRecord}
    (found : graph.get? id = some record) : graph.outline[id]? = some record.bare := by
  rw [outline, List.getElem?_map]
  show (graph.get? id).map _ = _
  rw [found]
  rfl

/-- Modules that are known stay where they are. -/
theorem outline_push_of_outline {graph : ModuleGraph} {id : Nat} {record : ModuleRecord}
    (placed : graph.outline[id]? = some record) (path : Path) (source : String)
    (compiled : CompiledModule) :
    (graph.push path source compiled).outline[id]? = some record := by
  rw [outline_push, List.getElem?_append_left (List.getElem?_eq_some_iff.mp placed).1]
  exact placed

theorem size_push (graph : ModuleGraph) (path : Path) (source : String)
    (compiled : CompiledModule) : (graph.push path source compiled).size = graph.size + 1 :=
  List.length_append

theorem mem_outline {graph : ModuleGraph} {record : ModuleRecord} (h : record ∈ graph.modules) :
    record.bare ∈ graph.outline :=
  List.mem_map_of_mem h

/-- A property of modules that mappings have no part in is read off the outline. -/
theorem map_outline {α : Type} (graph : ModuleGraph) (f : ModuleRecord → α)
    (h : ∀ record, f record.bare = f record) : graph.outline.map f = graph.modules.map f := by
  rw [outline, List.map_map]
  exact List.map_congr_left fun record _ => h record

/-! ## Well-formed graphs -/

/-- Identities are positions, and the table of paths lists the modules, each path once. -/
structure WellFormed (graph : ModuleGraph) : Prop where
  ids : graph.modules.map (·.id) = List.range graph.size
  nextId : graph.nextId = graph.size
  identities : graph.identities = graph.modules.map fun record => (record.path, record.id)
  distinct : (graph.modules.map (·.path.components)).Nodup

theorem wellFormed_empty : empty.WellFormed :=
  ⟨rfl, rfl, rfl, List.nodup_nil⟩

/-- Being well-formed does not depend on mappings. -/
theorem WellFormed.of_outline {graph other : ModuleGraph} (h : graph.WellFormed)
    (outline : other.outline = graph.outline) (identities : other.identities = graph.identities)
    (nextId : other.nextId = graph.nextId) : other.WellFormed := by
  have size : other.size = graph.size := by
    rw [← length_outline, outline, length_outline]
  exact
    { ids := by
        rw [← map_outline other (·.id) fun _ => rfl, outline, map_outline graph _ fun _ => rfl, size]
        exact h.ids
      nextId := by
        rw [nextId, size]
        exact h.nextId
      identities := by
        rw [← map_outline other (fun record => (record.path, record.id)) fun _ => rfl, outline,
          map_outline graph _ fun _ => rfl, identities]
        exact h.identities
      distinct := by
        rw [← map_outline other (·.path.components) fun _ => rfl, outline,
          map_outline graph _ fun _ => rfl]
        exact h.distinct }

theorem WellFormed.addMapping {graph : ModuleGraph} (h : graph.WellFormed) (id : Nat)
    (specifier : String) (target : Nat) : (graph.addMapping id specifier target).WellFormed :=
  h.of_outline (graph.outline_addMapping id specifier target) rfl rfl

theorem WellFormed.id_of_get? {graph : ModuleGraph} (h : graph.WellFormed) {id : Nat}
    {record : ModuleRecord} (found : graph.get? id = some record) : record.id = id := by
  have listed : (graph.modules.map (·.id))[id]? = some record.id := by
    rw [List.getElem?_map]
    show (graph.get? id).map _ = _
    rw [found]
    rfl
  rw [h.ids, List.getElem?_range] at listed
  · exact (Option.some.inj listed).symm
  · obtain ⟨inRange, -⟩ := List.getElem?_eq_some_iff.mp found
    exact inRange

theorem WellFormed.get?_id {graph : ModuleGraph} (h : graph.WellFormed) {record : ModuleRecord}
    (mem : record ∈ graph.modules) : graph.get? record.id = some record := by
  obtain ⟨id, found⟩ := List.mem_iff_getElem?.mp mem
  rw [h.id_of_get? found]
  exact found

theorem mem_of_get? {graph : ModuleGraph} {id : Nat} {record : ModuleRecord}
    (found : graph.get? id = some record) : record ∈ graph.modules :=
  List.mem_of_getElem? found

theorem lt_size_of_get? {graph : ModuleGraph} {id : Nat} {record : ModuleRecord}
    (found : graph.get? id = some record) : id < graph.size :=
  (List.getElem?_eq_some_iff.mp found).1

/-- No two modules have the same path. -/
theorem WellFormed.eq_of_same {graph : ModuleGraph} (h : graph.WellFormed)
    {record other : ModuleRecord} (mem : record ∈ graph.modules) (mem' : other ∈ graph.modules)
    (same : record.path.same other.path = true) : record = other :=
  List.inj_on_of_nodup_map h.distinct mem mem' ((Path.same_iff _ _).mp same)

/-- Looking a path up finds the identity of the module that has this path in some spelling. -/
theorem WellFormed.idOfPath?_eq_some_iff {graph : ModuleGraph} (h : graph.WellFormed) {path : Path}
    {id : Nat} : graph.idOfPath? path = some id ↔
      ∃ record, graph.get? id = some record ∧ record.path.same path = true := by
  -- the table lists the modules, so looking up there is looking for the module
  have lookup : graph.idOfPath? path =
      (graph.modules.find? fun record => record.path.same path).map (·.id) := by
    rw [idOfPath?, h.identities, List.find?_map, Option.map_map]
    rfl
  rw [lookup, Option.map_eq_some_iff]
  constructor
  · rintro ⟨record, found, rfl⟩
    have same := List.find?_some found
    exact ⟨record, h.get?_id (List.mem_of_find?_eq_some found), same⟩
  · rintro ⟨record, found, same⟩
    have mem := mem_of_get? found
    cases first : graph.modules.find? fun record => record.path.same path with
    | none => exact absurd same (List.find?_eq_none.mp first record mem)
    | some other =>
      have sameAsOther : record.path.same other.path = true := by
        have sameOther := List.find?_some first
        rw [Path.same_iff] at same sameOther ⊢
        rw [same, sameOther]
      rw [h.eq_of_same mem (List.mem_of_find?_eq_some first) sameAsOther] at found
      exact ⟨other, rfl, h.id_of_get? found⟩

theorem WellFormed.idOfPath?_eq_none_iff {graph : ModuleGraph} (h : graph.WellFormed)
    {path : Path} :
    graph.idOfPath? path = none ↔ ∀ record ∈ graph.modules, record.path.same path = false := by
  rw [Option.eq_none_iff_forall_ne_some]
  constructor
  · intro unknown record mem
    refine Bool.eq_false_iff.mpr fun same => unknown record.id ?_
    exact h.idOfPath?_eq_some_iff.mpr ⟨record, h.get?_id mem, same⟩
  · intro other id known
    obtain ⟨record, found, same⟩ := h.idOfPath?_eq_some_iff.mp known
    rw [other record (mem_of_get? found)] at same
    exact Bool.false_ne_true same

/-- A path that is none of some paths has other components than all of them. -/
theorem components_not_mem_map {α : Type} {items : List α} {pathOf : α → Path} {path : Path}
    (new : ∀ item ∈ items, (pathOf item).same path = false) :
    path.components ∉ items.map fun item => (pathOf item).components := by
  intro mem
  obtain ⟨item, listed, same⟩ := List.mem_map.mp mem
  have unlike := new item listed
  rw [Bool.eq_false_iff, Ne, Path.same_iff] at unlike
  exact unlike same

theorem WellFormed.push {graph : ModuleGraph} (h : graph.WellFormed) {path : Path}
    (new : graph.idOfPath? path = none) (source : String) (compiled : CompiledModule) :
    (graph.push path source compiled).WellFormed where
  ids := by
    rw [size_push, List.range_succ, ← h.ids, ← h.nextId]
    exact List.map_append
  nextId := by
    rw [size_push, ← h.nextId]
    rfl
  identities := by
    show graph.identities ++ _ = List.map _ (graph.modules ++ _)
    rw [h.identities, List.map_append]
    rfl
  distinct := by
    -- a path that is not in the table has other components than all modules
    show (List.map _ (graph.modules ++ _)).Nodup
    rw [List.map_append]
    refine h.distinct.append (List.nodup_singleton _) (List.disjoint_singleton.mpr ?_)
    exact components_not_mem_map (h.idOfPath?_eq_none_iff.mp new)

theorem WellFormed.addModule {graph : ModuleGraph} (h : graph.WellFormed) (path : Path)
    (source : String) (compiled : CompiledModule) :
    (graph.addModule path source compiled).2.WellFormed := by
  rw [ModuleGraph.addModule]
  cases known : graph.idOfPath? path with
  | some id => exact h
  | none => exact h.push known source compiled

theorem idOfPath?_push_of_known {graph : ModuleGraph} {known path : Path} {id : Nat}
    (found : graph.idOfPath? known = some id) (source : String) (compiled : CompiledModule) :
    (graph.push path source compiled).idOfPath? known = some id := by
  rw [idOfPath?, Option.map_eq_some_iff] at found ⊢
  obtain ⟨entry, found, rfl⟩ := found
  refine ⟨entry, ?_, rfl⟩
  show (graph.identities ++ _).find? _ = _
  rw [List.find?_append, found]
  rfl

theorem idOfPath?_push_self {graph : ModuleGraph} {path : Path}
    (new : graph.idOfPath? path = none) (source : String) (compiled : CompiledModule) :
    (graph.push path source compiled).idOfPath? path = some graph.nextId := by
  rw [idOfPath?, Option.map_eq_none_iff] at new
  show ((graph.identities ++ [(path, graph.nextId)]).find? _).map _ = _
  rw [List.find?_append, new, Option.none_or]
  simp only [List.find?_cons, Path.same_refl, Option.map_some]

end ModuleGraph

end ModuleBundler
