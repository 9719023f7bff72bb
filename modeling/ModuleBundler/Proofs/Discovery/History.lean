/-
# ModuleBundler.Proofs.Discovery.History — what has been resolved, and what the graph says of it.

A build resolves the specifiers of its modules in the order of their identities (`Run.listed`), and
new identities are given out in the order in which they are first resolved to (`Run.order`).  What
it resolves is what the mappings of the graph hold: no more, no less, and in the same order
(`Run.recorded`).
-/
import Mathlib.Data.List.Induction
import ModuleBundler.Proofs.Discovery.Run

namespace ModuleBundler

/-! ## Lists without repetitions -/

/-- An element at the end of a list is a repetition, or new and last. -/
theorem eraseDups_concat {α : Type} [DecidableEq α] (l : List α) (a : α) :
    (l ++ [a]).eraseDups = if a ∈ l then l.eraseDups else l.eraseDups ++ [a] := by
  rw [List.eraseDups_append]
  by_cases mem : a ∈ l
  · rw [if_pos mem, List.removeAll, List.filter_cons_of_neg, List.filter_nil, List.eraseDups_nil,
      List.append_nil]
    rw [Bool.not_eq_true', Bool.not_eq_false, List.elem_eq_mem, decide_eq_true_iff]
    exact mem
  · rw [if_neg mem, List.removeAll, List.filter_cons_of_pos, List.filter_nil]
    · rfl
    · rw [Bool.not_eq_true', List.elem_eq_mem, decide_eq_false_iff_not]
      exact mem

theorem nodup_eraseDups {α : Type} [DecidableEq α] (l : List α) : l.eraseDups.Nodup := by
  induction l using List.reverseRecOn with
  | nil => exact List.nodup_nil
  | append_singleton l a ih =>
    rw [eraseDups_concat]
    split
    · exact ih
    · rename_i notMem
      refine ih.append (List.nodup_singleton a) fun b mem mem' => ?_
      rw [List.mem_singleton.mp mem', List.mem_eraseDups] at mem
      exact notMem mem

/-! ## Mappings -/

namespace ModuleRecord

/-- The specifiers that a module has been resolved for. -/
def keys (record : ModuleRecord) : List String :=
  record.mapping.map (·.1)

theorem resolve?_eq_none_iff {record : ModuleRecord} {specifier : String} :
    record.resolve? specifier = none ↔ specifier ∉ record.keys := by
  rw [resolve?, Option.map_eq_none_iff, List.find?_eq_none, keys]
  constructor
  · intro unlike mem
    obtain ⟨entry, listed, rfl⟩ := List.mem_map.mp mem
    exact unlike entry listed (beq_self_eq_true entry.1)
  · intro absent entry mem same
    exact absent (List.mem_map.mpr ⟨entry, mem, eq_of_beq same⟩)

theorem mem_of_resolve? {record : ModuleRecord} {specifier : String} {target : Nat}
    (h : record.resolve? specifier = some target) : target ∈ record.mapping.map (·.2) := by
  rw [resolve?, Option.map_eq_some_iff] at h
  obtain ⟨entry, found, rfl⟩ := h
  exact List.mem_map_of_mem (List.mem_of_find?_eq_some found)

/-- Where no specifier is recorded twice, each leads to what is recorded. -/
theorem resolve?_of_mem {record : ModuleRecord} (distinct : record.keys.Nodup)
    {specifier : String} {target : Nat} (mem : (specifier, target) ∈ record.mapping) :
    record.resolve? specifier = some target := by
  rw [resolve?, Option.map_eq_some_iff]
  cases found : record.mapping.find? fun entry => entry.1 == specifier with
  | none =>
    have unlike := List.find?_eq_none.mp found (specifier, target) mem
    exact absurd (beq_self_eq_true specifier) unlike
  | some entry =>
    have same := List.find?_some found
    have isEntry : entry = (specifier, target) :=
      List.inj_on_of_nodup_map distinct (List.mem_of_find?_eq_some found) mem (eq_of_beq same)
    exact ⟨entry, rfl, congrArg Prod.snd isEntry⟩

/-- A specifier that is recorded leads where it is said to, if it did not lead elsewhere before. -/
theorem resolve?_addMapping_eq_some_iff {record : ModuleRecord} {specifier : String} {target : Nat}
    (unique : ∀ before, record.resolve? specifier = some before → before = target)
    (other : String) (id : Nat) :
    (record.addMapping specifier target).resolve? other = some id ↔
      record.resolve? other = some id ∨ other = specifier ∧ id = target := by
  by_cases same : other = specifier
  · subst same
    rw [resolve?_addMapping_self, Option.some.injEq]
    cases resolved : record.resolve? other with
    | none =>
      rw [Option.getD_none]
      exact ⟨fun isTarget => Or.inr ⟨rfl, isTarget.symm⟩,
        fun h => h.elim (fun clash => absurd clash (by simp)) fun isTarget => isTarget.2.symm⟩
    | some before =>
      rw [Option.getD_some, Option.some.injEq, unique before resolved]
      exact ⟨Or.inl, fun h => h.elim (fun same => same) fun isTarget => isTarget.2.symm⟩
  · rw [resolve?_addMapping_of_ne _ _ same]
    exact ⟨Or.inl, fun h => h.resolve_right fun isTarget => same isTarget.1⟩

/-- A specifier is added to the keys once. -/
theorem keys_addMapping {record : ModuleRecord} {visited : List String}
    (h : record.keys = visited.eraseDups) (specifier : String) (target : Nat) :
    (record.addMapping specifier target).keys = (visited ++ [specifier]).eraseDups := by
  rw [eraseDups_concat, addMapping]
  cases resolved : record.resolve? specifier with
  | some other =>
    have mem : specifier ∈ visited := by
      rw [← List.mem_eraseDups, ← h]
      by_contra absent
      rw [resolve?_eq_none_iff.mpr absent] at resolved
      exact absurd resolved (by simp)
    rw [if_pos mem]
    exact h
  | none =>
    have absent : specifier ∉ visited := by
      rw [← List.mem_eraseDups, ← h]
      exact resolve?_eq_none_iff.mp resolved
    rw [if_neg absent, ← h]
    exact List.map_append

end ModuleRecord

namespace Discovery

/-- The specifiers of a module that have been resolved, in order. -/
def visitedBy (history : List Visit) (id : Nat) : List String :=
  (history.filter fun visit => visit.importer == id).map (·.specifier)

theorem visitedBy_concat (history : List Visit) (visit : Visit) (id : Nat) :
    visitedBy (history ++ [visit]) id =
      if visit.importer = id then visitedBy history id ++ [visit.specifier]
      else visitedBy history id := by
  rw [visitedBy, List.filter_append, List.map_append]
  split
  · rename_i same
    rw [List.filter_cons_of_pos (by rw [same]; exact beq_self_eq_true id)]
    rfl
  · rename_i other
    rw [List.filter_cons_of_neg (by rw [beq_iff_eq]; exact other)]
    exact List.append_nil _

/-- The mappings of a graph hold what has been resolved. -/
structure Recorded (graph : ModuleGraph) (history : List Visit) : Prop where
  resolves : ∀ id record, graph.get? id = some record → ∀ specifier target,
    record.resolve? specifier = some target ↔ ⟨id, specifier, target⟩ ∈ history
  keys : ∀ id record, graph.get? id = some record →
    record.keys = (visitedBy history id).eraseDups

/-- A new module has no mapping, and nothing of it has been resolved. -/
theorem Recorded.push {graph : ModuleGraph} {history : List Visit} (h : Recorded graph history)
    (bound : ∀ visit ∈ history, visit.importer < graph.size) (path : Path) (source : String)
    (compiled : CompiledModule) : Recorded (graph.push path source compiled) history := by
  have split : ∀ id record, (graph.push path source compiled).get? id = some record →
      graph.get? id = some record ∨
        (∀ visit ∈ history, visit.importer ≠ id) ∧ record.mapping = [] := by
    intro id record found
    have inGraph : (graph.modules ++ [.ofCompiled graph.nextId path source compiled])[id]? =
        some record := found
    rcases Nat.lt_or_ge id graph.modules.length with inRange | beyond
    · rw [List.getElem?_append_left inRange] at inGraph
      exact Or.inl inGraph
    · rw [List.getElem?_append_right beyond, List.getElem?_singleton] at inGraph
      refine Or.inr ⟨fun visit mem same => ?_, ?_⟩
      · have placed := bound visit mem
        rw [ModuleGraph.size] at placed
        omega
      · split at inGraph
        · rw [← Option.some.inj inGraph]
          rfl
        · exact absurd inGraph (by simp)
  constructor
  · intro id record found specifier target
    rcases split id record found with old | ⟨unvisited, unmapped⟩
    · exact h.resolves id record old specifier target
    · rw [ModuleRecord.resolve?, unmapped]
      refine ⟨(by simp), fun mem => absurd rfl (unvisited _ mem)⟩
  · intro id record found
    rcases split id record found with old | ⟨unvisited, unmapped⟩
    · exact h.keys id record old
    · have none : (history.filter fun visit => visit.importer == id) = [] := by
        rw [List.filter_eq_nil_iff]
        intro visit mem same
        exact unvisited visit mem (eq_of_beq same)
      rw [ModuleRecord.keys, unmapped, visitedBy, none]
      rfl

/-- What has been resolved is recorded, if it was not resolved to anything else before. -/
theorem Recorded.addMapping {graph : ModuleGraph} {history : List Visit}
    (h : Recorded graph history) (visit : Visit)
    (unique : ∀ other ∈ history, other.importer = visit.importer →
      other.specifier = visit.specifier → other.target = visit.target) :
    Recorded (graph.addMapping visit.importer visit.specifier visit.target)
      (history ++ [visit]) := by
  constructor
  · intro id record found specifier target
    rw [ModuleGraph.get?_addMapping] at found
    rw [List.mem_append, List.mem_singleton]
    by_cases here : visit.importer = id
    · subst here
      rw [if_pos rfl, Option.map_eq_some_iff] at found
      obtain ⟨before, found, rfl⟩ := found
      have resolves := h.resolves visit.importer before found
      rw [ModuleRecord.resolve?_addMapping_eq_some_iff, resolves]
      · refine or_congr_right ⟨?_, fun isVisit => ?_⟩
        · rintro ⟨rfl, rfl⟩
          rfl
        · exact ⟨congrArg Visit.specifier isVisit, congrArg Visit.target isVisit⟩
      · exact fun other resolved => unique _ ((resolves _ _).mp resolved) rfl rfl
    · rw [if_neg here] at found
      rw [h.resolves id record found]
      refine ⟨Or.inl, fun mem => mem.resolve_right fun isVisit => ?_⟩
      exact here (congrArg Visit.importer isVisit).symm
  · intro id record found
    rw [ModuleGraph.get?_addMapping] at found
    rw [visitedBy_concat]
    by_cases here : visit.importer = id
    · rw [if_pos here, Option.map_eq_some_iff] at found
      obtain ⟨before, found, rfl⟩ := found
      rw [if_pos here]
      exact ModuleRecord.keys_addMapping (h.keys id before found) _ _
    · rw [if_neg here] at found
      rw [if_neg here]
      exact h.keys id record found

/-- A history goes through the modules in the order of identities, up to one of them. -/
structure Ordered (history : List Visit) (id : Nat) : Prop where
  pairwise : history.Pairwise fun before after => before.importer ≤ after.importer
  le : ∀ visit ∈ history, visit.importer ≤ id

theorem Ordered.concat {history : List Visit} {id : Nat} (h : Ordered history id)
    (specifier : String) (target : Nat) :
    Ordered (history ++ [⟨id, specifier, target⟩]) id := by
  constructor
  · refine List.pairwise_append.mpr ⟨h.pairwise, List.pairwise_singleton _ _, ?_⟩
    intro before mem after mem'
    rw [List.mem_singleton.mp mem']
    exact h.le before mem
  · intro visit mem
    rcases List.mem_append.mp mem with mem | mem
    · exact h.le visit mem
    · obtain rfl := List.mem_singleton.mp mem
      exact Nat.le_refl _

/-! ## Histories of builds -/

variable {tree : FileTree} {compiler : Compiler} {resolver : Resolver} {entry : Path}
  {stage : Stage}

namespace Run

/-- What has been resolved leads to the module of the path that the resolver answers with. -/
theorem answered (run : Run tree compiler resolver entry stage) :
    ∀ visit ∈ stage.history, ∃ record path,
      stage.builder.graph.outline[visit.importer]? = some record ∧
        (resolver.resolve tree visit.specifier record.path).1 = .ok path ∧
        stage.builder.graph.idOfPath? path = some visit.target := by
  induction run with
  | start found loads => exact fun visit mem => absurd mem List.not_mem_nil
  | take run queued registered ih => exact ih
  | @known builder id target importer path specifier todo history after run found known ih =>
    intro visit mem
    rw [ModuleGraph.outline_addMapping]
    rcases List.mem_append.mp mem with mem | mem
    · exact ih visit mem
    · rw [List.mem_singleton.mp mem]
      obtain ⟨record, placed, isImporter⟩ := run.current
      exact ⟨record, path, placed, isImporter ▸ run.answer_eq found, known⟩
  | @new builder id importer path specifier source todo history after compiled run found unknown
      loads ih =>
    intro visit mem
    rw [ModuleGraph.outline_addMapping]
    rcases List.mem_append.mp mem with mem | mem
    · obtain ⟨record, target, placed, answer, known⟩ := ih visit mem
      exact ⟨record, target, ModuleGraph.outline_push_of_outline placed _ _ _, answer,
        ModuleGraph.idOfPath?_push_of_known known source compiled⟩
    · rw [List.mem_singleton.mp mem]
      obtain ⟨record, placed, isImporter⟩ := run.current
      exact ⟨record, path, ModuleGraph.outline_push_of_outline placed _ _ _,
        isImporter ▸ run.answer_eq found, ModuleGraph.idOfPath?_push_self unknown source compiled⟩

theorem importer_lt_size (run : Run tree compiler resolver entry stage) :
    ∀ visit ∈ stage.history, visit.importer < stage.builder.graph.size := by
  intro visit mem
  obtain ⟨record, path, placed, -⟩ := run.answered visit mem
  rw [← ModuleGraph.length_outline]
  exact (List.getElem?_eq_some_iff.mp placed).1

theorem target_lt_size (run : Run tree compiler resolver entry stage) :
    ∀ visit ∈ stage.history, visit.target < stage.builder.graph.size := by
  intro visit mem
  obtain ⟨record, path, -, -, known⟩ := run.answered visit mem
  obtain ⟨target, found, -⟩ := run.wellFormed.idOfPath?_eq_some_iff.mp known
  exact ModuleGraph.lt_size_of_get? found

/-- A specifier of a module leads to the same module whenever it is resolved. -/
theorem target_eq (run : Run tree compiler resolver entry stage) {visit other : Visit}
    (mem : visit ∈ stage.history) (mem' : other ∈ stage.history)
    (importer : other.importer = visit.importer) (specifier : other.specifier = visit.specifier) :
    other.target = visit.target := by
  obtain ⟨record, path, placed, answer, known⟩ := run.answered visit mem
  obtain ⟨record', path', placed', answer', known'⟩ := run.answered other mem'
  rw [importer] at placed'
  obtain rfl := Option.some.inj (placed.symm.trans placed')
  rw [specifier] at answer'
  obtain rfl := Except.ok.inj (answer.symm.trans answer')
  exact Option.some.inj (known'.symm.trans known)

/-- The mappings hold what has been resolved, at every stage. -/
theorem recorded (run : Run tree compiler resolver entry stage) :
    Recorded stage.builder.graph stage.history := by
  induction run with
  | @start path after source compiled found loads =>
    have empty : Recorded .empty [] := ⟨nofun, nofun⟩
    exact empty.push (fun visit mem => absurd mem List.not_mem_nil) path source compiled
  | take run queued registered ih => exact ih
  | @known builder id target importer path specifier todo history after run found known ih =>
    -- a repeated specifier leads to the same module again, which the next stage knows
    have after := run.known found known
    refine ih.addMapping ⟨id, specifier, target⟩ fun other mem => ?_
    exact after.target_eq (List.mem_append_right _ (List.mem_singleton_self _))
      (List.mem_append_left _ mem)
  | @new builder id importer path specifier source todo history after compiled run found unknown
      loads ih =>
    have after := run.new found unknown loads
    refine (ih.push run.importer_lt_size path source compiled).addMapping
      ⟨id, specifier, builder.graph.nextId⟩ fun other mem => ?_
    exact after.target_eq (List.mem_append_right _ (List.mem_singleton_self _))
      (List.mem_append_left _ mem)

/-- Specifiers are resolved module by module, in the order of identities. -/
theorem listed (run : Run tree compiler resolver entry stage) :
    (stage.history.map fun visit => (visit.importer, visit.specifier)) ++
        stage.todo.map (fun specifier => (stage.id, specifier)) =
      (stage.builder.graph.outline.take (stage.id + 1)).flatMap fun record =>
        record.specifiers.map fun specifier => (record.id, specifier) := by
  induction run with
  | start found loads => exact (List.flatMap_singleton _ _).symm
  | @take builder id next importer history worklist record run queued registered ih =>
    obtain rfl : next = id + 1 := run.next_eq queued
    have placed := ModuleGraph.outline_of_get? registered
    have isId : record.id = id + 1 := run.wellFormed.id_of_get? registered
    rw [List.map_nil, List.append_nil] at ih
    -- one more module is listed, with all its specifiers still to do
    dsimp only at ih ⊢
    rw [ih, List.take_add_one (i := id + 1), placed, List.flatMap_append]
    show _ = _ ++ List.flatMap _ [record.bare]
    rw [List.flatMap_singleton, ← isId]
    rfl
  | known run found known ih =>
    rw [ModuleGraph.outline_addMapping, List.map_append, List.append_assoc]
    exact ih
  | @new builder id importer path specifier source todo history after compiled run found unknown
      loads ih =>
    -- the new module is none of those that are listed
    have inRange : id + 1 ≤ builder.graph.outline.length := run.id_lt_length_outline
    rw [ModuleGraph.outline_addMapping, ModuleGraph.outline_push, List.map_append,
      List.append_assoc, List.take_append_of_le_length inRange]
    exact ih

/-- When nothing is left to do, all specifiers of all modules have been resolved. -/
theorem listed_of_done (run : Run tree compiler resolver entry stage) (done : stage.todo = [])
    (last : stage.id + 1 = stage.builder.graph.size) :
    (stage.history.map fun visit => (visit.importer, visit.specifier)) =
      stage.builder.graph.modules.flatMap fun record =>
        record.specifiers.map fun specifier => (record.id, specifier) := by
  have listed := run.listed
  rw [done, List.map_nil, List.append_nil, last, ← ModuleGraph.length_outline, List.take_length]
    at listed
  rw [listed, ModuleGraph.outline, List.flatMap_map]
  rfl

theorem exists_visit_of_done (run : Run tree compiler resolver entry stage)
    (done : stage.todo = []) (last : stage.id + 1 = stage.builder.graph.size)
    {record : ModuleRecord} (mem : record ∈ stage.builder.graph.modules) {specifier : String}
    (listed : specifier ∈ record.specifiers) :
    ∃ target, ⟨record.id, specifier, target⟩ ∈ stage.history := by
  have isListed : (record.id, specifier) ∈
      stage.history.map fun visit => (visit.importer, visit.specifier) := by
    rw [run.listed_of_done done last, List.mem_flatMap]
    exact ⟨record, mem, List.mem_map_of_mem listed⟩
  obtain ⟨visit, mem, same⟩ := List.mem_map.mp isListed
  obtain ⟨importer, specifier, target⟩ := visit
  obtain ⟨rfl, rfl⟩ := Prod.mk.inj same
  exact ⟨target, mem⟩

/-- Identities are given out in the order in which they are first resolved to. -/
theorem order (run : Run tree compiler resolver entry stage) :
    (0 :: stage.history.map (·.target)).eraseDups = List.range stage.builder.graph.size := by
  induction run with
  | start found loads => rfl
  | take run queued registered ih => exact ih
  | @known builder id target importer path specifier todo history after run found known ih =>
    have isTarget : target ∈ 0 :: history.map (·.target) := by
      obtain ⟨record, placed, -⟩ := run.wellFormed.idOfPath?_eq_some_iff.mp known
      rw [← List.mem_eraseDups, ih]
      exact List.mem_range.mpr (ModuleGraph.lt_size_of_get? placed)
    rw [List.map_append, ← List.cons_append, List.map_singleton, eraseDups_concat,
      if_pos isTarget, ModuleGraph.size_addMapping]
    exact ih
  | @new builder id importer path specifier source todo history after compiled run found unknown
      loads ih =>
    have isNext : builder.graph.nextId = builder.graph.size := run.wellFormed.nextId
    have notTarget : builder.graph.nextId ∉ 0 :: history.map (·.target) := by
      rw [← List.mem_eraseDups, ih, isNext]
      exact List.not_mem_range_self
    rw [List.map_append, ← List.cons_append, List.map_singleton, eraseDups_concat,
      if_neg notTarget, ModuleGraph.size_addMapping, ModuleGraph.size_push, List.range_succ, ih,
      isNext]

/-- The modules come one behind the other, and none of them behind the one that is dealt with. -/
theorem ordered (run : Run tree compiler resolver entry stage) :
    Ordered stage.history stage.id := by
  induction run with
  | start found loads => exact ⟨List.Pairwise.nil, fun visit mem => absurd mem List.not_mem_nil⟩
  | @take builder id next importer history worklist record run queued registered ih =>
    obtain rfl : next = id + 1 := run.next_eq queued
    exact ⟨ih.pairwise, fun visit mem => Nat.le_succ_of_le (ih.le visit mem)⟩
  | known run found known ih => exact ih.concat _ _
  | new run found unknown loads ih => exact ih.concat _ _

/-- Every module but the entry is resolved to from a module before it. -/
theorem earlier (run : Run tree compiler resolver entry stage) :
    ∀ id, 0 < id → id < stage.builder.graph.size →
      ∃ visit ∈ stage.history, visit.target = id ∧ visit.importer < id := by
  induction run with
  | start found loads =>
    intro id positive inRange
    have one : id < 1 := inRange
    omega
  | take run queued registered ih => exact ih
  | known run found known ih =>
    intro id positive inRange
    rw [ModuleGraph.size_addMapping] at inRange
    obtain ⟨visit, mem, target⟩ := ih id positive inRange
    exact ⟨visit, List.mem_append_left _ mem, target⟩
  | @new builder current importer path specifier source todo history after compiled run found
      unknown loads ih =>
    intro id positive inRange
    rw [ModuleGraph.size_addMapping, ModuleGraph.size_push] at inRange
    rcases Nat.lt_succ_iff_lt_or_eq.mp inRange with old | isNew
    · obtain ⟨visit, mem, target⟩ := ih id positive old
      exact ⟨visit, List.mem_append_left _ mem, target⟩
    · refine ⟨_, List.mem_append_right _ (List.mem_singleton_self _), ?_, ?_⟩
      · rw [isNew]
        exact run.wellFormed.nextId
      · rw [isNew]
        exact run.id_lt_size

end Run

end Discovery

end ModuleBundler
