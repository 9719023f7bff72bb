/-
# ModuleBundler.Proofs.Graph.Validation — what the checks of a graph are worth.

A graph is put together by adding modules and recording mappings, and neither asks whether what is
recorded makes sense (`Assembled`).  The checks of a graph look at the specifiers that its modules
list: all of them lead to modules of the graph exactly if the checks find nothing (`validate_eq_ok_iff`).
What is recorded for a specifier that no module lists is not looked at (`unlisted_unchecked`).
Where that is in order as well, imports do not leave the graph, so circles are found and a bundle
finds every module that it asks its registry for (`validate_sound`).
-/
import ModuleBundler.Proofs.Execution.Resolution

namespace ModuleBundler

theorem ModuleRecord.nodup_keys_addMapping {record : ModuleRecord} (distinct : record.keys.Nodup)
    (specifier : String) (target : Nat) : (record.addMapping specifier target).keys.Nodup := by
  rw [addMapping]
  cases resolved : record.resolve? specifier with
  | some id => exact distinct
  | none =>
    have isNew := ModuleRecord.resolve?_eq_none_iff.mp resolved
    show (List.map _ (record.mapping ++ [(specifier, target)])).Nodup
    rw [List.map_append]
    apply distinct.append (List.nodup_singleton specifier)
    intro key mem mem'
    rw [List.mem_singleton.mp mem'] at mem
    exact isNew mem

namespace ModuleGraph

/-- Graphs that come about by adding modules and recording mappings, with any identities and any
specifiers. -/
inductive Assembled : ModuleGraph → Prop
  | empty : Assembled .empty
  | addModule {graph : ModuleGraph} (assembled : Assembled graph) (path : Path) (source : String)
      (compiled : CompiledModule) : Assembled (graph.addModule path source compiled).2
  | addMapping {graph : ModuleGraph} (assembled : Assembled graph) (id : Nat) (specifier : String)
      (target : Nat) : Assembled (graph.addMapping id specifier target)

variable {graph : ModuleGraph}

theorem Assembled.wellFormed (assembled : graph.Assembled) : graph.WellFormed := by
  induction assembled with
  | empty => exact wellFormed_empty
  | addModule _ path source compiled ih => exact ih.addModule path source compiled
  | addMapping _ id specifier target ih => exact ih.addMapping id specifier target

/-- No specifier of a module is recorded twice. -/
theorem Assembled.nodup_keys (assembled : graph.Assembled) :
    ∀ record ∈ graph.modules, record.keys.Nodup := by
  induction assembled with
  | empty => exact fun record mem => absurd mem List.not_mem_nil
  | @addModule graph _ path source compiled ih =>
    rw [ModuleGraph.addModule]
    split
    · exact ih
    · intro record mem
      rcases List.mem_append.mp mem with mem | mem
      · exact ih record mem
      · rw [List.mem_singleton.mp mem]
        exact List.nodup_nil
  | @addMapping graph _ id specifier target ih =>
    intro record mem
    obtain ⟨place, found⟩ := List.mem_iff_getElem?.mp mem
    have found : (graph.addMapping id specifier target).get? place = some record := found
    rw [get?_addMapping] at found
    split at found
    · obtain ⟨before, isBefore, rfl⟩ := Option.map_eq_some_iff.mp found
      exact ModuleRecord.nodup_keys_addMapping (ih before (mem_of_get? isBefore)) specifier target
    · exact ih record (mem_of_get? found)

/-! ## What is checked -/

theorem leads_of_faultFrom? {records : List ModuleRecord} {position : Nat}
    (faultless : graph.faultFrom? position records = none) :
    ∀ record ∈ records, ∀ specifier ∈ record.specifiers,
      ∃ target < graph.size, record.resolve? specifier = some target := by
  induction records generalizing position with
  | nil => exact fun record mem => absurd mem List.not_mem_nil
  | cons first records ih =>
    rw [faultFrom?] at faultless
    split at faultless
    · exact absurd faultless (by simp)
    · split at faultless
      · exact absurd faultless (by simp)
      · rename_i faultlessFirst
        intro record mem specifier listed
        rcases List.mem_cons.mp mem with rfl | mem
        · have faultless := List.findSome?_eq_none_iff.mp faultlessFirst specifier listed
          rw [specifierFault?] at faultless
          split at faultless
          · exact absurd faultless (by simp)
          · rename_i target resolved
            split at faultless
            · rename_i inside
              exact ⟨target, inside, resolved⟩
            · exact absurd faultless (by simp)
        · exact ih faultless record mem specifier listed

/-- The checks find nothing exactly if every specifier that is listed leads to a module. -/
theorem validate_eq_ok_iff (wellFormed : graph.WellFormed) :
    graph.validate = .ok () ↔ ∀ record ∈ graph.modules, ∀ specifier ∈ record.specifiers,
      ∃ target < graph.size, record.resolve? specifier = some target := by
  rw [validate]
  constructor
  · intro valid
    split at valid
    · exact absurd valid (by simp)
    · rename_i faultless
      exact leads_of_faultFrom? faultless
  · intro leads
    have placed : graph.modules.map (·.id) = List.range' 0 graph.modules.length := by
      rw [wellFormed.ids, List.range_eq_range']
      rfl
    rw [faultFrom?_eq_none graph placed leads]

theorem WellFormed.exists_record (wellFormed : graph.WellFormed) {id : Nat}
    (inside : id < graph.size) : ∃ record ∈ graph.modules, record.id = id := by
  obtain ⟨record, found⟩ := exists_get? inside
  exact ⟨record, mem_of_get? found, wellFormed.id_of_get? found⟩

/-- What is recorded for listed specifiers is checked, so all targets are modules if the others
are. -/
theorem Assembled.target_lt_size (assembled : graph.Assembled) (valid : graph.validate = .ok ())
    (unlisted : ∀ record ∈ graph.modules, ∀ entry ∈ record.mapping,
      entry.1 ∉ record.specifiers → entry.2 < graph.size) :
    ∀ record ∈ graph.modules, ∀ entry ∈ record.mapping, entry.2 < graph.size := by
  intro record mem entry recorded
  by_cases listed : entry.1 ∈ record.specifiers
  · have leads := (validate_eq_ok_iff assembled.wellFormed).mp valid
    obtain ⟨target, inside, resolved⟩ := leads record mem entry.1 listed
    have isTarget : record.resolve? entry.1 = some entry.2 :=
      ModuleRecord.resolve?_of_mem (assembled.nodup_keys record mem) recorded
    rw [isTarget] at resolved
    rw [Option.some.inj resolved]
    exact inside
  · exact unlisted record mem entry recorded listed

end ModuleGraph

open Execution in
/-- A graph that was put together in any way and in which the checks find nothing.  Every specifier
that a module lists leads to a module.  If what is recorded for other specifiers leads to modules
too, then so do all mappings and all edges, looking for circles gives an answer, and the bundle never
gets stuck: each name that a mapping has is resolved to a module that the registry has. -/
theorem ModuleGraph.validate_sound {graph : ModuleGraph} (assembled : graph.Assembled)
    (valid : graph.validate = .ok ()) :
    (∀ record ∈ graph.modules, ∀ specifier ∈ record.specifiers,
      ∃ target ∈ graph.modules, record.resolve? specifier = some target.id) ∧
    ((∀ record ∈ graph.modules, ∀ entry ∈ record.mapping,
        entry.1 ∉ record.specifiers → entry.2 < graph.size) →
      (∀ record ∈ graph.modules, ∀ entry ∈ record.mapping,
        ∃ target ∈ graph.modules, target.id = entry.2) ∧
      (∀ edge ∈ graph.edges, (∃ importer ∈ graph.modules, importer.id = edge.1) ∧
        ∃ target ∈ graph.modules, target.id = edge.2) ∧
      (∃ groups, graph.cycles? = some groups) ∧
      ∀ (options : RuntimeOptions) (body : List Char → Option Nat), graph.modules ≠ [] →
        (∀ record ∈ graph.modules, Delimits body (factoryBody record)) →
        ∃ script, scriptOf? body (graph.bundle options).toList = some script ∧
          ∀ {M : Type} (factories : Factories M) (memory : M) (depth : Nat), ∃ after : Machine M,
            ((∃ answer, execute factories (depth + 1) memory script = Answer.result answer after) ∧
              Resolves graph True after) ∨
            (execute factories (depth + 1) memory script = .error .exhausted after ∧
              Resolves graph False after)) := by
  have wellFormed := assembled.wellFormed
  constructor
  · intro record mem specifier listed
    obtain ⟨id, inside, resolved⟩ := (validate_eq_ok_iff wellFormed).mp valid record mem specifier listed
    obtain ⟨target, isModule, rfl⟩ := wellFormed.exists_record inside
    exact ⟨target, isModule, resolved⟩
  · intro unlisted
    have inside := assembled.target_lt_size valid unlisted
    have isClosed := isClosed_of_targets inside
    have closed := closed_of_isClosed isClosed
    refine ⟨?_, ?_, ?_, ?_⟩
    · intro record mem entry recorded
      exact wellFormed.exists_record (inside record mem entry recorded)
    · intro edge mem
      obtain ⟨record, listed, mem⟩ := List.mem_flatMap.mp mem
      obtain ⟨target, isTarget, rfl⟩ := List.mem_map.mp mem
      have imports : graph.Imports record.id target :=
        ⟨record, wellFormed.get?_id listed, mem_distinct.mp isTarget⟩
      exact ⟨⟨record, listed, rfl⟩, wellFormed.exists_record (closed _ _ imports)⟩
    · rw [cycles?, if_pos isClosed]
      exact ⟨_, rfl⟩
    · intro options body inhabited delimits
      have sound : graph.Sound :=
        ⟨wellFormed, assembled.nodup_keys, closed, List.length_pos_of_ne_nil inhabited⟩
      obtain ⟨script, is⟩ : ∃ script, script? options graph = some script := ⟨_, script?_eq _ _⟩
      refine ⟨script, (scriptOf?_bundle options delimits).trans is, ?_⟩
      intro M factories memory depth
      exact exists_resolves sound is factories memory depth

namespace ModuleGraph

/-- Two modules that require each other. -/
def pair : ModuleGraph :=
  let first := (empty.addModule ⟨"/a.js"⟩ "" ⟨["./b"], "require('./b')"⟩).2
  let both := (first.addModule ⟨"/b.js"⟩ "" ⟨["./a"], "require('./a')"⟩).2
  (both.addMapping 0 "./b" 1).addMapping 1 "./a" 0

open Execution in
theorem validate_sound_pair :
    (pair.Assembled ∧ pair.validate = .ok ()) ∧
    (∀ record ∈ pair.modules, ∀ entry ∈ record.mapping,
      entry.1 ∉ record.specifiers → entry.2 < pair.size) ∧
    (pair.modules ≠ [] ∧ ∀ record ∈ pair.modules, Delimits untilBrace (factoryBody record)) ∧
    (∃ target ∈ pair.modules, target.id = 1) ∧ (∃ groups, pair.cycles? = some groups) ∧
    ∃ script, scriptOf? untilBrace (pair.bundle ⟨true, true⟩).toList = some script ∧
      ∃ after : Machine Unit,
        ((∃ answer, execute (fun _ _ => .require "./b" fun _ => .finish) 8 () script =
            Answer.result answer after) ∧ Resolves pair True after) ∨
        (execute (fun _ _ => .require "./b" fun _ => .finish) 8 () script =
            .error .exhausted after ∧ Resolves pair False after) := by
  have assembled : pair.Assembled :=
    (((Assembled.empty.addModule _ _ _).addModule _ _ _).addMapping _ _ _).addMapping _ _ _
  have valid : pair.validate = .ok () := by decide +kernel
  have unlisted : ∀ record ∈ pair.modules, ∀ entry ∈ record.mapping,
      entry.1 ∉ record.specifiers → entry.2 < pair.size := by
    decide +kernel
  have plain : ∀ record ∈ pair.modules, balanced 0 (factoryBody record).toList = true := by
    decide +kernel
  have delimits : ∀ record ∈ pair.modules, Delimits untilBrace (factoryBody record) :=
    fun record mem => delimits_untilBrace (plain record mem)
  have inhabited : pair.modules ≠ [] := by decide +kernel
  obtain ⟨-, sound⟩ := validate_sound assembled valid
  obtain ⟨-, edges, circles, runs⟩ := sound unlisted
  obtain ⟨script, read, resolves⟩ := runs ⟨true, true⟩ untilBrace inhabited delimits
  have edge : (0, 1) ∈ pair.edges := by decide +kernel
  exact ⟨⟨assembled, valid⟩, unlisted, ⟨inhabited, delimits⟩, (edges (0, 1) edge).2, circles, script,
    read, resolves _ () 7⟩

/-- A module for which something is recorded that it does not list. -/
def dangling : ModuleGraph :=
  (empty.addModule ⟨"/a.js"⟩ "" ⟨[], ""⟩).2.addMapping 0 "./b" 7

open Execution in
/-- The checks find nothing, though a mapping leads out of the graph: looking for circles fails, and
a factory that requires the name gets the bundle stuck. -/
theorem unlisted_unchecked :
    dangling.Assembled ∧ dangling.validate = .ok () ∧
      (∃ record ∈ dangling.modules, ("./b", 7) ∈ record.mapping) ∧ (0, 7) ∈ dangling.edges ∧
      (∀ record ∈ dangling.modules, record.id ≠ 7) ∧ dangling.cycles? = none ∧
      ∃ script, scriptOf? untilBrace (dangling.bundle ⟨true, true⟩).toList = some script ∧
        ∃ after : Machine Unit,
          execute (fun _ _ => .require "./b" fun _ => .finish) 8 () script = .error .stuck after := by
  have assembled : dangling.Assembled := (Assembled.empty.addModule _ _ _).addMapping _ _ _
  have plain : ∀ record ∈ dangling.modules, balanced 0 (factoryBody record).toList = true := by
    decide +kernel
  have delimits : ∀ record ∈ dangling.modules, Delimits untilBrace (factoryBody record) :=
    fun record mem => delimits_untilBrace (plain record mem)
  have stuck : (match execute (fun _ _ => .require "./b" fun _ => .finish) 8 ()
      (.call (Linking.function true) (.ofList [registryTerm dangling])) with
      | .error .stuck _ => true
      | _ => false) = true := by
    decide +kernel
  refine ⟨assembled, by decide +kernel, by decide +kernel, by decide +kernel, by decide +kernel,
    by decide +kernel, _, (scriptOf?_bundle ⟨true, true⟩ delimits).trans (script?_eq _ _), ?_⟩
  split at stuck
  · rename_i after ends
    exact ⟨after, ends⟩
  · exact absurd stuck Bool.false_ne_true

end ModuleGraph

end ModuleBundler
