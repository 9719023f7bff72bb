/-
# ModuleBundler.Proofs.Graph.Chains — the chain that is spelled out for modules.

`cycleChain` may be asked about any identities, in any order, repeated, of modules that the graph
does not have.  It always answers: with the paths on a shortest way around through the lowest of
them, among them, or with nothing where there is no such way (`cycleChain_shortest`).  Every module
on a way around imports another one, so all of them are in the graph and none is left out.
-/
import ModuleBundler.Proofs.Graph.Circles

namespace ModuleBundler.ModuleGraph

variable {graph : ModuleGraph} {start : Nat} {members ids : List Nat}

/-- The path of a module, if the graph has it. -/
def pathOf? (graph : ModuleGraph) (id : Nat) : Option Path :=
  (graph.get? id).map (·.path)

theorem Circle.ne_nil (h : graph.Circle start ids) : ids ≠ [] := by
  obtain ⟨inner, rfl, -⟩ := h
  exact List.cons_ne_nil _ _

/-- All modules on a circle are in the graph. -/
theorem Circle.exists_path (h : graph.Circle start ids) {id : Nat} (mem : id ∈ ids) :
    ∃ path, graph.pathOf? id = some path := by
  have reaches := (h.reaches mem).2
  obtain ⟨next, edge⟩ : ∃ next, graph.Imports id next := by
    cases reaches using Relation.TransGen.head_induction_on with
    | single edge => exact ⟨_, edge⟩
    | head edge _ _ => exact ⟨_, edge⟩
  obtain ⟨record, found, -⟩ := edge
  exact ⟨record.path, by rw [pathOf?, found, Option.map_some]⟩

theorem map_some_filterMap {ids : List Nat}
    (known : ∀ id ∈ ids, ∃ path, graph.pathOf? id = some path) :
    (ids.filterMap graph.pathOf?).map some = ids.map graph.pathOf? := by
  induction ids with
  | nil => rfl
  | cons id ids ih =>
    obtain ⟨path, found⟩ := known id List.mem_cons_self
    rw [List.filterMap_cons_some found, List.map_cons, List.map_cons, found,
      ih fun other mem => known other (List.mem_cons_of_mem id mem)]

/-- Members of a group that is found are on a circle through the lowest of them, inside the group. -/
theorem exists_circle_of_mem_cycles? {groups : List (List Nat)} (found : graph.cycles? = some groups)
    (mem : members ∈ groups) :
    ∃ start walk, members.min? = some start ∧ graph.Circle start walk ∧
      ∀ id ∈ walk, id ∈ members := by
  have isClosed : graph.isClosed = true := by
    by_contra leaves
    rw [cycles?, if_neg leaves] at found
    cases found
  have grouped := grouped_of_cycles? (closed_of_isClosed isClosed)
    (Option.some.inj (found.symm.trans (cycles?_eq isClosed)))
  obtain ⟨start, others, rfl⟩ := List.exists_cons_of_ne_nil (grouped.inhabited members mem)
  have together := grouped.together_iff _ mem start List.mem_cons_self
  obtain ⟨walk, circle⟩ := exists_circle ((together start).mp List.mem_cons_self).1
  exact ⟨start, walk, min?_of_increasing (grouped.increasing _ mem), circle, fun id isOn =>
    (together id).mpr (circle.reaches isOn)⟩

/-- For any identities the search for a chain comes to an end and finds back.  The chain is empty
exactly if there is no closed walk along imports through the lowest of them among them; else it has
the paths, none left out, of a shortest such walk, which comes by no module twice except for its
ends.  For a group of modules that import each other it is not empty. -/
theorem cycleChain_shortest (graph : ModuleGraph) (members : List Nat) :
    ∃ ids, graph.cycleIds? members = some ids ∧
      (graph.cycleChain members).map some = ids.map graph.pathOf? ∧
      (graph.cycleChain members = [] ↔ ¬ ∃ start walk, members.min? = some start ∧
        graph.Circle start walk ∧ ∀ id ∈ walk, id ∈ members) ∧
      (graph.cycleChain members = [] ∨ ∃ start, members.min? = some start ∧
        graph.ShortestWithin members start ids ∧ ids.dropLast.Nodup) ∧
      ∀ groups, graph.cycles? = some groups → members ∈ groups →
        graph.cycleChain members ≠ [] := by
  obtain ⟨ids, found, cases⟩ := cycleIds?_cases graph members
  have spelled : graph.cycleChain members = ids.filterMap graph.pathOf? := by
    rw [cycleChain, cycleIds, found]
    rfl
  have empty_iff : graph.cycleChain members = [] ↔ ¬ ∃ start walk, members.min? = some start ∧
      graph.Circle start walk ∧ ∀ id ∈ walk, id ∈ members := by
    rcases cases with ⟨rfl, none⟩ | ⟨start, lowest, shortest, -⟩
    · refine ⟨fun _ => ?_, fun _ => spelled⟩
      rintro ⟨start, walk, lowest, circle, inside⟩
      exact none start lowest walk circle inside
    · refine ⟨fun empty => ?_, fun none => ?_⟩
      · obtain ⟨path, isPath⟩ := shortest.circle.exists_path
          (List.head_mem shortest.circle.ne_nil)
        rw [spelled, List.filterMap_eq_nil_iff] at empty
        rw [empty _ (List.head_mem shortest.circle.ne_nil)] at isPath
        cases isPath
      · exact absurd ⟨start, ids, lowest, shortest.circle, shortest.inside⟩ none
  refine ⟨ids, found, ?_, empty_iff, ?_, fun groups isFound mem empty => ?_⟩
  · rw [spelled]
    apply map_some_filterMap
    rcases cases with ⟨rfl, -⟩ | ⟨start, -, shortest, -⟩
    · exact fun id mem => absurd mem List.not_mem_nil
    · exact fun id => shortest.circle.exists_path
  · rcases cases with ⟨rfl, -⟩ | shortest
    · exact Or.inl spelled
    · exact Or.inr shortest
  · exact empty_iff.mp empty (exists_circle_of_mem_cycles? isFound mem)

example : entangled.cycleChain [1, 0, 7, 1] = [⟨"/a.js"⟩, ⟨"/b.js"⟩, ⟨"/a.js"⟩] := by decide

end ModuleBundler.ModuleGraph
