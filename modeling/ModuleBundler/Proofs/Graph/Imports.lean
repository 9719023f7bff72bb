/-
# ModuleBundler.Proofs.Graph.Imports — who imports whom, directly or through others.

A module imports what its mapping leads to, and reaches what stands at the end of a chain of
imports.  In a graph that imports do not leave, `reached` lists exactly what a module reaches
(`mem_reached_iff`), and where no module reaches itself, imports are well-founded: no chain of them
goes on for ever (`wellFounded_of_acyclic`).
-/
import Mathlib.Data.Finset.Card
import Mathlib.Data.List.Nodup
import Mathlib.Logic.Relation
import ModuleBundler.Graph.Cycles

namespace ModuleBundler.ModuleGraph

/-- A specifier of a module leads to another module. -/
def Imports (graph : ModuleGraph) (importer target : Nat) : Prop :=
  ∃ record, graph.get? importer = some record ∧ target ∈ record.targets

/-- A module imports another, directly or through others. -/
def Reaches (graph : ModuleGraph) : Nat → Nat → Prop :=
  Relation.TransGen graph.Imports

/-- What is imported is in the graph. -/
def Closed (graph : ModuleGraph) : Prop :=
  ∀ importer target, graph.Imports importer target → target < graph.size

/-- No module imports itself, not even through others. -/
def Acyclic (graph : ModuleGraph) : Prop :=
  ∀ id, ¬ graph.Reaches id id

variable {graph : ModuleGraph}

theorem exists_get? {id : Nat} (h : id < graph.size) : ∃ record, graph.get? id = some record :=
  ⟨_, List.getElem?_eq_getElem h⟩

theorem mem_targets_iff {importer target : Nat} :
    target ∈ ((graph.get? importer).map ModuleRecord.targets).getD [] ↔
      graph.Imports importer target := by
  unfold Imports
  cases graph.get? importer with
  | none => simp
  | some record => simp

theorem Imports.importer_lt_size {importer target : Nat} (h : graph.Imports importer target) :
    importer < graph.size := by
  obtain ⟨record, found, -⟩ := h
  exact (List.getElem?_eq_some_iff.mp found).1

theorem closed_of_isClosed (h : graph.isClosed = true) : graph.Closed := by
  rintro importer target ⟨record, found, mem⟩
  rw [isClosed, List.all_eq_true] at h
  have edge : (record.id, target) ∈ graph.edges := by
    refine List.mem_flatMap.mpr ⟨record, List.mem_of_getElem? found, ?_⟩
    exact List.mem_map.mpr ⟨target, mem_distinct.mpr mem, rfl⟩
  exact of_decide_eq_true (h _ edge)

/-- Where the targets of all mappings are modules, imports do not leave the graph. -/
theorem isClosed_of_targets (inside : ∀ record ∈ graph.modules, ∀ entry ∈ record.mapping,
    entry.2 < graph.size) : graph.isClosed = true := by
  rw [isClosed, List.all_eq_true]
  intro edge mem
  obtain ⟨record, listed, mem⟩ := List.mem_flatMap.mp mem
  obtain ⟨target, isTarget, rfl⟩ := List.mem_map.mp mem
  obtain ⟨entry, recorded, rfl⟩ := List.mem_map.mp (mem_distinct.mp isTarget)
  exact decide_eq_true (inside record listed entry recorded)

theorem Closed.target_lt_size (closed : graph.Closed) {importer target : Nat}
    (h : graph.Reaches importer target) : target < graph.size := by
  cases h with
  | single edge => exact closed _ _ edge
  | tail _ edge => exact closed _ _ edge

/-! ## What a module reaches -/

/-- What has been found from a start, and what of it is pending: everything that has been dealt with
has all its imports among what has been found. -/
structure Growing (graph : ModuleGraph) (start : Nat) (pending found : List Nat) : Prop where
  sound : ∀ id ∈ found, graph.Reaches start id
  known : ∀ id ∈ pending, id = start ∨ id ∈ found
  distinct : found.Nodup
  complete : ∀ id, id = start ∨ id ∈ found →
    id ∈ pending ∨ ∀ target, graph.Imports id target → target ∈ found

theorem growing_start (graph : ModuleGraph) (start : Nat) : graph.Growing start [start] [] where
  sound _ mem := absurd mem List.not_mem_nil
  known _ mem := Or.inl (List.mem_singleton.mp mem)
  distinct := List.nodup_nil
  complete id isKnown := by
    rcases isKnown with rfl | mem
    · exact Or.inl (List.mem_singleton_self _)
    · exact absurd mem List.not_mem_nil

/-- One step deals with the first pending module. -/
theorem Growing.step {start id : Nat} {pending found : List Nat}
    (h : graph.Growing start (id :: pending) found) {fresh : List Nat}
    (isFresh : ∀ target, target ∈ fresh ↔ graph.Imports id target ∧ target ∉ found)
    (distinct : fresh.Nodup) :
    graph.Growing start (pending ++ fresh) (found ++ fresh) where
  sound target mem := by
    rcases List.mem_append.mp mem with mem | mem
    · exact h.sound target mem
    · have edge := ((isFresh target).mp mem).1
      rcases h.known id List.mem_cons_self with rfl | known
      · exact .single edge
      · exact (h.sound id known).tail edge
  known other mem := by
    rcases List.mem_append.mp mem with mem | mem
    · exact (h.known other (List.mem_cons_of_mem id mem)).imp_right (List.mem_append_left fresh)
    · exact Or.inr (List.mem_append_right found mem)
  distinct := by
    refine List.nodup_append.mpr ⟨h.distinct, distinct, ?_⟩
    rintro target isOld _ isNew rfl
    exact ((isFresh target).mp isNew).2 isOld
  complete other isKnown := by
    have all : ∀ target, graph.Imports id target → target ∈ found ++ fresh := by
      intro target edge
      by_cases isOld : target ∈ found
      · exact List.mem_append_left fresh isOld
      · exact List.mem_append_right found ((isFresh target).mpr ⟨edge, isOld⟩)
    -- what was known before is dealt with now, was dealt with before, or is still pending
    have before : other = start ∨ other ∈ found →
        other ∈ pending ++ fresh ∨ ∀ target, graph.Imports other target → target ∈ found ++ fresh := by
      intro wasKnown
      rcases h.complete other wasKnown with mem | done
      · rcases List.mem_cons.mp mem with rfl | mem
        · exact Or.inr all
        · exact Or.inl (List.mem_append_left fresh mem)
      · exact Or.inr fun target edge => List.mem_append_left fresh (done target edge)
    rcases isKnown with isStart | mem
    · exact before (Or.inl isStart)
    · rcases List.mem_append.mp mem with mem | mem
      · exact before (Or.inr mem)
      · exact Or.inl (List.mem_append_right pending mem)

/-- There are no more modules to find than there are in the graph. -/
theorem Growing.length_le {start : Nat} {pending found : List Nat}
    (h : graph.Growing start pending found) (closed : graph.Closed) :
    found.length ≤ graph.size := by
  have sub : found ⊆ List.range graph.size := fun id mem =>
    List.mem_range.mpr (closed.target_lt_size (h.sound id mem))
  have bound := (List.subperm_of_subset h.distinct sub).length_le
  rwa [List.length_range] at bound

/-- Growing ends with nothing pending. -/
theorem Growing.grow (closed : graph.Closed) {start steps : Nat} {pending found : List Nat}
    (h : graph.Growing start pending found)
    (enough : pending.length + (graph.size - found.length) ≤ steps) :
    graph.Growing start [] (graph.grow steps pending found) := by
  induction steps generalizing pending found with
  | zero =>
    obtain rfl : pending = [] := List.length_eq_zero_iff.mp (by omega)
    exact h
  | succ steps ih =>
    cases pending with
    | nil => exact h
    | cons id pending =>
      have isFresh : ∀ target, target ∈ ModuleGraph.distinct
          ((((graph.get? id).map ModuleRecord.targets).getD []).filter fun target =>
            !found.contains target) ↔ graph.Imports id target ∧ target ∉ found := by
        intro target
        simp [mem_distinct, ← mem_targets_iff]
      have next := h.step isFresh (nodup_distinct _)
      refine ih next ?_
      -- what is new counts twice: it is pending, and it is found
      have bound := next.length_le closed
      rw [List.length_append] at bound
      rw [List.length_append, List.length_append]
      rw [List.length_cons] at enough
      omega

/-- What a module reaches is what is collected for it. -/
theorem mem_reached_iff (closed : graph.Closed) {id target : Nat} :
    target ∈ graph.reached id ↔ graph.Reaches id target := by
  have enough : [id].length + (graph.size - ([] : List Nat).length) ≤ graph.size + 1 := by
    simp [Nat.add_comm]
  have grown := (growing_start graph id).grow closed enough
  have complete : ∀ other, other = id ∨ other ∈ graph.reached id →
      ∀ target, graph.Imports other target → target ∈ graph.reached id := fun other isKnown =>
    (grown.complete other isKnown).resolve_left List.not_mem_nil
  refine ⟨grown.sound target, fun reaches => ?_⟩
  induction reaches with
  | single edge => exact complete id (Or.inl rfl) _ edge
  | tail _ edge ih => exact complete _ (Or.inr ih) _ edge

/-! ## Graphs without circles -/

open Classical in
/-- The modules that a module reaches. -/
noncomputable def below (graph : ModuleGraph) (id : Nat) : Finset Nat :=
  (Finset.range graph.size).filter (graph.Reaches id)

theorem mem_below {id target : Nat} :
    target ∈ graph.below id ↔ target < graph.size ∧ graph.Reaches id target := by
  simp [below]

/-- What a module imports reaches less than the module itself. -/
theorem card_below_lt (closed : graph.Closed) (acyclic : graph.Acyclic) {importer target : Nat}
    (edge : graph.Imports importer target) :
    (graph.below target).card < (graph.below importer).card := by
  apply Finset.card_lt_card
  refine (Finset.ssubset_iff_of_subset ?_).mpr ⟨target, ?_, ?_⟩
  · intro other mem
    rw [mem_below] at mem ⊢
    exact ⟨mem.1, mem.2.head edge⟩
  · exact mem_below.mpr ⟨closed _ _ edge, .single edge⟩
  · exact fun mem => acyclic target (mem_below.mp mem).2

/-- A module reaches all modules but itself at most. -/
theorem card_below_lt_size (acyclic : graph.Acyclic) {id : Nat} (inside : id < graph.size) :
    (graph.below id).card < graph.size := by
  have fewer : graph.below id ⊂ Finset.range graph.size := by
    refine (Finset.ssubset_iff_of_subset ?_).mpr ⟨id, Finset.mem_range.mpr inside, ?_⟩
    · exact fun other mem => Finset.mem_range.mpr (mem_below.mp mem).1
    · exact fun mem => acyclic id (mem_below.mp mem).2
  have bound := Finset.card_lt_card fewer
  rwa [Finset.card_range] at bound

/-- So imports come to an end. -/
theorem wellFounded_of_acyclic (closed : graph.Closed) (acyclic : graph.Acyclic) :
    WellFounded fun target importer => graph.Imports importer target := by
  have smaller : ∀ target importer, graph.Imports importer target →
      (graph.below target).card < (graph.below importer).card := fun _ _ edge =>
    card_below_lt closed acyclic edge
  exact Subrelation.wf (smaller _ _) (measure fun id => (graph.below id).card).wf

end ModuleBundler.ModuleGraph
