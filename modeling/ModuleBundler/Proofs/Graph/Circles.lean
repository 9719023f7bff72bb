/-
# ModuleBundler.Proofs.Graph.Circles — modules that import each other.

The groups that are found are exactly the classes of modules that reach each other and themselves,
by their lowest identities (`grouped_of_cycles?`, `cycles?_classes`).  The chain that is spelled out
for a group is a shortest one among all closed chains of imports through its lowest member
(`shortest_cycleIds`).

The search for the chain goes level by level, and the invariant says so of the trails that it knows:
what stands in the queue has the length of the level or one more, and everything that a shorter trail
leads to has been dealt with, without a way back to the start (`Searching`).  The search itself keeps
the last module of each trail only, and which module led to it; the trails can be told back from that
(`Search.Follows`), so the way back is never lost (`cycleIds?_cases`).
-/
import Mathlib.Data.List.Chain
import Mathlib.Data.List.Sort
import ModuleBundler.Proofs.Graph.Imports

namespace ModuleBundler.ModuleGraph

/-! ## Groups -/

/-- Lists of modules are the groups of modules that reach each other and themselves: every such
module is in one of them, together with all that it reaches and that reach it, and groups as well as
their members are in the order of identities. -/
structure Grouped (graph : ModuleGraph) (groups : List (List Nat)) : Prop where
  inhabited : ∀ group ∈ groups, group ≠ []
  increasing : ∀ group ∈ groups, group.Pairwise (· < ·)
  ordered : (groups.filterMap List.head?).Pairwise (· < ·)
  mem_iff : ∀ id, (∃ group ∈ groups, id ∈ group) ↔ graph.Reaches id id
  together_iff : ∀ group ∈ groups, ∀ id ∈ group, ∀ other,
    other ∈ group ↔ graph.Reaches id other ∧ graph.Reaches other id

/-- The modules that a module reaches and that reach it. -/
def companions (graph : ModuleGraph) (id : Nat) : List Nat :=
  (List.range graph.size).filter fun other =>
    (graph.reached id).contains other && (graph.reached other).contains id

/-- The group that a module is the lowest member of. -/
def led? (graph : ModuleGraph) (id : Nat) : Option (List Nat) :=
  if (graph.companions id).head? = some id then some (graph.companions id) else none

variable {graph : ModuleGraph}

theorem mem_companions_iff (closed : graph.Closed) {id other : Nat} :
    other ∈ graph.companions id ↔ graph.Reaches id other ∧ graph.Reaches other id := by
  rw [companions, List.mem_filter, List.mem_range, Bool.and_eq_true, List.contains_iff_mem,
    List.contains_iff_mem, mem_reached_iff closed, mem_reached_iff closed]
  exact ⟨fun h => h.2, fun h => ⟨closed.target_lt_size h.1, h⟩⟩

theorem increasing_companions (graph : ModuleGraph) (id : Nat) :
    (graph.companions id).Pairwise (· < ·) :=
  List.pairwise_lt_range.filter _

/-- Modules that reach each other have the same companions. -/
theorem companions_congr (closed : graph.Closed) {id other : Nat} (there : graph.Reaches id other)
    (back : graph.Reaches other id) : graph.companions other = graph.companions id := by
  refine List.filter_congr fun third _ => ?_
  rw [Bool.eq_iff_iff, Bool.and_eq_true, Bool.and_eq_true, List.contains_iff_mem,
    List.contains_iff_mem, List.contains_iff_mem, List.contains_iff_mem, mem_reached_iff closed,
    mem_reached_iff closed, mem_reached_iff closed, mem_reached_iff closed]
  constructor
  · exact fun h => ⟨there.trans h.1, h.2.trans back⟩
  · exact fun h => ⟨back.trans h.1, h.2.trans there⟩

theorem led?_eq_some_iff {id : Nat} {group : List Nat} :
    graph.led? id = some group ↔ graph.companions id = group ∧ group.head? = some id := by
  unfold led?
  split
  · rename_i leads
    simp only [Option.some.injEq]
    constructor
    · rintro rfl
      exact ⟨rfl, leads⟩
    · exact fun h => h.1
  · rename_i follows
    simp only [reduceCtorEq, false_iff, not_and]
    rintro rfl
    exact follows

/-- The groups that are found, each at its lowest member. -/
theorem cycles?_eq (h : graph.isClosed = true) :
    graph.cycles? = some ((List.range graph.size).filterMap graph.led?) := by
  rw [cycles?, if_pos h, groups, List.filterMap_map]
  refine congrArg some (List.filterMap_congr fun id mem => ?_)
  have companionsOf : groupOf ((List.range graph.size).map fun id => (id, graph.reached id)) id
      (graph.reached id) = graph.companions id := by
    rw [groupOf, List.filter_map, List.map_map]
    exact List.map_id _
  show (if (graph.reached id).contains id then _ else none) = graph.led? id
  dsimp only [Function.comp]
  rw [companionsOf, led?]
  by_cases leads : (graph.companions id).head? = some id
  · -- the lowest member of a group reaches itself
    have own := (mem_companions_iff (closed_of_isClosed h)).mp (List.mem_of_mem_head? leads)
    have circular : id ∈ graph.reached id := (mem_reached_iff (closed_of_isClosed h)).mpr own.1
    simp [leads, circular]
  · simp [leads]

theorem exists_companions_of_mem {ids group : List Nat} (mem : group ∈ ids.filterMap graph.led?) :
    ∃ id, graph.companions id = group ∧ group.head? = some id := by
  obtain ⟨id, -, isLed⟩ := List.mem_filterMap.mp mem
  exact ⟨id, led?_eq_some_iff.mp isLed⟩

/-- The lowest members of the groups are some of all identities, in their order. -/
theorem heads_led? (graph : ModuleGraph) :
    ((List.range graph.size).filterMap graph.led?).filterMap List.head? =
      (List.range graph.size).filter fun id => (graph.companions id).head? = some id := by
  rw [List.filterMap_filterMap, ← List.filterMap_eq_filter]
  refine List.filterMap_congr fun id _ => ?_
  rw [led?, Option.guard]
  by_cases leads : (graph.companions id).head? = some id <;> simp [leads]

/-- A module that reaches itself is in the group of the lowest of its companions. -/
theorem exists_led_of_reaches (closed : graph.Closed) {id : Nat} (circular : graph.Reaches id id) :
    ∃ group ∈ (List.range graph.size).filterMap graph.led?, id ∈ group := by
  have own := (mem_companions_iff closed).mpr ⟨circular, circular⟩
  obtain ⟨lowest, others, split⟩ := List.exists_cons_of_ne_nil (List.ne_nil_of_mem own)
  have isLowest : lowest ∈ graph.companions id := by
    rw [split]
    exact List.mem_cons_self
  obtain ⟨there, back⟩ := (mem_companions_iff closed).mp isLowest
  have isLed : graph.led? lowest = some (graph.companions id) := by
    refine led?_eq_some_iff.mpr ⟨companions_congr closed there back, ?_⟩
    rw [split]
    rfl
  have inside := List.mem_range.mpr (closed.target_lt_size there)
  exact ⟨_, List.mem_filterMap.mpr ⟨lowest, inside, isLed⟩, own⟩

/-- The groups that are found are those of the modules that reach each other. -/
theorem grouped_of_cycles? {groups : List (List Nat)} (closed : graph.Closed)
    (found : groups = (List.range graph.size).filterMap graph.led?) : graph.Grouped groups where
  inhabited := by
    subst found
    rintro group mem rfl
    obtain ⟨id, -, lowest⟩ := exists_companions_of_mem mem
    exact absurd lowest nofun
  increasing := by
    subst found
    intro group mem
    obtain ⟨id, rfl, -⟩ := exists_companions_of_mem mem
    exact increasing_companions graph id
  ordered := by
    rw [found, heads_led?]
    exact List.pairwise_lt_range.filter _
  mem_iff := by
    subst found
    refine fun id => ⟨?_, exists_led_of_reaches closed⟩
    rintro ⟨group, mem, isMember⟩
    obtain ⟨lowest, rfl, -⟩ := exists_companions_of_mem mem
    obtain ⟨there, back⟩ := (mem_companions_iff closed).mp isMember
    exact back.trans there
  together_iff := by
    subst found
    intro group mem id isMember other
    obtain ⟨lowest, rfl, -⟩ := exists_companions_of_mem mem
    obtain ⟨there, back⟩ := (mem_companions_iff closed).mp isMember
    rw [← companions_congr closed there back]
    exact mem_companions_iff closed

/-- The lowest of members that stand in order is the first one. -/
theorem min?_of_increasing {ids : List Nat} (increasing : ids.Pairwise (· < ·)) :
    ids.min? = ids.head? := by
  cases ids with
  | nil => rfl
  | cons lowest others =>
    rw [List.head?_cons, List.min?_eq_some_iff]
    refine ⟨List.mem_cons_self, fun other mem => ?_⟩
    rcases List.mem_cons.mp mem with rfl | mem
    · exact Nat.le_refl _
    · exact Nat.le_of_lt ((List.pairwise_cons.mp increasing).1 other mem)

namespace Grouped

variable {groups : List (List Nat)}

/-- No group is found exactly if no module reaches itself. -/
theorem acyclic_iff (grouped : graph.Grouped groups) : graph.Acyclic ↔ groups = [] := by
  constructor
  · intro acyclic
    refine List.eq_nil_iff_forall_not_mem.mpr fun group mem => ?_
    obtain ⟨id, isMember⟩ := List.exists_mem_of_ne_nil group (grouped.inhabited group mem)
    exact acyclic id ((grouped.mem_iff id).mp ⟨group, mem, isMember⟩)
  · rintro rfl id circular
    obtain ⟨group, mem, -⟩ := (grouped.mem_iff id).mpr circular
    exact absurd mem List.not_mem_nil

/-- Modules that are in one group reach each other. -/
theorem shared_iff (grouped : graph.Grouped groups) (id other : Nat) :
    (∃ group ∈ groups, id ∈ group ∧ other ∈ group) ↔
      graph.Reaches id other ∧ graph.Reaches other id := by
  constructor
  · rintro ⟨group, mem, isMember, isOther⟩
    exact (grouped.together_iff group mem id isMember other).mp isOther
  · rintro ⟨there, back⟩
    obtain ⟨group, mem, isMember⟩ := (grouped.mem_iff id).mpr (there.trans back)
    exact ⟨group, mem, isMember, (grouped.together_iff group mem id isMember other).mpr ⟨there, back⟩⟩

/-- Groups that have a member in common are equal. -/
theorem eq_of_mem (grouped : graph.Grouped groups) {group other : List Nat} (mem : group ∈ groups)
    (mem' : other ∈ groups) {id : Nat} (isMember : id ∈ group) (isMember' : id ∈ other) :
    group = other := by
  apply List.Pairwise.eq_of_mem_iff (grouped.increasing group mem) (grouped.increasing other mem')
  intro member
  rw [grouped.together_iff group mem id isMember, grouped.together_iff other mem' id isMember']

theorem disjoint (grouped : graph.Grouped groups) : groups.Pairwise List.Disjoint := by
  have ordered := List.pairwise_filterMap.mp grouped.ordered
  refine ordered.imp_of_mem fun {group other} mem mem' before id isMember isMember' => ?_
  obtain rfl := grouped.eq_of_mem mem mem' isMember isMember'
  -- a group does not come before itself
  obtain ⟨lowest, others, rfl⟩ := List.exists_cons_of_ne_nil (grouped.inhabited group mem)
  exact Nat.lt_irrefl lowest (before lowest rfl lowest rfl)

/-- Groups are listed by their lowest members. -/
theorem lowest_increasing (grouped : graph.Grouped groups) :
    (groups.filterMap List.min?).Pairwise (· < ·) := by
  have heads : groups.filterMap List.min? = groups.filterMap List.head? :=
    List.filterMap_congr fun group mem => min?_of_increasing (grouped.increasing group mem)
  rw [heads]
  exact grouped.ordered

end Grouped

/-- Where all mappings lead to modules, groups are found.  They are disjoint, members stand in the
order of identities in each, and the groups in the order of their lowest members.  A module is in a
group exactly if it reaches itself, and two modules are in the same one exactly if they reach each
other; so there is no group exactly if imports have no circle. -/
theorem cycles?_classes (inside : ∀ record ∈ graph.modules, ∀ entry ∈ record.mapping,
      entry.2 < graph.size) :
    ∃ groups, graph.cycles? = some groups ∧
      groups.Pairwise List.Disjoint ∧
      (∀ group ∈ groups, group ≠ [] ∧ group.Pairwise (· < ·)) ∧
      (groups.filterMap List.min?).Pairwise (· < ·) ∧
      (∀ id, (∃ group ∈ groups, id ∈ group) ↔ graph.Reaches id id) ∧
      (∀ id other, (∃ group ∈ groups, id ∈ group ∧ other ∈ group) ↔
        graph.Reaches id other ∧ graph.Reaches other id) ∧
      (groups = [] ↔ graph.Acyclic) := by
  have isClosed := isClosed_of_targets inside
  have grouped := grouped_of_cycles? (closed_of_isClosed isClosed) rfl
  refine ⟨_, cycles?_eq isClosed, grouped.disjoint, ?_, grouped.lowest_increasing, grouped.mem_iff,
    grouped.shared_iff, grouped.acyclic_iff.symm⟩
  exact fun group mem => ⟨grouped.inhabited group mem, grouped.increasing group mem⟩

/-- Modules of which the first two import each other, the second one also a third that imports
itself, and the last one the first. -/
def entangled : ModuleGraph :=
  let modules := (["/a.js", "/b.js", "/c.js", "/d.js"].foldl (fun (graph : ModuleGraph) path =>
    (graph.addModule ⟨path⟩ "" ⟨[], ""⟩).2) empty)
  [(0, "./b", 1), (1, "./a", 0), (1, "./c", 2), (2, "./c", 2), (3, "./a", 0)].foldl
    (fun graph entry => graph.addMapping entry.1 entry.2.1 entry.2.2) modules

theorem cycles?_classes_entangled :
    (∀ record ∈ entangled.modules, ∀ entry ∈ record.mapping, entry.2 < entangled.size) ∧
    entangled.cycles? = some [[0, 1], [2]] ∧
    entangled.Reaches 0 1 ∧ entangled.Reaches 1 0 ∧ entangled.Reaches 2 2 ∧
      ¬ entangled.Reaches 3 3 ∧ ¬ (entangled.Reaches 1 2 ∧ entangled.Reaches 2 1) := by
  have inside : ∀ record ∈ entangled.modules, ∀ entry ∈ record.mapping,
      entry.2 < entangled.size := by
    decide +kernel
  have found : entangled.cycles? = some [[0, 1], [2]] := by
    decide +kernel
  obtain ⟨groups, isFound, -, -, -, inSome, together, -⟩ := cycles?_classes inside
  obtain rfl : groups = [[0, 1], [2]] := Option.some.inj (isFound.symm.trans found)
  have pair := (together 0 1).mp (by simp)
  refine ⟨inside, found, pair.1, pair.2, (inSome 2).mp (by simp), ?_, ?_⟩
  · intro circular
    simpa using (inSome 3).mpr circular
  · intro both
    simpa using (together 1 2).mpr both

/-! ## Closed chains of imports -/

/-- A chain of imports from a module back to it. -/
def Circle (graph : ModuleGraph) (start : Nat) (ids : List Nat) : Prop :=
  ∃ inner, ids = start :: inner ++ [start] ∧ ids.IsChain graph.Imports

/-- A chain of imports from a module back to it that is no longer than any other. -/
def ShortestCircle (graph : ModuleGraph) (start : Nat) (ids : List Nat) : Prop :=
  graph.Circle start ids ∧ ∀ other, graph.Circle start other → ids.length ≤ other.length

/-- A chain of imports among some modules, told from its end back to a start. -/
structure Trail (graph : ModuleGraph) (start : Nat) (members trail : List Nat) : Prop where
  chain : trail.IsChain fun target importer => graph.Imports importer target
  starts : trail.getLast? = some start
  inside : ∀ id ∈ trail, id ∈ members

variable {start : Nat} {members : List Nat}

theorem trail_start (h : start ∈ members) : graph.Trail start members [start] where
  chain := .singleton start
  starts := rfl
  inside _ mem := List.mem_singleton.mp mem ▸ h

theorem trail_cons_iff {target importer : Nat} {trail : List Nat} :
    graph.Trail start members (target :: importer :: trail) ↔
      graph.Imports importer target ∧ target ∈ members ∧
        graph.Trail start members (importer :: trail) := by
  constructor
  · intro h
    obtain ⟨edge, chain⟩ := List.isChain_cons_cons.mp h.chain
    refine ⟨edge, h.inside target List.mem_cons_self, chain, ?_, ?_⟩
    · simpa using h.starts
    · exact fun id mem => h.inside id (List.mem_cons_of_mem target mem)
  · rintro ⟨edge, isMember, h⟩
    refine ⟨h.chain.cons_cons edge, ?_, ?_⟩
    · simpa using h.starts
    · intro id mem
      rcases List.mem_cons.mp mem with rfl | mem
      · exact isMember
      · exact h.inside id mem

theorem eq_start_of_trail {id : Nat} (h : graph.Trail start members [id]) : id = start := by
  simpa using h.starts

/-- A trail that can be closed makes a circle. -/
theorem Trail.circle {id : Nat} {trail : List Nat} (h : graph.Trail start members (id :: trail))
    (back : graph.Imports id start) : graph.Circle start (start :: id :: trail).reverse := by
  obtain ⟨inner, isInner⟩ := List.getLast?_eq_some_iff.mp h.starts
  refine ⟨inner.reverse, ?_, ?_⟩
  · rw [List.reverse_cons, isInner, List.reverse_append]
    rfl
  · rw [List.isChain_reverse]
    exact h.chain.cons_cons back

/-- A circle whose modules are all among some makes a trail. -/
theorem Circle.exists_trail {ids : List Nat} (h : graph.Circle start ids)
    (inside : ∀ id ∈ ids, id ∈ members) :
    ∃ id trail, graph.Trail start members (id :: trail) ∧ graph.Imports id start ∧
      ids = (start :: id :: trail).reverse := by
  obtain ⟨inner, rfl, chain⟩ := h
  obtain ⟨id, trail, backwards⟩ : ∃ id trail, (start :: inner).reverse = id :: trail :=
    List.exists_cons_of_ne_nil (by simp)
  have forwards : start :: inner = (id :: trail).reverse := by
    rw [← backwards, List.reverse_reverse]
  rw [forwards, ← List.reverse_cons, List.isChain_reverse] at chain
  obtain ⟨back, chain⟩ := List.isChain_cons_cons.mp chain
  refine ⟨id, trail, ⟨chain, ?_, fun other mem => inside other ?_⟩, back, ?_⟩
  · rw [← backwards, List.getLast?_reverse]
    rfl
  · rw [forwards]
    exact List.mem_append_left _ (List.mem_reverse.mpr mem)
  · rw [forwards]
    exact List.reverse_cons.symm

/-! ## The search for a way back -/

/-- What the search knows on a level: trails of that length and trails that are one longer stand in
the queue, and the modules that have been visited.  Those that no trail in the queue leads to have
been dealt with. -/
structure Searching (graph : ModuleGraph) (start : Nat) (members : List Nat) (level : Nat)
    (current next : List (List Nat)) (visited : List Nat) : Prop where
  here : ∀ trail ∈ current, graph.Trail start members trail ∧ trail.length = level + 1
  further : ∀ trail ∈ next, graph.Trail start members trail ∧ trail.length = level + 2
  inside : ∀ id ∈ visited, id ∈ members
  distinct : visited.Nodup
  near : ∀ id trail, graph.Trail start members (id :: trail) → trail.length ≤ level → id ∈ visited
  done : ∀ id ∈ visited, (∃ trail, id :: trail ∈ current ++ next) ∨
    ¬ graph.Imports id start ∧ ∀ target ∈ members, graph.Imports id target → target ∈ visited
  first : ∀ id before trail, id :: before ∈ current → graph.Trail start members (id :: trail) →
    level ≤ trail.length
  firstNext : ∀ id before trail, id :: before ∈ next → graph.Trail start members (id :: trail) →
    level < trail.length

variable {level : Nat} {current next : List (List Nat)} {visited : List Nat}

theorem searching_start (h : start ∈ members) :
    graph.Searching start members 0 [[start]] [] [start] where
  here trail mem := by
    obtain rfl := List.mem_singleton.mp mem
    exact ⟨trail_start h, rfl⟩
  further _ mem := absurd mem List.not_mem_nil
  inside _ mem := List.mem_singleton.mp mem ▸ h
  distinct := List.nodup_singleton start
  near id trail isTrail short := by
    obtain rfl : trail = [] := List.length_eq_zero_iff.mp (Nat.le_zero.mp short)
    rw [eq_start_of_trail isTrail]
    exact List.mem_singleton_self start
  done id mem := by
    obtain rfl := List.mem_singleton.mp mem
    exact Or.inl ⟨[], List.mem_singleton_self _⟩
  first _ _ trail _ _ := Nat.zero_le trail.length
  firstNext _ _ _ mem := absurd mem List.not_mem_nil

namespace Searching

/-- When a level has been dealt with, the next one begins. -/
theorem descend (h : graph.Searching start members level [] next visited) :
    graph.Searching start members (level + 1) next [] visited where
  here := h.further
  further _ mem := absurd mem List.not_mem_nil
  inside := h.inside
  distinct := h.distinct
  near id trail isTrail short := by
    cases trail with
    | nil => exact h.near id [] isTrail (Nat.zero_le level)
    | cons importer trail =>
      obtain ⟨edge, isMember, shorter⟩ := trail_cons_iff.mp isTrail
      have close : trail.length ≤ level := Nat.le_of_succ_le_succ short
      -- the importer is on an earlier level, so it does not wait for its turn any more
      rcases h.done importer (h.near importer trail shorter close) with ⟨before, queued⟩ | dealt
      · have far := h.firstNext importer before trail queued shorter
        omega
      · exact dealt.2 id isMember edge
  done id mem := by
    rw [List.append_nil]
    exact h.done id mem
  first := h.firstNext
  firstNext _ _ _ mem := absurd mem List.not_mem_nil

/-- A module that does not lead back to the start is dealt with. -/
theorem step {id : Nat} {trail : List Nat}
    (h : graph.Searching start members level ((id :: trail) :: current) next visited)
    (away : ¬ graph.Imports id start) {fresh : List Nat} (distinct : fresh.Nodup)
    (isFresh : ∀ target, target ∈ fresh ↔
      graph.Imports id target ∧ target ∈ members ∧ target ∉ visited) :
    graph.Searching start members level current (next ++ fresh.map (· :: id :: trail))
      (visited ++ fresh) where
  here other mem := h.here other (List.mem_cons_of_mem _ mem)
  further other mem := by
    rcases List.mem_append.mp mem with mem | mem
    · exact h.further other mem
    · obtain ⟨target, isNew, rfl⟩ := List.mem_map.mp mem
      obtain ⟨isTrail, long⟩ := h.here _ List.mem_cons_self
      obtain ⟨edge, isMember, -⟩ := (isFresh target).mp isNew
      exact ⟨trail_cons_iff.mpr ⟨edge, isMember, isTrail⟩, by rw [List.length_cons, long]⟩
  inside other mem := by
    rcases List.mem_append.mp mem with mem | mem
    · exact h.inside other mem
    · exact ((isFresh other).mp mem).2.1
  distinct := by
    refine List.nodup_append.mpr ⟨h.distinct, distinct, ?_⟩
    rintro other isOld _ isNew rfl
    exact ((isFresh other).mp isNew).2.2 isOld
  near other shorter isTrail short := List.mem_append_left fresh (h.near other shorter isTrail short)
  done other mem := by
    rcases List.mem_append.mp mem with mem | mem
    · rcases h.done other mem with ⟨before, queued⟩ | ⟨leaves, all⟩
      · rw [List.cons_append, List.mem_cons] at queued
        rcases queued with isThis | queued
        · -- this is the module that is dealt with
          obtain ⟨rfl, rfl⟩ := List.cons.inj isThis
          refine Or.inr ⟨away, fun target isMember edge => ?_⟩
          by_cases isOld : target ∈ visited
          · exact List.mem_append_left fresh isOld
          · exact List.mem_append_right visited ((isFresh target).mpr ⟨edge, isMember, isOld⟩)
        · refine Or.inl ⟨before, ?_⟩
          rw [← List.append_assoc]
          exact List.mem_append_left _ queued
      · exact Or.inr ⟨leaves, fun target isMember edge =>
          List.mem_append_left fresh (all target isMember edge)⟩
    · refine Or.inl ⟨id :: trail, ?_⟩
      exact List.mem_append_right _ (List.mem_append_right _ (List.mem_map_of_mem mem))
  first other before shorter mem := h.first other before shorter (List.mem_cons_of_mem _ mem)
  firstNext other before shorter mem isTrail := by
    rcases List.mem_append.mp mem with mem | mem
    · exact h.firstNext other before shorter mem isTrail
    · obtain ⟨target, isNew, same⟩ := List.mem_map.mp mem
      obtain ⟨rfl, -⟩ := List.cons.inj same
      -- a trail of this level or shorter would have led here before
      by_contra short
      exact ((isFresh target).mp isNew).2.2 (h.near target shorter isTrail (by omega))

/-- Where the first trail of a level can be closed, no shorter trail can. -/
theorem shortest (h : graph.Searching start members level current next visited) {id : Nat}
    {trail : List Nat} (closing : graph.Trail start members (id :: trail))
    (back : graph.Imports id start) : level ≤ trail.length := by
  by_contra short
  have seen := h.near id trail closing (by omega)
  rcases h.done id seen with ⟨before, queued⟩ | ⟨away, -⟩
  · rcases List.mem_append.mp queued with queued | queued
    · exact short (h.first id before trail queued closing)
    · exact short (Nat.le_of_lt (h.firstNext id before trail queued closing))
  · exact away back

/-- When nothing is left in the queue, every module that a trail leads to has been dealt with. -/
theorem away_of_done (h : graph.Searching start members level [] [] visited) {id : Nat}
    {trail : List Nat} (isTrail : graph.Trail start members (id :: trail)) :
    ¬ graph.Imports id start := by
  have dealt : ∀ other ∈ visited, ¬ graph.Imports other start ∧
      ∀ target ∈ members, graph.Imports other target → target ∈ visited := fun other mem =>
    (h.done other mem).resolve_left fun ⟨_, queued⟩ => absurd queued List.not_mem_nil
  have seen : id ∈ visited := by
    induction trail generalizing id with
    | nil => exact h.near id [] isTrail (Nat.zero_le level)
    | cons importer trail ih =>
      obtain ⟨edge, isMember, shorter⟩ := trail_cons_iff.mp isTrail
      exact (dealt importer (ih shorter)).2 id isMember edge
  exact (dealt id seen).1

theorem length_visited_le (h : graph.Searching start members level current next visited) :
    visited.length ≤ members.length :=
  (List.subperm_of_subset h.distinct h.inside).length_le

end Searching

/-! ## What the search remembers -/

namespace Search

variable {search : Search} {id importer : Nat}

/-- The module that led to the first one of a trail is the next one, and so on to the start. -/
def LeadsBack (search : Search) (start : Nat) : List Nat → Prop
  | [] => False
  | [id] => id = start
  | id :: importer :: trail =>
    id ≠ start ∧ search.originOf? id = some importer ∧ LeadsBack search start (importer :: trail)

/-- What is known of modules that have been come across stays. -/
def Remembers (later search : Search) : Prop :=
  ∀ id importer, search.originOf? id = some importer → later.originOf? id = some importer

theorem originOf?_meet (search : Search) (importer target id : Nat) :
    (search.meet importer target).originOf? id =
      (search.originOf? id).or (if target = id then some importer else none) := by
  rw [originOf?, originOf?, meet, List.find?_append]
  cases found : search.origins.find? fun entry => entry.1 == id with
  | some entry => rfl
  | none => by_cases same : target = id <;> simp [same]

theorem remembers_meet (search : Search) (importer target : Nat) :
    (search.meet importer target).Remembers search := by
  intro id origin known
  rw [originOf?_meet, known]
  rfl

theorem originOf?_eq_none_iff : search.originOf? id = none ↔ id ∉ search.origins.map (·.1) := by
  simp only [originOf?, Option.map_eq_none_iff, List.find?_eq_none, beq_iff_eq, List.mem_map,
    not_exists, not_and]

theorem LeadsBack.mono {later : Search} (remembers : later.Remembers search) {trail : List Nat}
    (h : search.LeadsBack start trail) : later.LeadsBack start trail := by
  induction trail with
  | nil => exact h
  | cons id trail ih =>
    cases trail with
    | nil => exact h
    | cons importer trail => exact ⟨h.1, remembers id importer h.2.1, ih h.2.2⟩

/-- A trail that is remembered is told back. -/
theorem wayBack?_of_leadsBack {trail : List Nat} (h : search.LeadsBack start (id :: trail))
    {steps : Nat} (enough : trail.length ≤ steps) (chain : List Nat) :
    search.wayBack? start steps id chain = some (trail.reverse ++ chain) := by
  induction trail generalizing id steps chain with
  | nil =>
    obtain rfl : id = start := h
    unfold wayBack?
    rw [if_pos rfl]
    rfl
  | cons importer trail ih =>
    obtain ⟨further, origin, back⟩ := h
    obtain ⟨steps, rfl⟩ := Nat.exists_eq_add_of_le' (Nat.le_trans (Nat.le_add_left 1 _) enough)
    unfold wayBack?
    rw [if_neg further]
    dsimp only
    rw [origin]
    dsimp only
    rw [ih back (Nat.le_of_succ_le_succ enough), List.reverse_cons, List.append_assoc]
    rfl

/-- What comes of going through the imports of a module: the start is met and what is known of the
modules that have been come across stays, or the members that are new wait for their turn, and this
module is known to have led to them. -/
structure Visited (start : Nat) (members : List Nat) (importer : Nat) (targets : List Nat)
    (search later : Search) (fresh : List Nat) : Prop where
  away : start ∉ targets
  distinct : fresh.Nodup
  mem_iff : ∀ target, target ∈ fresh ↔
    target ∈ targets ∧ target ∈ members ∧ search.originOf? target = none
  queue : later.queue = search.queue ++ fresh
  origins : later.origins = search.origins ++ fresh.map fun target => (target, importer)

namespace Visited

variable {members targets fresh : List Nat} {target : Nat} {later : Search}

/-- A new member waits before those that are met behind it, and is not met once more. -/
theorem cons_new
    (visited : Visited start members importer targets (search.meet importer target) later fresh)
    (notStart : target ≠ start) (isNew : target ∈ members ∧ search.originOf? target = none) :
    Visited start members importer (target :: targets) search later (target :: fresh) := by
  have others : ∀ other, other ∈ fresh ↔ other ∈ targets ∧ other ∈ members ∧
      search.originOf? other = none ∧ other ≠ target := by
    intro other
    rw [visited.mem_iff, originOf?_meet]
    by_cases same : target = other
    · simp [same]
    · simp [same, Ne.symm same]
  exact
    { away := List.not_mem_cons_of_ne_of_not_mem (Ne.symm notStart) visited.away
      distinct := List.nodup_cons.mpr
        ⟨fun mem => ((others target).mp mem).2.2.2 rfl, visited.distinct⟩
      mem_iff := by
        intro other
        rw [List.mem_cons, List.mem_cons, others]
        by_cases same : other = target <;> simp [same, isNew]
      queue := by
        rw [visited.queue, meet, List.append_assoc]
        rfl
      origins := by
        rw [visited.origins, meet, List.append_assoc]
        rfl }

/-- Anything else is passed over. -/
theorem cons_old (visited : Visited start members importer targets search later fresh)
    (notStart : target ≠ start) (isOld : ¬ (target ∈ members ∧ search.originOf? target = none)) :
    Visited start members importer (target :: targets) search later fresh where
  away := List.not_mem_cons_of_ne_of_not_mem (Ne.symm notStart) visited.away
  distinct := visited.distinct
  mem_iff := by
    intro other
    rw [visited.mem_iff, List.mem_cons]
    refine ⟨fun h => ⟨Or.inr h.1, h.2⟩, fun h => ⟨h.1.resolve_left ?_, h.2⟩⟩
    rintro rfl
    exact isOld h.2
  queue := visited.queue
  origins := visited.origins

theorem remembers (visited : Visited start members importer targets search later fresh) :
    later.Remembers search := by
  intro other origin known
  rw [originOf?] at known ⊢
  rw [visited.origins, List.find?_append]
  obtain ⟨entry, found, isOrigin⟩ := Option.map_eq_some_iff.mp known
  show ((search.origins.find? fun entry => entry.1 == other).or _).map _ = _
  rw [found, Option.some_or, Option.map_some, isOrigin]

/-- This module is known to have led to the new ones. -/
theorem originOf?_of_mem (visited : Visited start members importer targets search later fresh)
    (mem : target ∈ fresh) : later.originOf? target = some importer := by
  obtain ⟨-, -, unknown⟩ := (visited.mem_iff target).mp mem
  have none : search.origins.find? (fun entry => entry.1 == target) = none :=
    Option.map_eq_none_iff.mp unknown
  have found : (fresh.map fun other => (other, importer)).find? (fun entry => entry.1 == target) =
      some (target, importer) := by
    rw [List.find?_map, List.find?_eq_some_iff_append.mpr]
    · rfl
    · obtain ⟨before, after, split⟩ := List.append_of_mem mem
      refine ⟨by simp, before, after, split, fun other isBefore => ?_⟩
      have distinct := visited.distinct
      rw [split] at distinct
      have apart := (List.nodup_append.mp distinct).2.2 other isBefore target List.mem_cons_self
      simpa using apart
  rw [originOf?, visited.origins, List.find?_append]
  show ((search.origins.find? _).or _).map _ = _
  rw [none, Option.none_or, found]
  rfl

end Visited

theorem visit_cases (start : Nat) (members : List Nat) (importer : Nat) (search : Search)
    (targets : List Nat) :
    (start ∈ targets ∧ ∃ later, visit start members importer search targets = (true, later) ∧
        later.Remembers search ∧ search.origins.length ≤ later.origins.length) ∨
      ∃ later fresh, visit start members importer search targets = (false, later) ∧
        Visited start members importer targets search later fresh := by
  induction targets generalizing search with
  | nil =>
    refine Or.inr ⟨search, [], rfl, List.not_mem_nil, List.nodup_nil, ?_, ?_, ?_⟩ <;> simp
  | cons target targets ih =>
    rw [visit]
    by_cases isStart : target = start
    · rw [if_pos isStart]
      exact Or.inl ⟨isStart ▸ List.mem_cons_self, search, rfl, fun _ _ => id, Nat.le_refl _⟩
    rw [if_neg isStart]
    by_cases isNew : target ∈ members ∧ search.originOf? target = none
    · rw [if_pos (by simp [isNew])]
      rcases ih (search.meet importer target) with ⟨back, later, ends, remembers, longer⟩ |
        ⟨later, fresh, ends, visited⟩
      · refine Or.inl ⟨List.mem_cons_of_mem _ back, later, ends, ?_, ?_⟩
        · exact fun id origin known =>
            remembers id origin (remembers_meet search importer target id origin known)
        · exact Nat.le_trans (by simp [meet]) longer
      · exact Or.inr ⟨later, target :: fresh, ends, visited.cons_new isStart isNew⟩
    · rw [if_neg (by simpa using isNew)]
      rcases ih search with ⟨back, later, ends, remembers, longer⟩ | ⟨later, fresh, ends, visited⟩
      · exact Or.inl ⟨List.mem_cons_of_mem _ back, later, ends, remembers, longer⟩
      · exact Or.inr ⟨later, fresh, ends, visited.cons_old isStart isNew⟩

end Search

/-- The trails that a search knows begin with the modules that wait for their turn, come by no module
twice, and are remembered. -/
structure Search.Follows (search : Search) (start : Nat) (trails : List (List Nat))
    (visited : List Nat) : Prop where
  queue : trails.map List.head? = search.queue.map some
  seen : visited = start :: search.origins.map (·.1)
  back : ∀ trail ∈ trails, search.LeadsBack start trail
  simple : ∀ trail ∈ trails, trail.Nodup ∧ trail ⊆ visited

theorem follows_begun (start : Nat) : (Search.begun start).Follows start [[start]] [start] where
  queue := rfl
  seen := rfl
  back trail mem := by
    obtain rfl := List.mem_singleton.mp mem
    exact rfl
  simple trail mem := by
    obtain rfl := List.mem_singleton.mp mem
    exact ⟨List.nodup_singleton start, List.Subset.refl _⟩

namespace Search.Follows

variable {search later : Search} {id : Nat} {trail : List Nat} {trails : List (List Nat)}
variable {visited fresh targets : List Nat}

/-- The first trail begins with the module whose turn it is. -/
theorem exists_queue (h : search.Follows start ((id :: trail) :: trails) visited) :
    ∃ queue, search.queue = id :: queue ∧ trails.map List.head? = queue.map some := by
  have heads := h.queue
  rw [List.map_cons, List.head?_cons] at heads
  obtain ⟨first, queue, split, isFirst, rest⟩ := List.map_eq_cons_iff.mp heads.symm
  obtain rfl := Option.some.inj isFirst
  exact ⟨queue, split, rest.symm⟩

/-- A trail is no longer than what is remembered, and its first module. -/
theorem length_le (h : search.Follows start trails visited) (mem : id :: trail ∈ trails) :
    trail.length ≤ search.origins.length := by
  obtain ⟨distinct, known⟩ := h.simple _ mem
  have bound := (List.subperm_of_subset distinct known).length_le
  rw [h.seen] at bound
  simpa using bound

/-- When the imports of the first module have been gone through, the trails that lead on wait behind
the others. -/
theorem step {queue : List Nat} (h : search.Follows start ((id :: trail) :: trails) visited)
    (rest : trails.map List.head? = queue.map some)
    (visit : Visited start members id targets { search with queue := queue } later fresh) :
    later.Follows start (trails ++ fresh.map (· :: id :: trail)) (visited ++ fresh) := by
  have remembers : later.Remembers search := visit.remembers
  have isNew : ∀ target ∈ fresh, target ≠ start ∧ target ∉ visited := by
    intro target mem
    obtain ⟨imported, -, unknown⟩ := (visit.mem_iff target).mp mem
    have notStart : target ≠ start := fun same => visit.away (same ▸ imported)
    refine ⟨notStart, ?_⟩
    rw [h.seen, List.mem_cons, not_or]
    exact ⟨notStart, originOf?_eq_none_iff.mp unknown⟩
  exact
    { queue := by
        rw [visit.queue, List.map_append, List.map_append, rest, List.map_map]
        rfl
      seen := by
        rw [visit.origins, h.seen, List.map_append, List.map_map, List.cons_append]
        simp [Function.comp_def]
      back := by
        intro other mem
        rcases List.mem_append.mp mem with mem | mem
        · exact (h.back other (List.mem_cons_of_mem _ mem)).mono remembers
        · obtain ⟨target, isFresh, rfl⟩ := List.mem_map.mp mem
          exact ⟨(isNew target isFresh).1, visit.originOf?_of_mem isFresh,
            (h.back _ List.mem_cons_self).mono remembers⟩
      simple := by
        intro other mem
        rcases List.mem_append.mp mem with mem | mem
        · obtain ⟨distinct, known⟩ := h.simple other (List.mem_cons_of_mem _ mem)
          exact ⟨distinct, List.subset_append_of_subset_left fresh known⟩
        · obtain ⟨target, isFresh, rfl⟩ := List.mem_map.mp mem
          obtain ⟨distinct, known⟩ := h.simple _ List.mem_cons_self
          have away : target ∉ id :: trail := fun seen => (isNew target isFresh).2 (known seen)
          refine ⟨List.nodup_cons.mpr ⟨away, distinct⟩, List.cons_subset.mpr ⟨?_, ?_⟩⟩
          · exact List.mem_append_right visited isFresh
          · exact List.subset_append_of_subset_left fresh known }

end Search.Follows

/-! ## What the search finds -/

/-- What a search may answer: a module from which a shortest trail that can be closed is remembered,
or nothing where no trail can be closed. -/
def Finds (graph : ModuleGraph) (start : Nat) (members : List Nat) : Option (Nat × Search) → Prop
  | none => ∀ id trail, graph.Trail start members (id :: trail) → ¬ graph.Imports id start
  | some (id, search) => ∃ trail, search.LeadsBack start (id :: trail) ∧
      trail.length ≤ search.origins.length ∧ (id :: trail).Nodup ∧
      graph.Trail start members (id :: trail) ∧ graph.Imports id start ∧
      ∀ other shorter, graph.Trail start members (other :: shorter) → graph.Imports other start →
        trail.length ≤ shorter.length

/-- One step of the search: it ends with the module whose turn it is, or goes on with the trails that
lead on from there. -/
theorem closing?_cases (graph : ModuleGraph) {search : Search} {id : Nat} {trail : List Nat}
    {trails : List (List Nat)} {visited : List Nat} (members : List Nat) (steps : Nat)
    (follows : search.Follows start ((id :: trail) :: trails) visited) :
    (graph.Imports id start ∧ ∃ later, later.LeadsBack start (id :: trail) ∧
        trail.length ≤ later.origins.length ∧
        graph.closing? start members (steps + 1) search = some (some (id, later))) ∨
      ¬ graph.Imports id start ∧ ∃ later, ∃ fresh : List Nat, fresh.Nodup ∧
        (∀ target, target ∈ fresh ↔
          graph.Imports id target ∧ target ∈ members ∧ target ∉ visited) ∧
        later.Follows start (trails ++ fresh.map (· :: id :: trail)) (visited ++ fresh) ∧
        graph.closing? start members (steps + 1) search =
          graph.closing? start members steps later := by
  obtain ⟨queue, split, rest⟩ := follows.exists_queue
  rcases Search.visit_cases start members id { search with queue := queue }
      (((graph.get? id).map ModuleRecord.targets).getD []) with
    ⟨back, later, ends, remembers, longer⟩ | ⟨later, fresh, goesOn, visit⟩
  · have remembers : later.Remembers search := remembers
    have found : graph.closing? start members (steps + 1) search = some (some (id, later)) := by
      rw [closing?, split]
      dsimp only
      rw [ends]
    refine Or.inl ⟨mem_targets_iff.mp back, later, ?_, ?_, found⟩
    · exact (follows.back _ List.mem_cons_self).mono remembers
    · exact Nat.le_trans (follows.length_le List.mem_cons_self) longer
  · have further : graph.closing? start members (steps + 1) search =
        graph.closing? start members steps later := by
      rw [closing?, split]
      dsimp only
      rw [goesOn]
    refine Or.inr ⟨fun back => visit.away (mem_targets_iff.mpr back), later, fresh, visit.distinct,
      fun target => ?_, follows.step rest visit, further⟩
    rw [visit.mem_iff, mem_targets_iff, follows.seen, List.mem_cons, not_or]
    refine and_congr_right fun imported => and_congr_right fun _ => ?_
    have notStart : target ≠ start := fun same =>
      visit.away (mem_targets_iff.mpr (same ▸ imported))
    exact Search.originOf?_eq_none_iff.trans (and_iff_right notStart).symm

/-- Searches that a number of steps is enough for come to an end, and find a shortest trail that can
be closed. -/
def Ends (graph : ModuleGraph) (start : Nat) (members : List Nat) (steps : Nat) : Prop :=
  ∀ ⦃level current next visited search⦄,
    graph.Searching start members level current next visited →
    search.Follows start (current ++ next) visited →
    (current ++ next).length + (members.length - visited.length) < steps →
    ∃ answer, graph.closing? start members steps search = some answer ∧
      graph.Finds start members answer

/-- A search ends that has a trail left on its level. -/
theorem exists_closing?_cons {id : Nat} {trail : List Nat} {search : Search} {steps : Nat}
    (ends : graph.Ends start members steps)
    (h : graph.Searching start members level ((id :: trail) :: current) next visited)
    (follows : search.Follows start ((id :: trail) :: (current ++ next)) visited)
    (enough : (current ++ next).length + 1 + (members.length - visited.length) < steps + 1) :
    ∃ answer, graph.closing? start members (steps + 1) search = some answer ∧
      graph.Finds start members answer := by
  obtain ⟨isTrail, long⟩ := h.here _ List.mem_cons_self
  rcases closing?_cases graph members steps follows with
    ⟨back, later, remembered, bound, isLast⟩ |
    ⟨away, later, fresh, distinct, isFresh, follows, goesOn⟩
  · refine ⟨_, isLast, trail, remembered, bound, (follows.simple _ List.mem_cons_self).1, isTrail,
      back, fun other shorter closing back' => ?_⟩
    have bound := h.shortest closing back'
    rw [List.length_cons] at long
    omega
  · have stepped := h.step away distinct isFresh
    rw [goesOn]
    rw [List.append_assoc] at follows
    refine ends stepped follows ?_
    -- what the queue gets longer by has been visited, and there are only so many members
    have bound := stepped.length_visited_le
    simp only [List.length_append, List.length_map] at bound enough ⊢
    omega

theorem Searching.exists_cons (h : graph.Searching start members level current next visited)
    {trail : List Nat} (mem : trail ∈ current ++ next) : ∃ id before, trail = id :: before := by
  refine List.exists_cons_of_ne_nil fun empty => ?_
  rcases List.mem_append.mp mem with mem | mem
  · exact absurd (h.here trail mem).2 (by simp [empty])
  · exact absurd (h.further trail mem).2 (by simp [empty])

/-- The search comes to an end: the first trail of the queue is on this level or, where that is
done, on the next one. -/
theorem ends_closing? (graph : ModuleGraph) (start : Nat) (members : List Nat) (steps : Nat) :
    graph.Ends start members steps := by
  induction steps with
  | zero =>
    intro level current next visited search h follows enough
    exact absurd enough (Nat.not_lt_zero _)
  | succ steps ih =>
    intro level current next visited search h follows enough
    cases current with
    | cons trail current =>
      obtain ⟨id, before, rfl⟩ := h.exists_cons List.mem_cons_self
      refine exists_closing?_cons ih h follows ?_
      rw [List.cons_append, List.length_cons] at enough
      omega
    | nil =>
      cases next with
      | nil =>
        have done : search.queue = [] := List.map_eq_nil_iff.mp follows.queue.symm
        refine ⟨none, ?_, fun id trail => h.away_of_done⟩
        rw [closing?, done]
      | cons trail next =>
        obtain ⟨id, before, rfl⟩ := h.exists_cons List.mem_cons_self
        refine exists_closing?_cons ih h.descend ?_ ?_
        · rw [List.append_nil]
          exact follows
        · rw [List.nil_append, List.length_cons] at enough
          rw [List.append_nil]
          omega

/-- The search as it is begun for some modules with a lowest one. -/
theorem exists_closing?_begun (graph : ModuleGraph) (isMember : start ∈ members) :
    ∃ answer, graph.closing? start members (members.length + 1) (.begun start) = some answer ∧
      graph.Finds start members answer := by
  refine ends_closing? graph start members _ (searching_start isMember) (follows_begun start) ?_
  have : 0 < members.length := List.length_pos_of_mem isMember
  simp only [List.append_nil, List.length_singleton]
  omega

/-! ## The chain of a group -/

/-- All modules on a circle through a module reach it and are reached from it. -/
theorem Circle.reaches {ids : List Nat} (h : graph.Circle start ids) {id : Nat} (mem : id ∈ ids) :
    graph.Reaches start id ∧ graph.Reaches id start := by
  obtain ⟨inner, rfl, chain⟩ := h
  have far : (start :: inner ++ [start]).Pairwise graph.Reaches :=
    List.isChain_iff_pairwise (R := Relation.TransGen graph.Imports) |>.mp
      (chain.imp fun _ _ edge => .single edge)
  obtain ⟨-, -, toEnd⟩ := List.pairwise_append.mp far
  have around : graph.Reaches start start :=
    toEnd start List.mem_cons_self start (List.mem_singleton_self start)
  rcases List.mem_append.mp mem with mem | mem
  · refine ⟨?_, toEnd id mem start (List.mem_singleton_self start)⟩
    rcases List.mem_cons.mp mem with rfl | inside
    · exact around
    · exact (List.pairwise_cons.mp far).1 id (List.mem_append_left _ inside)
  · obtain rfl := List.mem_singleton.mp mem
    exact ⟨around, around⟩

/-- A module that reaches itself is on a circle. -/
theorem exists_circle (circular : graph.Reaches start start) : ∃ ids, graph.Circle start ids := by
  obtain ⟨importer, before, back⟩ := Relation.TransGen.tail'_iff.mp circular
  obtain ⟨inner, chain, ends⟩ := List.exists_isChain_cons_of_relationReflTransGen before
  refine ⟨start :: inner ++ [start], inner, rfl, ?_⟩
  refine chain.append (.singleton start) fun last isLast first isFirst => ?_
  have isImporter : last = importer := by
    rw [List.getLast?_eq_getLast_of_ne_nil (List.cons_ne_nil _ _), ends] at isLast
    exact (Option.some.inj isLast).symm
  obtain rfl : start = first := Option.some.inj isFirst
  rw [isImporter]
  exact back

/-- A closed chain of imports among some modules that is no longer than any other among them. -/
structure ShortestWithin (graph : ModuleGraph) (members : List Nat) (start : Nat)
    (ids : List Nat) : Prop where
  circle : graph.Circle start ids
  inside : ∀ id ∈ ids, id ∈ members
  least : ∀ other, graph.Circle start other → (∀ id ∈ other, id ∈ members) →
    ids.length ≤ other.length

/-- A shortest trail that can be closed makes a shortest circle. -/
theorem Trail.shortestWithin {id : Nat} {trail : List Nat} (isMember : start ∈ members)
    (isTrail : graph.Trail start members (id :: trail)) (back : graph.Imports id start)
    (least : ∀ other shorter, graph.Trail start members (other :: shorter) →
      graph.Imports other start → trail.length ≤ shorter.length) :
    graph.ShortestWithin members start (start :: id :: trail).reverse where
  circle := isTrail.circle back
  inside other mem := by
    rw [List.mem_reverse, List.mem_cons] at mem
    rcases mem with rfl | mem
    · exact isMember
    · exact isTrail.inside other mem
  least other circle inside := by
    obtain ⟨id', trail', isTrail', back', rfl⟩ := circle.exists_trail inside
    have bound := least id' trail' isTrail' back'
    simp only [List.length_reverse, List.length_cons]
    omega

/-- The chain that is spelled out for some modules is a shortest one among them that comes by no
module twice on its way around, and it is missing only where there is none. -/
theorem cycleIds?_cases (graph : ModuleGraph) (members : List Nat) :
    ∃ ids, graph.cycleIds? members = some ids ∧
      ((ids = [] ∧ ∀ start, members.min? = some start → ∀ other, graph.Circle start other →
          ¬ ∀ id ∈ other, id ∈ members) ∨
        ∃ start, members.min? = some start ∧ graph.ShortestWithin members start ids ∧
          ids.dropLast.Nodup) := by
  rw [cycleIds?]
  cases lowest : members.min? with
  | none => exact ⟨[], rfl, Or.inl ⟨rfl, nofun⟩⟩
  | some start =>
    have isMember : start ∈ members := List.min?_mem lowest
    obtain ⟨answer, ends, finds⟩ := exists_closing?_begun graph isMember
    dsimp only
    rw [ends]
    cases answer with
    | none =>
      refine ⟨[], rfl, Or.inl ⟨rfl, fun first isFirst other circle inside => ?_⟩⟩
      obtain rfl := Option.some.inj isFirst
      obtain ⟨id, trail, isTrail, back, -⟩ := circle.exists_trail inside
      exact finds id trail isTrail back
    | some found =>
      obtain ⟨id, search⟩ := found
      obtain ⟨trail, remembered, enough, distinct, isTrail, back, least⟩ := finds
      dsimp only
      rw [Search.wayBack?_of_leadsBack remembered enough]
      have spelled : trail.reverse ++ [id, start] = (start :: id :: trail).reverse := by
        rw [List.reverse_cons, List.reverse_cons, List.append_assoc]
        rfl
      rw [spelled]
      refine ⟨_, rfl, Or.inr ⟨start, rfl, isTrail.shortestWithin isMember back least, ?_⟩⟩
      rw [List.reverse_cons, List.dropLast_concat]
      exact List.nodup_reverse.mpr distinct

/-- For a group of modules that reach each other, the chain that is spelled out is a shortest one
through the lowest member. -/
theorem shortest_cycleIds {group : List Nat} {lowest : Nat} (isLowest : group.head? = some lowest)
    (increasing : group.Pairwise (· < ·))
    (together : ∀ other, other ∈ group ↔ graph.Reaches lowest other ∧ graph.Reaches other lowest) :
    graph.ShortestCircle lowest (graph.cycleIds group) := by
  have isMember : lowest ∈ group := List.mem_of_mem_head? isLowest
  have minimum : group.min? = some lowest := (min?_of_increasing increasing).trans isLowest
  have inside : ∀ ids, graph.Circle lowest ids → ∀ id ∈ ids, id ∈ group := fun ids circle id mem =>
    (together id).mpr (circle.reaches mem)
  obtain ⟨ids, found, ⟨-, none⟩ | ⟨start, isStart, shortest, -⟩⟩ := cycleIds?_cases graph group
  · -- the lowest member is on some circle, so the search does not fail
    obtain ⟨around, circle⟩ := exists_circle ((together lowest).mp isMember).1
    exact absurd (inside around circle) (none lowest minimum around circle)
  · obtain rfl := Option.some.inj (minimum.symm.trans isStart)
    rw [cycleIds, found]
    exact ⟨shortest.circle, fun other circle => shortest.least other circle (inside other circle)⟩

end ModuleBundler.ModuleGraph
