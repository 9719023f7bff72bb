/-
# ModuleBundler.Proofs.Graph.Operations — what a graph holds after any operations.

A graph starts empty, modules are added and mappings are recorded.  One operation leaves every
module what it is, but for an entry behind its mapping (`get?_apply`); so after all of them a module
is what its addition has made of it, together with what has been recorded for it since, each
specifier with the target that was given first (`get?_ofOperations_iff`).  The identities of
modules, the table of paths and the counter agree after any operations (`ofOperations_consistent`).
-/
import ModuleBundler.Proofs.Discovery.History

namespace ModuleBundler

/-! ## Mappings -/

/-- The entries whose specifier does not occur before. -/
def firsts : List (String × Nat) → List (String × Nat)
  | [] => []
  | entry :: entries => entry :: (firsts entries).filter (·.1 != entry.1)

theorem mem_keys_firsts {specifier : String} {entries : List (String × Nat)} :
    specifier ∈ (firsts entries).map (·.1) ↔ specifier ∈ entries.map (·.1) := by
  induction entries with
  | nil => rfl
  | cons entry entries ih =>
    have filtered : ((firsts entries).filter (·.1 != entry.1)).map (·.1) =
        ((firsts entries).map (·.1)).filter (· != entry.1) := by
      rw [List.filter_map]
      rfl
    rw [firsts, List.map_cons, List.map_cons, List.mem_cons, List.mem_cons, filtered,
      List.mem_filter, ih]
    by_cases same : specifier = entry.1
    · simp [same]
    · simp [same]

/-- An entry at the end is a repetition, or new and last. -/
theorem firsts_concat (entries : List (String × Nat)) (entry : String × Nat) :
    firsts (entries ++ [entry]) =
      if entry.1 ∈ entries.map (·.1) then firsts entries else firsts entries ++ [entry] := by
  induction entries with
  | nil => rfl
  | cons first entries ih =>
    rw [List.cons_append, firsts, firsts, ih, List.map_cons]
    by_cases mem : entry.1 ∈ entries.map (·.1)
    · rw [if_pos mem, if_pos (List.mem_cons_of_mem _ mem)]
    · rw [if_neg mem, List.filter_append]
      by_cases same : entry.1 = first.1
      · rw [if_pos (List.mem_cons.mpr (.inl same))]
        simp [same]
      · rw [if_neg fun mem' => (List.mem_cons.mp mem').elim same mem]
        simp [same]

/-- More entries come behind. -/
theorem firsts_prefix (entries more : List (String × Nat)) :
    firsts entries <+: firsts (entries ++ more) := by
  induction more using List.reverseRecOn with
  | nil =>
    have same : entries ++ [] = entries := List.append_nil entries
    exact same.symm ▸ List.prefix_rfl
  | append_singleton more entry ih =>
    rw [← List.append_assoc, firsts_concat]
    split
    · exact ih
    · exact ih.trans (List.prefix_append _ _)

/-- A specifier stands with what it stood with first. -/
theorem find?_firsts (entries : List (String × Nat)) (specifier : String) :
    (firsts entries).find? (·.1 == specifier) = entries.find? (·.1 == specifier) := by
  induction entries with
  | nil => rfl
  | cons entry entries ih =>
    rw [firsts]
    by_cases same : entry.1 = specifier
    · rw [List.find?_cons_of_pos (by simpa using same),
        List.find?_cons_of_pos (by simpa using same)]
    · rw [List.find?_cons_of_neg (by simpa using same),
        List.find?_cons_of_neg (by simpa using same), List.find?_filter, ← ih]
      congr 1
      funext other
      by_cases is : other.1 = specifier
      · simp [is, Ne.symm same]
      · simp [is]

namespace ModuleRecord

theorem addMapping_eq (record : ModuleRecord) (specifier : String) (target : Nat) :
    record.addMapping specifier target = { record with mapping :=
      if specifier ∈ record.keys then record.mapping
      else record.mapping ++ [(specifier, target)] } := by
  rw [addMapping]
  cases resolved : record.resolve? specifier with
  | some other =>
    have known : specifier ∈ record.keys := by
      by_contra absent
      rw [resolve?_eq_none_iff.mpr absent] at resolved
      exact absurd resolved (by simp)
    rw [if_pos known]
  | none => rw [if_neg (resolve?_eq_none_iff.mp resolved)]

/-- Of what is recorded for a module, its mapping keeps the first entry of each specifier. -/
theorem foldl_addMapping (record : ModuleRecord) (before : List (String × Nat))
    (recorded : record.mapping = firsts before) (entries : List (String × Nat)) :
    entries.foldl (fun record entry => record.addMapping entry.1 entry.2) record =
      { record with mapping := firsts (before ++ entries) } := by
  induction entries generalizing record before with
  | nil =>
    rw [List.append_nil, ← recorded]
    rfl
  | cons entry entries ih =>
    have next : (record.addMapping entry.1 entry.2).mapping = firsts (before ++ [entry]) := by
      rw [addMapping_eq, firsts_concat, keys, recorded]
      simp only [mem_keys_firsts]
    have bare : record.addMapping entry.1 entry.2 =
        { record with mapping := (record.addMapping entry.1 entry.2).mapping } := by
      rw [addMapping_eq]
    rw [List.foldl_cons, ih _ _ next, bare, List.append_assoc, List.singleton_append]

end ModuleRecord

namespace ModuleGraph

/-! ## Operations -/

/-- What can be done to a graph. -/
inductive Operation
  | addModule (path : Path) (source : String) (compiled : CompiledModule)
  | addMapping (id : Nat) (specifier : String) (target : Nat)

/-- What an operation records for the module of an identity. -/
def Operation.recorded? (id : Nat) : Operation → Option (String × Nat)
  | .addModule _ _ _ => none
  | .addMapping other specifier target => if other = id then some (specifier, target) else none

/-- What operations record for the module of an identity, in order. -/
def recordedFor (id : Nat) (operations : List Operation) : List (String × Nat) :=
  operations.filterMap (·.recorded? id)

/-- The graph after an operation. -/
def apply (graph : ModuleGraph) : Operation → ModuleGraph
  | .addModule path source compiled => (graph.addModule path source compiled).2
  | .addMapping id specifier target => graph.addMapping id specifier target

/-- The graph after some operations, at first without modules. -/
def ofOperations (operations : List Operation) : ModuleGraph :=
  operations.foldl apply empty

theorem ofOperations_concat (operations : List Operation) (operation : Operation) :
    ofOperations (operations ++ [operation]) = (ofOperations operations).apply operation :=
  List.foldl_concat ..

theorem ofOperations_append (operations more : List Operation) :
    ofOperations (operations ++ more) = more.foldl apply (ofOperations operations) :=
  List.foldl_append

theorem WellFormed.apply {graph : ModuleGraph} (h : graph.WellFormed) (operation : Operation) :
    (graph.apply operation).WellFormed := by
  cases operation with
  | addModule path source compiled => exact h.addModule path source compiled
  | addMapping id specifier target => exact h.addMapping id specifier target

theorem wellFormed_ofOperations (operations : List Operation) :
    (ofOperations operations).WellFormed := by
  induction operations using List.reverseRecOn with
  | nil => exact wellFormed_empty
  | append_singleton operations operation ih =>
    rw [ofOperations_concat]
    exact ih.apply operation

/-! ## What becomes of a module -/

section

variable {graph : ModuleGraph} {id : Nat} {record : ModuleRecord}

/-- An operation leaves a module as it is, or records something for it. -/
theorem get?_apply (found : graph.get? id = some record) (operation : Operation) :
    (graph.apply operation).get? id = some ((recordedFor id [operation]).foldl
      (fun record entry => record.addMapping entry.1 entry.2) record) := by
  cases operation with
  | addModule path source compiled =>
    show (graph.addModule path source compiled).2.get? id = some record
    rw [ModuleGraph.addModule]
    cases graph.idOfPath? path with
    | some other => exact found
    | none =>
      show (graph.modules ++ _)[id]? = some record
      rw [List.getElem?_append_left (lt_size_of_get? found)]
      exact found
  | addMapping other specifier target =>
    show (graph.addMapping other specifier target).get? id = _
    rw [get?_addMapping, found, recordedFor, List.filterMap_cons, Operation.recorded?]
    split <;> rfl

theorem get?_foldl_apply (found : graph.get? id = some record) (operations : List Operation) :
    (operations.foldl apply graph).get? id = some ((recordedFor id operations).foldl
      (fun record entry => record.addMapping entry.1 entry.2) record) := by
  induction operations generalizing graph record with
  | nil => exact found
  | cons operation operations ih =>
    have split : recordedFor id (operation :: operations) =
        recordedFor id [operation] ++ recordedFor id operations :=
      List.filterMap_append (l := [operation])
    rw [List.foldl_cons, ih (get?_apply found operation), split, List.foldl_append]

end

/-- The module that an operation adds gets the next identity. -/
theorem get?_apply_addModule {graph : ModuleGraph} (h : graph.WellFormed) {path : Path}
    (new : graph.idOfPath? path = none) (source : String) (compiled : CompiledModule) :
    (graph.apply (.addModule path source compiled)).get? graph.size =
      some (.ofCompiled graph.size path source compiled) := by
  show (graph.addModule path source compiled).2.get? graph.size = _
  rw [ModuleGraph.addModule, new]
  show (graph.modules ++ [ModuleRecord.ofCompiled graph.nextId path source compiled])[graph.size]? =
    _
  rw [h.nextId]
  exact List.getElem?_concat_length

/-- An operation adds a module for an identity: it is the first one with the path, and those before
have made as many modules. -/
structure Adds (operations : List Operation) (id : Nat) (path : Path) (source : String)
    (compiled : CompiledModule) (before after : List Operation) : Prop where
  split : operations = before ++ .addModule path source compiled :: after
  size : (ofOperations before).size = id
  new : (ofOperations before).idOfPath? path = none

/-- Every module has been added by an operation. -/
theorem exists_adds {operations : List Operation} {id : Nat}
    (inside : id < (ofOperations operations).size) :
    ∃ path source compiled before after, Adds operations id path source compiled before after := by
  induction operations using List.reverseRecOn with
  | nil => exact absurd inside (Nat.not_lt_zero id)
  | append_singleton operations operation ih =>
    by_cases earlier : id < (ofOperations operations).size
    · obtain ⟨path, source, compiled, before, after, adds⟩ := ih earlier
      refine ⟨path, source, compiled, before, after ++ [operation], ?_, adds.size, adds.new⟩
      rw [adds.split, List.append_assoc, List.cons_append]
    · rw [ofOperations_concat] at inside
      cases operation with
      | addMapping other specifier target =>
        exact absurd (size_addMapping .. ▸ inside) earlier
      | addModule path source compiled =>
        change id < (ModuleGraph.addModule _ path source compiled).2.size at inside
        rw [ModuleGraph.addModule] at inside
        cases known : (ofOperations operations).idOfPath? path with
        | some other =>
          rw [known] at inside
          exact absurd inside earlier
        | none =>
          rw [known] at inside
          change id < (ModuleGraph.push _ path source compiled).size at inside
          rw [size_push] at inside
          exact ⟨path, source, compiled, operations, [], rfl, by omega, known⟩

theorem get?_of_adds {operations before after : List Operation} {id : Nat} {path : Path}
    {source : String} {compiled : CompiledModule}
    (adds : Adds operations id path source compiled before after) :
    (ofOperations operations).get? id = some
      { ModuleRecord.ofCompiled id path source compiled with
        mapping := firsts (recordedFor id after) } := by
  obtain ⟨rfl, rfl, new⟩ := adds
  have added := get?_apply_addModule (wellFormed_ofOperations before) new source compiled
  rw [ofOperations_append, List.foldl_cons, get?_foldl_apply added,
    ModuleRecord.foldl_addMapping _ [] rfl, List.nil_append]

/-- A module is what the operation has made of it that added it, with the first of everything that
has been recorded for it since. -/
theorem get?_ofOperations_iff {operations : List Operation} {id : Nat} {record : ModuleRecord} :
    (ofOperations operations).get? id = some record ↔
      ∃ path source compiled before after,
        Adds operations id path source compiled before after ∧
        record = { ModuleRecord.ofCompiled id path source compiled with
          mapping := firsts (recordedFor id after) } := by
  constructor
  · intro found
    obtain ⟨path, source, compiled, before, after, adds⟩ := exists_adds (lt_size_of_get? found)
    refine ⟨path, source, compiled, before, after, adds, ?_⟩
    exact Option.some.inj (found.symm.trans (get?_of_adds adds))
  · rintro ⟨path, source, compiled, before, after, adds, rfl⟩
    exact get?_of_adds adds

/-- More operations change nothing about a module but that entries come behind its mapping. -/
theorem get?_ofOperations_append {operations more : List Operation} {id : Nat}
    {record : ModuleRecord} (found : (ofOperations operations).get? id = some record) :
    ∃ later, (ofOperations (operations ++ more)).get? id = some later ∧
      later.bare = record.bare ∧ record.mapping <+: later.mapping := by
  obtain ⟨path, source, compiled, before, after, adds, rfl⟩ := get?_ofOperations_iff.mp found
  have goesOn : Adds (operations ++ more) id path source compiled before (after ++ more) :=
    ⟨by rw [adds.split, List.append_assoc, List.cons_append], adds.size, adds.new⟩
  have recorded : recordedFor id (after ++ more) = recordedFor id after ++ recordedFor id more :=
    List.filterMap_append
  refine ⟨_, get?_of_adds goesOn, rfl, ?_⟩
  rw [recorded]
  exact firsts_prefix _ _

/-! ## Graphs after any operations -/

/-- A graph after any operations.  Identities are positions and the counter is the number of
modules; no two modules have the same path, and the table of paths finds a module under every
spelling of its path and under no other.  To add a module under a path that is known changes
nothing.  To record a mapping adds at most an entry to the mapping of one module, and not for a
specifier that it has.  So every module is what the first addition of its path has made of it,
together with the first target that was given to each specifier since, and entries of mappings stay
where they are. -/
theorem ofOperations_consistent {operations : List Operation} {graph : ModuleGraph}
    (is : ofOperations operations = graph) :
    (∀ id record, graph.get? id = some record → record.id = id) ∧
    graph.nextId = graph.size ∧
    (graph.modules.map (·.path.components)).Nodup ∧
    graph.identities = graph.modules.map (fun record => (record.path, record.id)) ∧
    (∀ path id, graph.idOfPath? path = some id ↔
      ∃ record, graph.get? id = some record ∧ record.path.components = path.components) ∧
    (∀ path record, graph.getByPath? path = some record ↔
      record ∈ graph.modules ∧ record.path.components = path.components) ∧
    (∀ record ∈ graph.modules, ∀ path, record.path.components = path.components →
      ∀ source compiled, graph.addModule path source compiled = (record.id, graph)) ∧
    (∀ id specifier target,
      (graph.addMapping id specifier target).identities = graph.identities ∧
      (graph.addMapping id specifier target).nextId = graph.nextId ∧
      ∀ other, (graph.addMapping id specifier target).get? other =
        if id = other then (graph.get? other).map fun record => { record with mapping :=
          if specifier ∈ record.keys then record.mapping
          else record.mapping ++ [(specifier, target)] }
        else graph.get? other) ∧
    (∀ id record, graph.get? id = some record ↔
      ∃ path source compiled before after,
        Adds operations id path source compiled before after ∧
        record = { ModuleRecord.ofCompiled id path source compiled with
          mapping := firsts (recordedFor id after) }) ∧
    (∀ id path source compiled before after,
      Adds operations id path source compiled before after → ∀ specifier,
        (graph.get? id).bind (·.resolve? specifier) =
          ((recordedFor id after).find? (·.1 == specifier)).map (·.2)) ∧
    ∀ earlier more, operations = earlier ++ more → ∀ id record,
      (ofOperations earlier).get? id = some record →
        ∃ later, graph.get? id = some later ∧ later.bare = record.bare ∧
          record.mapping <+: later.mapping := by
  subst is
  have wellFormed := wellFormed_ofOperations operations
  refine ⟨fun id record found => wellFormed.id_of_get? found, wellFormed.nextId,
    wellFormed.distinct, wellFormed.identities, fun path id => ?_, fun path record => ?_,
    fun record mem path same source compiled => ?_, fun id specifier target => ⟨rfl, rfl, ?_⟩,
    fun id record => get?_ofOperations_iff, ?_, ?_⟩
  · simp only [wellFormed.idOfPath?_eq_some_iff, Path.same_iff]
  · rw [getByPath?, Option.bind_eq_some_iff]
    simp only [wellFormed.idOfPath?_eq_some_iff, Path.same_iff]
    constructor
    · rintro ⟨id, ⟨other, found, same⟩, found'⟩
      obtain rfl := Option.some.inj (found.symm.trans found')
      exact ⟨mem_of_get? found, same⟩
    · rintro ⟨mem, same⟩
      exact ⟨record.id, ⟨record, wellFormed.get?_id mem, same⟩, wellFormed.get?_id mem⟩
  · have known : (ofOperations operations).idOfPath? path = some record.id :=
      wellFormed.idOfPath?_eq_some_iff.mpr
        ⟨record, wellFormed.get?_id mem, (Path.same_iff _ _).mpr same⟩
    rw [addModule, known]
  · intro other
    rw [get?_addMapping]
    simp only [ModuleRecord.addMapping_eq]
  · intro id path source compiled before after adds specifier
    rw [get?_of_adds adds, Option.bind_some, ModuleRecord.resolve?, find?_firsts]
  · rintro earlier more rfl id record found
    exact get?_ofOperations_append found

/-- The first module is added again under another spelling of its path, a specifier is recorded
again, and something is recorded for a module that is not there. -/
def repeating : List Operation :=
  [ .addModule ⟨"/a.js"⟩ "1" ⟨["./b"], "1"⟩,
    .addMapping 0 "./b" 1,
    .addModule ⟨"/b.js"⟩ "2" ⟨[], "2"⟩,
    .addModule ⟨"//a.js/"⟩ "3" ⟨[], "3"⟩,
    .addMapping 0 "./b" 0,
    .addMapping 7 "./b" 0,
    .addMapping 0 "./a" 0 ]

theorem ofOperations_consistent_repeating :
    ofOperations repeating = ofOperations repeating ∧
    (∃ record, (ofOperations repeating).getByPath? ⟨"/./a.js"⟩ = some record ∧
      record.path = ⟨"/a.js"⟩ ∧ record.code = "1" ∧ record.mapping = [("./b", 1), ("./a", 0)]) ∧
    (ofOperations repeating).addModule ⟨"/b.js/."⟩ "4" ⟨[], "4"⟩ = (1, ofOperations repeating) ∧
    ((ofOperations repeating).get? 0).bind (·.resolve? "./b") = some 1 ∧
    ∃ later, (ofOperations repeating).get? 0 = some later ∧ [("./b", 1)] <+: later.mapping := by
  obtain ⟨ids, -, -, -, -, byPath, again, -, history, resolves, kept⟩ :=
    ofOperations_consistent (rfl : ofOperations repeating = ofOperations repeating)
  have first : Adds repeating 0 ⟨"/a.js"⟩ "1" ⟨["./b"], "1"⟩ [] repeating.tail :=
    ⟨rfl, rfl, rfl⟩
  have second : Adds repeating 1 ⟨"/b.js"⟩ "2" ⟨[], "2"⟩ (repeating.take 2) (repeating.drop 3) :=
    ⟨rfl, by decide +kernel, by decide +kernel⟩
  have firstRecord := (history 0 _).mpr ⟨_, _, _, _, _, first, rfl⟩
  have secondRecord := (history 1 _).mpr ⟨_, _, _, _, _, second, rfl⟩
  refine ⟨rfl, ⟨_, (byPath _ _).mpr ⟨mem_of_get? firstRecord, by decide +kernel⟩, rfl, rfl, rfl⟩,
    ?_, ?_, ?_⟩
  · exact again _ (mem_of_get? secondRecord) ⟨"/b.js/."⟩ (by decide +kernel) "4" ⟨[], "4"⟩
  · exact resolves 0 _ _ _ _ _ first "./b"
  · obtain ⟨later, found, -, goesOn⟩ := kept (repeating.take 2) (repeating.drop 2) rfl 0
      { ModuleRecord.ofCompiled 0 ⟨"/a.js"⟩ "1" ⟨["./b"], "1"⟩ with mapping := [("./b", 1)] } rfl
    exact ⟨later, found, goesOn⟩

end ModuleGraph

end ModuleBundler
