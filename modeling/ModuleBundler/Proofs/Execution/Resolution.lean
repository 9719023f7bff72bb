/-
# ModuleBundler.Proofs.Execution.Resolution — where names lead when a bundle runs.

The text of a bundle is read, its script is run, and factories require names.  A name that the graph
records for a module leads to the module that the graph says: requiring it inside of the factory
calls the linking function with that identity, under which the registry has the factory and the
mapping of that module.  A name that the graph does not record is answered by an error
(`bundle_resolves`).

Names may have any characters, but there is one that the graph can record and the bundle cannot:
written as a key of an object, `__proto__` makes no property, so it is answered by an error wherever
it leads (`proto_unresolved`).
-/
import ModuleBundler.Proofs.Bundling.Policy
import ModuleBundler.Proofs.Execution.Reading
import ModuleBundler.Proofs.Execution.Reinvoking

namespace ModuleBundler

namespace Execution

variable {M : Type}

/-! ## What follows a request -/

/-- What has happened begins with certain events, unless it ends before. -/
def GoesOn (finished : Prop) (expected later : List Event) : Prop :=
  expected <+: later ∨ ¬ finished ∧ later <+: expected

/-- A request is followed by what should come of it. -/
theorem Orderly.asked {setup : Setup M} {events past later : List Event} {run : Run}
    {name : String} (orderly : Orderly setup events)
    (split : events = past ++ .ask run name :: later) :
    [.call "localRequire" [.text name], setup.response run name] <+: later := by
  induction orderly generalizing past with
  | nil => exact absurd split (by simp)
  | @other event events quiet rest ih =>
    cases past with
    | nil => exact absurd (List.cons.inj split).1 (quiet run name)
    | cons first past => exact ih (List.cons.inj split).2
  | @ask other word events rest ih =>
    -- the request is this one or a later one: the two events behind this one are no requests
    match past, split with
    | [], split =>
      obtain ⟨same, rfl⟩ := List.cons.inj split
      obtain ⟨rfl, rfl⟩ := Event.ask.inj same
      exact List.prefix_append _ events
    | [_], split => exact absurd (List.cons.inj (List.cons.inj split).2).1 (by simp)
    | [_, _], split =>
      have response := (List.cons.inj (List.cons.inj (List.cons.inj split).2).2).1
      unfold Setup.response at response
      split at response
      · exact absurd response (by simp)
      · exact absurd response (by simp)
    | _ :: _ :: _ :: past, split =>
      exact ih (List.cons.inj (List.cons.inj (List.cons.inj split).2).2).2

/-- Also where the machine has stopped in between. -/
theorem Begun.asked {setup : Setup M} {task : Task M} {events past later : List Event} {run : Run}
    {name : String} (begun : Begun setup task events)
    (split : events = past ++ .ask run name :: later) :
    [.call "localRequire" [.text name], setup.response run name] <+: later ∨
      later <+: [.call "localRequire" [.text name], setup.response run name] := by
  obtain ⟨more, orderly, -⟩ := begun
  have longer : events ++ more = past ++ .ask run name :: (later ++ more) := by
    rw [split]
    simp
  have expected := orderly.asked longer
  exact List.prefix_or_prefix_of_prefix expected (List.prefix_append later more)

/-! ## What a machine has of a graph -/

/-- The registry has an entry for a module: its factory, which is known by the code of the module,
and its mapping, which has the specifiers of the module but for one. -/
structure Entered (record : ModuleRecord) (registry : Nat) (machine : Machine M) : Prop where
  script : machine.scripts[record.id]? = some (factoryBody record)
  entry : ∃ entry mapping,
    machine.own registry record.id.repr = some (.object entry) ∧
    machine.own entry "0" = some (.factory record.id) ∧
    machine.own entry "1" = some (.object mapping) ∧
    ∀ name, machine.own mapping name =
      if name = "__proto__" then none else (record.resolve? name).map .number

/-- Modules are linked as their graph says, as far as a machine has come. -/
structure Resolves (graph : ModuleGraph) (finished : Prop) (machine : Machine M) : Prop where
  registry : ∃ registry, machine.lookUp 0 "modules" = some (.object registry) ∧
    ∀ record ∈ graph.modules, Entered record registry machine
  /-- a recorded name passes the test for a property, and its module is required -/
  linked : ∀ past run name later record id, machine.trace = past ++ .ask run name :: later →
    graph.get? run.factory = some record → (name, id) ∈ record.mapping → name ≠ "__proto__" →
      GoesOn finished [.call "localRequire" [.text name], .call "require" [.number id]] later
  /-- any other name does not, and is answered by an error -/
  unlinked : ∀ past run name later record, machine.trace = past ++ .ask run name :: later →
    graph.get? run.factory = some record →
      (name ∈ record.mapping.map (·.1) → name = "__proto__") →
        GoesOn finished [.call "localRequire" [.text name], .answer run (missing name)] later

/-! ## Bundles -/

section

variable {graph : ModuleGraph} {options : RuntimeOptions} {factories : Factories M} {run : Run}
variable {record : ModuleRecord} {name : String}

theorem response_linked (sound : graph.Sound) (found : graph.get? run.factory = some record)
    {id : Nat} (mem : (name, id) ∈ record.mapping) (ordinary : name ≠ "__proto__") :
    (linking options graph factories).response run name = .call "require" [.number id] := by
  have leads := leadsTo_of_mem sound found mem
  rw [if_neg ordinary] at leads
  simp [Setup.response, linking, leads]

theorem response_unlinked (found : graph.get? run.factory = some record)
    (absent : name ∈ record.mapping.map (·.1) → name = "__proto__") :
    (linking options graph factories).response run name = .answer run (missing name) := by
  have leads : leadsTo graph run.factory name = none := by
    unfold leadsTo
    split
    · rfl
    · rename_i ordinary
      rw [found, Option.bind_some, ModuleRecord.resolve?, Option.map_eq_none_iff, List.find?_eq_none]
      intro entry mem same
      apply ordinary
      apply absent
      rw [← beq_iff_eq.mp same]
      exact List.mem_map_of_mem mem
  simp [Setup.response, linking, leads]

/-- What has been put into the registry stays there. -/
theorem entered_of_later (sound : graph.Sound) {memory : M} {caches : Bool} {after : Machine M}
    (later : Later (siteOf caches graph) (Machine.working caches graph memory) after)
    (mem : record ∈ graph.modules) : Entered record (2 * graph.size) after := by
  have isModule : graph.modules[record.id]? = some record := sound.get?_id mem
  have inside : record.id < graph.size := ModuleGraph.lt_size_of_get? isModule
  have registered := registered_working sound memory caches inside
  have kept (place : Nat) (le : place ≤ 2 * graph.size) (key : String) :
      after.own place key = (Machine.working caches graph memory).own place key :=
    later.own place (Nat.lt_succ_of_le le) key
  constructor
  · rw [later.scripts, scripts_working, List.getElem?_map, isModule]
    rfl
  · refine ⟨2 * record.id + 1, 2 * record.id, ?_, ?_, ?_, ?_⟩
    · rw [kept _ (Nat.le_refl _)]
      exact registered.entry
    · rw [kept _ (by omega)]
      exact registered.factory
    · rw [kept _ (by omega)]
      exact registered.mapping
    · intro name
      have leads := leads_working sound memory caches inside name
      rw [kept _ (by omega)]
      refine leads.trans ?_
      rw [leadsTo, ModuleGraph.get?, isModule]
      split
      · rfl
      · rfl

variable (factories) in
theorem resolves_of_later (sound : graph.Sound) {memory : M} {after : Machine M} {finished : Prop}
    {events : List Event}
    (later : Later (siteOf options.moduleCache graph)
      (Machine.working options.moduleCache graph memory) after)
    (trace : after.trace = .call "" [.object (2 * graph.size)] :: events)
    (asked : ∀ past run name later, events = past ++ .ask run name :: later →
      GoesOn finished [.call "localRequire" [.text name],
        (linking options graph factories).response run name] later) :
    Resolves graph finished after := by
  have asked (past : List Event) (run : Run) (name : String) (later : List Event)
      (split : after.trace = past ++ .ask run name :: later) :
      GoesOn finished [.call "localRequire" [.text name],
        (linking options graph factories).response run name] later := by
    rw [trace] at split
    cases past with
    | nil => exact absurd (List.cons.inj split).1 (by simp)
    | cons first past => exact asked past run name later (List.cons.inj split).2
  have linked := linked_working sound options factories memory
  constructor
  · refine ⟨2 * graph.size, ?_, fun record mem => entered_of_later sound later mem⟩
    rw [later.lookUp 0 linked.outside]
    refine (linked.outer "modules").trans ?_
    simp [Site.bindings, siteOf, List.lookup_cons]
  · intro past run name later record id split found mem ordinary
    have goes := asked past run name later split
    rwa [response_linked sound found mem ordinary] at goes
  · intro past run name later record split found absent
    have goes := asked past run name later split
    rwa [response_unlinked found absent] at goes

/-- Running the script of a graph never gets stuck, and as far as it is followed, names are resolved
as the graph says. -/
theorem exists_resolves (sound : graph.Sound) {script : Term}
    (is : script? options graph = some script) (factories : Factories M) (memory : M)
    (depth : Nat) : ∃ after : Machine M,
      ((∃ answer, execute factories (depth + 1) memory script = Answer.result answer after) ∧
        Resolves graph True after) ∨
      (execute factories (depth + 1) memory script = .error .exhausted after ∧
        Resolves graph False after) := by
  -- nothing is said about how deep calls are nested
  have descends : Descends (linking options graph factories) graph.size fun _ _ _ => False := by
    intro levels trace id impossible
    exact absurd impossible not_false
  rcases follows_execute sound is factories descends depth memory with
    ⟨answer, events, after, ends, carried⟩ | ⟨-, events, after, ends, interrupted⟩
  · refine ⟨after, Or.inl ⟨⟨_, ends⟩, ?_⟩⟩
    have trace := carried.trace
    rw [trace_working] at trace
    apply resolves_of_later factories sound carried.later trace
    intro past run name later split
    exact Or.inl (carried.yields.orderly.1.asked split)
  · refine ⟨after, Or.inr ⟨ends, ?_⟩⟩
    have trace := interrupted.trace
    rw [trace_working] at trace
    apply resolves_of_later factories sound interrupted.later trace
    intro past run name later split
    exact (interrupted.begun.asked split).imp_right fun short => ⟨not_false, short⟩

end

/-- The bundle of a graph, whatever characters its specifiers have and whatever its factories do.
Its text is read as a script, if the code of every module is the body of a function, and running the
script never gets stuck.  As far as it is followed, every name that a factory requires is resolved as
the graph says, but for one name that no mapping has. -/
theorem bundle_resolves (tree : FileTree) (compiler : Compiler) (resolver : Resolver) (entry : Path)
    {graph : ModuleGraph} (built : (Discovery.build tree compiler resolver entry).1 = .ok graph)
    (options : RuntimeOptions) {body : List Char → Option Nat}
    (delimits : ∀ record ∈ graph.modules, Delimits body (factoryBody record)) :
    ∃ script, scriptOf? body (graph.bundle options).toList = some script ∧
      ∀ {M : Type} (factories : Factories M) (memory : M) (depth : Nat), ∃ after : Machine M,
        ((∃ answer, execute factories (depth + 1) memory script = Answer.result answer after) ∧
          Resolves graph True after) ∨
        (execute factories (depth + 1) memory script = .error .exhausted after ∧
          Resolves graph False after) := by
  have sound := Discovery.sound_of_build built
  obtain ⟨script, is⟩ : ∃ script, script? options graph = some script := ⟨_, script?_eq _ _⟩
  refine ⟨script, (scriptOf?_bundle options delimits).trans is, ?_⟩
  intro M factories memory depth
  exact exists_resolves sound is factories memory depth

/-- How many braces are open behind a character. -/
def openBehind (depth : Nat) (c : Char) : Nat :=
  if c = '{' then depth + 1 else if c = '}' then depth - 1 else depth

/-- Where the brace stands that closes one more than are open. -/
def closingBrace? : (depth : Nat) → List Char → Option Nat
  | _, [] => none
  | depth, c :: rest =>
    if c = '}' ∧ depth = 0 then some 0 else (closingBrace? (openBehind depth c) rest).map (· + 1)

/-- The end of a function body that has no braces in strings, comments or patterns. -/
def untilBrace (text : List Char) : Option Nat :=
  closingBrace? 0 text

/-- Every brace that is closed has been opened, and none stays open. -/
def balanced : (depth : Nat) → List Char → Bool
  | depth, [] => depth == 0
  | depth, c :: rest => !(c == '}' && depth == 0) && balanced (openBehind depth c) rest

theorem closingBrace?_append {depth : Nat} {inside : List Char}
    (h : balanced depth inside = true) (behind : List Char) :
    closingBrace? depth (inside ++ '}' :: behind) = some inside.length := by
  induction inside generalizing depth with
  | nil =>
    obtain rfl := beq_iff_eq.mp h
    rfl
  | cons c rest ih =>
    rw [balanced, Bool.and_eq_true, Bool.not_eq_true', Bool.and_eq_false_iff] at h
    obtain ⟨notLast, h⟩ := h
    rw [List.cons_append, closingBrace?, if_neg (by simpa [← not_and_or] using notLast), ih h]
    rfl

theorem delimits_untilBrace {inside : String} (h : balanced 0 inside.toList = true) :
    Delimits untilBrace inside := by
  intro behind
  rw [untilBrace, closingBrace?_append h, String.length_toList]

/-- A module that requires another by a name that has to be escaped, inside of braces. -/
def quoting : FileTree :=
  ⟨[(["a.js"], .file "exports.b = \x7b c: require('./\"b') \x7d".toUTF8),
    (["\"b.js"], .file "".toUTF8)], []⟩

theorem bundle_resolves_quoting :
    ∃ graph, (Discovery.build quoting Compiler.standard (.new .standard) ⟨"a"⟩).1 = .ok graph ∧
      ∃ script, scriptOf? untilBrace (graph.bundle ⟨true, true⟩).toList = some script ∧
        ∃ after : Machine Unit,
          ((∃ answer, execute (fun _ _ => .require "./\"b" fun _ => .finish) 8 () script =
              Answer.result answer after) ∧ Resolves graph True after) ∨
          (execute (fun _ _ => .require "./\"b" fun _ => .finish) 8 () script =
              .error .exhausted after ∧ Resolves graph False after) := by
  have checked : (Discovery.build quoting Compiler.standard (.new .standard) ⟨"a"⟩).1.toOption.any
      (fun graph => graph.modules.all fun record =>
        balanced 0 (factoryBody record).toList) = true := by
    decide +kernel
  obtain ⟨graph, built, plain⟩ := exists_ok_of_any checked
  rw [List.all_eq_true] at plain
  have delimits : ∀ record ∈ graph.modules, Delimits untilBrace (factoryBody record) :=
    fun record mem => delimits_untilBrace (plain record mem)
  obtain ⟨script, read, resolves⟩ :=
    bundle_resolves quoting Compiler.standard (.new .standard) ⟨"a"⟩ built ⟨true, true⟩ delimits
  exact ⟨graph, built, script, read, resolves _ () 7⟩

/-- A module that requires another by the name of the property that holds the prototype. -/
def quotingProto : FileTree :=
  ⟨[(["__proto__.js"], .file "".toUTF8), (["a.js"], .file "require('__proto__')".toUTF8)], []⟩

/-- The module of an identity is told that there is nothing under a name. -/
def Event.misses (id : Nat) (name : String) : Event → Bool
  | .answer run found => decide (run.factory = id ∧ found = missing name)
  | _ => false

/-- Whether a bundle that keeps its modules runs to its end, and an event of it passes a test. -/
def endsWith (factories : Factories Unit) (depth : Nat) (graph : ModuleGraph)
    (test : Event → Bool) : Bool :=
  match execute factories depth () (.call (Linking.function true) (.ofList [registryTerm graph])) with
  | .ok _ after => after.trace.any test
  | .error _ _ => false

/-- A name that the graph records for a module, but requiring it is answered by an error. -/
theorem proto_unresolved :
    ∃ graph, (Discovery.build quotingProto Compiler.standard (.new .standard) ⟨"a"⟩).1 = .ok graph ∧
      (∃ record, graph.get? 0 = some record ∧ ("__proto__", 1) ∈ record.mapping) ∧
      ∃ script, scriptOf? untilBrace (graph.bundle ⟨true, true⟩).toList = some script ∧
        ∃ (value : Value) (after : Machine Unit),
          execute callingProto 8 () script = .ok value after ∧
          ∃ run, run.factory = 0 ∧ .answer run (missing "__proto__") ∈ after.trace := by
  have checked : (Discovery.build quotingProto Compiler.standard (.new .standard) ⟨"a"⟩).1.toOption.any
      (fun graph => (graph.modules.all fun record => balanced 0 (factoryBody record).toList) &&
        ((graph.get? 0).any fun record => record.mapping.contains ("__proto__", 1)) &&
        endsWith callingProto 8 graph (Event.misses 0 "__proto__")) = true := by
    decide +kernel
  obtain ⟨graph, built, checked⟩ := exists_ok_of_any checked
  simp only [Bool.and_eq_true, List.all_eq_true] at checked
  obtain ⟨⟨plain, mapped⟩, answered⟩ := checked
  have delimits : ∀ record ∈ graph.modules, Delimits untilBrace (factoryBody record) :=
    fun record mem => delimits_untilBrace (plain record mem)
  obtain ⟨record, found, mem⟩ := (Option.any_eq_true _ _).mp mapped
  refine ⟨graph, built, ⟨record, found, List.contains_iff_mem.mp mem⟩, _,
    (scriptOf?_bundle ⟨true, true⟩ delimits).trans (script?_eq _ _), ?_⟩
  rw [endsWith] at answered
  split at answered
  · rename_i value after ends
    obtain ⟨event, happened, isAnswer⟩ := List.any_eq_true.mp answered
    refine ⟨value, after, ends, ?_⟩
    rw [Event.misses.eq_def] at isAnswer
    split at isAnswer
    · rename_i run answer
      obtain ⟨isEntry, rfl⟩ := of_decide_eq_true isAnswer
      exact ⟨run, isEntry, happened⟩
    · exact absurd isAnswer Bool.false_ne_true
  · exact absurd answered Bool.false_ne_true

end Execution

end ModuleBundler
