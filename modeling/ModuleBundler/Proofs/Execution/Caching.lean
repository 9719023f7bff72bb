/-
# ModuleBundler.Proofs.Execution.Caching — running a bundle that keeps modules.

Where modules are kept, a factory begins to run only if it has not begun before, so every module
that begins to run is one less that still can: whatever factories do, the bundle comes to an end.
What is required again is answered at once with what it exports at that moment, and only modules
are started that specifiers lead to.  If every factory requires all its specifiers and nothing is
thrown, every module of the graph is started, once (`caching_runs`).
-/
import Mathlib.Data.Finset.Card
import ModuleBundler.Proofs.Discovery.Order
import ModuleBundler.Proofs.Execution.Loading

namespace ModuleBundler

namespace Execution

variable {M : Type} {setup : Setup M} {task : Task M} {before events : List Event}
variable {memory after : M} {answer : Answer}

/-! ## Which modules are started -/

/-- Some name leads from a module to another. -/
def Setup.Leads (setup : Setup M) (id target : Nat) : Prop :=
  ∃ name, setup.target id name = some target

/-- What a task may start. -/
def Task.MayStart (setup : Setup M) : Task M → Nat → Prop
  | .require id, target => Relation.ReflTransGen setup.Leads id target
  | .go run _, target => Relation.TransGen setup.Leads run.factory target

/-- Only what names lead to is started. -/
theorem Yields.mayStart (yields : Yields setup task before memory answer events after) :
    ∀ run ∈ starts events, task.MayStart setup run.factory := by
  induction yields with
  | kept => simp [Event.started?]
  | fresh _ _ _ _ _ ih =>
    intro run mem
    simp only [starts_append, starts_opening, List.mem_append, List.mem_singleton] at mem
    rcases mem with (rfl | mem) | mem
    · exact .refl
    · exact (ih run mem).to_reflTransGen
    · exact absurd mem (by simp [Event.started?])
  | finish => simp
  | fail => simp
  | publish _ ih =>
    intro run mem
    exact ih run (by simpa [Event.started?] using mem)
  | change _ ih => exact ih
  | linked leads _ _ required ih =>
    intro run mem
    simp only [starts_append, starts_asking, List.nil_append, List.mem_append] at mem
    rcases mem with mem | mem
    · exact .head' ⟨_, leads⟩ (required run mem)
    · exact ih run (by simpa [Event.started?] using mem)
  | unlinked _ _ ih =>
    intro run mem
    exact ih run (by simpa [Event.started?] using mem)

/-- What is required has been started then, or was before. -/
theorem Yields.started_of_required (yields : Yields setup task before memory answer events after)
    {id : Nat} (required : .call "require" [.number id] ∈ events) :
    ∃ run ∈ starts (before ++ events), run.factory = id := by
  induction yields with
  | @kept before _ run _ _ started =>
    obtain ⟨-, same⟩ := Event.call.inj (List.mem_singleton.mp required)
    obtain rfl := Value.number.inj (List.cons.inj same).1
    exact ⟨run, by simp [started], rfl⟩
  | @fresh before events _ _ run _ exports _ _ _ _ _ _ _ ih =>
    simp only [opening, List.mem_append, List.mem_cons, List.not_mem_nil, or_false] at required
    -- the module itself is required first, and others are while its factory runs
    rcases required with ((same | same) | inner) | same
    · obtain ⟨-, same⟩ := Event.call.inj same
      obtain rfl := Value.number.inj (List.cons.inj same).1
      exact ⟨run, by simp, rfl⟩
    · exact absurd same (by simp)
    · obtain ⟨other, mem, same⟩ := ih inner
      exact ⟨other, by simpa [Event.started?] using mem, same⟩
    · exact absurd same (by simp)
  | finish => exact absurd required List.not_mem_nil
  | fail => exact absurd required List.not_mem_nil
  | publish _ ih =>
    obtain ⟨other, mem, same⟩ := ih ((List.mem_cons.mp required).resolve_left (by simp))
    exact ⟨other, by simpa [Event.started?] using mem, same⟩
  | change _ ih => exact ih required
  | linked _ _ _ inner ih =>
    simp only [asking, List.mem_append, List.mem_cons, List.not_mem_nil, or_false] at required
    -- something is required to answer the name, or by what the factory does then
    rcases required with ((same | same) | isInner) | same | later
    · exact absurd same (by simp)
    · exact absurd (Event.call.inj same).1 (by decide)
    · obtain ⟨other, mem, same⟩ := inner isInner
      refine ⟨other, ?_, same⟩
      simp only [starts_append, List.mem_append] at mem ⊢
      tauto
    · exact absurd same (by simp)
    · obtain ⟨other, mem, same⟩ := ih later
      exact ⟨other, by simpa [Event.started?] using mem, same⟩
  | unlinked _ _ ih =>
    simp only [asking, List.mem_append, List.mem_cons, List.not_mem_nil, or_false] at required
    rcases required with (same | same) | same | later
    · exact absurd same (by simp)
    · exact absurd (Event.call.inj same).1 (by decide)
    · exact absurd same (by simp)
    · obtain ⟨other, mem, same⟩ := ih later
      exact ⟨other, by simpa [Event.started?] using mem, same⟩

theorem nodup_starts_opening {run : Run}
    (isNew : ∀ other ∈ starts before, other.factory ≠ run.factory)
    (distinct : ((starts before).map Run.factory).Nodup) (exports : Value) :
    ((starts (before ++ opening run exports)).map Run.factory).Nodup := by
  rw [starts_append, starts_opening, List.map_append, List.map_singleton]
  refine List.nodup_append.mpr ⟨distinct, List.nodup_singleton _, ?_⟩
  rintro factory mem _ isRun rfl
  obtain ⟨other, started, rfl⟩ := List.mem_map.mp mem
  exact isNew other started (List.mem_singleton.mp isRun)

/-- Where modules are kept, none is started twice. -/
theorem Yields.nodup_starts (yields : Yields setup task before memory answer events after)
    (caches : setup.caches = true) (distinct : ((starts before).map Run.factory).Nodup) :
    ((starts (before ++ events)).map Run.factory).Nodup := by
  induction yields with
  | kept => simpa [Event.started?] using distinct
  | @fresh before events _ _ run _ exports _ _ isNew _ _ _ _ ih =>
    simpa [Event.started?] using ih (nodup_starts_opening (isNew caches) distinct exports)
  | finish => simpa using distinct
  | fail => simpa using distinct
  | publish _ ih => simpa [Event.started?] using ih (by simpa [Event.started?] using distinct)
  | change _ ih => exact ih distinct
  | linked _ _ _ required ih =>
    have inner := required (by simpa using distinct)
    simpa [Event.started?] using ih (by simpa [Event.started?] using inner)
  | unlinked _ _ ih => simpa [Event.started?] using ih (by simpa [Event.started?] using distinct)

/-! ## What is required again -/

/-- Whatever is required again is answered at once with what it exports at that moment. -/
def Repeats (before events : List Event) : Prop :=
  ∀ past run later, events = past ++ .call "require" [.number run.factory] :: later →
    run ∈ starts (before ++ past) →
    ∃ asker value rest, exportsOf run (before ++ past) = some value ∧
      later = .answer asker (.value value) :: rest

theorem Repeats.nil (before : List Event) : Repeats before [] := by
  intro past run later split
  exact absurd split (by simp)

theorem Repeats.append {more : List Event} (first : Repeats before events)
    (second : Repeats (before ++ events) more) : Repeats before (events ++ more) := by
  intro past run later split started
  rcases List.append_eq_append_iff.mp split with ⟨between, rfl, same⟩ | ⟨between, rfl, same⟩
  · rw [← List.append_assoc] at started ⊢
    exact second between run later same started
  · cases between with
    | nil =>
      have last := second [] run later same.symm (by simpa using started)
      simpa using last
    | cons event between =>
      obtain ⟨rfl, rfl⟩ := List.cons.inj same
      obtain ⟨asker, value, rest, exports, rfl⟩ := first past run between rfl started
      exact ⟨asker, value, rest ++ more, exports, rfl⟩

/-- An event that requires no module. -/
theorem Repeats.single (before : List Event) {event : Event}
    (quiet : ∀ id, event ≠ .call "require" [.number id]) : Repeats before [event] := by
  intro past other later split
  cases past with
  | nil => exact absurd (List.cons.inj split).1 (quiet _)
  | cons first past => exact absurd (List.cons.inj split).2 (by simp)

theorem Repeats.within (before : List Event) {event : Event} {run : Run}
    (inside : event.run? = some run) : Repeats before [event] := by
  apply Repeats.single
  rintro id rfl
  exact absurd inside nofun

theorem Repeats.call (before : List Event) {name : String} (other : name ≠ "require")
    (arguments : List Value) : Repeats before [.call name arguments] := by
  apply Repeats.single
  intro id same
  exact other (Event.call.inj same).1

/-- What has not been started is not required again. -/
theorem Repeats.fresh {id : Nat} (isNew : ∀ run ∈ starts before, run.factory ≠ id) :
    Repeats before [.call "require" [.number id]] := by
  intro past run later split started
  cases past with
  | nil =>
    obtain ⟨-, same⟩ := Event.call.inj (List.cons.inj split).1
    have same := Value.number.inj (List.cons.inj same).1
    exact absurd same.symm (isNew run (by simpa using started))
  | cons first past => exact absurd (List.cons.inj split).2 (by simp)

theorem Repeats.asking (before : List Event) (run : Run) (name : String) :
    Repeats before (asking run name) := by
  have asked : Repeats before [.ask run name] := .within before rfl
  exact asked.append (.call _ (by decide) _)

/-- A module that is kept is answered right behind. -/
theorem Repeats.kept {run : Run} {value : Value}
    (distinct : ((starts before).map Run.factory).Nodup) (started : run ∈ starts before)
    (exports : exportsOf run before = some value) (asker : Run) :
    Repeats before [.call "require" [.number run.factory], .answer asker (.value value)] := by
  intro past other later split isStarted
  cases past with
  | nil =>
    obtain ⟨same, rfl⟩ := List.cons.inj split
    have same := Value.number.inj (List.cons.inj (Event.call.inj same).2).1
    rw [List.append_nil] at isStarted ⊢
    obtain rfl := List.inj_on_of_nodup_map distinct started isStarted same
    exact ⟨asker, value, [], exports, rfl⟩
  | cons first past =>
    -- there is no module that is required behind the first event
    obtain ⟨-, split⟩ := List.cons.inj split
    cases past with
    | nil => exact absurd (List.cons.inj split).1 (by simp)
    | cons second past => exact absurd (List.cons.inj split).2 (by simp)

/-- A factory that runs to its end. -/
theorem Repeats.run {run : Run} {exports : Value}
    (isNew : ∀ other ∈ starts before, other.factory ≠ run.factory)
    (body : Repeats (before ++ opening run exports) events) :
    Repeats before (opening run exports ++ events ++ [.stop run]) := by
  have begun : Repeats before (opening run exports) :=
    (Repeats.fresh isNew).append (.within _ (rfl : Event.run? (.start run exports) = some run))
  exact (begun.append body).append (.within _ (rfl : Event.run? (.stop run) = some run))

/-- What is said of a task: a module that is required is answered right behind. -/
def Task.Repeats (before events : List Event) (answer : Answer) : Task M → Prop
  | .require _ => ∀ asker, Execution.Repeats before (events ++ [.answer asker answer])
  | .go _ _ => Execution.Repeats before events

theorem Yields.repeats (yields : Yields setup task before memory answer events after)
    (caches : setup.caches = true) (distinct : ((starts before).map Run.factory).Nodup) :
    task.Repeats before events answer := by
  induction yields with
  | kept _ started exports => exact fun asker => Repeats.kept distinct started exports asker
  | @fresh before events _ _ run _ exports _ answer isNew _ _ _ _ ih =>
    have opened : ((starts (before ++ opening run exports)).map Run.factory).Nodup :=
      nodup_starts_opening (isNew caches) distinct exports
    intro asker
    exact (Repeats.run (isNew caches) (ih opened)).append (.within _ rfl)
  | finish => exact Repeats.nil _
  | fail => exact Repeats.nil _
  | @publish before _ _ _ run value _ _ _ ih =>
    have noted : Repeats before [.publish run value] := .within _ rfl
    exact noted.append (ih (by simpa [Event.started?] using distinct))
  | change _ ih => exact ih distinct
  | @linked before inner events _ _ _ run name _ _ found _ leads required rest first second =>
    have inner : Repeats (before ++ asking run name) (inner ++ [.answer run found]) :=
      first (by simpa using distinct) run
    have known := required.nodup_starts caches (by simpa using distinct)
    have others : Repeats (before ++ asking run name ++ _ ++ [.answer run found]) events :=
      second (by simpa [Event.started?] using known)
    have whole := ((Repeats.asking before run name).append inner).append (by simpa using others)
    show Repeats before _
    simpa using whole
  | @unlinked before events _ _ run name _ _ _ _ ih =>
    have answered : Repeats (before ++ asking run name) [.answer run (missing name)] :=
      .within _ rfl
    have others : Repeats (before ++ asking run name ++ [.answer run (missing name)]) events :=
      ih (by simpa [Event.started?] using distinct)
    have whole := ((Repeats.asking before run name).append answered).append (by simpa using others)
    show Repeats before _
    simpa using whole

/-- When nothing has been started, the first module runs. -/
theorem Yields.repeats_first {id : Nat}
    (yields : Yields setup (.require id) before memory answer events after)
    (caches : setup.caches = true) (nothing : starts before = []) : Repeats before events := by
  cases yields with
  | kept _ started => exact absurd (nothing ▸ started) List.not_mem_nil
  | @fresh _ events _ _ run _ exports _ _ isNew _ body =>
    have distinct := nodup_starts_opening (isNew caches) (by simp [nothing]) exports
    exact Repeats.run (isNew caches) (body.repeats caches distinct)

/-! ## Coming to an end -/

/-- The modules that have not been started. -/
def unstarted (size : Nat) (trace : List Event) : Finset Nat :=
  (Finset.range size).filter fun id => ∀ run ∈ starts trace, run.factory ≠ id

theorem card_unstarted_le (size : Nat) (trace : List Event) : (unstarted size trace).card ≤ size := by
  have all := Finset.card_filter_le (Finset.range size) fun id =>
    ∀ run ∈ starts trace, run.factory ≠ id
  rwa [Finset.card_range] at all

/-- A module that is started is one less that is not. -/
theorem card_unstarted_lt {size : Nat} {trace more : List Event} {run : Run} {exports : Value}
    (inside : run.factory < size) (isNew : ∀ other ∈ starts trace, other.factory ≠ run.factory) :
    (unstarted size (trace ++ opening run exports ++ more)).card < (unstarted size trace).card := by
  apply Finset.card_lt_card
  refine (Finset.ssubset_iff_of_subset ?_).mpr ⟨run.factory, ?_, ?_⟩
  · intro id mem
    obtain ⟨inRange, unknown⟩ := Finset.mem_filter.mp mem
    refine Finset.mem_filter.mpr ⟨inRange, fun other started => unknown other ?_⟩
    simp [started]
  · exact Finset.mem_filter.mpr ⟨Finset.mem_range.mpr inside, isNew⟩
  · intro mem
    exact (Finset.mem_filter.mp mem).2 run (by simp) rfl

/-- Where modules are kept, every module that begins to run takes one from those that still may. -/
theorem descends_caching {size : Nat} (caches : setup.caches = true) :
    Descends setup size fun levels trace _ => (unstarted size trace).card ≤ levels := by
  intro levels trace id bound inside isNew
  have left : id ∈ unstarted size trace :=
    Finset.mem_filter.mpr ⟨Finset.mem_range.mpr inside, isNew caches⟩
  have positive : 0 < (unstarted size trace).card := Finset.card_pos.mpr ⟨id, left⟩
  refine ⟨levels - 1, by omega, ?_⟩
  rintro run exports more name target rfl -
  have fewer : (unstarted size (trace ++ opening run exports ++ more)).card <
      (unstarted size trace).card := card_unstarted_lt inside (isNew caches)
  omega

/-! ## The whole graph -/

/-- What should come of a name happens when the name is required. -/
theorem Orderly.response_mem {run : Run} {name : String} (orderly : Orderly setup events)
    (asked : .ask run name ∈ events) : setup.response run name ∈ events := by
  induction orderly with
  | nil => exact absurd asked List.not_mem_nil
  | other quiet _ ih =>
    rcases List.mem_cons.mp asked with same | later
    · exact absurd same.symm (quiet run name)
    · exact List.mem_cons_of_mem _ (ih later)
  | @ask other word events _ ih =>
    have notAsk : .ask run name ≠ setup.response other word := by
      unfold Setup.response
      cases setup.target other.factory word <;> exact (by simp)
    simp only [asking, List.cons_append, List.nil_append, List.mem_cons] at asked ⊢
    rcases asked with same | same | same | later
    · obtain ⟨rfl, rfl⟩ := Event.ask.inj same
      tauto
    · exact absurd same (by simp)
    · exact absurd same notAsk
    · have := ih later
      tauto

end Execution

theorem ModuleGraph.WellFormed.imports_of_mem_edges {graph : ModuleGraph}
    (wellFormed : graph.WellFormed) {importer target : Nat}
    (edge : (importer, target) ∈ graph.edges) : graph.Imports importer target := by
  obtain ⟨record, mem, isEdge⟩ := List.mem_flatMap.mp edge
  obtain ⟨other, isTarget, same⟩ := List.mem_map.mp isEdge
  obtain ⟨rfl, rfl⟩ := Prod.mk.inj same
  exact ⟨record, wellFormed.get?_id mem, mem_distinct.mp isTarget⟩

/-- Every module is reached from the entry. -/
theorem Discovery.reaches_of_build {tree : FileTree} {compiler : Compiler} {resolver : Resolver}
    {entry : Path} {graph : ModuleGraph}
    (built : (build tree compiler resolver entry).1 = .ok graph) {id : Nat}
    (inside : id < graph.size) : Relation.ReflTransGen graph.Imports 0 id := by
  obtain ⟨stage, run, -, -, rfl⟩ := exists_run_of_build built
  obtain ⟨length, chain⟩ := run.exists_chain id inside
  clear inside
  induction chain with
  | entry => exact .refl
  | step _ edge ih => exact ih.tail (run.wellFormed.imports_of_mem_edges edge)

namespace Execution

/-- If every factory requires all its specifiers, and none of them is answered by an error, then
whatever the first module reaches has been started. -/
theorem started_of_reaches {graph : ModuleGraph} (sound : graph.Sound) {options : RuntimeOptions}
    {factories : Factories M} {events : List Event}
    (orderly : Orderly (linking options graph factories) events)
    (required : ∀ id, .call "require" [.number id] ∈ events →
      ∃ run ∈ starts events, run.factory = id)
    (first : .call "require" [.number 0] ∈ events)
    (complete : ∀ run ∈ starts events, ∀ record, graph.get? run.factory = some record →
      ∀ entry ∈ record.mapping, .ask run entry.1 ∈ events)
    (fine : ∀ run error, .answer run (.error error) ∉ events) {id : Nat}
    (reaches : Relation.ReflTransGen graph.Imports 0 id) : ∃ run ∈ starts events, run.factory = id := by
  induction reaches with
  | refl => exact required 0 first
  | tail _ edge ih =>
    obtain ⟨run, started, rfl⟩ := ih
    obtain ⟨record, found, isTarget⟩ := edge
    obtain ⟨⟨name, target⟩, mem, rfl⟩ := List.mem_map.mp isTarget
    have happens := orderly.response_mem (complete run started record found _ mem)
    have leads := leadsTo_of_mem sound found mem
    by_cases isProto : name = "__proto__"
    · -- this specifier is answered by an error
      rw [if_pos isProto] at leads
      have response : (linking options graph factories).response run name =
          .answer run (missing name) := by
        simp [Setup.response, linking, leads]
      rw [response] at happens
      exact absurd happens (fine run _)
    · rw [if_neg isProto] at leads
      have response : (linking options graph factories).response run name =
          .call "require" [.number target] := by
        simp [Setup.response, linking, leads]
      rw [response] at happens
      exact required target happens

/-- A bundle that keeps modules, whatever its factories do.  It comes to an end, within a nesting of
calls that only depends on the number of modules.  No factory begins to run twice, and only those do
that specifiers lead to from the entry.  What is required once its factory has begun to run, even
while it is still running, is answered at once with what it exports at that moment.  If every factory
requires each of its specifiers and nothing is answered by an error, every module of the graph is
started exactly once. -/
theorem caching_runs (tree : FileTree) (compiler : Compiler) (resolver : Resolver) (entry : Path)
    {graph : ModuleGraph} (built : (Discovery.build tree compiler resolver entry).1 = .ok graph)
    (options : RuntimeOptions) (caches : options.moduleCache = true) :
    ∃ script, script? options graph = some script ∧
      ∀ (factories : Factories M) (memory : M) (depth : Nat), 3 * graph.size + 2 ≤ depth →
        ∃ (answer : Answer) (after : Machine M),
          execute factories depth memory script = answer.result after ∧
          ((starts after.trace).map Run.factory).Nodup ∧
          (∀ run ∈ starts after.trace, run.factory = 0 ∨ graph.Reaches 0 run.factory) ∧
          Repeats [] after.trace ∧
          ((∀ run ∈ starts after.trace, ∀ record, graph.get? run.factory = some record →
              ∀ entry ∈ record.mapping, .ask run entry.1 ∈ after.trace) →
            (∀ run error, .answer run (.error error) ∉ after.trace) →
            ∀ id < graph.size, ((starts after.trace).map Run.factory).count id = 1) := by
  have sound := Discovery.sound_of_build built
  obtain ⟨script, is⟩ : ∃ script, script? options graph = some script := ⟨_, script?_eq options graph⟩
  refine ⟨script, is, fun factories memory depth deep => ?_⟩
  obtain ⟨depth, rfl⟩ : ∃ less, depth = less + 1 := ⟨depth - 1, by omega⟩
  have descends : Descends (linking options graph factories) graph.size _ := descends_caching caches
  rcases follows_execute sound is factories descends depth memory with
    ⟨answer, events, after, ends, carried⟩ | ⟨short, -⟩
  · have yields := carried.yields
    rw [trace_working] at yields
    have trace : after.trace = [.call "" [.object (2 * graph.size)]] ++ events := by
      rw [carried.trace, trace_working]
    have started : starts after.trace = starts events := by
      rw [trace]
      rfl
    have distinct : ((starts after.trace).map Run.factory).Nodup := by
      rw [trace]
      exact yields.nodup_starts caches List.nodup_nil
    refine ⟨_, after, ends, distinct, ?_, ?_, ?_⟩
    · intro run mem
      rw [started] at mem
      have leads : Relation.ReflTransGen _ 0 run.factory := yields.mayStart run mem
      have reaches : Relation.ReflTransGen graph.Imports 0 run.factory := by
        apply leads.lift fun id => id
        rintro importer target ⟨name, leads⟩
        exact imports_of_leadsTo leads
      exact Relation.reflTransGen_iff_eq_or_transGen.mp reaches
    · rw [trace]
      exact (Repeats.call [] (by decide) _).append (yields.repeats_first caches rfl)
    · intro complete fine id inside
      have required : ∀ id, .call "require" [.number id] ∈ events →
          ∃ run ∈ starts events, run.factory = id := fun id mem => yields.started_of_required mem
      obtain ⟨orderly, begins⟩ := yields.orderly
      have same : ∀ event : Event, event.run?.isSome = true → (event ∈ after.trace ↔ event ∈ events) := by
        rintro event isRun
        rw [trace, List.singleton_append, List.mem_cons]
        refine or_iff_right ?_
        rintro rfl
        exact absurd isRun Bool.false_ne_true
      rw [started] at distinct complete ⊢
      have mem : id ∈ (starts events).map Run.factory := by
        apply List.mem_map.mpr
        apply started_of_reaches sound orderly required (List.mem_of_mem_head? begins)
        · intro run mem record found entry isEntry
          exact (same _ rfl).mp (complete run mem record found entry isEntry)
        · intro run error mem
          exact fine run error ((same _ rfl).mpr mem)
        · exact Discovery.reaches_of_build built inside
      exact List.count_eq_one_of_mem distinct mem
  · exfalso
    apply short
    exact ⟨graph.size, card_unstarted_le _ _, by omega⟩

/-- Factories that require what the modules of a circle import. -/
def visiting : Factories Unit
  | 0, _ => .require "./b" fun _ => .finish
  | _, _ => .require "./again" fun _ => .require "./a" fun _ => .finish

/-- Whether every factory that has run has required all its specifiers, and none was answered by an
error. -/
def isComplete (graph : ModuleGraph) (trace : List Event) : Bool :=
  ((starts trace).all fun run => (graph.get? run.factory).all fun record =>
    record.mapping.all fun entry => trace.contains (.ask run entry.1)) &&
  trace.all fun event => match event with
    | .answer _ (.error _) => false
    | _ => true

theorem caching_runs_circle :
    ∃ graph, (Discovery.build Discovery.circle Compiler.listing (.new .standard) ⟨"a"⟩).1 =
        .ok graph ∧
      ∃ script, script? ⟨true, false⟩ graph = some script ∧
        ∃ (answer : Answer) (after : Machine Unit),
          execute visiting 8 () script = answer.result after ∧
          ∀ id < graph.size, ((starts after.trace).map Run.factory).count id = 1 := by
  obtain ⟨graph, built⟩ := Discovery.exists_build_circle
  have checked : (Discovery.build Discovery.circle Compiler.listing (.new .standard) ⟨"a"⟩).1.toOption.all
      (fun graph => decide (graph.size = 2) &&
        match execute visiting 8 () (.call (Linking.function true) (.ofList [registryTerm graph])) with
        | .ok _ after => isComplete graph after.trace
        | .error _ _ => false) = true := by
    decide +kernel
  rw [built] at checked
  simp only [Except.toOption, Option.all_some, Bool.and_eq_true, decide_eq_true_eq] at checked
  obtain ⟨size, checked⟩ := checked
  obtain ⟨script, is, runs⟩ := caching_runs Discovery.circle Compiler.listing (.new .standard) ⟨"a"⟩
    built ⟨true, false⟩ rfl
  obtain ⟨answer, after, ends, -, -, -, once⟩ := runs visiting () 8 (by omega)
  obtain rfl := Option.some.inj ((script?_eq ⟨true, false⟩ graph).symm.trans is)
  rw [ends] at checked
  have complete : isComplete graph after.trace = true := by
    cases answer with
    | value value => exact checked
    | error error => exact absurd checked Bool.false_ne_true
  rw [isComplete, Bool.and_eq_true, List.all_eq_true, List.all_eq_true] at complete
  refine ⟨graph, built, _, is, answer, after, ends, once ?_ ?_⟩
  · intro run started record found entry mem
    have all := complete.1 run started
    rw [found, Option.all_some, List.all_eq_true] at all
    exact List.contains_iff_mem.mp (all entry mem)
  · intro run error mem
    exact absurd (complete.2 _ mem) Bool.false_ne_true

end Execution

end ModuleBundler
