/-
# ModuleBundler.Proofs.Execution.Agreement — keeping modules or running them again.

If factories are pure and no module reaches itself, it makes no difference whether a bundle keeps
modules or runs them again, as long as nothing that a module throws is caught by one that requires
it (`runtimes_agree`).  What every module comes to is settled by recipes alone, and both ways the
bundle computes just that (`execute_settles`): with a cache, a module is computed once for all that
require it, without one it is computed for each of them.

The condition cannot be left out.  A module is put into the cache before its factory runs, and it
stays there if the factory throws.  A factory that catches this and requires the module again is
given what the module exports so far, but without a cache the module throws again
(`runtimes_disagree`).
-/
import ModuleBundler.Proofs.Execution.Settling

namespace ModuleBundler

namespace Execution

variable {M D : Type} {view : View M D} {recipes : Nat → Recipe D} {memory : M} {own exports : Value}
variable {received : List Value}

/-! ## Bundles -/

/-- What a bundle comes to, given what its first module comes to. -/
def closing : Except Value D → Answer
  | .ok _ => .value .undefined
  | .error error => .error error

theorem Answers.closing_eq {seen : Value → D → Prop} {answer : Answer} {result : Except Value D}
    (answers : Answers seen answer result) :
    answer.exporting .undefined = closing result ∧
      answer.thrown? = (closing result).thrown? := by
  cases result with
  | ok content =>
    cases answer with
    | value value => exact ⟨rfl, rfl⟩
    | error thrown => exact answers.elim
  | error error =>
    cases answer with
    | value value => exact answers.elim
    | error thrown =>
      obtain rfl : thrown = error := answers
      exact ⟨rfl, rfl⟩

/-- Before the first module is required nothing has run. -/
theorem calm_initial {setup : Setup M} {size : Nat} (inhabited : 0 < size) (registry : Value)
    (untouched : ∀ place, view.content memory (.object place) = view.blank) :
    Calm view setup recipes size 0 [.call "" [registry]] memory where
  inside := inhabited
  tidy :=
    { blank := fun place _ => untouched place
      distinct := fun run other exports mem =>
        absurd (List.mem_singleton.mp mem) Event.noConfusion
      settled := fun run mem => absurd (List.mem_singleton.mp mem) Event.noConfusion
      isSealed := fun run value mem => absurd (List.mem_singleton.mp mem) Event.noConfusion
      needs := fun run mem => absurd (List.mem_singleton.mp mem) Event.noConfusion }
  busy run mem := absurd mem (by simp [Event.started?])

/-- Where no module reaches itself by imports, none does by what its names lead to. -/
theorem no_circle_of_acyclic {graph : ModuleGraph} (acyclic : graph.Acyclic)
    (options : RuntimeOptions) (factories : Factories M) (id : Nat) :
    ¬ Relation.TransGen (linking options graph factories).Leads id id := by
  intro circle
  apply acyclic id
  apply circle.lift fun id => id
  rintro importer other ⟨name, leads⟩
  exact imports_of_leadsTo leads

/-- Running a bundle computes what it should: the modules are started that the first one needs, and
each of them leaves behind what its recipe comes to. -/
theorem execute_settles {graph : ModuleGraph} (sound : graph.Sound) (acyclic : graph.Acyclic)
    {options : RuntimeOptions} {script : Term} (is : script? options graph = some script)
    {factories : Factories M} (pure : ArePure view (leadsTo graph) recipes graph.size factories)
    (passes : ∀ id < graph.size, ¬ Catches (leadsTo graph) recipes id (recipes id))
    (untouched : ∀ place, view.content memory (.object place) = view.blank)
    {within : Nat → List Event → Nat → Prop}
    (descends : Descends (linking options graph factories) graph.size within) {depth : Nat}
    (enough : Enough within depth [.call "" [.object (2 * graph.size)]] 0) :
    ∃ (result : Except Value D) (after : Machine M),
      execute factories (depth + 1) memory script = (closing result).result after ∧
      Computes (leadsTo graph) recipes 0 (recipes 0) result ∧
      (∀ id, (∃ run ∈ starts after.trace, run.factory = id) ↔
        id = 0 ∨ Needs (leadsTo graph) recipes 0 (recipes 0) id) ∧
      ∀ run ∈ starts after.trace, ∃ left,
        Computes (leadsTo graph) recipes run.factory (recipes run.factory) left ∧
        Leaves view (closing result).thrown? after.trace after.memory run left := by
  rcases follows_execute sound is factories descends depth memory with
    ⟨answer, events, after, ends, carried⟩ | ⟨short, -⟩
  · have yields := carried.yields
    rw [trace_working, memory_working] at yields
    have trace : after.trace = [.call "" [.object (2 * graph.size)]] ++ events := by
      rw [carried.trace, trace_working]
    have closed : ∀ id < graph.size, ∀ name other,
        (linking options graph factories).target id name = some other → other < graph.size :=
      fun id _ name other leads => sound.closed id other (imports_of_leadsTo leads)
    have served := yields.settles pure passes closed (no_circle_of_acyclic acyclic options factories)
      (calm_initial sound.inhabited _ untouched)
    obtain ⟨result, computed, answers⟩ := served.result
    obtain ⟨closes, thrown⟩ := answers.closing_eq
    rw [closes] at ends
    have starts_events : starts ([.call "" [.object (2 * graph.size)]] ++ events) = starts events := by
      simp [Event.started?]
    -- no module has begun to run before the first one is required
    refine ⟨result, after, ends, computed, fun id => ⟨?_, ?_⟩, ?_⟩
    · rintro ⟨run, mem, rfl⟩
      rw [trace, starts_events] at mem
      exact served.needed run mem
    · rw [trace]
      rintro (rfl | needs)
      · exact served.started
      · exact served.needs id needs
    · intro run mem
      rw [trace, starts_events] at mem
      rw [trace, ← thrown]
      exact served.tidy.settled run (List.mem_append_right _ (served.ended run mem))
  · exact absurd enough short

/-- Whether a bundle keeps modules or runs them again makes no difference, if its factories are pure,
no module imports itself in a circle, and no factory catches what a module throws that it requires.
Both ways the bundle comes to the same end, the same modules are required, and every run of a module
leaves behind what the recipe of the module comes to. -/
theorem runtimes_agree (tree : FileTree) (compiler : Compiler) (resolver : Resolver) (entry : Path)
    {graph : ModuleGraph} (built : (Discovery.build tree compiler resolver entry).1 = .ok graph)
    (acyclic : graph.Acyclic) (comments : Bool) {factories : Factories M}
    (pure : ArePure view (leadsTo graph) recipes graph.size factories)
    (passes : ∀ id < graph.size, ¬ Catches (leadsTo graph) recipes id (recipes id)) {memory : M}
    (untouched : ∀ place, view.content memory (.object place) = view.blank) :
    ∃ caching reinvoking, script? ⟨true, comments⟩ graph = some caching ∧
      script? ⟨false, comments⟩ graph = some reinvoking ∧
      ∀ depth, 3 * graph.size + 2 ≤ depth →
        ∃ (answer : Answer) (kept again : Machine M),
          execute factories depth memory caching = answer.result kept ∧
          execute factories depth memory reinvoking = answer.result again ∧
          (∃ run ∈ starts kept.trace, run.factory = 0) ∧
          (∀ id, (∃ run ∈ starts kept.trace, run.factory = id) ↔
            ∃ run ∈ starts again.trace, run.factory = id) ∧
          ∀ run ∈ starts kept.trace, ∃ result,
            Computes (leadsTo graph) recipes run.factory (recipes run.factory) result ∧
            Leaves view answer.thrown? kept.trace kept.memory run result ∧
            ∀ other ∈ starts again.trace, other.factory = run.factory →
              Leaves view answer.thrown? again.trace again.memory other result := by
  have sound := Discovery.sound_of_build built
  refine ⟨_, _, script?_eq ⟨true, comments⟩ graph, script?_eq ⟨false, comments⟩ graph, ?_⟩
  intro depth deep
  obtain ⟨depth, rfl⟩ : ∃ less, depth = less + 1 := ⟨depth - 1, by omega⟩
  have falls : ∀ id name target,
      (linking ⟨false, comments⟩ graph factories).target id name = some target →
      (graph.below target).card < (graph.below id).card := fun id name target leads =>
    ModuleGraph.card_below_lt sound.closed acyclic (imports_of_leadsTo leads)
  have highest := ModuleGraph.card_below_lt_size acyclic sound.inhabited
  obtain ⟨result, kept, ends, computed, needed, left⟩ := execute_settles sound acyclic
    (script?_eq ⟨true, comments⟩ graph) pure passes untouched (descends_caching rfl)
    ⟨graph.size, card_unstarted_le _ _, (by omega : 3 * graph.size + 1 ≤ depth)⟩
  obtain ⟨result', again, ends', computed', needed', left'⟩ := execute_settles sound acyclic
    (script?_eq ⟨false, comments⟩ graph) pure passes untouched (descends_reinvoking falls)
    ⟨graph.size, highest, (by omega : 3 * graph.size + 1 ≤ depth)⟩
  -- both ways the same recipes are followed, and they come to one result
  obtain rfl := computed.unique computed'
  refine ⟨closing result, kept, again, ends, ends', (needed 0).mpr (Or.inl rfl), ?_, ?_⟩
  · exact fun id => (needed id).trans (needed' id).symm
  · intro run started
    obtain ⟨own, computes, leaves⟩ := left run started
    refine ⟨own, computes, leaves, fun other started' same => ?_⟩
    obtain ⟨own', computes', leaves'⟩ := left' other started'
    rw [same] at computes'
    obtain rfl := computes.unique computes'
    exact leaves'

/-- What is seen of a value is a number. -/
def numbers : View (Value → Nat) Nat where
  content memory value := memory value
  maker
    | .object place => some (.object place)
    | _ => none
  blank := 0
  maker_object _ := rfl

/-- Requires a module and goes on with what it exports. -/
def receive (name : String) (next : Value → Program M) : Program M :=
  .require name fun
    | .value value => next value
    | .error error => .fail error

/-- Requires a module and goes on with what is seen of its exports. -/
def Recipe.receive (name : String) (next : D → Recipe D) : Recipe D :=
  .require name (.fail (.error ("Cannot find module '" ++ name ++ "'"))) .fail next

/-- Fills the object that a factory is given. -/
def fill (own : Value) (f : (Value → Nat) → Nat) : Program (Value → Nat) :=
  .change (fun memory => Function.update memory own (f memory)) fun _ => .finish

/-- Factories that fill their exports with one more than what they receive, or with the sum. -/
def counting : Factories (Value → Nat)
  | 0, [_, _, own] => receive "./b" fun b => receive "./c" fun c => fill own fun memory =>
    memory b + memory c
  | 3, [_, _, own] => fill own fun _ => 1
  | _, [_, _, own] => receive "./d" fun d => fill own fun memory => memory d + 1
  | _, _ => .finish

/-- What these factories compute. -/
def counts : Nat → Recipe Nat
  | 0 => .receive "./b" fun b => .receive "./c" fun c => .leave (b + c)
  | 3 => .leave 1
  | _ => .receive "./d" fun d => .leave (d + 1)

section

variable {leads : String → Option Nat} {throws : Nat → Value → Prop}

theorem performs_receive {name : String} {next : Value → Program M} {found : D → Recipe D}
    (answered : ∀ after value, view.Keeps (view.Holds own received) memory after →
      Performs view leads throws own (next value) (found (view.content after value))
        (value :: received) exports after) :
    Performs view leads throws own (receive name next) (.receive name found) received exports
      memory := by
  rw [receive, Recipe.receive]
  cases is : leads name with
  | none => exact .absent is .fail
  | some id =>
    apply Performs.found is
    · exact fun after value keeps _ => answered after value keeps
    · exact fun after error _ _ => .fail

theorem performs_fill {memory : Value → Nat} {place content : Nat} {f : (Value → Nat) → Nat}
    (computes : f memory = content) :
    Performs numbers leads throws (.object place) (fill (.object place) f) (.leave content)
      received (.object place) memory := by
  subst computes
  apply Performs.change
  · intro value isOther
    apply Function.update_of_ne
    rintro rfl
    exact isOther rfl
  · exact .leave (Function.update_self _ _ memory)

end

theorem arePure_counting (target : Nat → String → Option Nat) (size : Nat) :
    ArePure numbers target counts size counting := by
  intro id _ require module place memory _
  match id with
  | 0 =>
    apply performs_receive
    intro first b _
    apply performs_receive
    intro second c keeps
    apply performs_fill
    have still : second b = first b := keeps b fun maker made => Or.inr ⟨b, by simp, made⟩
    show second b + second c = first b + second c
    rw [still]
  | 3 => exact performs_fill rfl
  | 1 | 2 | n + 4 =>
    apply performs_receive
    intro after d _
    exact performs_fill rfl

theorem not_catches_receive {target : Nat → String → Option Nat} {id : Nat} {name : String}
    {found : D → Recipe D} (passes : ∀ content, ¬ Catches target recipes id (found content)) :
    ¬ Catches target recipes id (.receive name found) := by
  intro catches
  cases catches with
  | here _ _ caught => exact caught rfl
  | after _ _ rest => exact passes _ rest
  | absent _ rest => exact nomatch rest

theorem not_catches_counts (target : Nat → String → Option Nat) (id : Nat) :
    ¬ Catches target counts id (counts id) := by
  match id with
  | 0 => exact not_catches_receive fun _ => not_catches_receive fun _ => nofun
  | 3 => exact nofun
  | 1 | 2 | n + 4 => exact not_catches_receive fun _ => nofun

/-- In a diamond the first module comes to the same sum both ways. -/
theorem runtimes_agree_diamond :
    ∃ graph, (Discovery.build diamond Compiler.listing (.new .standard) ⟨"a"⟩).1 = .ok graph ∧
      ∃ caching reinvoking, script? ⟨true, false⟩ graph = some caching ∧
        script? ⟨false, false⟩ graph = some reinvoking ∧
        ∃ (answer : Answer) (kept again : Machine (Value → Nat)),
          execute counting 14 (fun _ => 0) caching = answer.result kept ∧
          execute counting 14 (fun _ => 0) reinvoking = answer.result again ∧
          ∃ run ∈ starts kept.trace, run.factory = 0 ∧
            Leaves numbers answer.thrown? kept.trace kept.memory run (.ok 4) ∧
            ∀ other ∈ starts again.trace, other.factory = 0 →
              Leaves numbers answer.thrown? again.trace again.memory other (.ok 4) := by
  have checked : (Bundling.bundle diamond runningAgain Compiler.listing ⟨"a"⟩).1.toOption.any
      (fun bundle => decide (bundle.graph.size = 4 ∧ leadsTo bundle.graph 0 "./b" = some 1 ∧
        leadsTo bundle.graph 0 "./c" = some 2 ∧ leadsTo bundle.graph 1 "./d" = some 3 ∧
        leadsTo bundle.graph 2 "./d" = some 3)) = true := by
    decide +kernel
  obtain ⟨bundle, made, checked⟩ := exists_ok_of_any checked
  obtain ⟨size, toB, toC, bToD, cToD⟩ := of_decide_eq_true checked
  obtain ⟨built, -, noCircles⟩ := Bundling.graph_of_bundle made
  have refuses : Bundling.refusesCycles runningAgain = true := rfl
  have untouched : ∀ place, numbers.content (fun _ => 0) (.object place) = numbers.blank :=
    fun _ => rfl
  have pure := arePure_counting (leadsTo bundle.graph) bundle.graph.size
  obtain ⟨caching, reinvoking, keeps, runsAgain, runs⟩ := runtimes_agree diamond Compiler.listing _
    ⟨"a"⟩ built (noCircles refuses) false pure
      (fun id _ => not_catches_counts _ id) untouched
  obtain ⟨answer, kept, again, ends, ends', ⟨run, started, isFirst⟩, -, left⟩ := runs 14 (by omega)
  obtain ⟨result, computed, leaves, same⟩ := left run started
  rw [isFirst] at computed same
  have sum : Computes (leadsTo bundle.graph) counts 0 (counts 0) (.ok 4) :=
    .found toB (.found bToD .leave .leave) (.found toC (.found cToD .leave .leave) .leave)
  obtain rfl := computed.unique sum
  exact ⟨bundle.graph, built, caching, reinvoking, keeps, runsAgain, answer, kept, again, ends, ends',
    run, started, isFirst, leaves, same⟩

/-! ## Factories that catch -/

/-- Requires a module and goes on with what it exports, or else in another way. -/
def receiveOr (name : String) (next : Value → Program M) (otherwise : Program M) : Program M :=
  .require name fun
    | .value value => next value
    | .error _ => otherwise

def Recipe.receiveOr (name : String) (next : D → Recipe D) (otherwise : Recipe D) : Recipe D :=
  .require name otherwise (fun _ => otherwise) next

theorem performs_receiveOr {leads : String → Option Nat} {throws : Nat → Value → Prop} {name : String}
    {next : Value → Program M} {found : D → Recipe D} {otherwise : Program M} {recipe : Recipe D}
    (answered : ∀ after value, view.Keeps (view.Holds own received) memory after →
      Performs view leads throws own (next value) (found (view.content after value))
        (value :: received) exports after)
    (refused : ∀ after, view.Keeps (view.Holds own received) memory after →
      Performs view leads throws own otherwise recipe received exports after) :
    Performs view leads throws own (receiveOr name next otherwise) (.receiveOr name found recipe)
      received exports memory := by
  rw [receiveOr, Recipe.receiveOr]
  cases is : leads name with
  | none => exact .absent is (refused memory fun _ _ => rfl)
  | some id =>
    apply Performs.found is
    · exact fun after value keeps _ => answered after value keeps
    · exact fun after error keeps _ => refused after keeps

/-- A module that imports another. -/
def fragile : FileTree :=
  ⟨[(["a.js"], .file "dep ./b".toUTF8), (["b.js"], .file "".toUTF8)], []⟩

/-- A module that throws, and one that requires it, catches this and requires it again.  What this
one leaves behind is a one if it receives anything, and else a two. -/
def stubborn : Factories (Value → Nat)
  | 0, [_, _, own] =>
    let received := fun _ => fill own fun _ => 1
    receiveOr "./b" received (receiveOr "./b" received (fill own fun _ => 2))
  | 0, _ => .finish
  | _, _ => .fail (.text "failed")

/-- What these factories compute. -/
def insists : Nat → Recipe Nat
  | 0 => .receiveOr "./b" (fun _ => .leave 1) (.receiveOr "./b" (fun _ => .leave 1) (.leave 2))
  | _ => .fail (.text "failed")

theorem arePure_stubborn (target : Nat → String → Option Nat) (size : Nat) :
    ArePure numbers target insists size stubborn := by
  intro id _ require module place memory _
  match id with
  | 0 =>
    apply performs_receiveOr
    · exact fun _ _ _ => performs_fill rfl
    · intro after _
      apply performs_receiveOr
      · exact fun _ _ _ => performs_fill rfl
      · exact fun _ _ => performs_fill rfl
  | n + 1 => exact .fail

/-- What is seen in the end of what the first module exports, if the bundle of a graph comes to its
end. -/
def firstNumber (caches : Bool) (factories : Factories (Value → Nat)) (depth : Nat)
    (graph : ModuleGraph) : Option Nat :=
  match execute factories depth (fun _ => 0)
    (.call (Linking.function caches) (.ofList [registryTerm graph])) with
  | .ok _ after => do
    let run ← (starts after.trace).find? (·.factory = 0)
    let exports ← exportsOf run after.trace
    return numbers.content after.memory exports
  | .error _ _ => none

theorem leaves_of_firstNumber {options : RuntimeOptions} {factories : Factories (Value → Nat)}
    {depth content : Nat} {graph : ModuleGraph} {script : Term}
    (is : script? options graph = some script)
    (seen : firstNumber options.moduleCache factories depth graph = some content) :
    ∃ value after, execute factories depth (fun _ => 0) script = .ok value after ∧
      ∃ run ∈ starts after.trace, run.factory = 0 ∧
        Leaves numbers none after.trace after.memory run (.ok content) := by
  rw [script?_eq] at is
  obtain rfl := Option.some.inj is
  unfold firstNumber at seen
  split at seen
  · rename_i value after ends
    obtain ⟨run, found, seen⟩ := Option.bind_eq_some_iff.mp seen
    obtain ⟨exports, exported, seen⟩ := Option.bind_eq_some_iff.mp seen
    refine ⟨value, after, ends, run, List.mem_of_find?_eq_some found, ?_, exports, exported, ?_⟩
    · simpa using List.find?_some found
    · exact Option.some.inj seen
  · exact absurd seen nofun

/-- These factories are pure and the imports have no circle, but the first module leaves behind a one
if the bundle keeps modules and a two if it runs them again: with a cache, the module that has thrown
answers the second time, with what it exported before it threw. -/
theorem runtimes_disagree :
    ∃ graph, (Discovery.build fragile Compiler.listing (.new .standard) ⟨"a"⟩).1 = .ok graph ∧
      graph.Acyclic ∧ ArePure numbers (leadsTo graph) insists graph.size stubborn ∧
      ∃ caching reinvoking, script? ⟨true, false⟩ graph = some caching ∧
        script? ⟨false, false⟩ graph = some reinvoking ∧
        (∃ value kept, execute stubborn 14 (fun _ => 0) caching = .ok value kept ∧
          ∃ run ∈ starts kept.trace, run.factory = 0 ∧
            Leaves numbers none kept.trace kept.memory run (.ok 1)) ∧
        ∃ value again, execute stubborn 14 (fun _ => 0) reinvoking = .ok value again ∧
          ∃ run ∈ starts again.trace, run.factory = 0 ∧
            Leaves numbers none again.trace again.memory run (.ok 2) := by
  have checked : (Bundling.bundle fragile runningAgain Compiler.listing ⟨"a"⟩).1.toOption.any
      (fun bundle => decide (firstNumber true stubborn 14 bundle.graph = some 1 ∧
        firstNumber false stubborn 14 bundle.graph = some 2)) = true := by
    decide +kernel
  obtain ⟨bundle, made, checked⟩ := exists_ok_of_any checked
  obtain ⟨kept, again⟩ := of_decide_eq_true checked
  obtain ⟨built, -, noCircles⟩ := Bundling.graph_of_bundle made
  refine ⟨bundle.graph, built, noCircles rfl, arePure_stubborn _ _, _, _, script?_eq _ _,
    script?_eq _ _, ?_, ?_⟩
  · exact leaves_of_firstNumber (script?_eq ⟨true, false⟩ bundle.graph) kept
  · exact leaves_of_firstNumber (script?_eq ⟨false, false⟩ bundle.graph) again

end Execution

end ModuleBundler
