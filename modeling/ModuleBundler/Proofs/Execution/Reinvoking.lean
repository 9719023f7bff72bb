/-
# ModuleBundler.Proofs.Execution.Reinvoking — running a bundle that runs modules again.

Where nothing is kept, every call of `require` runs a factory.  A bundle of this kind is only made
of imports without circles, so a module that is required reaches less than the module that requires
it: calls of `require` are never nested more deeply than there are modules, and the bundle comes to
an end whatever its factories do.  If every factory requires each of its specifiers exactly once, a
module runs once for every path of specifiers that leads to it (`reinvoking_runs`).  A specifier
`__proto__` leads nowhere when the bundle runs, so paths with it do not count.
-/
import Mathlib.Algebra.BigOperators.Group.List.Basic
import Mathlib.Algebra.Order.Ring.Int
import ModuleBundler.Proofs.Bundling.Policy
import ModuleBundler.Proofs.Execution.Loading

namespace ModuleBundler

namespace Execution

variable {M : Type} {setup : Setup M} {task : Task M} {before events : List Event}
variable {memory after : M} {answer : Answer}

/-! ## How deeply modules are nested -/

/-- One call of `require` more, or one less. -/
def Event.depthChange : Event → Int
  | .call "require" _ => 1
  | .stop _ => -1
  | _ => 0

/-- How many calls of `require` have not come to an end. -/
def nesting (events : List Event) : Int :=
  (events.map Event.depthChange).sum

@[simp] theorem nesting_nil : nesting [] = 0 :=
  rfl

@[simp] theorem nesting_append (events more : List Event) :
    nesting (events ++ more) = nesting events + nesting more := by
  simp [nesting]

@[simp] theorem nesting_cons (event : Event) (events : List Event) :
    nesting (event :: events) = event.depthChange + nesting events := by
  simp [nesting]

/-- Calls of `require` that all come to an end, and are nested up to a bound on the way. -/
structure Nested (bound : Nat) (events : List Event) : Prop where
  within : ∀ past, past <+: events → 0 ≤ nesting past ∧ nesting past ≤ bound
  settled : nesting events = 0

theorem prefix_append_cases {α : Type} {past first second : List α} (h : past <+: first ++ second) :
    past <+: first ∨ ∃ more, more <+: second ∧ past = first ++ more := by
  rcases List.prefix_or_prefix_of_prefix h (List.prefix_append first second) with h' | ⟨more, rfl⟩
  · exact Or.inl h'
  · exact Or.inr ⟨more, (List.prefix_append_right_inj first).mp h, rfl⟩

namespace Nested

theorem nil (bound : Nat) : Nested bound [] where
  within past isPrefix := by
    rw [List.prefix_nil.mp isPrefix, nesting_nil]
    omega
  settled := rfl

theorem append {bound : Nat} {more : List Event} (first : Nested bound events)
    (second : Nested bound more) : Nested bound (events ++ more) where
  within past isPrefix := by
    rcases prefix_append_cases isPrefix with inFirst | ⟨rest, inSecond, rfl⟩
    · exact first.within past inFirst
    · rw [nesting_append, first.settled, zero_add]
      exact second.within rest inSecond
  settled := by rw [nesting_append, first.settled, second.settled, add_zero]

theorem mono {bound more : Nat} (nested : Nested bound events) (le : bound ≤ more) :
    Nested more events where
  within past isPrefix := by
    have := nested.within past isPrefix
    omega
  settled := nested.settled

theorem cons {bound : Nat} {event : Event} (quiet : event.depthChange = 0)
    (rest : Nested bound events) : Nested bound (event :: events) where
  within past isPrefix := by
    rcases List.prefix_cons_iff.mp isPrefix with rfl | ⟨more, rfl, inRest⟩
    · rw [nesting_nil]
      omega
    · rw [nesting_cons, quiet, zero_add]
      exact rest.within more inRest
  settled := by rw [nesting_cons, quiet, rest.settled, add_zero]

/-- A module that runs is one level around what it requires. -/
theorem run {bound : Nat} (run : Run) (exports : Value) (body : Nested bound events) :
    Nested (bound + 1) (opening run exports ++ events ++ [.stop run]) where
  within past isPrefix := by
    have inner : Nested bound (.start run exports :: events) := body.cons rfl
    rcases List.prefix_cons_iff.mp isPrefix with rfl | ⟨more, rfl, inRest⟩
    · rw [nesting_nil]
      omega
    have inRest : more <+: (.start run exports :: events) ++ [.stop run] := inRest
    have deeper : Event.depthChange (.call "require" [.number run.factory]) = 1 := rfl
    rw [nesting_cons, deeper]
    rcases prefix_append_cases inRest with inBody | ⟨rest, isLast, rfl⟩
    · have := inner.within more inBody
      omega
    · rcases List.prefix_cons_iff.mp isLast with rfl | ⟨last, rfl, isNil⟩
      · have := inner.within _ (List.prefix_refl _)
        rw [List.append_nil]
        omega
      · rw [List.prefix_nil.mp isNil, nesting_append, inner.settled]
        simp [Event.depthChange]
        omega
  settled := by
    simp [opening, Event.depthChange, body.settled]

end Nested

/-- How deeply a task nests calls of `require`, given how high modules stand above what they
require. -/
def Task.levels (height : Nat → Nat) : Task M → Nat
  | .require id => height id + 1
  | .go run _ => height run.factory

theorem Yields.nested (yields : Yields setup task before memory answer events after)
    (runsAgain : setup.caches = false) {height : Nat → Nat}
    (falls : ∀ id name target, setup.target id name = some target → height target < height id) :
    Nested (task.levels height) events := by
  induction yields with
  | kept caches => exact absurd (caches.symm.trans runsAgain) (by simp)
  | @fresh _ _ _ _ run _ exports _ _ _ _ _ _ _ ih => exact Nested.run run exports ih
  | finish => exact .nil _
  | fail => exact .nil _
  | publish _ ih => exact Nested.cons rfl ih
  | change _ ih => exact ih
  | @linked _ _ _ _ _ _ run name id _ _ _ leads _ _ required ih =>
    have lower : height id + 1 ≤ height run.factory := falls _ _ _ leads
    have asked : Nested (height run.factory) (asking run name) := .cons rfl (.cons rfl (.nil _))
    exact (asked.append (required.mono lower)).append (.cons rfl ih)
  | @unlinked _ _ _ _ run name _ _ _ _ ih =>
    have asked : Nested (height run.factory) (asking run name) := .cons rfl (.cons rfl (.nil _))
    exact asked.append (.cons rfl ih)

/-- Where modules run again, a level is used up by what is reached from a module. -/
theorem descends_reinvoking {size : Nat} {height : Nat → Nat}
    (falls : ∀ id name target, setup.target id name = some target → height target < height id) :
    Descends setup size fun levels _ id => height id < levels := by
  intro levels trace id below _ _
  refine ⟨levels - 1, by omega, ?_⟩
  rintro run exports more name target - leads
  have lower := falls id name target leads
  omega

/-! ## How often modules run -/

/-- Nothing has happened in a run. -/
def Unheard (run : Run) (events : List Event) : Prop :=
  ∀ event ∈ events, event.run? ≠ some run

@[simp] theorem unheard_nil {run : Run} : Unheard run [] := fun _ mem =>
  absurd mem List.not_mem_nil

@[simp] theorem unheard_cons {run : Run} {event : Event} :
    Unheard run (event :: events) ↔ event.run? ≠ some run ∧ Unheard run events :=
  List.forall_mem_cons

@[simp] theorem unheard_append {run : Run} {more : List Event} :
    Unheard run (events ++ more) ↔ Unheard run events ∧ Unheard run more :=
  List.forall_mem_append

theorem Unheard.count_ask {run : Run} (unheard : Unheard run events) (name : String) :
    events.count (.ask run name) = 0 :=
  List.count_eq_zero.mpr fun mem => unheard _ mem rfl

theorem not_unheard_of_started {run : Run} (started : run ∈ starts events) :
    ¬ Unheard run events := by
  obtain ⟨exports, mem⟩ := mem_starts_iff.mp started
  exact fun unheard => unheard _ mem rfl

/-- The runs that begin are new. -/
theorem Yields.unheard_of_started (yields : Yields setup task before memory answer events after) :
    ∀ run ∈ starts events, Unheard run before := by
  induction yields with
  | kept => simp [Event.started?]
  | @fresh before events _ _ run _ exports _ _ _ unused _ _ _ ih =>
    intro other started
    have started : other = run ∨ other ∈ starts events := by
      simpa [opening, Event.started?] using started
    rcases started with rfl | started
    · exact unused
    · exact (unheard_append.mp (ih other started)).1
  | finish => simp
  | fail => simp
  | publish _ ih =>
    intro other started
    exact (unheard_append.mp (ih other (by simpa [Event.started?] using started))).1
  | change _ ih => exact ih
  | @linked before inner events _ _ _ run name _ _ _ _ _ _ _ required ih =>
    intro other started
    have started : other ∈ starts inner ∨ other ∈ starts events := by
      simpa [asking, Event.started?] using started
    rcases started with started | started
    · exact (unheard_append.mp (required other started)).1
    · have unheard := ih other started
      rw [List.append_assoc, List.append_assoc] at unheard
      exact (unheard_append.mp unheard).1
  | unlinked _ _ ih =>
    intro other started
    have unheard := ih other (by simpa [asking, Event.started?] using started)
    rw [List.append_assoc] at unheard
    exact (unheard_append.mp unheard).1

/-- The run that a task is a part of. -/
def Task.run? : Task M → Option Run
  | .require _ => none
  | .go run _ => some run

/-- Something only happens in the run that a task is a part of, and in new ones. -/
theorem Yields.unheard_of_ne (yields : Yields setup task before memory answer events after)
    {run : Run} (known : ¬ Unheard run before) (other : task.run? ≠ some run) :
    Unheard run events := by
  have differs : ∀ inner : Run, inner ≠ run → some inner ≠ some run := fun inner ne same =>
    ne (Option.some.inj same)
  induction yields with
  | kept => simp [Event.run?]
  | @fresh before events _ _ inner _ exports _ _ _ unused _ _ _ ih =>
    have isOther : inner ≠ run := by
      rintro rfl
      exact known unused
    have unheard := ih (fun unheard => known (unheard_append.mp unheard).1) (differs inner isOther)
    simp [opening, Event.run?, isOther, unheard]
  | finish => simp
  | fail => simp
  | @publish _ _ _ _ inner _ _ _ _ ih =>
    have isOther : inner ≠ run := fun same => other (congrArg some same)
    have unheard := ih (fun unheard => known (unheard_append.mp unheard).1) other
    simp [Event.run?, unheard, isOther]
  | change _ ih => exact ih known other
  | @linked before inner events _ _ _ asker name _ _ _ _ _ _ _ required ih =>
    have unheard := required (fun unheard => known (unheard_append.mp unheard).1) (by simp [Task.run?])
    have isOther : asker ≠ run := fun same => other (congrArg some same)
    have later := ih (by simp [known]) other
    simp [asking, Event.run?, unheard, later, isOther]
  | @unlinked _ _ _ _ asker _ _ _ _ _ ih =>
    have isOther : asker ≠ run := fun same => other (congrArg some same)
    have later := ih (by simp [known]) other
    simp [asking, Event.run?, later, isOther]

/-- Every run requires each name that leads somewhere exactly once. -/
def Once (setup : Setup M) (events : List Event) : Prop :=
  ∀ run ∈ starts events, ∀ name, setup.target run.factory name ≠ none →
    events.count (.ask run name) = 1

/-- Where a path of names leads from a module. -/
def Setup.walk? (setup : Setup M) : (id : Nat) → (names : List String) → Option Nat
  | id, [] => some id
  | id, name :: names => (setup.target id name).bind fun target => setup.walk? target names

/-- A list of everything that has a property, without repetition. -/
def Lists (paths : List (List String)) (has : List String → Prop) : Prop :=
  paths.Nodup ∧ ∀ names, names ∈ paths ↔ has names

/-- How often the factory of a module begins to run. -/
def runs (id : Nat) (events : List Event) : Nat :=
  ((starts events).map Run.factory).count id

theorem runs_cons (id : Nat) {event : Event} (quiet : event.started? = none) (events : List Event) :
    runs id (event :: events) = runs id events := by
  simp [runs, quiet]

/-- Paths from a module to another that begin with certain names. -/
def Setup.Through (setup : Setup M) (start id : Nat) (asked : String → Prop) (names : List String) :
    Prop :=
  setup.walk? start names = some id ∧ ∃ name ∈ names.head?, asked name

theorem lists_nil (setup : Setup M) (run : Run) (id : Nat) :
    Lists [] (setup.Through run.factory id fun name => Event.ask run name ∈ []) := by
  refine ⟨List.nodup_nil, fun names => ?_⟩
  simp [Setup.Through]

theorem Lists.congr {paths : List (List String)} {has other : List String → Prop}
    (lists : Lists paths has) (same : ∀ names, has names ↔ other names) : Lists paths other :=
  ⟨lists.1, fun names => (lists.2 names).trans (same names)⟩

/-- A name that leads to a module adds the paths from there. -/
theorem Lists.ask {start target id : Nat} {name : String} {asked : String → Prop}
    {inner paths : List (List String)} (leads : setup.target start name = some target)
    (isNew : ¬ asked name) (from_target : Lists inner fun names => setup.walk? target names = some id)
    (rest : Lists paths (setup.Through start id asked)) :
    Lists (inner.map (name :: ·) ++ paths)
      (setup.Through start id fun word => word = name ∨ asked word) := by
  constructor
  · refine List.nodup_append.mpr ⟨from_target.1.map ?_, rest.1, ?_⟩
    · exact fun _ _ same => (List.cons.inj same).2
    · rintro names mem _ mem' rfl
      obtain ⟨tail, -, rfl⟩ := List.mem_map.mp mem
      obtain ⟨-, word, isHead, isAsked⟩ := (rest.2 _).mp mem'
      obtain rfl : name = word := Option.some.inj isHead
      exact isNew isAsked
  · intro names
    rw [List.mem_append, rest.2, List.mem_map]
    constructor
    · rintro (⟨tail, mem, rfl⟩ | ⟨walks, word, isHead, isAsked⟩)
      · have walks := (from_target.2 tail).mp mem
        refine ⟨?_, name, rfl, Or.inl rfl⟩
        rw [Setup.walk?, leads]
        exact walks
      · exact ⟨walks, word, isHead, Or.inr isAsked⟩
    · rintro ⟨walks, word, isHead, rfl | isAsked⟩
      · obtain ⟨tail, rfl⟩ : ∃ tail, names = word :: tail := by
          cases names with
          | nil => exact absurd isHead (by simp)
          | cons first tail => exact ⟨tail, by rw [Option.some.inj isHead]⟩
        rw [Setup.walk?, leads] at walks
        exact Or.inl ⟨tail, (from_target.2 tail).mpr walks, rfl⟩
      · exact Or.inr ⟨walks, word, isHead, isAsked⟩

/-- A name that leads nowhere adds nothing. -/
theorem Lists.askNowhere {start id : Nat} {name : String} {asked : String → Prop}
    {paths : List (List String)} (leads : setup.target start name = none)
    (rest : Lists paths (setup.Through start id asked)) :
    Lists paths (setup.Through start id fun word => word = name ∨ asked word) := by
  apply rest.congr
  intro names
  refine and_congr_right fun walks => exists_congr fun word => and_congr_right fun isHead => ?_
  refine (or_iff_right ?_).symm
  rintro rfl
  cases names with
  | nil => exact absurd isHead (by simp)
  | cons first tail =>
    obtain rfl : first = word := Option.some.inj isHead
    rw [Setup.walk?, leads] at walks
    exact absurd walks (by simp)

/-- Where every name has been required that leads somewhere, what is left is the path of no
names. -/
theorem Lists.run {start id : Nat} {asked : String → Prop} {paths : List (List String)}
    (body : Lists paths (setup.Through start id asked))
    (all : ∀ name, setup.target start name ≠ none → asked name) :
    Lists ((if start = id then [[]] else []) ++ paths) fun names =>
      setup.walk? start names = some id := by
  have nonempty : [] ∉ paths := fun mem => by
    obtain ⟨-, word, isHead, -⟩ := (body.2 []).mp mem
    exact absurd isHead (by simp)
  constructor
  · refine List.nodup_append.mpr ⟨by split <;> simp, body.1, ?_⟩
    rintro names mem _ mem' rfl
    split at mem
    · rw [List.mem_singleton] at mem
      exact nonempty (mem ▸ mem')
    · exact absurd mem List.not_mem_nil
  · intro names
    rw [List.mem_append, body.2]
    cases names with
    | nil =>
      by_cases same : start = id <;> simp [same, Setup.Through, Setup.walk?]
    | cons name tail =>
      have notEmpty : name :: tail ∉ (if start = id then [[]] else []) := by
        split <;> simp
      rw [or_iff_right notEmpty]
      refine and_iff_left_of_imp fun walks => ⟨name, rfl, all name fun leads => ?_⟩
      rw [Setup.walk?, leads] at walks
      exact absurd walks (by simp)

/-- The runs of a module are as many as the paths that lead to it: from a module that is required, or
by what a factory that goes on requires. -/
def Task.Counts (setup : Setup M) (id : Nat) (before events : List Event) : Task M → Prop
  | .require start =>
    ∃ paths, (Lists paths fun names => setup.walk? start names = some id) ∧
      paths.length = runs id events
  | .go run _ => ¬ Unheard run before →
    (∀ name, setup.target run.factory name ≠ none → events.count (.ask run name) ≤ 1) →
    ∃ paths, Lists paths (setup.Through run.factory id fun name => .ask run name ∈ events) ∧
      paths.length = runs id events

section

variable {inner : List Event} {run : Run} {name : String} {found : Answer}

theorem mem_asked_iff (unheard : Unheard run inner) (word : String) :
    .ask run word ∈ asking run name ++ inner ++ .answer run found :: events ↔
      word = name ∨ .ask run word ∈ events := by
  have absent : .ask run word ∉ inner := fun mem => unheard _ mem rfl
  simp [asking, absent]

theorem count_asked (other : Run) (word : String) :
    (asking run name ++ inner ++ .answer run found :: events).count (.ask other word) =
      (if run = other ∧ name = word then 1 else 0) + inner.count (.ask other word) +
        events.count (.ask other word) := by
  by_cases same : run = other ∧ name = word <;> simp [asking, same]
  omega

theorem count_opened (exports : Value) (other : Run) (word : String) :
    (opening run exports ++ events ++ [Event.stop run]).count (.ask other word) =
      events.count (.ask other word) := by
  simp [opening]

theorem once_of_opened {exports : Value}
    (once : Once setup (opening run exports ++ events ++ [.stop run])) : Once setup events := by
  intro other started word leads
  rw [← count_opened exports other word]
  exact once other (by simp [started]) word leads

theorem once_of_published {value : Value} (once : Once setup (.publish run value :: events)) :
    Once setup events := by
  intro other started word leads
  have all := once other (by simpa [Event.started?] using started) word leads
  simpa using all

/-- While a name is answered nothing happens in the run that requires it, and the runs that begin
meanwhile are not heard of later. -/
structure Apart (run : Run) (inner events : List Event) : Prop where
  silent : Unheard run inner
  first : ∀ other ∈ starts inner, other ≠ run ∧ Unheard other events
  second : ∀ other ∈ starts events, other ≠ run ∧ Unheard other inner

/-- What one run requires says nothing of what others do. -/
theorem once_of_asked (once : Once setup (asking run name ++ inner ++ .answer run found :: events))
    (apart : Apart run inner events) : Once setup inner ∧ Once setup events := by
  constructor
  · intro other started word leads
    obtain ⟨differs, unheard⟩ := apart.first other started
    have all := once other (by simp [started]) word leads
    rw [count_asked, unheard.count_ask] at all
    simpa [Ne.symm differs] using all
  · intro other started word leads
    obtain ⟨differs, unheard⟩ := apart.second other started
    have all := once other (by simp [Event.started?, started]) word leads
    rw [count_asked, unheard.count_ask] at all
    simpa [Ne.symm differs] using all

/-- A name that is asked for is one of those that the run requires. -/
theorem Apart.count_le (apart : Apart run inner events) {word : String}
    (atMost :
      (asking run name ++ inner ++ .answer run found :: events).count (.ask run word) ≤ 1) :
    (if name = word then 1 else 0) + events.count (.ask run word) ≤ 1 := by
  rw [count_asked, apart.silent.count_ask] at atMost
  simpa using atMost

/-- The runs that begin behind an answer are new. -/
theorem Yields.apart_second {program : Program M}
    (rest : Yields setup (.go run program)
      (before ++ asking run name ++ inner ++ [.answer run found]) memory answer events after)
    (known : ¬ Unheard run before) : ∀ other ∈ starts events, other ≠ run ∧ Unheard other inner := by
  intro other started
  have unheard := rest.unheard_of_started other started
  simp only [unheard_append] at unheard
  refine ⟨?_, unheard.1.2⟩
  rintro rfl
  exact known unheard.1.1.1

theorem Yields.apart {target : Nat} {between : M} {program : Program M}
    (requires : Yields setup (.require target) (before ++ asking run name) memory found inner
      between)
    (rest : Yields setup (.go run program)
      (before ++ asking run name ++ inner ++ [.answer run found]) between answer events after)
    (known : ¬ Unheard run before) : Apart run inner events where
  silent := requires.unheard_of_ne (by simp [known]) nofun
  first other started := by
    have unheard := requires.unheard_of_started other started
    have differs : other ≠ run := by
      rintro rfl
      exact known (unheard_append.mp unheard).1
    refine ⟨differs, rest.unheard_of_ne ?_ fun same => differs (Option.some.inj same).symm⟩
    have heard := not_unheard_of_started started
    simp [heard]
  second := rest.apart_second known

theorem Yields.apart_nil {program : Program M}
    (rest : Yields setup (.go run program) (before ++ asking run name ++ [.answer run found])
      memory answer events after) (known : ¬ Unheard run before) : Apart run [] events where
  silent := unheard_nil
  first := by simp
  second := by
    rw [← List.append_nil (before ++ asking run name)] at rest
    exact rest.apart_second known

end

/-! ### The steps of a factory -/

section

variable {inner : List Event} {run : Run} {name : String} {found : Answer} {id : Nat}
variable {program : Program M}

/-- A run that requires every name once has required all that lead somewhere in the end. -/
theorem counts_fresh {exports : Value}
    (once : Once setup (opening run exports ++ events ++ [.stop run]))
    (body : (Task.go run program).Counts setup id (before ++ opening run exports) events) :
    (Task.require run.factory : Task M).Counts setup id before
      (opening run exports ++ events ++ [.stop run]) := by
  have own : ∀ name, setup.target run.factory name ≠ none → events.count (.ask run name) = 1 := by
    intro name leads
    rw [← count_opened exports run name]
    exact once run (by simp) name leads
  obtain ⟨paths, lists, length⟩ := body (by simp [opening, Event.run?])
    fun name leads => Nat.le_of_eq (own name leads)
  have all : ∀ name, setup.target run.factory name ≠ none → .ask run name ∈ events := by
    intro name leads
    apply List.count_pos_iff.mp
    rw [own name leads]
    exact Nat.one_pos
  refine ⟨_, lists.run all, ?_⟩
  by_cases same : run.factory = id <;>
    simp [same, length, runs, Event.started?]

theorem counts_publish {value : Value}
    (rest : (Task.go run program).Counts setup id (before ++ [.publish run value]) events) :
    (Task.go run (.publish value program)).Counts setup id before
      (.publish run value :: events) := by
  intro known atMost
  obtain ⟨paths, lists, length⟩ := rest (by simp [known]) fun word leads => by
    simpa using atMost word leads
  refine ⟨paths, lists.congr (by simp [Setup.Through]), ?_⟩
  rw [length, runs_cons id rfl]

/-- The paths that begin with the name go on from the module that it leads to. -/
theorem counts_linked {target : Nat} {next : Answer → Program M}
    (apart : ¬ Unheard run before → Apart run inner events)
    (leads : setup.target run.factory name = some target)
    (once : Once setup (asking run name ++ inner ++ .answer run found :: events))
    (required : Once setup inner →
      (Task.require target : Task M).Counts setup id (before ++ asking run name) inner)
    (rest : Once setup events → (Task.go run program).Counts setup id
      (before ++ asking run name ++ inner ++ [.answer run found]) events) :
    (Task.go run (.require name next)).Counts setup id before
      (asking run name ++ inner ++ .answer run found :: events) := by
  intro known atMost
  have apart := apart known
  obtain ⟨onceInner, onceRest⟩ := once_of_asked once apart
  have isNew : .ask run name ∉ events := by
    have all := apart.count_le (atMost name (by simp [leads]))
    rw [if_pos rfl] at all
    apply List.count_eq_zero.mp
    omega
  obtain ⟨paths, lists, length⟩ := required onceInner
  obtain ⟨others, listsRest, lengthRest⟩ := rest onceRest (by simp [known]) fun word leads =>
    Nat.le_trans (Nat.le_add_left ..) (apart.count_le (atMost word leads))
  refine ⟨_, (lists.ask leads isNew listsRest).congr ?_, ?_⟩
  · intro names
    simp only [Setup.Through, mem_asked_iff apart.silent]
  · simp [length, lengthRest, runs, Event.started?]

/-- While a name that leads nowhere is answered, nothing happens at all. -/
theorem counts_unlinked {next : Answer → Program M}
    (apart : ¬ Unheard run before → Apart run [] events)
    (leads : setup.target run.factory name = none)
    (once : Once setup (asking run name ++ .answer run found :: events))
    (rest : Once setup events → (Task.go run program).Counts setup id
      (before ++ asking run name ++ [.answer run found]) events) :
    (Task.go run (.require name next)).Counts setup id before
      (asking run name ++ .answer run found :: events) := by
  rw [← List.append_nil (asking run name)] at once ⊢
  intro known atMost
  have apart := apart known
  have onceRest := (once_of_asked once apart).2
  obtain ⟨paths, lists, length⟩ := rest onceRest (by simp [known]) fun word leads =>
    Nat.le_trans (Nat.le_add_left ..) (apart.count_le (atMost word leads))
  refine ⟨paths, (lists.askNowhere leads).congr ?_, ?_⟩
  · intro names
    simp only [Setup.Through, mem_asked_iff unheard_nil]
  · simp [length, runs, Event.started?]

end

theorem Yields.counts (yields : Yields setup task before memory answer events after)
    (runsAgain : setup.caches = false) (once : Once setup events) (id : Nat) :
    task.Counts setup id before events := by
  induction yields with
  | kept caches => exact absurd (caches.symm.trans runsAgain) (by simp)
  | fresh _ _ _ _ _ ih => exact counts_fresh once (ih (once_of_opened once))
  | finish => exact fun _ _ => ⟨[], lists_nil setup _ id, rfl⟩
  | fail => exact fun _ _ => ⟨[], lists_nil setup _ id, rfl⟩
  | publish _ ih => exact counts_publish (ih (once_of_published once))
  | change _ ih => exact ih once
  | linked leads requires rest required ih =>
    exact counts_linked (requires.apart rest) leads once required ih
  | unlinked leads rest ih => exact counts_unlinked rest.apart_nil leads once ih

end Execution

/-- Where a path of specifiers leads from a module. -/
def ModuleGraph.walk? (graph : ModuleGraph) : (id : Nat) → (specifiers : List String) → Option Nat
  | id, [] => some id
  | id, specifier :: specifiers =>
    ((graph.get? id).bind fun record => record.resolve? specifier).bind fun target =>
      graph.walk? target specifiers

namespace Execution

/-- When a bundle runs, paths lead where they lead in the graph, but for those with `__proto__`. -/
theorem walk?_linking {options : RuntimeOptions} {graph : ModuleGraph} {factories : Factories M}
    {start id : Nat} {names : List String} :
    (linking options graph factories).walk? start names = some id ↔
      "__proto__" ∉ names ∧ graph.walk? start names = some id := by
  induction names generalizing start with
  | nil => simp [Setup.walk?, ModuleGraph.walk?]
  | cons name names ih =>
    have target : (linking options graph factories).target start name = leadsTo graph start name :=
      rfl
    rw [Setup.walk?, ModuleGraph.walk?, target, leadsTo]
    by_cases isProto : name = "__proto__"
    · simp [isProto]
    · rw [if_neg isProto]
      cases (graph.get? start).bind fun record => record.resolve? name with
      | none => simp
      | some target => simp [ih, Ne.symm isProto]

/-- A bundle that runs modules again, whatever its factories do.  It comes to an end, and calls of
`require` are never nested more deeply than there are modules.  If every factory requires each of
its specifiers exactly once, the factory of a module runs as often as there are paths of specifiers
from the entry to the module, not counting those with a specifier `__proto__`. -/
theorem reinvoking_runs (tree : FileTree) (settings : Settings) (compiler : Compiler) (entry : Path)
    {bundle : Bundle} (made : (Bundling.bundle tree settings compiler entry).1 = .ok bundle)
    (runsAgain : settings.moduleCache = false) :
    ∃ script, script? settings.runtimeOptions bundle.graph = some script ∧
      ∀ (factories : Factories M) (memory : M) (depth : Nat), 3 * bundle.graph.size + 2 ≤ depth →
        ∃ (answer : Answer) (after : Machine M),
          execute factories depth memory script = answer.result after ∧
          Nested bundle.graph.size after.trace ∧
          ((∀ run ∈ starts after.trace, ∀ record, bundle.graph.get? run.factory = some record →
              ∀ entry ∈ record.mapping, after.trace.count (.ask run entry.1) = 1) →
            ∀ id, ∃ paths : List (List String),
              (Lists paths fun names =>
                "__proto__" ∉ names ∧ bundle.graph.walk? 0 names = some id) ∧
              runs id after.trace = paths.length) := by
  obtain ⟨built, -, noCircles⟩ := Bundling.graph_of_bundle made
  have refuses : Bundling.refusesCycles settings = true := by
    rw [Bundling.refusesCycles_iff]
    exact Or.inr runsAgain
  have acyclic := noCircles refuses
  have sound := Discovery.sound_of_build built
  obtain ⟨script, is⟩ : ∃ script, script? settings.runtimeOptions bundle.graph = some script :=
    ⟨_, script?_eq settings.runtimeOptions bundle.graph⟩
  refine ⟨script, is, fun factories memory depth deep => ?_⟩
  obtain ⟨depth, rfl⟩ : ∃ less, depth = less + 1 := ⟨depth - 1, by omega⟩
  have falls : ∀ id name target,
      (linking settings.runtimeOptions bundle.graph factories).target id name = some target →
      (bundle.graph.below target).card < (bundle.graph.below id).card := fun id name target leads =>
    ModuleGraph.card_below_lt sound.closed acyclic (imports_of_leadsTo leads)
  have highest := ModuleGraph.card_below_lt_size acyclic sound.inhabited
  rcases follows_execute sound is factories (descends_reinvoking falls) depth memory with
    ⟨answer, events, after, ends, carried⟩ | ⟨short, -⟩
  · have yields := carried.yields
    rw [trace_working] at yields
    have trace : after.trace = .call "" [.object (2 * bundle.graph.size)] :: events := by
      rw [carried.trace, trace_working]
      rfl
    have nested : Nested bundle.graph.size events := (yields.nested runsAgain falls).mono highest
    refine ⟨_, after, ends, ?_, fun each id => ?_⟩
    · rw [trace]
      exact nested.cons rfl
    · rw [trace] at each ⊢
      have once : Once (linking settings.runtimeOptions bundle.graph factories) events := by
        intro run started name isMapped
        obtain ⟨target, leads⟩ := Option.ne_none_iff_exists'.mp isMapped
        obtain ⟨record, found, mem⟩ := exists_entry_of_leadsTo leads
        simpa using each run (by simpa [Event.started?] using started) record found _ mem
      obtain ⟨paths, lists, length⟩ := yields.counts runsAgain once id
      exact ⟨paths, lists.congr fun names => walk?_linking, by rw [length, runs_cons id rfl]⟩
  · exfalso
    apply short
    exact ⟨bundle.graph.size, highest, by omega⟩

/-- Two modules that import a third. -/
def diamond : FileTree :=
  ⟨[(["a.js"], .file "dep ./b\ndep ./c".toUTF8), (["b.js"], .file "dep ./d".toUTF8),
    (["c.js"], .file "dep ./d".toUTF8), (["d.js"], .file "".toUTF8)], []⟩

/-- Settings for bundles that run modules again. -/
def runningAgain : Settings :=
  { Settings.standard with moduleCache := false }

/-- Factories that require what these modules import. -/
def descending : Factories Unit
  | 0, _ => .require "./b" fun _ => .require "./c" fun _ => .finish
  | 3, _ => .finish
  | _, _ => .require "./d" fun _ => .finish

/-- Whether every run has required all specifiers of its module, each once. -/
def isOnce (graph : ModuleGraph) (trace : List Event) : Bool :=
  (starts trace).all fun run => (graph.get? run.factory).all fun record =>
    record.mapping.all fun entry => trace.count (.ask run entry.1) == 1

theorem count_ask_of_isOnce {graph : ModuleGraph} {trace : List Event}
    (once : isOnce graph trace = true) : ∀ run ∈ starts trace, ∀ record,
      graph.get? run.factory = some record →
        ∀ entry ∈ record.mapping, trace.count (.ask run entry.1) = 1 := by
  intro run started record found entry mem
  rw [isOnce, List.all_eq_true] at once
  have all := once run started
  rw [found, Option.all_some, List.all_eq_true] at all
  exact eq_of_beq (all entry mem)

/-- What a bundle with modules that run again does with some factories, up to a depth. -/
def traceOf (factories : Factories Unit) (depth : Nat) (graph : ModuleGraph) : Option (List Event) :=
  match execute factories depth () (.call (Linking.function false) (.ofList [registryTerm graph])) with
  | .ok _ after => some after.trace
  | .error _ _ => none

theorem trace_of_execute {options : RuntimeOptions} {graph : ModuleGraph} {script : Term}
    {factories : Factories Unit} {depth : Nat} {answer : Answer} {after : Machine Unit}
    {trace : List Event} (is : script? options graph = some script)
    (runsAgain : options.moduleCache = false)
    (ends : execute factories depth () script = answer.result after)
    (traced : traceOf factories depth graph = some trace) : trace = after.trace := by
  rw [script?_eq, runsAgain] at is
  obtain rfl := Option.some.inj is
  rw [traceOf, ends] at traced
  cases answer with
  | value value => exact (Option.some.inj traced).symm
  | error error => exact absurd traced nofun

theorem reinvoking_runs_diamond :
    ∃ bundle, (Bundling.bundle diamond runningAgain Compiler.listing ⟨"a"⟩).1 = .ok bundle ∧
      ∃ script, script? runningAgain.runtimeOptions bundle.graph = some script ∧
        ∃ (answer : Answer) (after : Machine Unit),
          execute descending 14 () script = answer.result after ∧
          Nested bundle.graph.size after.trace ∧ runs 3 after.trace = 2 ∧
          ∃ paths : List (List String),
            (Lists paths fun names =>
              "__proto__" ∉ names ∧ bundle.graph.walk? 0 names = some 3) ∧
            runs 3 after.trace = paths.length := by
  have checked : (Bundling.bundle diamond runningAgain Compiler.listing ⟨"a"⟩).1.toOption.any
      (fun bundle => decide (bundle.graph.size = 4) &&
        (traceOf descending 14 bundle.graph).any fun trace =>
          isOnce bundle.graph trace && runs 3 trace == 2) = true := by
    decide +kernel
  obtain ⟨bundle, made, checked⟩ := exists_ok_of_any checked
  rw [Bool.and_eq_true, decide_eq_true_eq] at checked
  obtain ⟨size, checked⟩ := checked
  obtain ⟨script, is, runs_⟩ :=
    reinvoking_runs diamond runningAgain Compiler.listing ⟨"a"⟩ made rfl
  obtain ⟨answer, after, ends, nested, counted⟩ := runs_ descending () 14 (by omega)
  obtain ⟨trace, is_trace, tested⟩ := (Option.any_eq_true _ _).mp checked
  obtain rfl := trace_of_execute is rfl ends is_trace
  rw [Bool.and_eq_true, beq_iff_eq] at tested
  obtain ⟨once, twice⟩ := tested
  exact ⟨bundle, made, script, is, answer, after, ends, nested, twice,
    counted (count_ask_of_isOnce once) 3⟩

/-- A module whose specifier is the name of the property that holds the prototype. -/
def namedProto : FileTree :=
  ⟨[(["__proto__.js"], .file "".toUTF8), (["a.js"], .file "dep __proto__".toUTF8)], []⟩

/-- Factories that require this module. -/
def callingProto : Factories Unit
  | 0, _ => .require "__proto__" fun _ => .finish
  | _, _ => .finish

/-- A path of specifiers that leads to a module, which never runs: every factory that has run has
required each of its specifiers once, but this specifier leads nowhere. -/
theorem module_never_run :
    ∃ bundle, (Bundling.bundle namedProto runningAgain Compiler.listing ⟨"a"⟩).1 = .ok bundle ∧
      bundle.graph.walk? 0 ["__proto__"] = some 1 ∧
      ∃ script trace, script? runningAgain.runtimeOptions bundle.graph = some script ∧
        (∀ run ∈ starts trace, ∀ record, bundle.graph.get? run.factory = some record →
          ∀ entry ∈ record.mapping, trace.count (.ask run entry.1) = 1) ∧
        runs 0 trace = 1 ∧ runs 1 trace = 0 ∧
        ∃ (value : Value) (after : Machine Unit),
          execute callingProto 8 () script = .ok value after ∧ after.trace = trace := by
  have checked : (Bundling.bundle namedProto runningAgain Compiler.listing ⟨"a"⟩).1.toOption.any
      (fun bundle => decide (bundle.graph.walk? 0 ["__proto__"] = some 1) &&
        (traceOf callingProto 8 bundle.graph).any fun trace =>
          isOnce bundle.graph trace && decide (runs 0 trace = 1 ∧ runs 1 trace = 0)) = true := by
    decide +kernel
  obtain ⟨bundle, made, checked⟩ := exists_ok_of_any checked
  rw [Bool.and_eq_true, decide_eq_true_eq] at checked
  obtain ⟨leads, checked⟩ := checked
  obtain ⟨trace, is_trace, tested⟩ := (Option.any_eq_true _ _).mp checked
  rw [Bool.and_eq_true, decide_eq_true_eq] at tested
  obtain ⟨once, first, second⟩ := tested
  refine ⟨bundle, made, leads, _, trace, script?_eq _ _, count_ask_of_isOnce once, first, second, ?_⟩
  rw [traceOf] at is_trace
  split at is_trace
  · rename_i value after ends
    exact ⟨value, after, ends, Option.some.inj is_trace⟩
  · exact absurd is_trace (by simp)

end Execution

end ModuleBundler
