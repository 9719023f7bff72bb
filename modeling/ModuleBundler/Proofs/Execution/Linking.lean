/-
# ModuleBundler.Proofs.Execution.Linking — what happens when modules are required.

The machine runs linking functions step by step.  What matters to factories is said here without
scopes and objects: requiring a module runs its factory, or answers with what the module exports if
modules are kept and its factory has begun to run; and a factory that requires a name is answered by
the module that its mapping leads to, or by an error.  `Yields` is that relation, along with
everything that happens on the way, and the trace is all that it needs to know of the past.
-/
import ModuleBundler.Proofs.Execution.Machine

namespace ModuleBundler.Execution

variable {M : Type}

/-! ## Traces -/

namespace Event

/-- The run of a factory that something happens in. -/
def run? : Event → Option Run
  | call _ _ => none
  | start run _ => some run
  | ask run _ => some run
  | answer run _ => some run
  | publish run _ => some run
  | stop run => some run

/-- The run that begins. -/
def started? : Event → Option Run
  | start run _ => some run
  | _ => none

/-- What a run exports after something has happened, given what it exported before. -/
def exported (run : Run) (before : Option Value) : Event → Option Value
  | start other value => if other = run then some value else before
  | publish other value => if other = run then some value else before
  | _ => before

end Event

/-- The runs of factories that have begun, in order. -/
def starts (trace : List Event) : List Run :=
  trace.filterMap Event.started?

/-- What the module of a run exports after what has happened. -/
def exportsOf (run : Run) (trace : List Event) : Option Value :=
  trace.foldl (Event.exported run) none

@[simp] theorem starts_append (trace events : List Event) :
    starts (trace ++ events) = starts trace ++ starts events := by
  simp [starts]

@[simp] theorem starts_nil : starts [] = [] :=
  rfl

@[simp] theorem starts_cons (event : Event) (events : List Event) :
    starts (event :: events) = event.started?.toList ++ starts events := by
  cases h : event.started? <;> simp [starts, h]

theorem mem_starts_iff {run : Run} {trace : List Event} :
    run ∈ starts trace ↔ ∃ exports, .start run exports ∈ trace := by
  constructor
  · intro mem
    obtain ⟨event, isEvent, same⟩ := List.mem_filterMap.mp mem
    cases event with
    | start other exports =>
      obtain rfl : other = run := Option.some.inj same
      exact ⟨exports, isEvent⟩
    | _ => exact absurd same nofun
  · rintro ⟨exports, mem⟩
    exact List.mem_filterMap.mpr ⟨_, mem, rfl⟩

@[simp] theorem exportsOf_append (run : Run) (trace events : List Event) :
    exportsOf run (trace ++ events) = events.foldl (Event.exported run) (exportsOf run trace) := by
  simp [exportsOf]

/-- What a run exports does not change by what happens in other runs. -/
theorem exported_of_run?_ne {run : Run} {event : Event} (other : event.run? ≠ some run)
    (before : Option Value) : event.exported run before = before := by
  cases event with
  | start =>
    have differs := fun same => other (congrArg some same)
    exact if_neg differs
  | publish =>
    have differs := fun same => other (congrArg some same)
    exact if_neg differs
  | _ => rfl

/-! ## The relation -/

/-- What the linking of modules depends on: whether modules are kept, where names lead that a
factory requires, and what factories do. -/
structure Setup (M : Type) where
  caches : Bool
  target : (factory : Nat) → (name : String) → Option Nat
  factories : Factories M

/-- What is to be done. -/
inductive Task (M : Type)
  /-- a module is required -/
  | require (id : Nat)
  /-- a factory goes on -/
  | go (run : Run) (program : Program M)

/-- What is thrown where a name leads nowhere. -/
def missing (name : String) : Answer :=
  .error (.error ("Cannot find module '" ++ name ++ "'"))

/-- The exports of a module, unless its factory has thrown something. -/
def Answer.exporting (exports : Value) : Answer → Answer
  | .value _ => .value exports
  | .error thrown => .error thrown

/-- The beginning of a run. -/
def opening (run : Run) (exports : Value) : List Event :=
  [.call "require" [.number run.factory], .start run exports]

/-- What a factory is called with when it begins to run: something to require modules with, its
module, and the object that it exports at first, which nothing has exported before. -/
structure Given (run : Run) (before : List Event) (arguments : List Value) (exports : Value) :
    Prop where
  arguments : ∃ require, arguments = [require, .object run.module, exports]
  isObject : ∃ place, exports = .object place
  isNew : ∀ other, .start other exports ∉ before

/-- A factory requires a name. -/
def asking (run : Run) (name : String) : List Event :=
  [.ask run name, .call "localRequire" [.text name]]

@[simp] theorem starts_opening (run : Run) (exports : Value) :
    starts (opening run exports) = [run] :=
  rfl

@[simp] theorem starts_asking (run : Run) (name : String) : starts (asking run name) = [] :=
  rfl

/-- A task comes to an answer.  Given are the trace and the memory before; the events are what
happens, and the memory behind them is what is left. -/
inductive Yields (setup : Setup M) :
    Task M → List Event → M → Answer → List Event → M → Prop
  /-- A module that is kept answers with what it exports at that moment. -/
  | kept {before : List Event} {memory : M} {run : Run} {value : Value}
      (caches : setup.caches = true) (started : run ∈ starts before)
      (exports : exportsOf run before = some value) :
      Yields setup (.require run.factory) before memory (.value value)
        [.call "require" [.number run.factory]] memory
  /-- Any other module runs, and answers with what it exports in the end. -/
  | fresh {before events : List Event} {memory after : M} {run : Run} {arguments : List Value}
      {exports value : Value} {answer : Answer}
      (isNew : setup.caches = true → ∀ other ∈ starts before, other.factory ≠ run.factory)
      (unused : ∀ event ∈ before, event.run? ≠ some run)
      (body : Yields setup (.go run (setup.factories run.factory arguments))
        (before ++ opening run exports) memory answer events after)
      (final : exportsOf run (before ++ opening run exports ++ events) = some value)
      (given : Given run before arguments exports) :
      Yields setup (.require run.factory) before memory (answer.exporting value)
        (opening run exports ++ events ++ [.stop run]) after
  | finish {before : List Event} {memory : M} {run : Run} :
      Yields setup (.go run .finish) before memory (.value .undefined) [] memory
  | fail {before : List Event} {memory : M} {run : Run} {error : Value} :
      Yields setup (.go run (.fail error)) before memory (.error error) [] memory
  | publish {before events : List Event} {memory after : M} {run : Run} {value : Value}
      {program : Program M} {answer : Answer}
      (rest : Yields setup (.go run program) (before ++ [.publish run value]) memory answer events
        after) :
      Yields setup (.go run (.publish value program)) before memory answer
        (.publish run value :: events) after
  | change {before events : List Event} {memory after : M} {run : Run} {f : M → M}
      {program : M → Program M} {answer : Answer}
      (rest : Yields setup (.go run (program (f memory))) before (f memory) answer events after) :
      Yields setup (.go run (.change f program)) before memory answer events after
  /-- A name that leads to a module is answered by it. -/
  | linked {before inner events : List Event} {memory between after : M} {run : Run} {name : String}
      {id : Nat} {program : Answer → Program M} {found answer : Answer}
      (leads : setup.target run.factory name = some id)
      (required : Yields setup (.require id) (before ++ asking run name) memory found inner between)
      (rest : Yields setup (.go run (program found))
        (before ++ asking run name ++ inner ++ [.answer run found]) between answer events after) :
      Yields setup (.go run (.require name program)) before memory answer
        (asking run name ++ inner ++ .answer run found :: events) after
  /-- Any other name is answered by an error. -/
  | unlinked {before events : List Event} {memory after : M} {run : Run} {name : String}
      {program : Answer → Program M} {answer : Answer}
      (leads : setup.target run.factory name = none)
      (rest : Yields setup (.go run (program (missing name)))
        (before ++ asking run name ++ [.answer run (missing name)]) memory answer events after) :
      Yields setup (.go run (.require name program)) before memory answer
        (asking run name ++ .answer run (missing name) :: events) after

/-! ## What is required leads where it should -/

/-- What comes of calling what a factory requires modules with: the module is required that the name
leads to, or the answer is an error. -/
def Setup.response (setup : Setup M) (run : Run) (name : String) : Event :=
  match setup.target run.factory name with
  | some id => .call "require" [.number id]
  | none => .answer run (missing name)

/-- Wherever a name is required, what happens next is what should come of it. -/
inductive Orderly (setup : Setup M) : List Event → Prop
  | nil : Orderly setup []
  | other {event : Event} {events : List Event} (quiet : ∀ run name, event ≠ .ask run name)
      (rest : Orderly setup events) : Orderly setup (event :: events)
  | ask {run : Run} {name : String} {events : List Event} (rest : Orderly setup events) :
      Orderly setup (asking run name ++ setup.response run name :: events)

/-- What happens first when a task begins. -/
def Task.BeginsWith : Task M → List Event → Prop
  | .require id, events => events.head? = some (.call "require" [.number id])
  | .go _ _, _ => True

/-- What has happened of a task that is not over. -/
def Begun (setup : Setup M) (task : Task M) (events : List Event) : Prop :=
  ∃ more, Orderly setup (events ++ more) ∧ task.BeginsWith (events ++ more)

section

variable {setup : Setup M}

theorem Orderly.append {events more : List Event} (first : Orderly setup events)
    (second : Orderly setup more) : Orderly setup (events ++ more) := by
  induction first with
  | nil => exact second
  | other quiet _ ih => exact .other quiet ih
  | ask _ ih => exact .ask ih

/-- A module that is required where a name leads to it is what should come of the name. -/
theorem Orderly.linked {run : Run} {name : String} {id : Nat} {events : List Event}
    (leads : setup.target run.factory name = some id) (orderly : Orderly setup events)
    (begins : (Task.require id : Task M).BeginsWith events) :
    Orderly setup (.ask run name :: .call "localRequire" [.text name] :: events) := by
  have response : setup.response run name = .call "require" [.number id] := by
    rw [Setup.response, leads]
  cases orderly with
  | nil => exact absurd begins nofun
  | other quiet rest =>
    obtain rfl := Option.some.inj begins
    rw [← response]
    exact .ask rest
  | ask rest => exact absurd (Option.some.inj begins) nofun

/-- So is an error where it leads nowhere. -/
theorem Orderly.unlinked {run : Run} {name : String} {events : List Event}
    (orderly : Orderly setup events) (leads : setup.target run.factory name = none) :
    Orderly setup (asking run name ++ .answer run (missing name) :: events) := by
  have response : setup.response run name = .answer run (missing name) := by
    rw [Setup.response, leads]
  rw [← response]
  exact .ask orderly

theorem Yields.orderly {task : Task M} {before events : List Event} {memory after : M}
    {answer : Answer} (yields : Yields setup task before memory answer events after) :
    Orderly setup events ∧ task.BeginsWith events := by
  induction yields with
  | kept => exact ⟨.other nofun .nil, rfl⟩
  | fresh _ _ _ _ _ ih =>
    exact ⟨.other nofun (.other nofun (ih.1.append (.other nofun .nil))), rfl⟩
  | finish => exact ⟨.nil, trivial⟩
  | fail => exact ⟨.nil, trivial⟩
  | publish _ ih => exact ⟨.other nofun ih.1, trivial⟩
  | change _ ih => exact ⟨ih.1, trivial⟩
  | linked leads _ _ required ih =>
    refine ⟨?_, trivial⟩
    exact (Orderly.linked leads required.1 required.2).append (.other nofun ih.1)
  | unlinked leads _ ih =>
    exact ⟨ih.1.unlinked leads, trivial⟩

theorem Begun.prepend {run other : Run} {program program' : Program M} {events more : List Event}
    (orderly : Orderly setup events) (begun : Begun setup (.go run program) more) :
    Begun setup (.go other program') (events ++ more) := by
  obtain ⟨rest, continued, -⟩ := begun
  exact ⟨rest, by rw [List.append_assoc]; exact orderly.append continued, trivial⟩

end

end ModuleBundler.Execution
