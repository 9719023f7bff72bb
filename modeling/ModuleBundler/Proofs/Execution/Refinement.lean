/-
# ModuleBundler.Proofs.Execution.Refinement — linking functions do what linking is.

Whatever the machine does when an identity is required is what `Yields` says: the answer, the events
and the memory agree (`follows_require`).  The machine may only fail to get there where calls are
nested too deeply, and a bound on the nesting excludes that.  Requiring a module runs a factory, and
a factory requires modules at a smaller depth: so there is one lemma for each step of a factory and
one for each way in which a module answers, and the induction is on the depth.
-/
import ModuleBundler.Proofs.Execution.Linked

namespace ModuleBundler.Execution

variable {M : Type}

/-! ## Answers and results -/

/-- An answer as the result of a computation. -/
def Answer.result (answer : Answer) (machine : Machine M) :
    EStateM.Result Stop (Machine M) Value :=
  match answer with
  | .value returned => .ok returned machine
  | .error thrown => .error (.thrown thrown) machine

@[simp] theorem attempt_result {exec : Exec M Value} {machine after : Machine M} {answer : Answer}
    (ends : exec machine = answer.result after) : attempt exec machine = .ok answer after := by
  unfold attempt
  rw [ends]
  cases answer <;> rfl

theorem attempt_exhausted {exec : Exec M Value} {machine after : Machine M}
    (ends : exec machine = .error .exhausted after) :
    attempt exec machine = .error .exhausted after := by
  unfold attempt
  rw [ends]

@[simp] theorem settle_apply (answer : Answer) (machine : Machine M) :
    settle answer machine = answer.result machine := by
  cases answer <;> rfl

theorem invoke_factory (factories : Factories M) (depth number place : Nat) (require exports : Value)
    (machine : Machine M) :
    invoke factories (depth + 1) (.factory number) [require, .object place, exports] machine =
      runFactory (invoke factories depth) ⟨number, place⟩ require exports
        (factories number [require, .object place, exports]) machine := by
  rw [invoke]

section

variable {call : Value → List Value → Exec M Value} {run : Run} {require exports : Value}
variable {program : Program M} {machine after : Machine M}

theorem runFactory_result {answer : Answer}
    (ends : program.exec call run require (machine.log (.start run exports)) =
      answer.result after) :
    runFactory call run require exports program machine =
      answer.result (after.log (.stop run)) := by
  simp [runFactory, attempt_result ends]

theorem runFactory_exhausted
    (ends : program.exec call run require (machine.log (.start run exports)) =
      .error .exhausted after) :
    runFactory call run require exports program machine = .error .exhausted after := by
  simp [runFactory, attempt_exhausted ends]

end

/-! ## What is reached -/

/-- A task has been carried out: the machine has become another one, in the way in which the task
comes to its answer. -/
structure Carried (setup : Setup M) (size : Nat) (site : Site) (task : Task M) (machine : Machine M)
    (answer : Answer) (events : List Event) (after : Machine M) : Prop where
  yields : Yields setup task machine.trace machine.memory answer events after.memory
  trace : after.trace = machine.trace ++ events
  linked : Linked setup size site after
  later : Later site machine after

/-- A task has been begun and has not been followed to its end. -/
structure Interrupted (setup : Setup M) (site : Site) (task : Task M) (machine : Machine M)
    (events : List Event) (after : Machine M) : Prop where
  begun : Begun setup task events
  trace : after.trace = machine.trace ++ events
  later : Later site machine after

/-- What a computation comes to: the answer of a task, unless it was not allowed to nest calls as
deeply as it takes. -/
def Follows (setup : Setup M) (size : Nat) (site : Site) (enough : Prop) (task : Task M)
    (machine : Machine M) (result : EStateM.Result Stop (Machine M) Value) : Prop :=
  (∃ answer events after, result = answer.result after ∧
    Carried setup size site task machine answer events after) ∨
  (¬ enough ∧ ∃ events after, result = .error .exhausted after ∧
    Interrupted setup site task machine events after)

variable {setup : Setup M} {size : Nat} {site : Site} {machine between after : Machine M}
variable {within : Nat → List Event → Nat → Prop} {depth : Nat} {run : Run}

/-- A task is followed whose first steps have been taken, if what is left of it is. -/
theorem Follows.prepend {enough allowed : Prop} {task left : Task M} {first : List Event}
    {result : EStateM.Result Stop (Machine M) Value}
    (follows : Follows setup size site allowed left between result)
    (later : Later site machine between) (trace : between.trace = machine.trace ++ first)
    (weaker : enough → allowed)
    (yields : ∀ answer events memory,
      Yields setup left (machine.trace ++ first) between.memory answer events memory →
      Yields setup task machine.trace machine.memory answer (first ++ events) memory)
    (begun : ∀ events, Begun setup left events → Begun setup task (first ++ events)) :
    Follows setup size site enough task machine result := by
  rcases follows with
    ⟨answer, events, after, ends, carried⟩ | ⟨short, events, after, ends, interrupted⟩
  · refine Or.inl ⟨answer, first ++ events, after, ends, ?_⟩
    refine ⟨yields _ _ _ ?_, ?_, carried.linked, later.trans carried.later⟩
    · rw [← trace]
      exact carried.yields
    · rw [carried.trace, trace, List.append_assoc]
  · refine Or.inr ⟨fun ready => short (weaker ready), first ++ events, after, ends, ?_⟩
    refine ⟨begun _ interrupted.begun, ?_, later.trans interrupted.later⟩
    rw [interrupted.trace, trace, List.append_assoc]

/-! ## Depths -/

/-- A bound on how deeply modules that are required require others: a level is used up by every
module that begins to run. -/
def Descends (setup : Setup M) (size : Nat) (within : Nat → List Event → Nat → Prop) : Prop :=
  ∀ levels trace id, within levels trace id → id < size →
    (setup.caches = true → ∀ run ∈ starts trace, run.factory ≠ id) →
    ∃ fewer, levels = fewer + 1 ∧ ∀ run exports more name target, run.factory = id →
      setup.target id name = some target → within fewer (trace ++ opening run exports ++ more) target

/-- A depth suffices for a module: each level takes three calls. -/
def Enough (within : Nat → List Event → Nat → Prop) (depth : Nat) (trace : List Event) (id : Nat) :
    Prop :=
  ∃ levels, within levels trace id ∧ 3 * levels + 1 ≤ depth

/-- A depth suffices for what a factory requires from now on. -/
def Ready (setup : Setup M) (within : Nat → List Event → Nat → Prop) (depth : Nat) (run : Run)
    (trace : List Event) : Prop :=
  0 < depth ∧ ∀ more name id, setup.target run.factory name = some id →
    Enough within (depth - 1) (trace ++ more) id

theorem Ready.append {trace : List Event} (ready : Ready setup within depth run trace)
    (events : List Event) : Ready setup within depth run (trace ++ events) := by
  refine ⟨ready.1, fun more name id leads => ?_⟩
  rw [List.append_assoc]
  exact ready.2 (events ++ more) name id leads

theorem not_enough_zero {trace : List Event} {id : Nat} : ¬ Enough within 0 trace id := by
  rintro ⟨levels, -, le⟩
  omega

section

variable {trace : List Event}

/-- A call that cannot call a factory is not enough for a module that is not kept. -/
theorem Descends.not_enough (descends : Descends setup size within) {id : Nat} (inside : id < size)
    (isNew : setup.caches = true → ∀ run ∈ starts trace, run.factory ≠ id) :
    ¬ Enough within 1 trace id := by
  rintro ⟨levels, is, le⟩
  obtain ⟨fewer, rfl, -⟩ := descends levels trace id is inside isNew
  omega

/-- What is enough for a module that is not kept is enough for what its factory requires, two calls
below: what answers the identity calls the factory, and the factory what answers its names. -/
theorem Descends.ready (descends : Descends setup size within) (inside : run.factory < size)
    (isNew : setup.caches = true → ∀ other ∈ starts trace, other.factory ≠ run.factory)
    (enough : Enough within (depth + 2) trace run.factory) (exports : Value) :
    Ready setup within depth run (trace ++ opening run exports) := by
  obtain ⟨levels, is, le⟩ := enough
  obtain ⟨fewer, rfl, below⟩ := descends levels trace _ is inside isNew
  exact ⟨by omega, fun more name target leads =>
    ⟨fewer, below run exports more name target rfl leads, by omega⟩⟩

end

/-! ## Requiring modules, and what factories do -/

/-- At a depth, requiring modules follows what it should. -/
def Requires (setup : Setup M) (size : Nat) (site : Site)
    (within : Nat → List Event → Nat → Prop) (depth : Nat) : Prop :=
  ∀ machine id, Linked setup size site machine → id < size →
    Follows setup size site (Enough within depth machine.trace id) (.require id) machine
      (invoke setup.factories depth (requireFunction setup.caches site.scope) [.number id] machine)

/-- A machine on which a factory is at work, in the scope that it requires modules from. -/
structure Working (setup : Setup M) (size : Nat) (site : Site) (run : Run) (inner : Nat)
    (machine : Machine M) : Prop where
  linked : Linked setup size site machine
  started : run ∈ starts machine.trace
  names : machine.Binds inner (site.inner inner run)
  inside : inner < machine.scopes.length

/-- At a depth, what is left of a factory follows what it is said to do. -/
def Goes (setup : Setup M) (size : Nat) (site : Site) (within : Nat → List Event → Nat → Prop)
    (depth : Nat) (run : Run) (inner : Nat) (program : Program M) : Prop :=
  ∀ machine, Working setup size site run inner machine →
    Follows setup size site (Ready setup within depth run machine.trace) (.go run program) machine
      (program.exec (invoke setup.factories depth) run (localRequireFunction inner site.scope)
        machine)

variable {inner : Nat}

/-- A factory that has not begun anything else stays at work. -/
theorem Working.still (working : Working setup size site run inner machine)
    (linked : Linked setup size site after) (later : Later site machine after) {events : List Event}
    (trace : after.trace = machine.trace ++ events) :
    Working setup size site run inner after where
  linked := linked
  started := by
    rw [trace, starts_append]
    exact List.mem_append_left _ working.started
  names := later.binds working.inside working.names
  inside := Nat.lt_of_lt_of_le working.inside later.length_le

/-! ### A factory asks for a name -/

/-- A factory has asked for a name and has been answered. -/
structure Asked (setup : Setup M) (size : Nat) (site : Site) (run : Run) (name : String)
    (machine : Machine M) (answer : Answer) (events : List Event) (between : Machine M) : Prop where
  trace : between.trace = machine.trace ++ events
  linked : Linked setup size site between
  later : Later site machine between
  orderly : Orderly setup (events ++ [.answer run answer])
  yields : ∀ (next : Answer → Program M) result more after,
    Yields setup (.go run (next answer)) (machine.trace ++ events ++ [.answer run answer])
      between.memory result more after →
    Yields setup (.go run (.require name next)) machine.trace machine.memory result
      (events ++ .answer run answer :: more) after

/-- What asking for a name comes to: an answer, unless calls may not be nested as deeply as it
takes. -/
def Replies (setup : Setup M) (size : Nat) (site : Site) (enough : Prop) (run : Run) (name : String)
    (next : Answer → Program M) (machine : Machine M)
    (result : EStateM.Result Stop (Machine M) Answer) : Prop :=
  (∃ answer events between, result = .ok answer between ∧
    Asked setup size site run name machine answer events between) ∨
  (¬ enough ∧ ∃ events after, result = .error .exhausted after ∧
    Interrupted setup site (.go run (.require name next)) machine events after)

section

variable {name : String}

theorem trace_asked : ((machine.log (.ask run name)).asked name).trace =
    machine.trace ++ asking run name := by
  simp [Machine.asked, asking]

theorem memory_asked : ((machine.log (.ask run name)).asked name).memory = machine.memory := by
  simp [Machine.asked]

theorem Later.asked : Later site machine ((machine.log (.ask run name)).asked name) :=
  (((Later.refl site machine).log _).log _).enter _

theorem Working.asked (working : Working setup size site run inner machine) :
    Linked setup size site ((machine.log (.ask run name)).asked name) :=
  ((working.linked.note working.started rfl rfl fun _ _ => rfl).call _ _).enter _

variable {shallower : Nat}

/-- A name that leads to a module is answered by it. -/
theorem replies_linked (requires : Requires setup size site within shallower)
    (working : Working setup size site run inner machine) (inside : run.factory < size) {id : Nat}
    (target : setup.target run.factory name = some id) (id_lt : id < size)
    (next : Answer → Program M) :
    Replies setup size site (Ready setup within (shallower + 1) run machine.trace) run name next
      machine (attempt (invoke setup.factories (shallower + 1)
        (localRequireFunction inner site.scope) [.text name]) (machine.log (.ask run name))) := by
  have linked : Linked setup size site (machine.log (.ask run name)) :=
    working.linked.note working.started rfl rfl fun _ _ => rfl
  have noted : Working setup size site run inner (machine.log (.ask run name)) :=
    working.still linked ((Later.refl site machine).log _) (Machine.trace_log ..)
  have leads := linked.leads run.factory inside name
  rw [target] at leads
  have linking := invoke_localRequire_linked setup.factories shallower noted.names noted.inside
    linked.outer linked.outside leads
  rcases requires _ id working.asked id_lt with
    ⟨answer, events, after, ends, carried⟩ | ⟨short, events, after, ends, interrupted⟩
  · refine Or.inl ⟨answer, asking run name ++ events, after,
      attempt_result (linking.trans ends), ?_⟩
    exact
      { trace := by rw [carried.trace, trace_asked, List.append_assoc]
        linked := carried.linked
        later := Later.asked.trans carried.later
        orderly := by
          obtain ⟨orderly, begins⟩ := carried.yields.orderly
          exact (Orderly.linked target orderly begins).append (.other nofun .nil)
        yields := fun next result more final rest => by
          have required := carried.yields
          rw [trace_asked, memory_asked] at required
          rw [← List.append_assoc] at rest
          exact .linked target required rest }
  · refine Or.inr ⟨fun ready => short ?_, asking run name ++ events, after,
      attempt_exhausted (linking.trans ends), ?_⟩
    · rw [trace_asked]
      exact ready.2 _ name id target
    · obtain ⟨more, orderly, begins⟩ := interrupted.begun
      refine ⟨⟨more, Orderly.linked target orderly begins, trivial⟩, ?_,
        Later.asked.trans interrupted.later⟩
      rw [interrupted.trace, trace_asked, List.append_assoc]

/-- Any other name is answered by an error. -/
theorem replies_unlinked (working : Working setup size site run inner machine)
    (inside : run.factory < size) (target : setup.target run.factory name = none) (enough : Prop)
    (next : Answer → Program M) :
    Replies setup size site enough run name next machine (attempt (invoke setup.factories
      (shallower + 1) (localRequireFunction inner site.scope) [.text name])
        (machine.log (.ask run name))) := by
  have linked : Linked setup size site (machine.log (.ask run name)) :=
    working.linked.note working.started rfl rfl fun _ _ => rfl
  have noted : Working setup size site run inner (machine.log (.ask run name)) :=
    working.still linked ((Later.refl site machine).log _) (Machine.trace_log ..)
  have leads := linked.leads run.factory inside name
  rw [target] at leads
  have ends := invoke_localRequire_unlinked setup.factories shallower noted.names noted.inside
    linked.outer linked.outside leads
  have answers : _ = (missing name).result _ := ends
  refine Or.inl ⟨missing name, asking run name, _, attempt_result answers, ?_⟩
  exact
    { trace := trace_asked
      linked := working.asked
      later := .asked
      orderly := Orderly.nil.unlinked target
      yields := fun next result more final rest => by
        rw [memory_asked] at rest
        exact .unlinked target rest }

/-- A factory that asks for a name is answered, if requiring modules does what it should. -/
theorem replies_ask
    (closed : ∀ id < size, ∀ name target, setup.target id name = some target → target < size)
    (requires : ∀ shallower, shallower + 1 = depth → Requires setup size site within shallower)
    (inside : run.factory < size) (working : Working setup size site run inner machine)
    (name : String) (next : Answer → Program M) :
    Replies setup size site (Ready setup within depth run machine.trace) run name next machine
      (attempt (invoke setup.factories depth (localRequireFunction inner site.scope) [.text name])
        (machine.log (.ask run name))) := by
  cases depth with
  | zero =>
    -- there is no call left for the name that is asked for
    refine Or.inr ⟨fun ready => Nat.lt_irrefl 0 ready.1, [.ask run name],
      machine.log (.ask run name), attempt_exhausted rfl, ?_⟩
    exact ⟨⟨_, .ask .nil, trivial⟩, by simp, (Later.refl site machine).log _⟩
  | succ shallower =>
    cases target : setup.target run.factory name with
    | some id =>
      exact replies_linked (requires shallower rfl) working inside target
        (closed _ inside name id target) next
    | none => exact replies_unlinked working inside target _ next

end

/-! ### The steps of a factory -/

theorem goes_finish : Goes setup size site within depth run inner .finish := by
  intro machine working
  exact Or.inl ⟨.value .undefined, [], machine, rfl,
    { yields := .finish, trace := by simp, linked := working.linked, later := .refl site machine }⟩

theorem goes_fail (error : Value) : Goes setup size site within depth run inner (.fail error) := by
  intro machine working
  exact Or.inl ⟨.error error, [], machine, rfl,
    { yields := .fail, trace := by simp, linked := working.linked, later := .refl site machine }⟩

theorem goes_publish (fits : site.Fits setup.caches size) (value : Value) {program : Program M}
    (rest : Goes setup size site within depth run inner program) :
    Goes setup size site within depth run inner (.publish value program) := by
  intro machine working
  have behind := working.linked.behind fits working.started
  have later : Later site machine
      ((machine.log (.publish run value)).put run.module "exports" value) :=
    ((Later.refl site machine).log _).put behind _ _
  have trace : ((machine.log (.publish run value)).put run.module "exports" value).trace =
      machine.trace ++ [.publish run value] := by
    simp
  have linked := working.linked.publish fits working.started value
  refine (rest _ (working.still linked later trace)).prepend later trace ?_ ?_ ?_
  · intro ready
    rw [trace]
    exact ready.append _
  · intro answer events memory yields
    exact .publish (by simpa using yields)
  · intro events begun
    exact begun.prepend (.other nofun .nil)

theorem goes_change (f : M → M) {programs : M → Program M}
    (rest : ∀ memory, Goes setup size site within depth run inner (programs memory)) :
    Goes setup size site within depth run inner (.change f programs) := by
  intro machine working
  have later : Later site machine (machine.setMemory (f machine.memory)) :=
    (Later.refl site machine).setMemory _
  have trace : (machine.setMemory (f machine.memory)).trace = machine.trace ++ [] := by simp
  have linked := working.linked.setMemory (f machine.memory)
  refine (rest (f machine.memory) _ (working.still linked later trace)).prepend later trace ?_ ?_ ?_
  · intro ready
    rw [trace]
    exact ready.append _
  · intro answer events memory yields
    exact .change (by simpa using yields)
  · intro events begun
    exact begun.prepend .nil

theorem goes_require
    (closed : ∀ id < size, ∀ name target, setup.target id name = some target → target < size)
    (requires : ∀ shallower, shallower + 1 = depth → Requires setup size site within shallower)
    (inside : run.factory < size) (name : String) {programs : Answer → Program M}
    (rest : ∀ answer, Goes setup size site within depth run inner (programs answer)) :
    Goes setup size site within depth run inner (.require name programs) := by
  intro machine working
  rcases replies_ask closed requires inside working name programs with
    ⟨answer, events, between, ends, asked⟩ | ⟨short, events, after, ends, interrupted⟩
  · have answering := working.still asked.linked asked.later asked.trace
    have trace : (between.log (.answer run answer)).trace =
        machine.trace ++ (events ++ [.answer run answer]) := by
      simp [asked.trace]
    have later : Later site machine (between.log (.answer run answer)) := asked.later.log _
    have linked : Linked setup size site (between.log (.answer run answer)) :=
      asked.linked.note answering.started rfl rfl fun _ _ => rfl
    have goes : (Program.require name programs).exec (invoke setup.factories depth) run
        (localRequireFunction inner site.scope) machine =
          (programs answer).exec (invoke setup.factories depth) run
            (localRequireFunction inner site.scope) (between.log (.answer run answer)) := by
      simp [Program.exec, ends]
    rw [goes]
    refine (rest answer _ (working.still linked later trace)).prepend later trace ?_ ?_ ?_
    · intro ready
      rw [trace]
      exact ready.append _
    · intro result more memory yields
      have yields := asked.yields programs result more memory (by simpa using yields)
      simpa using yields
    · intro more begun
      exact begun.prepend asked.orderly
  · exact Or.inr ⟨short, events, after, by simp [Program.exec, ends], interrupted⟩

/-- What a factory does follows what it is said to do, if requiring modules does. -/
theorem goes_program (fits : site.Fits setup.caches size)
    (closed : ∀ id < size, ∀ name target, setup.target id name = some target → target < size)
    (requires : ∀ shallower, shallower + 1 = depth → Requires setup size site within shallower)
    (inside : run.factory < size) (program : Program M) :
    Goes setup size site within depth run inner program := by
  induction program with
  | finish => exact goes_finish
  | fail error => exact goes_fail error
  | publish value _ ih => exact goes_publish fits value ih
  | change f _ ih => exact goes_change f ih
  | require name _ ih => exact goes_require closed requires inside name ih

/-! ## Modules -/

/-- A module that is kept answers from the cache. -/
theorem follows_kept (linked : Linked setup size site machine) (caches : setup.caches = true)
    (started : run ∈ starts machine.trace) (enough : Prop) :
    Follows setup size site enough (.require run.factory) machine
      (invoke setup.factories (depth + 1) (requireFunction setup.caches site.scope)
        [.number run.factory] machine) := by
  obtain ⟨value, known, own⟩ := linked.exports run started
  have outer := linked.outer
  rw [caches] at outer
  refine Or.inl ⟨.value value, [.call "require" [.number run.factory]],
    machine.required site run.factory, ?_, ?_⟩
  · rw [caches]
    exact invoke_require_kept _ _ outer linked.outside (linked.kept caches run started) own
  · refine ⟨?_, by simp [Machine.required], (linked.call _ _).enter _, ?_⟩
    · have memory : (machine.required site run.factory).memory = machine.memory := by
        simp [Machine.required]
      rw [memory]
      exact .kept caches started known
    · exact ((Later.refl site machine).log _).enter _

/-! ### A module that is not kept -/

section

variable {id : Nat}

/-- A factory that begins to run is at work. -/
theorem working_running (linked : Linked setup size site machine)
    (fits : site.Fits setup.caches size)
    (isNew : setup.caches = true → ∀ run ∈ starts machine.trace, run.factory ≠ id) :
    Working setup size site (machine.newRun id) machine.scopes.length
      (machine.running setup.caches site id) where
  linked := linked.running fits isNew
  started := mem_starts_running.mpr (Or.inr rfl)
  names := binds_running_self
  inside := by simp

/-- When its factory has run, the module is answered with what it exports then. -/
theorem Carried.closing {require : Value} {answer : Answer} {events : List Event}
    (carried : Carried setup size site (.go (machine.newRun id) (setup.factories id
        [require, .object (machine.newRun id).module, .object machine.objects.length]))
      (machine.running setup.caches site id) answer events after)
    (linked : Linked setup size site machine) (fits : site.Fits setup.caches size)
    (isNew : setup.caches = true → ∀ run ∈ starts machine.trace, run.factory ≠ id) :
    ∃ value, after.own (machine.newRun id).module "exports" = some value ∧
      Carried setup size site (.require id) machine (answer.exporting value)
        (opening (machine.newRun id) (.object machine.objects.length) ++ events ++
          [.stop (machine.newRun id)]) (after.log (.stop (machine.newRun id))) := by
  have working := working_running linked fits isNew
  have done := working.still carried.linked carried.later carried.trace
  obtain ⟨value, final, own⟩ := carried.linked.exports _ done.started
  have unused : ∀ event ∈ machine.trace, event.run? ≠ some (machine.newRun id) :=
    linked.unused (by simp [Machine.newRun])
  have body := carried.yields
  rw [trace_running, memory_running] at body
  rw [carried.trace, trace_running] at final
  refine ⟨value, own, ?_⟩
  exact
    { yields := by
        rw [Machine.memory_log]
        exact .fresh isNew unused body final (linked.given require)
      trace := by simp [carried.trace]
      linked := carried.linked.note done.started rfl rfl fun _ _ => rfl
      later := ((Later.running (linked.cache_le fits) id).trans carried.later).log _ }

/-- As long as its factory runs, the module has been begun. -/
theorem Interrupted.required {program : Program M} {events : List Event}
    (interrupted : Interrupted setup site (.go (machine.newRun id) program)
      (machine.running setup.caches site id) events after)
    (inside : site.cache ≤ machine.objects.length) :
    Interrupted setup site (.require id) machine
      (opening (machine.newRun id) (.object machine.objects.length) ++ events) after where
  begun := by
    obtain ⟨more, orderly, -⟩ := interrupted.begun
    exact ⟨more, .other nofun (.other nofun orderly), rfl⟩
  trace := by rw [interrupted.trace, trace_running, List.append_assoc]
  later := (Later.running inside id).trans interrupted.later

/-- A module that is not kept answers when its factory has run. -/
theorem follows_fresh (fits : site.Fits setup.caches size)
    (descends : Descends setup size within)
    (linked : Linked setup size site machine) (inside : id < size)
    (isNew : setup.caches = true → ∀ run ∈ starts machine.trace, run.factory ≠ id)
    (goes : ∀ shallower, shallower + 1 = depth → ∀ program : Program M, ∀ run inner,
      run.factory < size → Goes setup size site within shallower run inner program) :
    Follows setup size site (Enough within (depth + 1) machine.trace id) (.require id) machine
      (invoke setup.factories (depth + 1) (requireFunction setup.caches site.scope) [.number id]
        machine) := by
  have behind := linked.cache_le fits
  rw [invoke_require_fresh _ _ linked.outer linked.outside (linked.registered id inside)
    fun caches => linked.absent caches id (isNew caches)]
  have names := binds_opened_self setup.caches site machine id
  have own : (machine.opened setup.caches site id).own (machine.newRun id).module "exports" =
      some (.object machine.objects.length) := own_opened_module (by omega)
  cases depth with
  | zero =>
    -- there is no call left for the factory
    have called : invoke setup.factories 0 (.factory (machine.newRun id).factory)
        [localRequireFunction machine.scopes.length site.scope,
          .object (machine.newRun id).module, .object machine.objects.length]
        (machine.opened setup.caches site id) = .error .exhausted _ := rfl
    refine Or.inr ⟨descends.not_enough inside isNew, [.call "require" [.number id]], _,
      by rw [exec_runFactory_error names own called]; rfl, ?_⟩
    exact ⟨⟨[], .other nofun .nil, rfl⟩, by simp, .opened behind id⟩
  | succ shallower =>
    have called := invoke_factory setup.factories shallower (machine.newRun id).factory
      (machine.newRun id).module (localRequireFunction machine.scopes.length site.scope)
      (.object machine.objects.length) (machine.opened setup.caches site id)
    have working := working_running linked fits isNew
    rcases goes shallower rfl (setup.factories id
      [localRequireFunction machine.scopes.length site.scope, .object (machine.newRun id).module,
        .object machine.objects.length]) _ _ inside _ working with
      ⟨answer, events, after, ends, carried⟩ | ⟨short, events, after, ends, interrupted⟩
    · obtain ⟨value, final, closing⟩ := carried.closing linked fits isNew
      refine Or.inl ⟨_, _, _, ?_, closing⟩
      have called := called.trans (runFactory_result ends)
      have still : (after.log (.stop (machine.newRun id))).Binds machine.scopes.length
          (site.inner machine.scopes.length (machine.newRun id)) :=
        (carried.later.log _).binds working.inside working.names
      cases answer with
      | value returned =>
        rw [exec_runFactory_ok names own called still (by simpa using final)]
        rfl
      | error thrown =>
        rw [exec_runFactory_error names own called]
        rfl
    · have called := called.trans (runFactory_exhausted ends)
      refine Or.inr ⟨fun enough => short ?_, _, after,
        by rw [exec_runFactory_error names own called]; rfl, interrupted.required behind⟩
      rw [trace_running]
      exact descends.ready inside isNew enough _

end

/-- Whatever the machine does when an identity is required, it does as modules are linked, and it
gets there if a depth is allowed that suffices. -/
theorem follows_require (fits : site.Fits setup.caches size)
    (closed : ∀ id < size, ∀ name target, setup.target id name = some target → target < size)
    (descends : Descends setup size within) (depth : Nat) :
    ∀ machine id, Linked setup size site machine → id < size →
      Follows setup size site (Enough within depth machine.trace id) (.require id) machine
        (invoke setup.factories depth (requireFunction setup.caches site.scope) [.number id]
          machine) := by
  induction depth using Nat.strongRecOn with
  | ind depth ih =>
    intro machine id linked inside
    cases depth with
    | zero =>
      refine Or.inr ⟨not_enough_zero, [], machine, rfl, ?_⟩
      exact ⟨⟨[.call "require" [.number id]], .other nofun .nil, rfl⟩, by simp, .refl site machine⟩
    | succ depth =>
      by_cases isKept : setup.caches = true ∧ ∃ run ∈ starts machine.trace, run.factory = id
      · obtain ⟨caches, run, started, rfl⟩ := isKept
        exact follows_kept linked caches started _
      · have isNew : setup.caches = true → ∀ run ∈ starts machine.trace, run.factory ≠ id :=
          fun caches run started same => isKept ⟨caches, run, started, same⟩
        refine follows_fresh fits descends linked inside isNew ?_
        rintro shallower rfl program run inner factory_lt
        refine goes_program fits closed ?_ factory_lt program
        rintro deepest rfl
        exact ih deepest (by omega)

end ModuleBundler.Execution
