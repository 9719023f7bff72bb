/-
# ModuleBundler.Proofs.Execution.Linked — what holds while a linking function is at work.

`Linked` says where a linking function keeps things and what the cache and the modules hold, given
what has happened so far; `Later` says what it leaves alone.  There is a lemma for each step of the
machine: a scope is entered, the memory changes, an event is taken down, a factory replaces what its
module exports (`Linked.publish`), and a factory begins to run (`Linked.running`).
-/
import ModuleBundler.Proofs.Execution.Calls

namespace ModuleBundler.Execution

variable {M : Type}

/-! ## A factory that begins to run -/

section

variable {caches : Bool} {site : Site} {machine : Machine M} {id : Nat}

/-- The machine when the factory of a module begins to run. -/
def Machine.running (caches : Bool) (site : Site) (id : Nat) (machine : Machine M) : Machine M :=
  (machine.opened caches site id).log (.start (machine.newRun id) (.object machine.objects.length))

@[simp] theorem trace_running :
    (machine.running caches site id).trace =
      machine.trace ++ opening (machine.newRun id) (.object machine.objects.length) := by
  simp [Machine.running, opening, Machine.newRun]

@[simp] theorem memory_running : (machine.running caches site id).memory = machine.memory := by
  simp [Machine.running]

@[simp] theorem length_objects_running :
    (machine.running caches site id).objects.length = machine.objects.length + 2 := by
  simp [Machine.running]

@[simp] theorem length_scopes_running :
    (machine.running caches site id).scopes.length = machine.scopes.length + 1 := by
  simp [Machine.running]

@[simp] theorem own_running (place : Nat) (key : String) :
    (machine.running caches site id).own place key =
      (machine.opened caches site id).own place key := by
  simp [Machine.running]

theorem binds_running_self :
    (machine.running caches site id).Binds machine.scopes.length
      (site.inner machine.scopes.length (machine.newRun id)) := by
  intro name
  simpa [Machine.running] using binds_opened_self caches site machine id name

theorem mem_starts_running {run : Run} :
    run ∈ starts (machine.running caches site id).trace ↔
      run ∈ starts machine.trace ∨ run = machine.newRun id := by
  simp

/-- What was made before the cache is as it was. -/
theorem own_opened_of_below {place : Nat} (below : place < site.cache)
    (inside : site.cache ≤ machine.objects.length) (key : String) :
    (machine.opened caches site id).own place key = machine.own place key := by
  apply own_opened_of_lt (Nat.lt_of_lt_of_le below inside)
  rintro ⟨-, rfl, -⟩
  exact Nat.lt_irrefl _ below

end

/-! ## What is left alone -/

/-- A machine that another one becomes: scopes that were there keep what names stand for, and what
was made before the cache stays as it is. -/
structure Later (site : Site) (machine after : Machine M) : Prop where
  length_le : machine.scopes.length ≤ after.scopes.length
  lookUp : ∀ scope < machine.scopes.length, ∀ name,
    after.lookUp scope name = machine.lookUp scope name
  own : ∀ place < site.cache, ∀ key, after.own place key = machine.own place key
  scripts : after.scripts = machine.scripts

namespace Later

variable {site : Site} {machine between after : Machine M}

theorem refl (site : Site) (machine : Machine M) : Later site machine machine :=
  ⟨Nat.le_refl _, fun _ _ _ => rfl, fun _ _ _ => rfl, rfl⟩

theorem trans (first : Later site machine between) (second : Later site between after) :
    Later site machine after where
  length_le := Nat.le_trans first.length_le second.length_le
  lookUp scope inside name := by
    have still : scope < between.scopes.length := Nat.lt_of_lt_of_le inside first.length_le
    rw [second.lookUp scope still name, first.lookUp scope inside name]
  own place below key := by rw [second.own place below key, first.own place below key]
  scripts := second.scripts.trans first.scripts

theorem binds (later : Later site machine after) {scope : Nat} {bindings : Bindings}
    (inside : scope < machine.scopes.length) (binds : machine.Binds scope bindings) :
    after.Binds scope bindings := fun name => by
  rw [later.lookUp scope inside name, binds name]

theorem log (later : Later site machine after) (event : Event) :
    Later site machine (after.log event) :=
  later.trans ⟨by simp, fun _ _ _ => by simp, fun _ _ _ => by simp, by simp⟩

theorem enter (later : Later site machine after) (bindings : Bindings) :
    Later site machine (after.enter bindings) :=
  later.trans ⟨by simp, fun _ inside _ => by simp [Nat.ne_of_lt inside], fun _ _ _ => by simp,
    by simp⟩

theorem setMemory (later : Later site machine after) (memory : M) :
    Later site machine (after.setMemory memory) :=
  later.trans ⟨by simp, fun _ _ _ => by simp, fun _ _ _ => by simp, by simp⟩

theorem put (later : Later site machine after) {place : Nat} (behind : site.cache ≤ place)
    (key : String) (value : Value) : Later site machine (after.put place key value) := by
  refine later.trans ⟨by simp, fun _ _ _ => by simp, fun other below _ => ?_, by simp⟩
  have apart : other ≠ place := by omega
  simp [apart]

theorem opened {caches : Bool} (inside : site.cache ≤ machine.objects.length) (id : Nat) :
    Later site machine (machine.opened caches site id) where
  length_le := by simp
  lookUp scope lt name := lookUp_opened_of_lt id lt name
  own place below key := own_opened_of_below below inside key
  scripts := scripts_opened id

theorem running {caches : Bool} (inside : site.cache ≤ machine.objects.length) (id : Nat) :
    Later site machine (machine.running caches site id) :=
  (Later.opened inside id).log _

end Later

/-! ## The invariant -/

/-- The objects of the registry were made before the cache, and the cache before any module. -/
structure Site.Fits (site : Site) (caches : Bool) (size : Nat) : Prop where
  registry_lt : site.registry < site.cache
  entry_lt : ∀ id < size, site.entry id < site.cache
  mapping_lt : ∀ id < size, site.mapping id < site.cache
  cache_le : site.cache ≤ site.base
  cache_lt : caches = true → site.cache < site.base

/-- A machine on which a linking function is at work. -/
structure Linked (setup : Setup M) (size : Nat) (site : Site) (machine : Machine M) : Prop where
  outside : site.scope < machine.scopes.length
  outer : machine.Binds site.scope (site.bindings setup.caches)
  base_le : site.base ≤ machine.objects.length
  registered : ∀ id < size, Registered site id machine
  leads : ∀ id < size, ∀ name,
    machine.own (site.mapping id) name = (setup.target id name).map .number
  /-- the cache has the module of every factory that has begun to run, and nothing else -/
  kept : setup.caches = true → ∀ run ∈ starts machine.trace,
    machine.own site.cache run.factory.repr = some (.object run.module)
  absent : setup.caches = true → ∀ id, (∀ run ∈ starts machine.trace, run.factory ≠ id) →
    machine.own site.cache id.repr = none
  exports : ∀ run ∈ starts machine.trace, ∃ value,
    exportsOf run machine.trace = some value ∧ machine.own run.module "exports" = some value
  placed : ∀ event ∈ machine.trace, ∀ run, event.run? = some run →
    site.base ≤ run.module ∧ run.module < machine.objects.length
  /-- every run has a module of its own -/
  distinct : ∀ run ∈ starts machine.trace, ∀ other ∈ starts machine.trace,
    run.module = other.module → run = other
  /-- what is exported at first is an object -/
  objects : ∀ run value, .start run value ∈ machine.trace →
    ∃ place < machine.objects.length, value = .object place

/-- The registry has what it had, where what was made before the cache has not changed. -/
theorem Registered.of_below {site : Site} {caches : Bool} {size id : Nat}
    {machine after : Machine M} (registered : Registered site id machine)
    (fits : site.Fits caches size) (inside : id < size)
    (own : ∀ place < site.cache, ∀ key, after.own place key = machine.own place key) :
    Registered site id after where
  entry := by rw [own _ fits.registry_lt, registered.entry]
  factory := by rw [own _ (fits.entry_lt id inside), registered.factory]
  mapping := by rw [own _ (fits.entry_lt id inside), registered.mapping]

namespace Linked

variable {setup : Setup M} {size : Nat} {site : Site} {machine : Machine M}

theorem placed_of_started (linked : Linked setup size site machine) {run : Run}
    (started : run ∈ starts machine.trace) :
    site.base ≤ run.module ∧ run.module < machine.objects.length := by
  obtain ⟨exports, mem⟩ := mem_starts_iff.mp started
  exact linked.placed _ mem run rfl

theorem cache_le (linked : Linked setup size site machine) (fits : site.Fits setup.caches size) :
    site.cache ≤ machine.objects.length :=
  Nat.le_trans fits.cache_le linked.base_le

theorem cache_lt (linked : Linked setup size site machine) (fits : site.Fits setup.caches size)
    (caches : setup.caches = true) : site.cache < machine.objects.length :=
  Nat.lt_of_lt_of_le (fits.cache_lt caches) linked.base_le

/-- Modules are made behind the cache. -/
theorem behind (linked : Linked setup size site machine) (fits : site.Fits setup.caches size)
    {run : Run} (started : run ∈ starts machine.trace) : site.cache ≤ run.module :=
  Nat.le_trans fits.cache_le (linked.placed_of_started started).1

/-- The cache is not a module. -/
theorem cache_ne (linked : Linked setup size site machine) (fits : site.Fits setup.caches size)
    (caches : setup.caches = true) {run : Run} (started : run ∈ starts machine.trace) :
    site.cache ≠ run.module :=
  Nat.ne_of_lt (Nat.lt_of_lt_of_le (fits.cache_lt caches) (linked.placed_of_started started).1)

/-- The module of a run that is yet to begin is not in use. -/
theorem module_ne_newRun (linked : Linked setup size site machine) {run : Run}
    (started : run ∈ starts machine.trace) (id : Nat) :
    run.module ≠ (machine.newRun id).module := by
  have inside := (linked.placed_of_started started).2
  simp only [Machine.newRun]
  omega

/-- An object that is not in use yet has not been exported at first. -/
theorem given (linked : Linked setup size site machine) {run : Run} (require : Value) :
    Given run machine.trace [require, .object run.module, .object machine.objects.length]
      (.object machine.objects.length) where
  arguments := ⟨require, rfl⟩
  isObject := ⟨_, rfl⟩
  isNew other mem := by
    obtain ⟨place, inside, same⟩ := linked.objects other _ mem
    obtain rfl := Value.object.inj same
    exact Nat.lt_irrefl _ inside

/-- A run on a place that is not in use yet has not been heard of. -/
theorem unused (linked : Linked setup size site machine) {run : Run}
    (isNew : machine.objects.length ≤ run.module) :
    ∀ event ∈ machine.trace, event.run? ≠ some run := by
  intro event mem same
  have placed := (linked.placed event mem run same).2
  omega

/-! ### Scopes, memory and events -/

/-- Nothing else matters than the objects, what has happened and the scope of the linking
function. -/
theorem of_objects (linked : Linked setup size site machine) {after : Machine M}
    (later : Later site machine after) (objects : after.objects = machine.objects)
    (trace : after.trace = machine.trace) : Linked setup size site after := by
  have own : ∀ place key, after.own place key = machine.own place key := fun place key => by
    rw [Machine.own, objects, Machine.own]
  exact
    { outside := Nat.lt_of_lt_of_le linked.outside later.length_le
      outer := later.binds linked.outside linked.outer
      base_le := by simpa only [objects] using linked.base_le
      registered := fun id inside => by
        obtain ⟨entry, factory, mapping⟩ := linked.registered id inside
        constructor <;> simpa only [own]
      leads := by simpa only [own] using linked.leads
      kept := by simpa only [own, trace] using linked.kept
      absent := by simpa only [own, trace] using linked.absent
      exports := by simpa only [own, trace] using linked.exports
      placed := by simpa only [objects, trace] using linked.placed
      distinct := by simpa only [trace] using linked.distinct
      objects := by simpa only [objects, trace] using linked.objects }

theorem enter (linked : Linked setup size site machine) (bindings : Bindings) :
    Linked setup size site (machine.enter bindings) :=
  linked.of_objects ((Later.refl site machine).enter bindings) rfl rfl

theorem setMemory (linked : Linked setup size site machine) (memory : M) :
    Linked setup size site (machine.setMemory memory) :=
  linked.of_objects ((Later.refl site machine).setMemory memory) rfl rfl

/-- What is only taken down changes nothing. -/
theorem log (linked : Linked setup size site machine) {event : Event}
    (quiet : event.started? = none) (still : ∀ run before, event.exported run before = before)
    (known : ∀ run, event.run? = some run → run ∈ starts machine.trace) :
    Linked setup size site (machine.log event) where
  outside := by simpa using linked.outside
  outer name := by simpa using linked.outer name
  base_le := by simpa using linked.base_le
  registered id inside := by
    obtain ⟨entry, factory, mapping⟩ := linked.registered id inside
    constructor <;> simpa
  leads id inside name := by simpa using linked.leads id inside name
  kept := by simpa [quiet] using linked.kept
  absent := by simpa [quiet] using linked.absent
  exports := by simpa [quiet, still] using linked.exports
  placed := by
    intro other mem run isRun
    rw [Machine.trace_log, List.mem_append, List.mem_singleton] at mem
    rw [Machine.objects_log]
    rcases mem with mem | rfl
    · exact linked.placed other mem run isRun
    · exact linked.placed_of_started (known run isRun)
  distinct := by simpa [quiet] using linked.distinct
  objects := by
    intro run value mem
    rw [Machine.trace_log, List.mem_append, List.mem_singleton] at mem
    rw [Machine.objects_log]
    rcases mem with mem | rfl
    · exact linked.objects run value mem
    · exact absurd quiet nofun

theorem call (linked : Linked setup size site machine) (name : String) (arguments : List Value) :
    Linked setup size site (machine.log (.call name arguments)) :=
  linked.log rfl (fun _ _ => rfl) nofun

/-- What is noted of a run that has begun changes nothing. -/
theorem note (linked : Linked setup size site machine) {run : Run} {event : Event}
    (started : run ∈ starts machine.trace) (isRun : event.run? = some run)
    (quiet : event.started? = none) (still : ∀ run before, event.exported run before = before) :
    Linked setup size site (machine.log event) :=
  linked.log quiet still fun other same => by
    obtain rfl : run = other := Option.some.inj (isRun.symm.trans same)
    exact started

/-! ### What a module exports -/

/-- A module exports what its factory has put there last, and the others what they did before. -/
theorem exports_publish (linked : Linked setup size site machine) {run other : Run}
    (started : run ∈ starts machine.trace) (mem : other ∈ starts machine.trace) (value : Value) :
    ∃ exports, exportsOf other (machine.trace ++ [.publish run value]) = some exports ∧
      (machine.put run.module "exports" value).own other.module "exports" = some exports := by
  have inside := (linked.placed_of_started started).2
  obtain ⟨before, known, own⟩ := linked.exports other mem
  by_cases same : other = run
  · subst same
    exact ⟨value, by simp [Event.exported], by simp [inside]⟩
  · -- the runs differ, and so do their modules
    have apart : other.module ≠ run.module := fun equal =>
      same (linked.distinct other mem run started equal)
    exact ⟨before, by simp [Event.exported, Ne.symm same, known], by simp [apart, own]⟩

/-- A factory may replace what its module exports. -/
theorem publish (linked : Linked setup size site machine) (fits : site.Fits setup.caches size)
    {run : Run} (started : run ∈ starts machine.trace) (value : Value) :
    Linked setup size site
      ((machine.log (.publish run value)).put run.module "exports" value) := by
  have behind := linked.behind fits started
  have later : Later site machine
      ((machine.log (.publish run value)).put run.module "exports" value) :=
    ((Later.refl site machine).log _).put behind _ _
  exact
    { outside := by simpa using linked.outside
      outer := later.binds linked.outside linked.outer
      base_le := by simpa using linked.base_le
      registered := fun id inside => (linked.registered id inside).of_below fits inside later.own
      leads := fun id inside name => by
        rw [later.own _ (fits.mapping_lt id inside), linked.leads id inside]
      kept := fun caches other mem => by
        have apart := linked.cache_ne fits caches started
        simpa [apart] using linked.kept caches other (by simpa [Event.started?] using mem)
      absent := fun caches id isNew => by
        have apart := linked.cache_ne fits caches started
        simpa [apart] using linked.absent caches id (by simpa [Event.started?] using isNew)
      exports := fun other mem => by
        have mem : other ∈ starts machine.trace := by simpa [Event.started?] using mem
        simpa using linked.exports_publish started mem value
      placed := fun event mem other isRun => by
        rw [Machine.trace_put, Machine.trace_log, List.mem_append, List.mem_singleton] at mem
        rw [Machine.length_objects_put, Machine.objects_log]
        rcases mem with mem | rfl
        · exact linked.placed event mem other isRun
        · obtain rfl : run = other := Option.some.inj isRun
          exact linked.placed_of_started started
      distinct := by simpa [Event.started?] using linked.distinct
      objects := by simpa using linked.objects }

/-! ### A factory begins to run

The machine makes two objects, the one that the module exports at first and the module, and if
modules are kept the module is put into the cache.  Apart from that the objects are as they were. -/

section

variable {id : Nat}

/-- The cache gets the module that begins to run. -/
theorem kept_running (linked : Linked setup size site machine) (fits : site.Fits setup.caches size)
    (caches : setup.caches = true) (isNew : ∀ run ∈ starts machine.trace, run.factory ≠ id)
    {run : Run} (mem : run ∈ starts (machine.running setup.caches site id).trace) :
    (machine.running setup.caches site id).own site.cache run.factory.repr =
      some (.object run.module) := by
  have inside := linked.cache_lt fits caches
  rw [own_running]
  rcases mem_starts_running.mp mem with started | rfl
  · rw [own_opened_of_lt inside]
    · exact linked.kept caches run started
    · rintro ⟨-, -, same⟩
      exact isNew run started (repr_injective same)
  · rw [caches]
    exact own_opened_cache inside

/-- And no other one. -/
theorem absent_running (linked : Linked setup size site machine)
    (fits : site.Fits setup.caches size) (caches : setup.caches = true) {other : Nat}
    (isNew : ∀ run ∈ starts (machine.running setup.caches site id).trace, run.factory ≠ other) :
    (machine.running setup.caches site id).own site.cache other.repr = none := by
  rw [own_running, own_opened_of_lt (linked.cache_lt fits caches)]
  · exact linked.absent caches other fun run started =>
      isNew run (mem_starts_running.mpr (Or.inl started))
  · rintro ⟨-, -, same⟩
    exact isNew _ (mem_starts_running.mpr (Or.inr rfl)) (repr_injective same).symm

/-- The new module exports an object of its own, and the others what they did before. -/
theorem exports_running (linked : Linked setup size site machine)
    (fits : site.Fits setup.caches size) {run : Run}
    (mem : run ∈ starts (machine.running setup.caches site id).trace) :
    ∃ value, exportsOf run (machine.running setup.caches site id).trace = some value ∧
      (machine.running setup.caches site id).own run.module "exports" = some value := by
  rw [own_running, trace_running]
  rcases mem_starts_running.mp mem with started | rfl
  · obtain ⟨value, known, own⟩ := linked.exports run started
    have differs : machine.newRun id ≠ run := fun same =>
      linked.module_ne_newRun started id (congrArg Run.module same.symm)
    refine ⟨value, by simp [opening, Event.exported, known, differs], ?_⟩
    rw [own_opened_of_lt (linked.placed_of_started started).2, own]
    rintro ⟨caches, same, -⟩
    exact linked.cache_ne fits caches started same.symm
  · have inside := linked.cache_le fits
    exact ⟨.object machine.objects.length, by simp [opening, Event.exported],
      own_opened_module (by omega)⟩

theorem placed_running (linked : Linked setup size site machine) {event : Event}
    (mem : event ∈ (machine.running setup.caches site id).trace) {run : Run}
    (isRun : event.run? = some run) :
    site.base ≤ run.module ∧
      run.module < (machine.running setup.caches site id).objects.length := by
  have base := linked.base_le
  simp only [trace_running, opening, List.mem_append, List.mem_cons, List.not_mem_nil,
    or_false] at mem
  rw [length_objects_running]
  rcases mem with mem | rfl | rfl
  · have := linked.placed event mem run isRun
    omega
  · exact absurd isRun nofun
  · obtain rfl := Option.some.inj isRun
    simp only [Machine.newRun]
    omega

theorem distinct_running (linked : Linked setup size site machine) {run other : Run}
    (mem : run ∈ starts (machine.running setup.caches site id).trace)
    (mem' : other ∈ starts (machine.running setup.caches site id).trace)
    (same : run.module = other.module) : run = other := by
  rcases mem_starts_running.mp mem with started | rfl
  · rcases mem_starts_running.mp mem' with started' | rfl
    · exact linked.distinct run started other started' same
    · exact absurd same (linked.module_ne_newRun started id)
  · rcases mem_starts_running.mp mem' with started' | rfl
    · exact absurd same.symm (linked.module_ne_newRun started' id)
    · rfl

theorem objects_running (linked : Linked setup size site machine) {run : Run} {value : Value}
    (mem : .start run value ∈ (machine.running setup.caches site id).trace) :
    ∃ place < (machine.running setup.caches site id).objects.length, value = .object place := by
  simp only [trace_running, opening, List.mem_append, List.mem_cons, List.not_mem_nil,
    or_false] at mem
  rw [length_objects_running]
  rcases mem with mem | called | isNew
  · obtain ⟨place, inside, rfl⟩ := linked.objects run value mem
    exact ⟨place, by omega, rfl⟩
  · exact absurd called nofun
  · obtain ⟨-, rfl⟩ := Event.start.inj isNew
    exact ⟨machine.objects.length, by omega, rfl⟩

/-- A module whose factory begins to run is kept, and exports an object of its own. -/
theorem running (linked : Linked setup size site machine) (fits : site.Fits setup.caches size)
    (isNew : setup.caches = true → ∀ run ∈ starts machine.trace, run.factory ≠ id) :
    Linked setup size site (machine.running setup.caches site id) := by
  have later : Later site machine (machine.running setup.caches site id) :=
    .running (linked.cache_le fits) id
  exact
    { outside := Nat.lt_of_lt_of_le linked.outside later.length_le
      outer := later.binds linked.outside linked.outer
      base_le := by
        have base := linked.base_le
        rw [length_objects_running]
        omega
      registered := fun id inside => (linked.registered id inside).of_below fits inside later.own
      leads := fun id inside name => by
        rw [later.own _ (fits.mapping_lt id inside), linked.leads id inside]
      kept := fun caches _ mem => linked.kept_running fits caches (isNew caches) mem
      absent := fun caches _ none => linked.absent_running fits caches none
      exports := fun _ mem => linked.exports_running fits mem
      placed := fun _ mem _ isRun => linked.placed_running mem isRun
      distinct := fun _ mem _ mem' same => linked.distinct_running mem mem' same
      objects := fun _ _ mem => linked.objects_running mem }

end

end Linked

end ModuleBundler.Execution
