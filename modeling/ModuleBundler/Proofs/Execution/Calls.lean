/-
# ModuleBundler.Proofs.Execution.Calls — what the functions of a linking function do.

The two functions that a linking function makes are run symbolically here, each once for both
linking functions: what a factory is given to require modules with, and what answers identities.
The lemmas say which machine a body leaves and which function it calls next; what is called is left
open, since it runs factories.  Nothing behind this module unfolds a body again.
-/
import ModuleBundler.Proofs.Execution.Linking

namespace ModuleBundler.Execution

variable {M : Type}

/-! ## Names of properties -/

theorem repr_injective {a b : Nat} (same : a.repr = b.repr) : a = b := by
  have digits := congrArg String.toList same
  rw [Nat.toList_repr, Nat.toList_repr] at digits
  have values := congrArg (Nat.ofDigitChars 10 · 0) digits
  simpa [Nat.ofDigitChars_ten_toDigits] using values

/-- No number is written like the name of the property that holds the prototype. -/
theorem repr_ne_proto (id : Nat) : id.repr ≠ "__proto__" := by
  intro same
  have digits := congrArg String.toList same
  rw [Nat.toList_repr] at digits
  apply Nat.underscore_not_in_toDigits (n := id)
  rw [digits]
  decide

/-! ## Functions and scopes -/

/-- The function that answers identities, in the scope of a linking function. -/
def requireFunction (caches : Bool) (outer : Nat) : Value :=
  .closure "require" ["id"] (Linking.require caches) [outer]

/-- What a factory is given to require modules with. -/
def localRequireFunction (inner outer : Nat) : Value :=
  .closure "localRequire" ["name"] Linking.localRequire [inner, outer]

/-- Where a linking function keeps what it works with. -/
structure Site where
  /-- its scope -/
  scope : Nat
  registry : Nat
  cache : Nat
  /-- what the registry holds for a module -/
  entry : Nat → Nat
  /-- where the names lead that a module requires -/
  mapping : Nat → Nat
  /-- how many objects there are before a module is made -/
  base : Nat

/-- What names stand for in a linking function. -/
def Site.bindings (site : Site) (caches : Bool) : Bindings :=
  [("require", requireFunction caches site.scope), ("modules", .object site.registry)] ++
    if caches then [("cache", .object site.cache)] else []

/-- What names stand for when an identity begins to be answered. -/
def Site.entered (site : Site) (scope id : Nat) : Bindings :=
  [ ("localRequire", localRequireFunction scope site.scope), ("id", .number id),
    ("fn", .undefined), ("mapping", .undefined), ("module", .undefined) ]

/-- What names stand for while a factory runs. -/
def Site.inner (site : Site) (scope : Nat) (run : Run) : Bindings :=
  [ ("module", .object run.module), ("mapping", .object (site.mapping run.factory)),
    ("fn", .factory run.factory), ("localRequire", localRequireFunction scope site.scope),
    ("id", .number run.factory) ]

/-- A scope in which names stand for what is listed. -/
def Machine.Binds (machine : Machine M) (scope : Nat) (bindings : Bindings) : Prop :=
  ∀ name, machine.lookUp scope name = bindings.lookup name

variable {factories : Factories M} {caches : Bool} {site : Site} {depth scope inner : Nat}
variable {machine after : Machine M} {run : Run}

/-! ## What a factory requires modules with -/

/-- The machine when the function has been entered. -/
def Machine.asked (name : String) (machine : Machine M) : Machine M :=
  (machine.log (.call "localRequire" [.text name])).enter [("name", .text name)]

theorem binds_asked_self (machine : Machine M) (name : String) :
    (machine.asked name).Binds machine.scopes.length [("name", .text name)] := by
  intro word
  simp [Machine.asked]

theorem Machine.Binds.asked {bindings : Bindings} (binds : machine.Binds scope bindings)
    (inside : scope < machine.scopes.length) (name : String) :
    (machine.asked name).Binds scope bindings := by
  intro word
  simp [Machine.asked, Nat.ne_of_lt inside, binds word]

/-- A name that the mapping itself has is answered by the module that it leads to. -/
theorem invoke_localRequire_linked (factories : Factories M) (depth : Nat) {name : String}
    {id : Nat}
    (names : machine.Binds inner (site.inner inner run)) (inside : inner < machine.scopes.length)
    (outer : machine.Binds site.scope (site.bindings caches))
    (outside : site.scope < machine.scopes.length)
    (leads : machine.own (site.mapping run.factory) name = some (.number id)) :
    invoke factories (depth + 1) (localRequireFunction inner site.scope) [.text name] machine =
      invoke factories depth (requireFunction caches site.scope) [.number id]
        (machine.asked name) := by
  have own := binds_asked_self machine name
  have names := names.asked inside name
  have outer := outer.asked outside name
  have leads : (machine.asked name).own (site.mapping run.factory) name = some (.number id) := by
    simpa [Machine.asked] using leads
  rw [localRequireFunction, invoke_closure]
  show next (Linking.localRequire.exec _ _ (machine.asked name)) _ = _
  have body : Linking.localRequire.exec (invoke factories depth)
      [machine.scopes.length, inner, site.scope] (machine.asked name) =
        next (invoke factories depth (requireFunction caches site.scope) [.number id]
          (machine.asked name)) fun value => pure (some value) := by
    cases caches <;>
      simp [Linking.localRequire, own _, names _, outer _, Site.inner, Site.bindings, leads,
        List.lookup_cons]
  rw [body, next_next]
  exact next_pure _

/-- Any other name is answered by an error. -/
theorem invoke_localRequire_unlinked (factories : Factories M) (depth : Nat) {name : String}
    (names : machine.Binds inner (site.inner inner run)) (inside : inner < machine.scopes.length)
    (outer : machine.Binds site.scope (site.bindings caches))
    (outside : site.scope < machine.scopes.length)
    (leads : machine.own (site.mapping run.factory) name = none) :
    invoke factories (depth + 1) (localRequireFunction inner site.scope) [.text name] machine =
      .error (.thrown (.error ("Cannot find module '" ++ name ++ "'"))) (machine.asked name) := by
  have own := binds_asked_self machine name
  have names := names.asked inside name
  have outer := outer.asked outside name
  have leads : (machine.asked name).own (site.mapping run.factory) name = none := by
    simpa [Machine.asked] using leads
  rw [localRequireFunction, invoke_closure]
  show next (Linking.localRequire.exec _ _ (machine.asked name)) _ = _
  cases caches <;>
    simp [Linking.localRequire, own _, names _, outer _, Site.inner, Site.bindings, leads,
      List.lookup_cons]

/-! ## What answers identities -/

/-- The machine when the function has been entered. -/
def Machine.required (site : Site) (id : Nat) (machine : Machine M) : Machine M :=
  (machine.log (.call "require" [.number id])).enter (site.entered machine.scopes.length id)

/-- The machine when a module has been made, with an object for its exports before it. -/
def Machine.prepared (site : Site) (scope id : Nat) (machine : Machine M) : Machine M :=
  ((((machine.assign scope "fn" (.factory id)).assign scope "mapping"
    (.object (site.mapping id))).allocate []).allocate
      [("exports", .object machine.objects.length)]).assign scope "module"
        (.object (machine.objects.length + 1))

/-- The machine when a module is kept, if it is. -/
def Machine.keeping (caches : Bool) (site : Site) (run : Run) (machine : Machine M) : Machine M :=
  if caches then machine.put site.cache run.factory.repr (.object run.module) else machine

/-- What the registry has for a module. -/
structure Registered (site : Site) (id : Nat) (machine : Machine M) : Prop where
  entry : machine.own site.registry id.repr = some (.object (site.entry id))
  factory : machine.own (site.entry id) (Nat.repr 0) = some (.factory id)
  mapping : machine.own (site.entry id) (Nat.repr 1) = some (.object (site.mapping id))

theorem exec_answerKept_kept {id place : Nat} {value : Value} {rest : Block}
    (names : machine.Binds scope (site.entered scope id))
    (outer : machine.Binds site.scope (site.bindings true))
    (kept : machine.own site.cache id.repr = some (.object place))
    (exports : machine.own place "exports" = some value) :
    (Block.cons Linking.answerKept rest).exec (invoke factories depth) [scope, site.scope]
      machine = .ok (some value) machine := by
  simp [Linking.answerKept, names _, outer _, Site.entered, Site.bindings, List.lookup_cons, kept,
    exports]

theorem exec_answerKept_absent {id : Nat} {rest : Block}
    (names : machine.Binds scope (site.entered scope id))
    (outer : machine.Binds site.scope (site.bindings true))
    (absent : machine.own site.cache id.repr = none) :
    (Block.cons Linking.answerKept rest).exec (invoke factories depth) [scope, site.scope]
      machine = rest.exec (invoke factories depth) [scope, site.scope] machine := by
  simp [Linking.answerKept, names _, outer _, Site.entered, Site.bindings, List.lookup_cons, absent]

theorem exec_prepare {id : Nat} {rest : List Statement}
    (names : machine.Binds scope (site.entered scope id)) (inside : scope < machine.scopes.length)
    (outer : machine.Binds site.scope (site.bindings caches)) (differs : site.scope ≠ scope)
    (registered : Registered site id machine) :
    (Block.ofList (Linking.prepare ++ rest)).exec (invoke factories depth) [scope, site.scope]
      machine = (Block.ofList rest).exec (invoke factories depth) [scope, site.scope]
        (machine.prepared site scope id) := by
  cases caches <;>
    simp [Linking.prepare, Machine.prepared, names _, outer _, Site.entered, Site.bindings,
      List.lookup_cons, registered.entry, registered.factory, registered.mapping, inside, differs]

theorem exec_keep {rest : Block} (names : machine.Binds scope (site.inner scope run))
    (outer : machine.Binds site.scope (site.bindings true)) :
    (Block.cons Linking.keep rest).exec (invoke factories depth) [scope, site.scope] machine =
      rest.exec (invoke factories depth) [scope, site.scope]
        (machine.put site.cache run.factory.repr (.object run.module)) := by
  simp [Linking.keep, names _, outer _, Site.inner, Site.bindings, List.lookup_cons, repr_ne_proto]

/-- A factory that has run leaves what its module exports. -/
theorem exec_runFactory_ok {exports returned value : Value}
    (names : machine.Binds scope (site.inner scope run))
    (own : machine.own run.module "exports" = some exports)
    (called : invoke factories depth (.factory run.factory)
      [localRequireFunction scope site.scope, .object run.module, exports] machine =
        .ok returned after)
    (still : after.Binds scope (site.inner scope run))
    (final : after.own run.module "exports" = some value) :
    (Block.ofList Linking.runFactory).exec (invoke factories depth) [scope, site.scope] machine =
      .ok (some value) after := by
  simp [Linking.runFactory, names _, still _, Site.inner, List.lookup_cons, own, called, final]

theorem exec_runFactory_error {exports : Value} {stop : Stop}
    (names : machine.Binds scope (site.inner scope run))
    (own : machine.own run.module "exports" = some exports)
    (called : invoke factories depth (.factory run.factory)
      [localRequireFunction scope site.scope, .object run.module, exports] machine =
        .error stop after) :
    (Block.ofList Linking.runFactory).exec (invoke factories depth) [scope, site.scope] machine =
      .error stop after := by
  simp [Linking.runFactory, names _, Site.inner, List.lookup_cons, own, called]

/-- The run that begins when an identity is answered. -/
def Machine.newRun (machine : Machine M) (id : Nat) : Run :=
  ⟨id, machine.objects.length + 1⟩

/-- The machine when the factory of a module is called. -/
def Machine.opened (caches : Bool) (site : Site) (id : Nat) (machine : Machine M) : Machine M :=
  ((machine.required site id).prepared site machine.scopes.length id).keeping caches site
    (machine.newRun id)

theorem binds_required_self (site : Site) (machine : Machine M) (id : Nat) :
    (machine.required site id).Binds machine.scopes.length
      (site.entered machine.scopes.length id) := by
  intro name
  simp [Machine.required]

theorem Machine.Binds.required {bindings : Bindings} (binds : machine.Binds scope bindings)
    (inside : scope < machine.scopes.length) (id : Nat) :
    (machine.required site id).Binds scope bindings := by
  intro name
  simp [Machine.required, Nat.ne_of_lt inside, binds name]

theorem Machine.Binds.prepared {bindings : Bindings} (binds : machine.Binds inner bindings)
    (differs : inner ≠ scope) (id : Nat) :
    (machine.prepared site scope id).Binds inner bindings := by
  intro name
  simp [Machine.prepared, differs, binds name]

theorem binds_prepared_self {id : Nat} (names : machine.Binds scope (site.entered scope id))
    (inside : scope < machine.scopes.length) :
    (machine.prepared site scope id).Binds scope
      (site.inner scope ⟨id, machine.objects.length + 1⟩) := by
  intro name
  by_cases isModule : name = "module"
  · simp [Machine.prepared, Site.inner, inside, isModule]
  by_cases isMapping : name = "mapping"
  · simp [Machine.prepared, Site.inner, inside, isMapping, List.lookup_cons]
  by_cases isFactory : name = "fn"
  · simp [Machine.prepared, Site.inner, inside, isFactory, List.lookup_cons]
  -- the other names stand for what they stood for before
  simp [Machine.prepared, Site.inner, Site.entered, names name, isModule, isMapping, isFactory,
    List.lookup_cons, beq_false_of_ne]

theorem Machine.Binds.keeping {bindings : Bindings} (binds : machine.Binds scope bindings)
    (caches : Bool) (run : Run) : (machine.keeping caches site run).Binds scope bindings := by
  intro name
  cases caches <;> simp [Machine.keeping, binds name]

theorem Registered.required {id : Nat} (registered : Registered site id machine) (other : Nat) :
    Registered site id (machine.required site other) := by
  obtain ⟨entry, factory, mapping⟩ := registered
  constructor <;> simpa [Machine.required]

@[simp] theorem trace_opened (id : Nat) :
    (machine.opened caches site id).trace = machine.trace ++ [.call "require" [.number id]] := by
  cases caches <;> simp [Machine.opened, Machine.keeping, Machine.prepared, Machine.required]

@[simp] theorem memory_opened (id : Nat) :
    (machine.opened caches site id).memory = machine.memory := by
  cases caches <;> simp [Machine.opened, Machine.keeping, Machine.prepared, Machine.required]

theorem scripts_opened (id : Nat) : (machine.opened caches site id).scripts = machine.scripts := by
  cases caches <;> simp [Machine.opened, Machine.keeping, Machine.prepared, Machine.required]

@[simp] theorem length_objects_opened (id : Nat) :
    (machine.opened caches site id).objects.length = machine.objects.length + 2 := by
  cases caches <;> simp [Machine.opened, Machine.keeping, Machine.prepared, Machine.required]

@[simp] theorem length_scopes_opened (id : Nat) :
    (machine.opened caches site id).scopes.length = machine.scopes.length + 1 := by
  cases caches <;> simp [Machine.opened, Machine.keeping, Machine.prepared, Machine.required]

/-- Other scopes are as they were. -/
theorem lookUp_opened_of_lt (id : Nat) (inside : scope < machine.scopes.length) (name : String) :
    (machine.opened caches site id).lookUp scope name = machine.lookUp scope name := by
  cases caches <;>
    simp [Machine.opened, Machine.keeping, Machine.prepared, Machine.required, Nat.ne_of_lt inside]

/-- Other objects are as they were, but for what is put into the cache. -/
theorem own_opened_of_lt {id place : Nat} {key : String} (inside : place < machine.objects.length)
    (apart : ¬ (caches = true ∧ place = site.cache ∧ key = id.repr)) :
    (machine.opened caches site id).own place key = machine.own place key := by
  have first : place ≠ machine.objects.length := by omega
  have second : place ≠ machine.objects.length + 1 := by omega
  cases caches with
  | false => simp [Machine.opened, Machine.keeping, Machine.prepared, Machine.required, first, second]
  | true =>
    have apart : ¬ (place = site.cache ∧ key = id.repr) := fun both => apart ⟨rfl, both⟩
    simp [Machine.opened, Machine.keeping, Machine.prepared, Machine.required, Machine.newRun,
      first, second, apart]

/-- The new module exports an object of its own. -/
theorem own_opened_module {id : Nat} (apart : site.cache ≠ machine.objects.length + 1) :
    (machine.opened caches site id).own (machine.newRun id).module "exports" =
      some (.object machine.objects.length) := by
  cases caches <;>
    simp [Machine.opened, Machine.keeping, Machine.prepared, Machine.required, Machine.newRun,
      apart.symm]

/-- The new module is kept. -/
theorem own_opened_cache {id : Nat} (inside : site.cache < machine.objects.length) :
    (machine.opened true site id).own site.cache id.repr =
      some (.object (machine.newRun id).module) := by
  have still : site.cache < machine.objects.length + 1 + 1 := by omega
  simp [Machine.opened, Machine.keeping, Machine.prepared, Machine.required, Machine.newRun, still]

theorem binds_opened_self (caches : Bool) (site : Site) (machine : Machine M) (id : Nat) :
    (machine.opened caches site id).Binds machine.scopes.length
      (site.inner machine.scopes.length (machine.newRun id)) := by
  have names := binds_required_self site machine id
  have inside : machine.scopes.length < (machine.required site id).scopes.length := by
    simp [Machine.required]
  have inner := binds_prepared_self names inside
  have objects : (machine.required site id).objects = machine.objects := by
    simp [Machine.required]
  rw [objects] at inner
  exact inner.keeping caches _

/-- An identity is answered from the cache. -/
theorem invoke_require_kept (factories : Factories M) (depth : Nat) {id place : Nat} {value : Value}
    (outer : machine.Binds site.scope (site.bindings true))
    (outside : site.scope < machine.scopes.length)
    (kept : machine.own site.cache id.repr = some (.object place))
    (exports : machine.own place "exports" = some value) :
    invoke factories (depth + 1) (requireFunction true site.scope) [.number id] machine =
      .ok value (machine.required site id) := by
  have names := binds_required_self site machine id
  have kept : (machine.required site id).own site.cache id.repr = some (.object place) := by
    simpa [Machine.required] using kept
  have exports : (machine.required site id).own place "exports" = some value := by
    simpa [Machine.required] using exports
  rw [requireFunction, invoke_closure]
  show next ((Linking.require true).exec _ _ (machine.required site id)) _ = _
  show next ((Block.cons Linking.answerKept _).exec _ _ (machine.required site id)) _ = _
  rw [exec_answerKept_kept names (outer.required outside id) kept exports]
  rfl

/-- Otherwise an identity is answered by what runs its factory. -/
theorem invoke_require_fresh (factories : Factories M) (depth : Nat) {id : Nat}
    (outer : machine.Binds site.scope (site.bindings caches))
    (outside : site.scope < machine.scopes.length) (registered : Registered site id machine)
    (absent : caches = true → machine.own site.cache id.repr = none) :
    invoke factories (depth + 1) (requireFunction caches site.scope) [.number id] machine =
      next
        ((Block.ofList Linking.runFactory).exec (invoke factories depth)
          [machine.scopes.length, site.scope] (machine.opened caches site id))
        fun returned => pure (returned.getD .undefined) := by
  have names := binds_required_self site machine id
  have inside : machine.scopes.length < (machine.required site id).scopes.length := by
    simp [Machine.required]
  have differs : site.scope ≠ machine.scopes.length := Nat.ne_of_lt outside
  have outer : (machine.required site id).Binds site.scope (site.bindings caches) :=
    outer.required outside id
  have registered := registered.required id
  have objects : (machine.required site id).objects = machine.objects := by
    simp [Machine.required]
  have inner := binds_prepared_self names inside
  rw [objects] at inner
  rw [requireFunction, invoke_closure]
  refine congrArg (next · _) ?_
  cases caches with
  | false =>
    show (Block.ofList (Linking.prepare ++ Linking.runFactory)).exec _ _
      (machine.required site id) = _
    exact exec_prepare names inside outer differs registered
  | true =>
    have absent : (machine.required site id).own site.cache id.repr = none := by
      simpa [Machine.required] using absent rfl
    show (Block.cons Linking.answerKept
      (Block.ofList (Linking.prepare ++ (Linking.keep :: Linking.runFactory)))).exec _ _
        (machine.required site id) = _
    rw [exec_answerKept_absent names outer absent,
      exec_prepare names inside outer differs registered]
    exact exec_keep inner (outer.prepared differs id)

end ModuleBundler.Execution
