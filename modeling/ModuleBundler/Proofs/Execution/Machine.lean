/-
# ModuleBundler.Proofs.Execution.Machine — running a script.

Scripts are run by a machine with scopes, objects and a memory for what only factories know of.
Functions see the variables of the scopes around them, and what is assigned later too; variables and
functions of a body exist from its beginning.  Two things are worth saying about objects: numbers and
texts name properties alike, and a property that is written as `__proto__` with a primitive value
does not come into being.

What factories do is up to them.  A factory is any program that requires modules by name, one after
the other and depending on the answers, that catches what is thrown or not, replaces what its module
exports, and changes the memory; it is made of finitely many steps on every path (`Program`).

The machine stops where the language says nothing (`Stop.stuck`), and where calls are nested more
deeply than it is allowed to follow (`Stop.exhausted`).  The trace says what has happened so far.
-/
import ModuleBundler.Proofs.Execution.Language

namespace ModuleBundler.Execution

/-- Values that every script can name. -/
inductive Native
  /-- `Object` -/
  | object
  /-- `Object.prototype` -/
  | prototype
  /-- `Object.prototype.hasOwnProperty` -/
  | hasOwnProperty
  /-- `Object.prototype.hasOwnProperty.call` -/
  | callHasOwnProperty
  /-- `Error` -/
  | error
  deriving DecidableEq

inductive Value
  | undefined
  | flag (value : Bool)
  | number (value : Nat)
  | text (value : String)
  | object (place : Nat)
  /-- a function with the scopes around it, the innermost first -/
  | closure (name : String) (parameters : List String) (body : Block) (scopes : List Nat)
  /-- a function that is known by the text of its body only -/
  | factory (number : Nat)
  | native (native : Native)
  | error (message : String)
  /-- what only factories know of -/
  | foreign (number : Nat)
  deriving DecidableEq

/-- Names with values.  Of several entries for a name the first one counts. -/
abbrev Bindings :=
  List (String × Value)

/-- What a call comes to: a value, or something that is thrown. -/
inductive Answer
  | value (value : Value)
  | error (error : Value)
  deriving DecidableEq

/-- One run of a factory, with the place of the module that is made for it. -/
structure Run where
  factory : Nat
  module : Nat
  deriving DecidableEq

/-- Something that happens when a bundle runs. -/
inductive Event
  /-- a function is called that is not a factory -/
  | call (name : String) (arguments : List Value)
  /-- a factory begins to run -/
  | start (run : Run) (exports : Value)
  /-- a factory requires a module -/
  | ask (run : Run) (name : String)
  /-- and goes on with an answer -/
  | answer (run : Run) (answer : Answer)
  /-- a factory replaces what its module exports -/
  | publish (run : Run) (value : Value)
  /-- a factory has run, or has thrown something -/
  | stop (run : Run)
  deriving DecidableEq

structure Machine (M : Type) where
  scopes : List Bindings
  objects : List Bindings
  /-- the bodies of the functions that are known by their text only -/
  scripts : List String
  trace : List Event
  memory : M

/-- Why a machine stops without a value. -/
inductive Stop
  | thrown (value : Value)
  | stuck
  | exhausted
  deriving DecidableEq

/-- A computation on a machine. -/
abbrev Exec (M α : Type) :=
  EStateM Stop (Machine M) α

/-- What a factory does. -/
inductive Program (M : Type)
  | finish
  | fail (error : Value)
  /-- replaces what the module exports -/
  | publish (value : Value) (next : Program M)
  /-- changes the memory, and goes on depending on it -/
  | change (f : M → M) (next : M → Program M)
  /-- requires a module, and goes on depending on the answer or on what was thrown -/
  | require (name : String) (next : Answer → Program M)

/-- What the factories do, given what they are called with. -/
abbrev Factories (M : Type) :=
  Nat → List Value → Program M

variable {M : Type}

/-! ## Machines -/

/-- The value of a name in one of several places. -/
def read (store : List Bindings) (place : Nat) (name : String) : Option Value :=
  store[place]?.bind (List.lookup name)

theorem read_concat (store : List Bindings) (bindings : Bindings) (place : Nat) (name : String) :
    read (store ++ [bindings]) place name =
      if place = store.length then bindings.lookup name else read store place name := by
  unfold read
  by_cases last : place = store.length
  · simp [last]
  · by_cases inside : place < store.length
    · simp [last, List.getElem?_append_left inside]
    · have behind : (store ++ [bindings]).length ≤ place := by
        simp
        omega
      simp [last, List.getElem?_eq_none behind, List.getElem?_eq_none (Nat.le_of_not_lt inside)]

theorem read_modify (store : List Bindings) (place other : Nat) (name word : String)
    (value : Value) :
    read (store.modify place ((name, value) :: ·)) other word =
      if place < store.length ∧ other = place ∧ word = name then some value
      else read store other word := by
  unfold read
  rw [List.getElem?_modify]
  by_cases same : place = other
  · subst same
    by_cases inside : place < store.length
    · by_cases named : word = name
      · simp [inside, named]
      · simp [inside, named, List.lookup_cons, beq_false_of_ne named]
    · simp [inside]
  · simp [same, Ne.symm same]

namespace Machine

def start (memory : M) : Machine M :=
  ⟨[], [], [], [], memory⟩

/-- The value of a property that an object itself has. -/
def own (machine : Machine M) (place : Nat) (key : String) : Option Value :=
  read machine.objects place key

/-- The value of a name in a scope. -/
def lookUp (machine : Machine M) (scope : Nat) (name : String) : Option Value :=
  read machine.scopes scope name

/-- What a name stands for in every scope. -/
@[simp] def global? (name : String) : Option Value :=
  if name = "Object" then some (.native .object)
  else if name = "Error" then some (.native .error)
  else none

/-- What a name stands for in scopes, the innermost first. -/
@[simp] def resolve (machine : Machine M) : (scopes : List Nat) → (name : String) → Option Value
  | [], name => global? name
  | scope :: scopes, name =>
    match machine.lookUp scope name with
    | some value => some value
    | none => machine.resolve scopes name

def log (event : Event) (machine : Machine M) : Machine M :=
  { machine with trace := machine.trace ++ [event] }

def enter (bindings : Bindings) (machine : Machine M) : Machine M :=
  { machine with scopes := machine.scopes ++ [bindings] }

def assign (scope : Nat) (name : String) (value : Value) (machine : Machine M) : Machine M :=
  { machine with scopes := machine.scopes.modify scope ((name, value) :: ·) }

def allocate (fields : Bindings) (machine : Machine M) : Machine M :=
  { machine with objects := machine.objects ++ [fields] }

def put (place : Nat) (key : String) (value : Value) (machine : Machine M) : Machine M :=
  { machine with objects := machine.objects.modify place ((key, value) :: ·) }

def addScript (body : String) (machine : Machine M) : Machine M :=
  { machine with scripts := machine.scripts ++ [body] }

def setMemory (memory : M) (machine : Machine M) : Machine M :=
  { machine with memory := memory }

/-! What a machine shows after each of these changes. -/

section Changes

variable (machine : Machine M) (event : Event) (bindings : Bindings) (scope place : Nat)
variable (name key : String) (value : Value) (memory : M)

@[simp] theorem scopes_log : (machine.log event).scopes = machine.scopes := by
  simp [log]

@[simp] theorem objects_log : (machine.log event).objects = machine.objects := by
  simp [log]

@[simp] theorem scripts_log : (machine.log event).scripts = machine.scripts := by
  simp [log]

@[simp] theorem trace_log : (machine.log event).trace = machine.trace ++ [event] := by
  simp [log]

@[simp] theorem memory_log : (machine.log event).memory = machine.memory := by
  simp [log]

@[simp] theorem lookUp_log : (machine.log event).lookUp scope name = machine.lookUp scope name := by
  simp [log, lookUp]

@[simp] theorem own_log : (machine.log event).own place key = machine.own place key := by
  simp [log, own]

@[simp] theorem scopes_enter : (machine.enter bindings).scopes = machine.scopes ++ [bindings] := by
  simp [enter]

@[simp] theorem objects_enter : (machine.enter bindings).objects = machine.objects := by
  simp [enter]

@[simp] theorem scripts_enter : (machine.enter bindings).scripts = machine.scripts := by
  simp [enter]

@[simp] theorem trace_enter : (machine.enter bindings).trace = machine.trace := by
  simp [enter]

@[simp] theorem memory_enter : (machine.enter bindings).memory = machine.memory := by
  simp [enter]

@[simp] theorem lookUp_enter :
    (machine.enter bindings).lookUp scope name =
      if scope = machine.scopes.length then bindings.lookup name
      else machine.lookUp scope name :=
  read_concat machine.scopes bindings scope name

@[simp] theorem own_enter : (machine.enter bindings).own place key = machine.own place key := by
  simp [enter, own]

@[simp] theorem length_scopes_assign :
    (machine.assign scope name value).scopes.length = machine.scopes.length := by
  simp [assign]

@[simp] theorem objects_assign : (machine.assign scope name value).objects = machine.objects := by
  simp [assign]

@[simp] theorem scripts_assign : (machine.assign scope name value).scripts = machine.scripts := by
  simp [assign]

@[simp] theorem trace_assign : (machine.assign scope name value).trace = machine.trace := by
  simp [assign]

@[simp] theorem memory_assign : (machine.assign scope name value).memory = machine.memory := by
  simp [assign]

@[simp] theorem lookUp_assign (other : Nat) (word : String) :
    (machine.assign scope name value).lookUp other word =
      if scope < machine.scopes.length ∧ other = scope ∧ word = name then some value
      else machine.lookUp other word :=
  read_modify machine.scopes scope other name word value

@[simp] theorem own_assign :
    (machine.assign scope name value).own place key = machine.own place key := by
  simp [assign, own]

@[simp] theorem scopes_allocate : (machine.allocate bindings).scopes = machine.scopes := by
  simp [allocate]

@[simp] theorem objects_allocate :
    (machine.allocate bindings).objects = machine.objects ++ [bindings] := by
  simp [allocate]

@[simp] theorem scripts_allocate : (machine.allocate bindings).scripts = machine.scripts := by
  simp [allocate]

@[simp] theorem trace_allocate : (machine.allocate bindings).trace = machine.trace := by
  simp [allocate]

@[simp] theorem memory_allocate : (machine.allocate bindings).memory = machine.memory := by
  simp [allocate]

@[simp] theorem lookUp_allocate :
    (machine.allocate bindings).lookUp scope name = machine.lookUp scope name := by
  simp [allocate, lookUp]

@[simp] theorem own_allocate :
    (machine.allocate bindings).own place key =
      if place = machine.objects.length then bindings.lookup key else machine.own place key :=
  read_concat machine.objects bindings place key

@[simp] theorem scopes_put : (machine.put place key value).scopes = machine.scopes := by
  simp [put]

@[simp] theorem length_objects_put :
    (machine.put place key value).objects.length = machine.objects.length := by
  simp [put]

@[simp] theorem scripts_put : (machine.put place key value).scripts = machine.scripts := by
  simp [put]

@[simp] theorem trace_put : (machine.put place key value).trace = machine.trace := by
  simp [put]

@[simp] theorem memory_put : (machine.put place key value).memory = machine.memory := by
  simp [put]

@[simp] theorem lookUp_put :
    (machine.put place key value).lookUp scope name = machine.lookUp scope name := by
  simp [put, lookUp]

@[simp] theorem own_put (other : Nat) (word : String) :
    (machine.put place key value).own other word =
      if place < machine.objects.length ∧ other = place ∧ word = key then some value
      else machine.own other word :=
  read_modify machine.objects place other key word value

@[simp] theorem scopes_setMemory : (machine.setMemory memory).scopes = machine.scopes := by
  simp [setMemory]

@[simp] theorem objects_setMemory : (machine.setMemory memory).objects = machine.objects := by
  simp [setMemory]

@[simp] theorem scripts_setMemory : (machine.setMemory memory).scripts = machine.scripts := by
  simp [setMemory]

@[simp] theorem trace_setMemory : (machine.setMemory memory).trace = machine.trace := by
  simp [setMemory]

@[simp] theorem memory_setMemory : (machine.setMemory memory).memory = memory := by
  simp [setMemory]

@[simp] theorem lookUp_setMemory :
    (machine.setMemory memory).lookUp scope name = machine.lookUp scope name := by
  simp [setMemory, lookUp]

@[simp] theorem own_setMemory :
    (machine.setMemory memory).own place key = machine.own place key := by
  simp [setMemory, own]

end Changes

end Machine

/-! ## Computations -/

section Computations

variable {α β : Type}

/-- Goes on from what a computation came to. -/
def next (result : EStateM.Result Stop (Machine M) α) (f : α → Exec M β) :
    EStateM.Result Stop (Machine M) β :=
  match result with
  | .ok value machine => f value machine
  | .error stop machine => .error stop machine

variable (machine : Machine M) (result : EStateM.Result Stop (Machine M) α) (value : α) (stop : Stop)
variable (exec : Exec M α) (f : α → Exec M β)

@[simp] theorem next_ok : next (.ok value machine) f = f value machine :=
  rfl

@[simp] theorem next_error : next (.error stop machine) f = .error stop machine :=
  rfl

@[simp] theorem next_pure : next result (fun value => pure value) = result := by
  cases result <;> rfl

theorem next_next {γ : Type} (g : β → Exec M γ) :
    next (next result f) g = next result fun value => f value >>= g := by
  cases result with
  | ok value machine =>
    show next (f value machine) g = EStateM.bind (f value) g machine
    unfold next EStateM.bind
    cases f value machine <;> rfl
  | error stop machine => rfl

@[simp] theorem bind_apply : (exec >>= f) machine = next (exec machine) f := by
  show EStateM.bind exec f machine = next (exec machine) f
  unfold next EStateM.bind
  cases exec machine <;> rfl

@[simp] theorem map_apply (g : α → β) :
    (g <$> exec) machine = next (exec machine) fun value => pure (g value) := by
  show EStateM.map g exec machine = next (exec machine) _
  unfold next EStateM.map
  cases exec machine <;> rfl

@[simp] theorem pure_apply : (pure value : Exec M α) machine = .ok value machine :=
  rfl

@[simp] theorem throw_apply : (throw stop : Exec M α) machine = .error stop machine :=
  rfl

@[simp] theorem get_apply : (get : Exec M (Machine M)) machine = .ok machine machine :=
  rfl

@[simp] theorem modify_apply (change : Machine M → Machine M) :
    (modify change : Exec M Unit) machine = .ok () (change machine) :=
  rfl

end Computations

/-! ## Objects and names -/

/-- Goes on with a value, if there is one. -/
def found {α : Type} : Option α → Exec M α
  | some value => pure value
  | none => throw .stuck

@[simp] theorem found_some {α : Type} (value : α) (machine : Machine M) :
    found (some value) machine = .ok value machine :=
  rfl

/-- The name of the property that a value names. -/
@[simp] def key? : Value → Option String
  | .number value => some value.repr
  | .text value => some value
  | _ => none

/-- A property of a value. -/
def property : Value → String → Exec M Value
  | .object place, key => do found ((← get).own place key)
  | .native .object, "prototype" => pure (.native .prototype)
  | .native .prototype, "hasOwnProperty" => pure (.native .hasOwnProperty)
  | .native .hasOwnProperty, "call" => pure (.native .callHasOwnProperty)
  | _, _ => throw .stuck

@[simp] theorem property_object (place : Nat) (key : String) (machine : Machine M) :
    property (.object place) key machine = found (machine.own place key) machine :=
  rfl

@[simp] theorem property_prototype (machine : Machine M) :
    property (.native .object) "prototype" machine = .ok (.native .prototype) machine :=
  rfl

@[simp] theorem property_hasOwnProperty (machine : Machine M) :
    property (.native .prototype) "hasOwnProperty" machine =
      .ok (.native .hasOwnProperty) machine :=
  rfl

@[simp] theorem property_callHasOwnProperty (machine : Machine M) :
    property (.native .hasOwnProperty) "call" machine =
      .ok (.native .callHasOwnProperty) machine :=
  rfl

/-- Makes an object. -/
@[simp] def newObject (fields : Bindings) : Exec M Value := do
  let place := (← get).objects.length
  modify (·.allocate fields)
  return .object place

/-- The properties of an array. -/
def positions (first : Nat) : List Value → Bindings
  | [] => []
  | value :: values => (first.repr, value) :: positions (first + 1) values

/-- A property as it is written, before others that are written behind it.  A property called
`__proto__` would make an object the prototype, and does nothing with a primitive value. -/
@[simp] def withField (key : String) (value : Value) (others : Bindings) : Exec M Bindings :=
  if key = "__proto__" then
    match value with
    | .undefined | .flag _ | .number _ | .text _ => pure others
    | _ => throw .stuck
  else pure (others ++ [(key, value)])

/-- Assigns to a property. -/
@[simp] def assignProperty (object : Value) (key : String) (value : Value) : Exec M Unit :=
  match object with
  | .object place => if key = "__proto__" then throw .stuck else modify (·.put place key value)
  | _ => throw .stuck

/-! ## Terms and statements -/

mutual

/-- The value of a term in scopes, given how functions are called. -/
@[simp] def Term.eval (call : Value → List Value → Exec M Value) (scopes : List Nat) : Term → Exec M Value
  | .number value => pure (.number value)
  | .text value => pure (.text value)
  | .name name => do found ((← get).resolve scopes name)
  | .member object key => do property (← object.eval call scopes) key
  | .index object key => do
    let object ← object.eval call scopes
    let key ← key.eval call scopes
    property object (← found (key? key))
  | .array elements => do newObject (positions 0 (← elements.eval call scopes))
  | .object fields => do newObject (← fields.eval call scopes)
  | .not operand => do
    match ← operand.eval call scopes with
    | .flag value => pure (.flag !value)
    | _ => throw .stuck
  | .sum left right => do
    let left ← left.eval call scopes
    let right ← right.eval call scopes
    match left, right with
    | .text left, .text right => pure (.text (left ++ right))
    | _, _ => throw .stuck
  | .construct callee arguments => do
    let callee ← callee.eval call scopes
    let arguments ← arguments.eval call scopes
    match callee, arguments with
    | .native .error, [.text message] => pure (.error message)
    | _, _ => throw .stuck
  | .call callee arguments => do
    let callee ← callee.eval call scopes
    let arguments ← arguments.eval call scopes
    call callee arguments
  | .assign object key value => do
    let object ← object.eval call scopes
    let key ← key.eval call scopes
    let value ← value.eval call scopes
    assignProperty object (← found (key? key)) value
    return value
  | .function parameters body => pure (.closure "" parameters body scopes)
  | .script body => do
    let number := (← get).scripts.length
    modify (·.addScript body)
    return .factory number

@[simp] def Terms.eval (call : Value → List Value → Exec M Value) (scopes : List Nat) :
    Terms → Exec M (List Value)
  | .nil => pure []
  | .cons first rest => do
    let value ← first.eval call scopes
    let values ← rest.eval call scopes
    return value :: values

@[simp] def Fields.eval (call : Value → List Value → Exec M Value) (scopes : List Nat) :
    Fields → Exec M Bindings
  | .nil => pure []
  | .cons key value rest => do
    let value ← value.eval call scopes
    let others ← rest.eval call scopes
    withField key value others

end

mutual

/-- Runs a statement: what it returns, if it does. -/
@[simp] def Statement.exec (call : Value → List Value → Exec M Value) (scopes : List Nat) :
    Statement → Exec M (Option Value)
  | .variable name value => do
    let value ← value.eval call scopes
    let scope ← found scopes.head?
    modify (·.assign scope name value)
    return none
  | .function _ _ _ => pure none
  | .when condition body => do
    match ← condition.eval call scopes with
    | .flag true => body.exec call scopes
    | .flag false => pure none
    | _ => throw .stuck
  | .return value => do return some (← value.eval call scopes)
  | .throw value => do throw (.thrown (← value.eval call scopes))
  | .expression term => do
    let _ ← term.eval call scopes
    return none

@[simp] def Block.exec (call : Value → List Value → Exec M Value) (scopes : List Nat) :
    Block → Exec M (Option Value)
  | .nil => pure none
  | .cons first rest => do
    match ← first.exec call scopes with
    | some value => return some value
    | none => rest.exec call scopes

end

/-! ## Functions -/

mutual

/-- The variables that a statement declares for the function around it. -/
def Statement.variables : Statement → List String
  | .variable name _ => [name]
  | .when _ body => body.variables
  | _ => []

def Block.variables : Block → List String
  | .nil => []
  | .cons first rest => first.variables ++ rest.variables

end

/-- The functions that a body declares, in scopes. -/
def Block.functions (scopes : List Nat) : Block → Bindings
  | .nil => []
  | .cons (.function name parameters body) rest =>
    rest.functions scopes ++ [(name, .closure name parameters body scopes)]
  | .cons _ rest => rest.functions scopes

/-- Parameters with their values. -/
def parameterBindings : List String → List Value → Bindings
  | [], _ => []
  | name :: names, values =>
    parameterBindings names values.tail ++ [(name, values.headD .undefined)]

/-- The scope of a function that is called. -/
def Block.bindings (body : Block) (parameters : List String) (arguments : List Value)
    (scopes : List Nat) : Bindings :=
  body.functions scopes ++ parameterBindings parameters arguments ++
    body.variables.map (·, .undefined)

/-- Takes what is thrown as an answer. -/
def attempt (exec : Exec M Value) : Exec M Answer := fun machine =>
  match exec machine with
  | .ok value machine => .ok (.value value) machine
  | .error (.thrown error) machine => .ok (.error error) machine
  | .error stop machine => .error stop machine

/-- Goes on with an answer, or throws it again. -/
def settle : Answer → Exec M Value
  | .value value => pure value
  | .error error => throw (.thrown error)

/-- Takes the steps of a program, given how functions are called and what answers names. -/
def Program.exec (call : Value → List Value → Exec M Value) (run : Run) (require : Value) :
    Program M → Exec M Value
  | .finish => pure .undefined
  | .fail error => throw (.thrown error)
  | .publish value next => do
    modify (·.log (.publish run value))
    modify (·.put run.module "exports" value)
    next.exec call run require
  | .change f next => do
    let memory := f (← get).memory
    modify (·.setMemory memory)
    (next memory).exec call run require
  | .require name next => do
    modify (·.log (.ask run name))
    let answer ← attempt (call require [.text name])
    modify (·.log (.answer run answer))
    (next answer).exec call run require

/-- Runs a factory. -/
def runFactory (call : Value → List Value → Exec M Value) (run : Run) (require exports : Value)
    (program : Program M) : Exec M Value := do
  modify (·.log (.start run exports))
  let answer ← attempt (program.exec call run require)
  modify (·.log (.stop run))
  settle answer

/-- Calls a function, and follows calls inside of it to a depth. -/
def invoke (factories : Factories M) : (depth : Nat) → Value → List Value → Exec M Value
  | _, .native .callHasOwnProperty, [.object place, key] => do
    let key ← found (key? key)
    return .flag ((← get).own place key).isSome
  | 0, _, _ => throw .exhausted
  | depth + 1, .closure name parameters body scopes, arguments => do
    modify (·.log (.call name arguments))
    let scopes := (← get).scopes.length :: scopes
    modify (·.enter (body.bindings parameters arguments scopes))
    match ← body.exec (invoke factories depth) scopes with
    | some value => return value
    | none => return .undefined
  | depth + 1, .factory number, [require, .object module, exports] =>
    runFactory (invoke factories depth) ⟨number, module⟩ require exports
      (factories number [require, .object module, exports])
  | _, _, _ => throw .stuck

/-- A function goes on in a scope of its own. -/
theorem invoke_closure (factories : Factories M) (depth : Nat) (name : String)
    (parameters : List String) (body : Block) (scopes : List Nat) (arguments : List Value)
    (machine : Machine M) :
    invoke factories (depth + 1) (.closure name parameters body scopes) arguments machine =
      next
        (body.exec (invoke factories depth) (machine.scopes.length :: scopes)
          ((machine.log (.call name arguments)).enter
            (body.bindings parameters arguments (machine.scopes.length :: scopes))))
        fun returned => pure (returned.getD .undefined) := by
  rw [invoke]
  simp only [bind_apply, modify_apply, next_ok, get_apply, Machine.scopes_log]
  refine congrArg (next _) (funext fun returned => ?_)
  cases returned <;> rfl

/-- The test for a property of an object itself takes no depth. -/
@[simp] theorem invoke_hasOwn_text (factories : Factories M) (depth place : Nat) (key : String)
    (machine : Machine M) :
    invoke factories depth (.native .callHasOwnProperty) [.object place, .text key] machine =
      .ok (.flag (machine.own place key).isSome) machine := by
  cases depth <;> rfl

@[simp] theorem invoke_hasOwn_number (factories : Factories M) (depth place key : Nat)
    (machine : Machine M) :
    invoke factories depth (.native .callHasOwnProperty) [.object place, .number key] machine =
      .ok (.flag (machine.own place key.repr).isSome) machine := by
  cases depth <;> rfl

/-- Runs a script from the beginning. -/
def execute (factories : Factories M) (depth : Nat) (memory : M) (script : Term) :
    EStateM.Result Stop (Machine M) Value :=
  script.eval (invoke factories depth) [] (.start memory)

end ModuleBundler.Execution
