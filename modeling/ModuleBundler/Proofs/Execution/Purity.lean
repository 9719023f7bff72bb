/-
# ModuleBundler.Proofs.Execution.Purity — factories that only compute.

A factory is pure if what its module exports in the end depends on nothing but what it has received
from the modules that it requires.  Such a dependency is a `Recipe`: it requires names, one after
the other and depending on what it receives, and ends with something to leave behind, or to throw.
What a module throws that is required may be caught, then the recipe goes on without it.
Exports that are objects live in the memory, at places of their own in every run of a factory, so
they are compared by what is seen of them (`View`).  A factory may make objects and fill them, those
that it is given included, but it has to leave alone what others have made (`Performs`).

What a recipe comes to needs no machine (`Computes`): every module that is required is computed
afresh, which is possible where imports have no circles.  Whether what a module throws is caught on
the way (`Catches`) is a question about recipes alone, too.
-/
import ModuleBundler.Proofs.Execution.Linking

namespace ModuleBundler.Execution

variable {M D : Type}

/-! ## What is computed -/

/-- What a factory does, as a function of what it receives. -/
inductive Recipe (D : Type)
  | leave (content : D)
  | fail (error : Value)
  /-- goes on with what the module exports that the name leads to, without a module if it leads to
  none, or with what the module has thrown -/
  | require (name : String) (absent : Recipe D) (thrown : Value → Recipe D) (found : D → Recipe D)

section

variable (target : Nat → String → Option Nat) (recipes : Nat → Recipe D)

/-- What comes of a recipe of a module if every module that it requires is computed afresh. -/
inductive Computes : (id : Nat) → Recipe D → Except Value D → Prop
  | leave {id : Nat} {content : D} : Computes id (.leave content) (.ok content)
  | fail {id : Nat} {error : Value} : Computes id (.fail error) (.error error)
  | absent {id : Nat} {name : String} {absent : Recipe D} {thrown : Value → Recipe D}
      {found : D → Recipe D} {result : Except Value D} (nowhere : target id name = none)
      (rest : Computes id absent result) : Computes id (.require name absent thrown found) result
  | found {id other : Nat} {name : String} {absent : Recipe D} {thrown : Value → Recipe D}
      {found : D → Recipe D} {content : D} {result : Except Value D}
      (leads : target id name = some other) (required : Computes other (recipes other) (.ok content))
      (rest : Computes id (found content) result) :
      Computes id (.require name absent thrown found) result
  | thrown {id other : Nat} {name : String} {absent : Recipe D} {thrown : Value → Recipe D}
      {found : D → Recipe D} {error : Value} {result : Except Value D}
      (leads : target id name = some other)
      (required : Computes other (recipes other) (.error error))
      (rest : Computes id (thrown error) result) :
      Computes id (.require name absent thrown found) result

/-- The modules that are required when a recipe is computed. -/
inductive Needs : (id : Nat) → Recipe D → (needed : Nat) → Prop
  | here {id other : Nat} {name : String} {absent : Recipe D} {thrown : Value → Recipe D}
      {found : D → Recipe D} (leads : target id name = some other) :
      Needs id (.require name absent thrown found) other
  | within {id other needed : Nat} {name : String} {absent : Recipe D} {thrown : Value → Recipe D}
      {found : D → Recipe D} (leads : target id name = some other)
      (inner : Needs other (recipes other) needed) :
      Needs id (.require name absent thrown found) needed
  | after {id other needed : Nat} {name : String} {absent : Recipe D} {thrown : Value → Recipe D}
      {found : D → Recipe D} {content : D} (leads : target id name = some other)
      (required : Computes target recipes other (recipes other) (.ok content))
      (rest : Needs id (found content) needed) : Needs id (.require name absent thrown found) needed
  | thrown {id other needed : Nat} {name : String} {absent : Recipe D} {thrown : Value → Recipe D}
      {found : D → Recipe D} {error : Value} (leads : target id name = some other)
      (required : Computes target recipes other (recipes other) (.error error))
      (rest : Needs id (thrown error) needed) : Needs id (.require name absent thrown found) needed
  | absent {id needed : Nat} {name : String} {absent : Recipe D} {thrown : Value → Recipe D}
      {found : D → Recipe D} (nowhere : target id name = none) (rest : Needs id absent needed) :
      Needs id (.require name absent thrown found) needed

/-- Somewhere in a recipe, as it is computed, what a module throws is caught: it does not become
what the recipe throws. -/
inductive Catches : (id : Nat) → Recipe D → Prop
  | here {id other : Nat} {name : String} {absent : Recipe D} {thrown : Value → Recipe D}
      {found : D → Recipe D} {error : Value} (leads : target id name = some other)
      (required : Computes target recipes other (recipes other) (.error error))
      (caught : thrown error ≠ .fail error) : Catches id (.require name absent thrown found)
  | after {id other : Nat} {name : String} {absent : Recipe D} {thrown : Value → Recipe D}
      {found : D → Recipe D} {content : D} (leads : target id name = some other)
      (required : Computes target recipes other (recipes other) (.ok content))
      (rest : Catches id (found content)) : Catches id (.require name absent thrown found)
  | absent {id : Nat} {name : String} {absent : Recipe D} {thrown : Value → Recipe D}
      {found : D → Recipe D} (nowhere : target id name = none) (rest : Catches id absent) :
      Catches id (.require name absent thrown found)

end

section

variable {target : Nat → String → Option Nat} {recipes : Nat → Recipe D} {id other needed : Nat}
variable {name : String} {recipe absent : Recipe D} {thrown : Value → Recipe D}
variable {found : D → Recipe D} {content : D}

/-- A recipe comes to one result only. -/
theorem Computes.unique {result last : Except Value D}
    (first : Computes target recipes id recipe result)
    (second : Computes target recipes id recipe last) : result = last := by
  induction first generalizing last with
  | leave =>
    cases second
    rfl
  | fail =>
    cases second
    rfl
  | absent nowhere _ ih =>
    cases second with
    | absent _ rest => exact ih rest
    | found leads => exact absurd (nowhere.symm.trans leads) nofun
    | thrown leads => exact absurd (nowhere.symm.trans leads) nofun
  | found leads _ _ inner ih =>
    cases second with
    | absent nowhere => exact absurd (nowhere.symm.trans leads) nofun
    | found leads' required rest =>
      obtain rfl := Option.some.inj (leads.symm.trans leads')
      obtain rfl := Except.ok.inj (inner required)
      exact ih rest
    | thrown leads' required =>
      obtain rfl := Option.some.inj (leads.symm.trans leads')
      exact absurd (inner required) nofun
  | thrown leads _ _ inner ih =>
    cases second with
    | absent nowhere => exact absurd (nowhere.symm.trans leads) nofun
    | found leads' required =>
      obtain rfl := Option.some.inj (leads.symm.trans leads')
      exact absurd (inner required) nofun
    | thrown leads' required rest =>
      obtain rfl := Option.some.inj (leads.symm.trans leads')
      obtain rfl := Except.error.inj (inner required)
      exact ih rest

theorem Needs.of_absent (nowhere : target id name = none)
    (needs : Needs target recipes id (.require name absent thrown found) needed) :
    Needs target recipes id absent needed := by
  cases needs with
  | absent _ rest => exact rest
  | here leads => exact absurd (nowhere.symm.trans leads) nofun
  | within leads => exact absurd (nowhere.symm.trans leads) nofun
  | after leads => exact absurd (nowhere.symm.trans leads) nofun
  | thrown leads => exact absurd (nowhere.symm.trans leads) nofun

/-- The module that a name leads to is needed, and what this module needs. -/
theorem Needs.of_needed (leads : target id name = some other)
    (needs : needed = other ∨ Needs target recipes other (recipes other) needed) :
    Needs target recipes id (.require name absent thrown found) needed := by
  rcases needs with rfl | within
  · exact .here leads
  · exact .within leads within

/-- Nothing else is needed for a name, but what is needed after it. -/
theorem Needs.of_found (leads : target id name = some other)
    (needs : Needs target recipes id (.require name absent thrown found) needed) :
    (needed = other ∨ Needs target recipes other (recipes other) needed) ∨
      (∃ content, Computes target recipes other (recipes other) (.ok content) ∧
        Needs target recipes id (found content) needed) ∨
      ∃ error, Computes target recipes other (recipes other) (.error error) ∧
        Needs target recipes id (thrown error) needed := by
  cases needs with
  | absent nowhere => exact absurd (nowhere.symm.trans leads) nofun
  | here leads' =>
    obtain rfl := Option.some.inj (leads.symm.trans leads')
    exact Or.inl (Or.inl rfl)
  | within leads' inner =>
    obtain rfl := Option.some.inj (leads.symm.trans leads')
    exact Or.inl (Or.inr inner)
  | after leads' required rest =>
    obtain rfl := Option.some.inj (leads.symm.trans leads')
    exact Or.inr (Or.inl ⟨_, required, rest⟩)
  | thrown leads' required rest =>
    obtain rfl := Option.some.inj (leads.symm.trans leads')
    exact Or.inr (Or.inr ⟨_, required, rest⟩)

end

/-! ## Factories that compute -/

/-- What is seen of values.  A value may be made by a run of a factory; the run is named by the
object that its module exports at first, which counts as made by the run. -/
structure View (M D : Type) where
  content : M → Value → D
  maker : Value → Option Value
  /-- what is seen of an object that nothing has been done with -/
  blank : D
  maker_object : ∀ place, maker (.object place) = some (.object place)

namespace View

/-- Values of some kind look the same in two memories. -/
def Keeps (view : View M D) (kept : Value → Prop) (memory after : M) : Prop :=
  ∀ value, kept value → view.content after value = view.content memory value

/-- What a run can pass on: what it makes itself, what is made by nobody, and what is made where
something comes from that it has received. -/
def Holds (view : View M D) (own : Value) (received : List Value) (value : Value) : Prop :=
  ∀ maker, view.maker value = some maker →
    maker = own ∨ ∃ other ∈ received, view.maker other = some maker

end View

/-- A program does what a recipe says.  It may read all of the memory, and it fills only what is its
own; what it holds is left alone by the modules that it requires. -/
inductive Performs (view : View M D) (leads : String → Option Nat) (throws : Nat → Value → Prop)
    (own : Value) :
    Program M → Recipe D → (received : List Value) → (exports : Value) → M → Prop
  | finish {received : List Value} {exports : Value} {memory : M} :
      Performs view leads throws own .finish (.leave (view.content memory exports)) received exports
        memory
  | fail {error : Value} {received : List Value} {exports : Value} {memory : M} :
      Performs view leads throws own (.fail error) (.fail error) received exports memory
  | publish {value : Value} {program : Program M} {recipe : Recipe D} {received : List Value}
      {exports : Value} {memory : M} (holds : view.Holds own received value)
      (rest : Performs view leads throws own program recipe received value memory) :
      Performs view leads throws own (.publish value program) recipe received exports memory
  | change {f : M → M} {program : M → Program M} {recipe : Recipe D} {received : List Value}
      {exports : Value} {memory : M}
      (keeps : view.Keeps (fun value => view.maker value ≠ some own) memory (f memory))
      (rest : Performs view leads throws own (program (f memory)) recipe received exports
        (f memory)) :
      Performs view leads throws own (.change f program) recipe received exports memory
  | absent {name : String} {program : Answer → Program M} {absent : Recipe D}
      {thrown : Value → Recipe D} {found : D → Recipe D} {received : List Value} {exports : Value}
      {memory : M} (nowhere : leads name = none)
      (rest : Performs view leads throws own (program (missing name)) absent received exports
        memory) :
      Performs view leads throws own (.require name program) (.require name absent thrown found)
        received exports memory
  | found {name : String} {id : Nat} {program : Answer → Program M} {absent : Recipe D}
      {thrown : Value → Recipe D} {found : D → Recipe D} {received : List Value} {exports : Value}
      {memory : M} (is : leads name = some id)
      (answered : ∀ after value, view.Keeps (view.Holds own received) memory after →
        view.maker value ≠ some own →
        Performs view leads throws own (program (.value value)) (found (view.content after value))
          (value :: received) exports after)
      (refused : ∀ after error, view.Keeps (view.Holds own received) memory after →
        throws id error →
        Performs view leads throws own (program (.error error)) (thrown error) received exports
          after) :
      Performs view leads throws own (.require name program) (.require name absent thrown found)
        received exports memory

section

variable {view : View M D} {leads : String → Option Nat} {throws : Nat → Value → Prop}
variable {own exports : Value} {name : String} {next : Answer → Program M} {recipe : Recipe D}
variable {received : List Value} {memory : M}

theorem Performs.leave {content : D} (seen : view.content memory exports = content) :
    Performs view leads throws own .finish (.leave content) received exports memory := by
  subst seen
  exact .finish

theorem Performs.of_absent (performs : Performs view leads throws own (.require name next) recipe
      received exports memory) (nowhere : leads name = none) :
    ∃ absent thrown found, recipe = .require name absent thrown found ∧
      Performs view leads throws own (next (missing name)) absent received exports memory := by
  cases performs with
  | absent _ rest => exact ⟨_, _, _, rfl, rest⟩
  | found is => exact absurd (nowhere.symm.trans is) nofun

theorem Performs.of_found (performs : Performs view leads throws own (.require name next) recipe
      received exports memory) {id : Nat} (is : leads name = some id) :
    ∃ absent thrown found, recipe = .require name absent thrown found ∧
      ∀ after, view.Keeps (view.Holds own received) memory after →
        (∀ value, view.maker value ≠ some own →
          Performs view leads throws own (next (.value value)) (found (view.content after value))
            (value :: received) exports after) ∧
        ∀ error, throws id error →
          Performs view leads throws own (next (.error error)) (thrown error) received exports
            after := by
  cases performs with
  | absent nowhere => exact absurd (nowhere.symm.trans is) nofun
  | found is' answered refused =>
    obtain rfl := Option.some.inj (is.symm.trans is')
    exact ⟨_, _, _, rfl, fun after keeps =>
      ⟨fun value => answered after value keeps, fun error => refused after error keeps⟩⟩

end

/-- What a module throws. -/
def Throws (target : Nat → String → Option Nat) (recipes : Nat → Recipe D) (id : Nat)
    (error : Value) : Prop :=
  Computes target recipes id (recipes id) (.error error)

/-- The factories of some modules are pure: on whatever memory one begins to run, as long as nothing
has been done with the object that it is given, it does what the recipe of its module says.  It may
catch what is thrown. -/
def ArePure (view : View M D) (target : Nat → String → Option Nat) (recipes : Nat → Recipe D)
    (size : Nat) (factories : Factories M) : Prop :=
  ∀ id < size, ∀ require module place memory,
    view.content memory (.object place) = view.blank →
    Performs view (target id) (Throws target recipes) (.object place)
      (factories id [require, .object module, .object place]) (recipes id) [] (.object place) memory

end ModuleBundler.Execution
