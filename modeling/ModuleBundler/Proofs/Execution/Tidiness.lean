/-
# ModuleBundler.Proofs.Execution.Tidiness — what pure factories leave in order.

While a bundle of pure factories runs, everything that has been done so far is in order (`Tidy`): a
run that is over has left what the recipe of its module comes to, nothing changes that any more, and
an object that no factory has been given yet is blank.  Runs that begin, go on or end preserve it,
and so does a run that fills what is its own.
-/
import ModuleBundler.Proofs.Execution.Purity

namespace ModuleBundler

namespace Execution

variable {M D : Type} {view : View M D} {target : Nat → String → Option Nat}
variable {recipes : Nat → Recipe D} {thrown : Option Value} {events trace : List Event}
variable {memory after : M} {run : Run} {own exports value : Value}

/-- The runs that have made a value have begun. -/
def Known (view : View M D) (trace : List Event) (value : Value) : Prop :=
  ∀ maker, view.maker value = some maker → ∃ run, .start run maker ∈ trace

/-- The runs that have made a value are over. -/
def Sealed (view : View M D) (trace : List Event) (value : Value) : Prop :=
  ∀ maker, view.maker value = some maker → ∃ run, .start run maker ∈ trace ∧ .stop run ∈ trace

theorem Sealed.append (isSealed : Sealed view trace value) (events : List Event) :
    Sealed view (trace ++ events) value := by
  intro maker made
  obtain ⟨run, started, stopped⟩ := isSealed maker made
  exact ⟨run, List.mem_append_left events started, List.mem_append_left events stopped⟩

theorem Known.append (known : Known view trace value) (events : List Event) :
    Known view (trace ++ events) value := by
  intro maker made
  obtain ⟨run, started⟩ := known maker made
  exact ⟨run, List.mem_append_left events started⟩

/-- What an answer says was thrown. -/
def Answer.thrown? : Answer → Option Value
  | .value _ => none
  | .error reason => some reason

/-- What a run has left behind that is over: its exports, unless something was thrown that ended all
runs it passed. -/
def Leaves (view : View M D) (thrown : Option Value) (trace : List Event) (memory : M) (run : Run) :
    Except Value D → Prop
  | .ok content => ∃ value, exportsOf run trace = some value ∧ view.content memory value = content
  | .error error => thrown = some error

/-- All that has been done so far is in order. -/
structure Tidy (view : View M D) (target : Nat → String → Option Nat) (recipes : Nat → Recipe D)
    (thrown : Option Value) (trace : List Event) (memory : M) : Prop where
  /-- nothing has been done with an object that has not been given to a factory -/
  blank : ∀ place, (∀ run, .start run (.object place) ∉ trace) →
    view.content memory (.object place) = view.blank
  distinct : ∀ run other exports, .start run exports ∈ trace → .start other exports ∈ trace →
    run = other
  /-- what a run leaves behind is what its recipe comes to -/
  settled : ∀ run, .stop run ∈ trace →
    ∃ result, Computes target recipes run.factory (recipes run.factory) result ∧
      Leaves view thrown trace memory run result
  /-- and nothing changes it any more -/
  isSealed : ∀ run value, .stop run ∈ trace → exportsOf run trace = some value →
    Sealed view trace value
  needs : ∀ run, .stop run ∈ trace → ∀ id, Needs target recipes run.factory (recipes run.factory) id →
    ∃ other ∈ starts trace, other.factory = id

/-- What a run exports stays as it is while nothing happens that concerns it. -/
theorem exportsOf_append_of_quiet (quiet : ∀ event ∈ events, ∀ value, event.exported run value = value)
    (trace : List Event) : exportsOf run (trace ++ events) = exportsOf run trace := by
  rw [exportsOf_append]
  induction events with
  | nil => rfl
  | cons event events ih =>
    rw [List.foldl_cons, quiet event List.mem_cons_self]
    exact ih fun other mem => quiet other (List.mem_cons_of_mem _ mem)

theorem exportsOf_concat_of_ne {event : Event} (other : event.run? ≠ some run) (trace : List Event) :
    exportsOf run (trace ++ [event]) = exportsOf run trace := by
  apply exportsOf_append_of_quiet
  intro last mem value
  rw [List.mem_singleton.mp mem]
  exact exported_of_run?_ne other value

theorem Leaves.congr {trace' : List Event} {result : Except Value D}
    (leaves : Leaves view thrown trace memory run result)
    (same : exportsOf run trace' = exportsOf run trace) :
    Leaves view thrown trace' memory run result := by
  cases result with
  | ok content =>
    obtain ⟨value, exports, seen⟩ := leaves
    exact ⟨value, same.trans exports, seen⟩
  | error error => exact leaves

namespace Tidy

variable {event : Event}

/-- A value that is sealed is not made by a run that is not over. -/
theorem maker_ne_of_running (tidy : Tidy view target recipes thrown trace memory)
    (started : .start run own ∈ trace) (running : .stop run ∉ trace)
    (isSealed : Sealed view trace value) : view.maker value ≠ some own := by
  intro made
  obtain ⟨other, started', stopped⟩ := isSealed own made
  obtain rfl := tidy.distinct run other own started started'
  exact running stopped

/-- One more event: it does not touch runs that are over, and if it begins or ends a run, this run
is new or has done its work. -/
theorem concat (tidy : Tidy view target recipes thrown trace memory)
    (still : ∀ run, .stop run ∈ trace → exportsOf run (trace ++ [event]) = exportsOf run trace)
    (isNew : ∀ run exports, event = .start run exports → ∀ other, .start other exports ∉ trace)
    (done : ∀ run, event = .stop run →
      (∃ result, Computes target recipes run.factory (recipes run.factory) result ∧
        Leaves view thrown (trace ++ [event]) memory run result) ∧
      (∀ value, exportsOf run (trace ++ [event]) = some value →
        Sealed view (trace ++ [event]) value) ∧
      ∀ id, Needs target recipes run.factory (recipes run.factory) id →
        ∃ other ∈ starts trace, other.factory = id) :
    Tidy view target recipes thrown (trace ++ [event]) memory where
  blank place unused := tidy.blank place fun run mem => unused run (List.mem_append_left _ mem)
  distinct first second exports mem mem' := by
    rcases List.mem_append.mp mem with old | isLast
    · rcases List.mem_append.mp mem' with old' | isLast'
      · exact tidy.distinct first second exports old old'
      · exact absurd old (isNew second exports (List.mem_singleton.mp isLast').symm first)
    · -- a run that begins now has an object that no other run was given
      have isLast := List.mem_singleton.mp isLast
      rcases List.mem_append.mp mem' with old' | isLast'
      · exact absurd old' (isNew first exports isLast.symm second)
      · exact (Event.start.inj (isLast.trans (List.mem_singleton.mp isLast').symm)).1
  settled run mem := by
    rcases List.mem_append.mp mem with before | isLast
    · obtain ⟨result, computes, leaves⟩ := tidy.settled run before
      exact ⟨result, computes, leaves.congr (still run before)⟩
    · exact (done run (List.mem_singleton.mp isLast).symm).1
  isSealed run value mem exports := by
    rcases List.mem_append.mp mem with before | isLast
    · rw [still run before] at exports
      exact (tidy.isSealed run value before exports).append _
    · exact (done run (List.mem_singleton.mp isLast).symm).2.1 value exports
  needs run mem id needed := by
    have before : ∃ other ∈ starts trace, other.factory = id := by
      rcases List.mem_append.mp mem with before | isLast
      · exact tidy.needs run before id needed
      · exact (done run (List.mem_singleton.mp isLast).symm).2.2 id needed
    obtain ⟨other, started, same⟩ := before
    exact ⟨other, by simp [started], same⟩

/-- What happens in no run, or in one that is not over. -/
theorem note (tidy : Tidy view target recipes thrown trace memory)
    (running : ∀ run, event.run? = some run → .stop run ∉ trace) (quiet : event.started? = none)
    (goesOn : ∀ run, event ≠ .stop run) :
    Tidy view target recipes thrown (trace ++ [event]) memory := by
  apply tidy.concat
  · intro run stopped
    apply exportsOf_concat_of_ne
    exact fun same => running run same stopped
  · rintro run exports rfl
    exact absurd quiet nofun
  · exact fun run same => absurd same (goesOn run)

/-- What happens in a run that is not over. -/
theorem noteIn (tidy : Tidy view target recipes thrown trace memory) (running : .stop run ∉ trace)
    (inside : event.run? = some run) (quiet : event.started? = none)
    (goesOn : ∀ run, event ≠ .stop run) :
    Tidy view target recipes thrown (trace ++ [event]) memory := by
  apply tidy.note _ quiet goesOn
  intro other same
  rw [← Option.some.inj (inside.symm.trans same)]
  exact running

theorem call (tidy : Tidy view target recipes thrown trace memory) (name : String)
    (arguments : List Value) :
    Tidy view target recipes thrown (trace ++ [.call name arguments]) memory :=
  tidy.note (fun _ => nofun) rfl nofun

/-- A run begins. -/
theorem start (tidy : Tidy view target recipes thrown trace memory) (running : .stop run ∉ trace)
    (isNew : ∀ other, .start other exports ∉ trace) :
    Tidy view target recipes thrown (trace ++ [.start run exports]) memory := by
  apply tidy.concat
  · intro other stopped
    apply exportsOf_concat_of_ne
    intro same
    rw [Option.some.inj same] at running
    exact running stopped
  · rintro _ _ ⟨rfl⟩
    exact isNew
  · exact fun other => nofun

/-- A run is over. -/
theorem stop (tidy : Tidy view target recipes thrown trace memory) {result : Except Value D}
    (computes : Computes target recipes run.factory (recipes run.factory) result)
    (leaves : Leaves view thrown trace memory run result)
    (isSealed : ∀ value, exportsOf run trace = some value →
      Sealed view (trace ++ [.stop run]) value)
    (needs : ∀ id, Needs target recipes run.factory (recipes run.factory) id →
      ∃ other ∈ starts trace, other.factory = id) :
    Tidy view target recipes thrown (trace ++ [.stop run]) memory := by
  have still : ∀ other, exportsOf other (trace ++ [.stop run]) = exportsOf other trace := by
    intro other
    rw [exportsOf_append]
    rfl
  apply tidy.concat
  · exact fun other _ => still other
  · exact fun other exports => nofun
  · rintro _ ⟨rfl⟩
    refine ⟨⟨result, computes, leaves.congr (still run)⟩, ?_, needs⟩
    rw [still run]
    exact isSealed

/-- A run that is not over changes what is its own. -/
theorem change (tidy : Tidy view target recipes thrown trace memory)
    (started : .start run own ∈ trace) (running : .stop run ∉ trace)
    (keeps : view.Keeps (fun value => view.maker value ≠ some own) memory after) :
    Tidy view target recipes thrown trace after where
  blank place unused := by
    -- the object is not what this run was given
    have isOther : view.maker (.object place) ≠ some own := by
      rw [view.maker_object]
      intro same
      rw [← Option.some.inj same] at started
      exact unused run started
    exact (keeps _ isOther).trans (tidy.blank place unused)
  distinct := tidy.distinct
  settled other stopped := by
    obtain ⟨result, computes, leaves⟩ := tidy.settled other stopped
    refine ⟨result, computes, ?_⟩
    cases result with
    | ok content =>
      obtain ⟨value, exports, seen⟩ := leaves
      -- what is over is sealed, so this run has made none of it
      have isSealed := tidy.isSealed other value stopped exports
      have isOther := tidy.maker_ne_of_running started running isSealed
      exact ⟨value, exports, (keeps value isOther).trans seen⟩
    | error error => exact leaves
  isSealed := tidy.isSealed
  needs := tidy.needs

/-- Something is thrown, and nothing else has been thrown before. -/
theorem fail {error : Value} (tidy : Tidy view target recipes thrown trace memory)
    (same : ∀ other, thrown = some other → error = other) :
    Tidy view target recipes (some error) trace memory where
  blank := tidy.blank
  distinct := tidy.distinct
  settled run stopped := by
    obtain ⟨result, computes, leaves⟩ := tidy.settled run stopped
    refine ⟨result, computes, ?_⟩
    cases result with
    | ok content => exact leaves
    | error other => exact congrArg some (same other leaves)
  isSealed := tidy.isSealed
  needs := tidy.needs

end Tidy

end Execution

end ModuleBundler
