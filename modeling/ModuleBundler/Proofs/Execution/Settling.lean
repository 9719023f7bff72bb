/-
# ModuleBundler.Proofs.Execution.Settling — what pure factories come to.

A module that is required is computed as its recipe says, and a factory that goes on does what is
left of its recipe (`Yields.settles`).  One lemma for each step of a factory says what is known
afterwards, given what is known before: a module that is required can count on everything being in
order, and on the runs that are not over to have led to it (`Calm`), so where nothing leads back to
itself a module that is kept is over.
-/
import ModuleBundler.Proofs.Execution.Caching
import ModuleBundler.Proofs.Execution.Reinvoking
import ModuleBundler.Proofs.Execution.Tidiness

namespace ModuleBundler

namespace Execution

variable {M D : Type} {view : View M D} {setup : Setup M} {recipes : Nat → Recipe D} {size : Nat}
variable {thrown : Option Value} {before events trace : List Event} {memory between after : M}
variable {run : Run} {own exports value : Value} {answer : Answer} {program : Program M}
variable {recipe rest : Recipe D} {received : List Value} {name : String}
variable {next : Answer → Program M}

/-! ## Before and after -/

/-- An answer is what a result says. -/
def Answers (seen : Value → D → Prop) : Answer → Except Value D → Prop
  | .value value, .ok content => seen value content
  | .error thrown, .error error => thrown = error
  | _, _ => False

theorem Answers.mono {seen later : Value → D → Prop} {result : Except Value D}
    (answers : Answers seen answer result)
    (grows : ∀ value content, seen value content → later value content) :
    Answers later answer result := by
  cases answer with
  | value value =>
    cases result with
    | ok content => exact grows value content answers
    | error error => exact answers
  | error thrown =>
    cases result with
    | ok content => exact answers
    | error error => exact answers

/-- A module is answered by what it exports in the end, or by what its factory has thrown. -/
theorem Answers.exporting {seen later : Value → D → Prop} {result : Except Value D}
    (answers : Answers seen answer result)
    (final : ∀ returned content, seen returned content → later value content) :
    Answers later (answer.exporting value) result := by
  cases answer with
  | value returned =>
    cases result with
    | ok content => exact final returned content answers
    | error error => exact answers
  | error thrown =>
    cases result with
    | ok content => exact answers
    | error error => exact answers

theorem Answers.leaves {result : Except Value D} (answers : Answers (fun _ content =>
      ∃ value, exportsOf run trace = some value ∧ view.content memory value = content)
      answer result) : Leaves view answer.thrown? trace memory run result := by
  cases result with
  | ok content =>
    cases answer with
    | value value => exact answers
    | error thrown => exact answers.elim
  | error error =>
    cases answer with
    | value value => exact answers.elim
    | error thrown => exact congrArg some answers

section

variable (view : View M D) (setup : Setup M) (recipes : Nat → Recipe D) (size : Nat)

/-- Everything is in order when a module is required: runs that are not over have led to it. -/
structure Calm (id : Nat) (before : List Event) (memory : M) : Prop where
  inside : id < size
  tidy : Tidy view setup.target recipes none before memory
  busy : ∀ run ∈ starts before, .stop run ∉ before → Relation.TransGen setup.Leads run.factory id

/-- A module that was required has been computed. -/
structure Served (id : Nat) (before : List Event) (memory : M) (answer : Answer)
    (events : List Event) (after : M) : Prop where
  tidy : Tidy view setup.target recipes answer.thrown? (before ++ events) after
  keeps : view.Keeps (Known view before) memory after
  ended : ∀ run ∈ starts events, .stop run ∈ events
  result : ∃ result, Computes setup.target recipes id (recipes id) result ∧
    Answers (fun value content =>
      view.content after value = content ∧ Sealed view (before ++ events) value) answer result
  started : ∃ run ∈ starts (before ++ events), run.factory = id
  needed : ∀ run ∈ starts events,
    run.factory = id ∨ Needs setup.target recipes id (recipes id) run.factory
  needs : ∀ other, Needs setup.target recipes id (recipes id) other →
    ∃ run ∈ starts (before ++ events), run.factory = other

/-- A factory is on its way, and what is left of it does what is left of a recipe. -/
structure Underway (thrown : Option Value) (run : Run) (own : Value) (program : Program M)
    (recipe : Recipe D) (received : List Value) (exports : Value) (before : List Event)
    (memory : M) : Prop where
  inside : run.factory < size
  performs : Performs view (setup.target run.factory) (Throws setup.target recipes) own program
    recipe received exports memory
  tidy : Tidy view setup.target recipes thrown before memory
  /-- what has been thrown is not caught -/
  ending : ∀ error, thrown = some error → recipe = .fail error
  passes : ¬ Catches setup.target recipes run.factory recipe
  started : .start run own ∈ before
  running : .stop run ∉ before
  exporting : exportsOf run before = some exports
  holds : view.Holds own received exports
  received : ∀ value ∈ received, Sealed view before value
  busy : ∀ other ∈ starts before, .stop other ∉ before →
    Relation.ReflTransGen setup.Leads other.factory run.factory

/-- A factory has asked for a module and has been answered. -/
structure Answered (run : Run) (id : Nat) (before : List Event) (memory : M) (found : Answer)
    (first : List Event) (between : M) : Prop where
  tidy : Tidy view setup.target recipes found.thrown? (before ++ first) between
  keeps : view.Keeps (Known view before) memory between
  running : .stop run ∉ first
  ended : ∀ other ∈ starts first, .stop other ∈ first
  still : exportsOf run (before ++ first) = exportsOf run before
  result : ∃ result, Computes setup.target recipes id (recipes id) result ∧
    Answers (fun value content =>
      view.content between value = content ∧ Sealed view (before ++ first) value) found result
  needed : ∀ other ∈ starts first,
    other.factory = id ∨ Needs setup.target recipes id (recipes id) other.factory
  needs : ∀ needed, needed = id ∨ Needs setup.target recipes id (recipes id) needed →
    ∃ other ∈ starts (before ++ first), other.factory = needed

/-- A factory has done what was left of a recipe. -/
structure Done (run : Run) (own : Value) (recipe : Recipe D) (before : List Event) (memory : M)
    (answer : Answer) (events : List Event) (after : M) : Prop where
  tidy : Tidy view setup.target recipes answer.thrown? (before ++ events) after
  keeps : view.Keeps (fun value => view.maker value ≠ some own ∧ Known view before value) memory
    after
  ended : ∀ other ∈ starts events, .stop other ∈ events
  result : ∃ result, Computes setup.target recipes run.factory recipe result ∧
    Answers (fun _ content => ∃ value, exportsOf run (before ++ events) = some value ∧
      view.content after value = content) answer result
  exports : ∃ value, exportsOf run (before ++ events) = some value ∧
    ∀ maker, view.maker value = some maker → maker = own ∨
      ∃ other, .start other maker ∈ before ++ events ∧ .stop other ∈ before ++ events
  needed : ∀ other ∈ starts events, Needs setup.target recipes run.factory recipe other.factory
  needs : ∀ id, Needs setup.target recipes run.factory recipe id →
    ∃ other ∈ starts (before ++ events), other.factory = id

end

/-! ## Steps of a factory -/

namespace Underway

/-- What a run holds in the end is its own, or sealed. -/
theorem maker_cases (underway : Underway view setup recipes size thrown run own program recipe
      received exports before memory) (holds : view.Holds own received value) :
    ∀ maker, view.maker value = some maker → maker = own ∨
      ∃ other, .start other maker ∈ before ∧ .stop other ∈ before := by
  intro maker made
  rcases holds maker made with own | ⟨other, mem, made'⟩
  · exact Or.inl own
  · exact Or.inr (underway.received other mem maker made')

/-- What a run holds is known. -/
theorem known (underway : Underway view setup recipes size thrown run own program recipe received
      exports before memory) (holds : view.Holds own received value) : Known view before value := by
  intro maker made
  rcases underway.maker_cases holds maker made with rfl | ⟨other, started, -⟩
  · exact ⟨run, underway.started⟩
  · exact ⟨other, started⟩

theorem done_of_finish (underway : Underway view setup recipes size thrown run own .finish recipe
      received exports before memory) :
    Done view setup recipes run own recipe before memory (.value .undefined) [] memory := by
  have tidy := underway.tidy
  have ending := underway.ending
  cases underway.performs
  have nothing : thrown = none := by
    cases thrown with
    | none => rfl
    | some error => exact absurd (ending error rfl) nofun
  subst nothing
  exact
    { tidy := by
        rw [List.append_nil]
        exact tidy
      keeps := fun value _ => rfl
      ended := fun other mem => absurd mem List.not_mem_nil
      result := by
        refine ⟨_, .leave, exports, ?_, rfl⟩
        rw [List.append_nil]
        exact underway.exporting
      exports := by
        rw [List.append_nil]
        exact ⟨exports, underway.exporting, underway.maker_cases underway.holds⟩
      needed := fun other mem => absurd mem List.not_mem_nil
      needs := fun id => nofun }

theorem done_of_fail {error : Value} (underway : Underway view setup recipes size thrown run own
      (.fail error) recipe received exports before memory) :
    Done view setup recipes run own recipe before memory (.error error) [] memory := by
  have tidy := underway.tidy
  have ending := underway.ending
  cases underway.performs
  exact
    { tidy := by
        rw [List.append_nil]
        apply tidy.fail
        intro other same
        exact Recipe.fail.inj (ending other same)
      keeps := fun value _ => rfl
      ended := fun other mem => absurd mem List.not_mem_nil
      result := ⟨_, .fail, rfl⟩
      exports := by
        rw [List.append_nil]
        exact ⟨exports, underway.exporting, underway.maker_cases underway.holds⟩
      needed := fun other mem => absurd mem List.not_mem_nil
      needs := fun id => nofun }

end Underway

/-- What was done before a factory goes on belongs to what it does. -/
theorem Done.prepend {first : List Event} (done : Done view setup recipes run own rest
      (before ++ first) between answer events after)
    (keeps : view.Keeps (fun value => view.maker value ≠ some own ∧ Known view before value) memory
      between)
    (ended : ∀ other ∈ starts first, .stop other ∈ first)
    (computes : ∀ result, Computes setup.target recipes run.factory rest result →
      Computes setup.target recipes run.factory recipe result)
    (needed : ∀ other ∈ starts first, Needs setup.target recipes run.factory recipe other.factory)
    (more : ∀ id, Needs setup.target recipes run.factory rest id →
      Needs setup.target recipes run.factory recipe id)
    (needs : ∀ id, Needs setup.target recipes run.factory recipe id →
      Needs setup.target recipes run.factory rest id ∨
        ∃ other ∈ starts (before ++ first), other.factory = id) :
    Done view setup recipes run own recipe before memory answer (first ++ events) after where
  tidy := by
    rw [← List.append_assoc]
    exact done.tidy
  keeps := by
    rintro value ⟨isOther, known⟩
    exact (done.keeps value ⟨isOther, known.append first⟩).trans (keeps value ⟨isOther, known⟩)
  ended := by
    intro other mem
    rw [starts_append] at mem
    rcases List.mem_append.mp mem with inFirst | later
    · exact List.mem_append_left _ (ended other inFirst)
    · exact List.mem_append_right _ (done.ended other later)
  result := by
    obtain ⟨result, computed, answers⟩ := done.result
    rw [← List.append_assoc]
    exact ⟨result, computes result computed, answers⟩
  exports := by
    rw [← List.append_assoc]
    exact done.exports
  needed := by
    intro other mem
    rw [starts_append] at mem
    rcases List.mem_append.mp mem with inFirst | later
    · exact needed other inFirst
    · exact more _ (done.needed other later)
  needs := by
    intro id isNeeded
    rw [← List.append_assoc]
    rcases needs id isNeeded with later | ⟨other, started, same⟩
    · exact done.needs id later
    · exact ⟨other, by rw [starts_append]; exact List.mem_append_left _ started, same⟩

namespace Underway

/-- A run goes on when something has happened, with what is left of its program. -/
theorem onward {first : List Event} {thrown' : Option Value} {program' : Program M}
    {received' : List Value} {exports' : Value}
    (underway : Underway view setup recipes size thrown run own program recipe received exports
      before memory)
    (performs : Performs view (setup.target run.factory) (Throws setup.target recipes) own program'
      rest received' exports' between)
    (tidy : Tidy view setup.target recipes thrown' (before ++ first) between)
    (ending : ∀ error, thrown' = some error → rest = .fail error)
    (passes : ¬ Catches setup.target recipes run.factory rest)
    (running : .stop run ∉ first)
    (ended : ∀ other ∈ starts first, .stop other ∈ first)
    (exporting : exportsOf run (before ++ first) = some exports')
    (holds : view.Holds own received' exports')
    (received : ∀ value ∈ received', Sealed view (before ++ first) value) :
    Underway view setup recipes size thrown' run own program' rest received' exports'
      (before ++ first) between where
  inside := underway.inside
  performs := performs
  tidy := tidy
  ending := ending
  passes := passes
  started := List.mem_append_left _ underway.started
  running mem := by
    rcases List.mem_append.mp mem with old | new
    · exact underway.running old
    · exact running new
  exporting := exporting
  holds := holds
  received := received
  busy other mem goesOn := by
    rw [starts_append] at mem
    rcases List.mem_append.mp mem with old | new
    · exact underway.busy other old fun stopped => goesOn (List.mem_append_left _ stopped)
    · exact absurd (List.mem_append_right _ (ended other new)) goesOn

theorem done_of_publish (underway : Underway view setup recipes size thrown run own
      (.publish value program) recipe received exports before memory)
    (goes : ∀ received exports, Underway view setup recipes size thrown run own program recipe
      received exports (before ++ [.publish run value]) memory →
      Done view setup recipes run own recipe (before ++ [.publish run value]) memory answer events
        after) :
    Done view setup recipes run own recipe before memory answer (.publish run value :: events)
      after := by
  obtain ⟨holds, performs⟩ : view.Holds own received value ∧ _ := by
    cases underway.performs with
    | publish holds rest => exact ⟨holds, rest⟩
  have exporting : exportsOf run (before ++ [.publish run value]) = some value := by
    simp [Event.exported]
  have quiet : ∀ other, other ∉ starts [.publish run value] := by simp [Event.started?]
  have tidy : Tidy view setup.target recipes thrown (before ++ [.publish run value]) memory :=
    underway.tidy.noteIn underway.running rfl rfl fun _ => Event.noConfusion
  have onward := underway.onward performs tidy underway.ending underway.passes
    (by simp) (fun other mem => absurd mem (quiet other)) exporting holds
    fun other mem => (underway.received other mem).append _
  exact (goes _ _ onward).prepend (fun _ _ => rfl) (fun other mem => absurd mem (quiet other))
    (fun _ computes => computes) (fun other mem => absurd mem (quiet other)) (fun _ needs => needs)
    fun _ needs => Or.inl needs

theorem done_of_change {f : M → M} {next : M → Program M}
    (underway : Underway view setup recipes size thrown run own (.change f next) recipe received
      exports before memory)
    (goes : Underway view setup recipes size thrown run own (next (f memory)) recipe received
      exports before (f memory) →
      Done view setup recipes run own recipe before (f memory) answer events after) :
    Done view setup recipes run own recipe before memory answer events after := by
  obtain ⟨keeps, performs⟩ : view.Keeps _ memory (f memory) ∧ _ := by
    cases underway.performs with
    | change keeps rest => exact ⟨keeps, rest⟩
  have done := goes { underway with
    performs := performs
    tidy := underway.tidy.change underway.started underway.running keeps }
  exact { done with
    keeps := fun value isOther => (done.keeps value isOther).trans (keeps value isOther.1) }

/-- Nothing has been thrown when a name is required. -/
theorem nothing_thrown
    (underway : Underway view setup recipes size thrown run own (.require name next) recipe received
      exports before memory) : thrown = none := by
  cases thrown with
  | none => rfl
  | some error =>
    have ends := underway.ending error rfl
    have performs := underway.performs
    rw [ends] at performs
    exact nomatch performs

/-- A factory asks for a name. -/
theorem tidy_asking
    (underway : Underway view setup recipes size thrown run own (.require name next) recipe received
      exports before memory) :
    Tidy view setup.target recipes none (before ++ asking run name) memory := by
  have tidy := underway.tidy
  rw [underway.nothing_thrown] at tidy
  have asked : Tidy view setup.target recipes none (before ++ [.ask run name]) memory :=
    tidy.noteIn underway.running rfl rfl nofun
  have called := asked.call "localRequire" [.text name]
  rw [List.append_assoc] at called
  exact called

theorem calm {id : Nat}
    (underway : Underway view setup recipes size thrown run own (.require name next) recipe received
      exports before memory) (leads : setup.target run.factory name = some id) (inside : id < size) :
    Calm view setup recipes size id (before ++ asking run name) memory where
  inside := inside
  tidy := underway.tidy_asking
  busy other mem goesOn := by
    rw [starts_append, starts_asking, List.append_nil] at mem
    have reaches := underway.busy other mem fun stopped => goesOn (List.mem_append_left _ stopped)
    exact Relation.TransGen.tail' reaches ⟨name, leads⟩

/-- A name that leads nowhere is answered by an error, and the recipe goes on without it. -/
theorem done_of_absent
    (underway : Underway view setup recipes size thrown run own (.require name next) recipe received
      exports before memory) (nowhere : setup.target run.factory name = none)
    (goes : ∀ rest, Underway view setup recipes size none run own (next (missing name)) rest received
      exports (before ++ (asking run name ++ [.answer run (missing name)])) memory →
      Done view setup recipes run own rest
        (before ++ (asking run name ++ [.answer run (missing name)])) memory answer events after) :
    Done view setup recipes run own recipe before memory answer
      (asking run name ++ [.answer run (missing name)] ++ events) after := by
  have asked := underway.tidy_asking
  obtain ⟨absent, refused, found, rfl, performs⟩ := underway.performs.of_absent nowhere
  have quiet : ∀ other, other ∉ starts (asking run name ++ [.answer run (missing name)]) := by
    simp [Event.started?]
  have running : .stop run ∉ before ++ asking run name := by simp [asking, underway.running]
  have tidy : Tidy view setup.target recipes none
      (before ++ (asking run name ++ [.answer run (missing name)])) memory := by
    rw [← List.append_assoc]
    exact asked.noteIn running rfl rfl fun _ => Event.noConfusion
  have exporting : exportsOf run (before ++ (asking run name ++ [.answer run (missing name)])) =
      some exports := by
    simp [asking, Event.exported, underway.exporting]
  have ending : ∀ error, none = some error → absent = .fail error := fun error nothing =>
    absurd nothing.symm (Option.some_ne_none error)
  have passes := fun caught => underway.passes (.absent nowhere caught)
  have onward := underway.onward performs tidy ending passes (by simp [asking])
    (fun other mem => absurd mem (quiet other)) exporting underway.holds
    fun other mem => (underway.received other mem).append _
  apply (goes absent onward).prepend
  · exact fun _ _ => rfl
  · exact fun other mem => absurd mem (quiet other)
  · exact fun _ computes => .absent nowhere computes
  · exact fun other mem => absurd mem (quiet other)
  · exact fun _ needs => .absent nowhere needs
  · exact fun _ needs => Or.inl (needs.of_absent nowhere)

/-- A name that leads to a module is answered when the module has been computed. -/
theorem answered {id : Nat} {found : Answer} {inner : List Event}
    (underway : Underway view setup recipes size thrown run own (.require name next) recipe received
      exports before memory)
    (served : Served view setup recipes id (before ++ asking run name) memory found inner between)
    (unheard : Unheard run inner) :
    Answered view setup recipes run id before memory found
      (asking run name ++ inner ++ [.answer run found]) between := by
  have regroup : before ++ (asking run name ++ inner ++ [.answer run found]) =
      before ++ asking run name ++ inner ++ [.answer run found] := by
    simp
  have starts_first : starts (asking run name ++ inner ++ [.answer run found]) = starts inner := by
    simp [Event.started?]
  have running : .stop run ∉ inner := fun mem => unheard _ mem rfl
  exact
    { tidy := by
        have goesOn : .stop run ∉ before ++ asking run name ++ inner := by
          simp [asking, underway.running, running]
        rw [regroup]
        exact served.tidy.noteIn goesOn rfl rfl fun _ => Event.noConfusion
      keeps := fun value known => served.keeps value (known.append _)
      running := by simp [asking, running]
      ended := by
        intro other mem
        rw [starts_first] at mem
        simp [served.ended other mem]
      still := by
        apply exportsOf_append_of_quiet
        intro event mem value
        simp only [asking, List.mem_append, List.mem_cons, List.not_mem_nil, or_false] at mem
        rcases mem with ((rfl | rfl) | isInner) | rfl
        · rfl
        · rfl
        · exact exported_of_run?_ne (unheard event isInner) value
        · rfl
      result := by
        obtain ⟨result, computed, answers⟩ := served.result
        refine ⟨result, computed, ?_⟩
        rw [regroup]
        exact answers.mono fun value content seen => ⟨seen.1, seen.2.append _⟩
      needed := by
        intro other mem
        rw [starts_first] at mem
        exact served.needed other mem
      needs := by
        intro needed isNeeded
        have started : ∃ other ∈ starts (before ++ asking run name ++ inner),
            other.factory = needed := by
          rcases isNeeded with rfl | isNeeded
          · exact served.started
          · exact served.needs needed isNeeded
        obtain ⟨other, mem, same⟩ := started
        rw [regroup, starts_append]
        exact ⟨other, List.mem_append_left _ mem, same⟩ }

/-- The recipe goes on with what a module exports. -/
theorem done_of_value {id : Nat} {first : List Event}
    (underway : Underway view setup recipes size thrown run own (.require name next) recipe received
      exports before memory) (leads : setup.target run.factory name = some id)
    (answered : Answered view setup recipes run id before memory (.value value) first between)
    (goes : ∀ rest received, Underway view setup recipes size none run own (next (.value value)) rest
      received exports (before ++ first) between →
      Done view setup recipes run own rest (before ++ first) between answer events after) :
    Done view setup recipes run own recipe before memory answer (first ++ events) after := by
  obtain ⟨absent, refused, found, rfl, performs⟩ := underway.performs.of_found leads
  obtain ⟨result, computed, answers⟩ := answered.result
  cases result with
  | error error => exact answers.elim
  | ok content =>
    obtain ⟨rfl, isSealed⟩ := answers
    -- what was received is sealed, and the run that asks is not over
    have isOther : view.maker value ≠ some own := by
      apply answered.tidy.maker_ne_of_running (List.mem_append_left _ underway.started) _ isSealed
      exact fun mem => (List.mem_append.mp mem).elim underway.running answered.running
    have goesOn := (performs between fun value holds =>
      answered.keeps value (underway.known holds)).1 value isOther
    have holds : view.Holds own (value :: received) exports := by
      intro maker made
      rcases underway.holds maker made with isOwn | ⟨other, mem, same⟩
      · exact Or.inl isOwn
      · exact Or.inr ⟨other, List.mem_cons_of_mem _ mem, same⟩
    have sealedAll : ∀ other ∈ value :: received, Sealed view (before ++ first) other :=
      List.forall_mem_cons.mpr
        ⟨isSealed, fun other mem => (underway.received other mem).append first⟩
    have passes := fun caught => underway.passes (.after leads computed caught)
    have onward := underway.onward goesOn answered.tidy (fun _ => nofun) passes answered.running
      answered.ended (answered.still.trans underway.exporting) holds sealedAll
    apply (goes _ _ onward).prepend _ answered.ended
    · exact fun result computes => .found leads computed computes
    · exact fun other mem => .of_needed leads (answered.needed other mem)
    · exact fun id needs => .after leads computed needs
    · intro needed isNeeded
      rcases isNeeded.of_found leads with here | ⟨content, computed', needs⟩ | ⟨error, computed', -⟩
      · exact Or.inr (answered.needs needed here)
      · obtain rfl := Except.ok.inj (computed.unique computed')
        exact Or.inl needs
      · exact absurd (computed.unique computed') nofun
    · exact fun value known => answered.keeps value known.2

/-- What a module throws is not caught, so it ends the recipe. -/
theorem done_of_thrown {id : Nat} {error : Value} {first : List Event}
    (underway : Underway view setup recipes size thrown run own (.require name next) recipe received
      exports before memory) (leads : setup.target run.factory name = some id)
    (answered : Answered view setup recipes run id before memory (.error error) first between)
    (goes : Underway view setup recipes size (some error) run own (next (.error error)) (.fail error)
      received exports (before ++ first) between →
      Done view setup recipes run own (.fail error) (before ++ first) between answer events after) :
    Done view setup recipes run own recipe before memory answer (first ++ events) after := by
  obtain ⟨absent, refused, found, rfl, performs⟩ := underway.performs.of_found leads
  obtain ⟨result, computed, answers⟩ := answered.result
  cases result with
  | ok content => exact answers.elim
  | error reason =>
    obtain rfl : error = reason := answers
    have ends : refused error = .fail error := by
      by_contra caught
      exact underway.passes (.here leads computed caught)
    have goesOn := (performs between fun value holds =>
      answered.keeps value (underway.known holds)).2 error computed
    rw [ends] at goesOn
    have ending : ∀ other, some error = some other →
        (.fail error : Recipe D) = .fail other := fun other same =>
      congrArg Recipe.fail (Option.some.inj same)
    have onward := underway.onward goesOn answered.tidy ending nofun answered.running answered.ended
      (answered.still.trans underway.exporting) underway.holds
      fun other mem => (underway.received other mem).append first
    apply (goes onward).prepend _ answered.ended
    · intro result computes
      rw [← ends] at computes
      exact .thrown leads computed computes
    · exact fun other mem => .of_needed leads (answered.needed other mem)
    · exact fun id => nofun
    · intro needed isNeeded
      rcases isNeeded.of_found leads with here | ⟨content, computed', -⟩ | ⟨error, computed', needs⟩
      · exact Or.inr (answered.needs needed here)
      · exact absurd (computed.unique computed') nofun
      · obtain rfl := Except.error.inj (computed.unique computed')
        rw [ends] at needs
        exact Or.inl needs
    · exact fun value known => answered.keeps value known.2

end Underway

/-! ## Modules -/

/-- A module that is kept is over, since its factory does not wait for itself. -/
theorem Calm.served_of_kept (calm : Calm view setup recipes size run.factory before memory)
    (acyclic : ∀ id, ¬ Relation.TransGen setup.Leads id id) (started : run ∈ starts before)
    (exports : exportsOf run before = some value) :
    Served view setup recipes run.factory before memory (.value value)
      [.call "require" [.number run.factory]] memory := by
  have stopped : .stop run ∈ before := by
    -- a run that is not over has led here, and so to itself
    by_contra running
    exact acyclic _ (calm.busy run started running)
  obtain ⟨result, computed, leaves⟩ := calm.tidy.settled run stopped
  have starts_same : starts (before ++ [.call "require" [.number run.factory]]) = starts before := by
    simp [Event.started?]
  have quiet : ∀ other, other ∉ starts [.call "require" [.number run.factory]] := by
    simp [Event.started?]
  cases result with
  | error error => exact absurd leaves.symm (Option.some_ne_none error)
  | ok content =>
    obtain ⟨final, exports', seen⟩ := leaves
    obtain rfl := Option.some.inj (exports.symm.trans exports')
    exact
      { tidy := calm.tidy.call _ _
        keeps := fun value _ => rfl
        ended := fun other mem => absurd mem (quiet other)
        result := ⟨_, computed, seen, (calm.tidy.isSealed run value stopped exports).append _⟩
        started := ⟨run, by rw [starts_same]; exact started, rfl⟩
        needed := fun other mem => absurd mem (quiet other)
        needs := by
          rw [starts_same]
          exact calm.tidy.needs run stopped }

/-- A module that runs begins to do what its recipe says. -/
theorem Calm.underway {factories : Factories M} {arguments : List Value}
    (calm : Calm view setup recipes size run.factory before memory)
    (pure : ArePure view setup.target recipes size factories)
    (passes : ∀ id < size, ¬ Catches setup.target recipes id (recipes id))
    (unused : ∀ event ∈ before, event.run? ≠ some run)
    (given : Given run before arguments exports) :
    Underway view setup recipes size none run exports (factories run.factory arguments)
      (recipes run.factory) [] exports (before ++ opening run exports) memory := by
  obtain ⟨⟨require, rfl⟩, ⟨place, rfl⟩, isNew⟩ := given
  have running : .stop run ∉ before := fun mem => unused _ mem rfl
  exact
    { inside := calm.inside
      -- the object that it is given is new, so nothing has been done with it
      performs := pure run.factory calm.inside require run.module place memory
        (calm.tidy.blank place isNew)
      tidy := by
        have opened : Tidy view setup.target recipes none
            (before ++ [.call "require" [.number run.factory]] ++ [.start run (.object place)])
            memory := (calm.tidy.call _ _).start (by simp [running]) (by simp [isNew])
        simpa [opening] using opened
      ending := fun error nothing => absurd nothing.symm (Option.some_ne_none error)
      passes := passes run.factory calm.inside
      started := by simp [opening]
      running := by simp [opening, running]
      exporting := by simp [opening, Event.exported]
      holds := by
        intro maker made
        rw [view.maker_object] at made
        exact Or.inl (Option.some.inj made).symm
      received := fun value mem => absurd mem List.not_mem_nil
      busy := by
        intro other mem goesOn
        rw [starts_append, starts_opening] at mem
        rcases List.mem_append.mp mem with old | isRun
        · apply Relation.TransGen.to_reflTransGen
          exact calm.busy other old fun stopped => goesOn (List.mem_append_left _ stopped)
        · rw [List.mem_singleton.mp isRun] }

theorem mem_starts_served {other : Run} :
    other ∈ starts (opening run own ++ events ++ [.stop run]) ↔
      other = run ∨ other ∈ starts events := by
  simp [Event.started?]

/-- What a module exports when its factory has run was made by runs that are over then. -/
theorem Done.isSealed_final {recipe : Recipe D}
    (done : Done view setup recipes run own recipe (before ++ opening run own) memory answer events
      after)
    (final : exportsOf run (before ++ opening run own ++ events) = some value) :
    Sealed view (before ++ opening run own ++ events ++ [.stop run]) value := by
  obtain ⟨exports, exports_eq, madeBy⟩ := done.exports
  obtain rfl := Option.some.inj (final.symm.trans exports_eq)
  intro maker made
  rcases madeBy maker made with rfl | ⟨other, started, stopped⟩
  · exact ⟨run, by simp [opening], by simp⟩
  · exact ⟨other, List.mem_append_left _ started, List.mem_append_left _ stopped⟩

/-- A module whose factory has run has been computed. -/
theorem Done.served (done : Done view setup recipes run own (recipes run.factory)
      (before ++ opening run own) memory answer events after)
    (isNew : ∀ other, .start other own ∉ before)
    (final : exportsOf run (before ++ opening run own ++ events) = some value) :
    Served view setup recipes run.factory before memory (answer.exporting value)
      (opening run own ++ events ++ [.stop run]) after := by
  have thrown : (answer.exporting value).thrown? = answer.thrown? := by
    cases answer <;> rfl
  have split : before ++ (opening run own ++ events ++ [.stop run]) =
      before ++ opening run own ++ events ++ [.stop run] := by
    simp
  obtain ⟨result, computed, answers⟩ := done.result
  have isSealed := done.isSealed_final final
  exact
    { tidy := by
        rw [thrown, split]
        exact done.tidy.stop computed answers.leaves
          (fun other isExported => Option.some.inj (final.symm.trans isExported) ▸ isSealed)
          done.needs
      keeps := by
        -- whatever was known before was not made by this run
        intro other known
        apply done.keeps
        refine ⟨fun made => ?_, known.append _⟩
        obtain ⟨starter, started⟩ := known own made
        exact isNew starter started
      ended := by
        intro other mem
        rcases mem_starts_served.mp mem with rfl | inside
        · simp
        · simp [done.ended other inside]
      result := by
        refine ⟨result, computed, ?_⟩
        rw [split]
        apply answers.exporting
        rintro - content ⟨last, isLast, seen⟩
        obtain rfl := Option.some.inj (final.symm.trans isLast)
        exact ⟨seen, isSealed⟩
      started := ⟨run, by simp, rfl⟩
      needed := by
        intro other mem
        rcases mem_starts_served.mp mem with rfl | inside
        · exact Or.inl rfl
        · exact Or.inr (done.needed other inside)
      needs := by
        intro id isNeeded
        obtain ⟨other, started, same⟩ := done.needs id isNeeded
        rw [split]
        exact ⟨other, by rw [starts_append]; exact List.mem_append_left _ started, same⟩ }

/-! ## Whole runs -/

/-- What a task comes to, if everything is in order before. -/
def Task.Settles (view : View M D) (setup : Setup M) (recipes : Nat → Recipe D) (size : Nat)
    (before : List Event) (memory : M) (answer : Answer) (events : List Event) (after : M) :
    Task M → Prop
  | .require id => Calm view setup recipes size id before memory →
      Served view setup recipes id before memory answer events after
  | .go run program => ∀ thrown own recipe received exports,
      Underway view setup recipes size thrown run own program recipe received exports before memory →
      Done view setup recipes run own recipe before memory answer events after

/-- Whatever is done leaves everything in order, and computes what it should, if nothing that is
thrown is caught. -/
theorem Yields.settles {task : Task M} (yields : Yields setup task before memory answer events after)
    (pure : ArePure view setup.target recipes size setup.factories)
    (passes : ∀ id < size, ¬ Catches setup.target recipes id (recipes id))
    (closed : ∀ id < size, ∀ name other, setup.target id name = some other → other < size)
    (acyclic : ∀ id, ¬ Relation.TransGen setup.Leads id id) :
    task.Settles view setup recipes size before memory answer events after := by
  induction yields with
  | kept _ started exports => exact fun calm => calm.served_of_kept acyclic started exports
  | fresh _ unused _ final given ih =>
    intro calm
    exact (ih _ _ _ _ _ (calm.underway pure passes unused given)).served given.isNew final
  | finish => exact fun _ _ _ _ _ underway => underway.done_of_finish
  | fail => exact fun _ _ _ _ _ underway => underway.done_of_fail
  | publish _ ih =>
    intro _ _ _ _ _ underway
    exact underway.done_of_publish fun _ _ onward => ih _ _ _ _ _ onward
  | change _ ih =>
    intro _ _ _ _ _ underway
    exact underway.done_of_change fun onward => ih _ _ _ _ _ onward
  | @linked before inner events _ _ _ run name _ _ found _ leads required _ served ih =>
    intro _ _ _ _ _ underway
    -- the run that asks is heard of already, so nothing in between concerns it
    have known : ¬ Unheard run (before ++ asking run name) := by simp [asking, Event.run?]
    have unheard : Unheard run inner := required.unheard_of_ne known (Option.some_ne_none run).symm
    have regroup : before ++ asking run name ++ inner ++ [.answer run found] =
        before ++ (asking run name ++ inner ++ [.answer run found]) := by
      simp
    rw [regroup] at ih
    rw [List.append_cons]
    have inside := closed _ underway.inside _ _ leads
    have answered := underway.answered (served (underway.calm leads inside)) unheard
    cases found with
    | value value => exact underway.done_of_value leads answered fun _ _ onward => ih _ _ _ _ _ onward
    | error error => exact underway.done_of_thrown leads answered fun onward => ih _ _ _ _ _ onward
  | unlinked nowhere _ ih =>
    intro _ _ _ _ _ underway
    rw [List.append_assoc] at ih
    rw [List.append_cons]
    exact underway.done_of_absent nowhere fun _ onward => ih _ _ _ _ _ onward

end Execution

end ModuleBundler
