/-
# ModuleBundler.Proofs.Discovery.Recall — what a resolver answers after a history.

A resolver is asked again and again, by itself or by the builds that it serves, and between two calls
any files may change.  The questions of a history are listed with the files as they were
(`History.asked`); the lists follow the steps of a build, so that they hold the questions of builds
that fail on the way too.

What a resolver remembers is a function of this list: for a directory and a specifier the earliest
answer that was a path (`Recalls`).  One question keeps this (`Recalls.step`), so every history does
(`Asks.recalls`), and an answer is either recalled or what a new resolver would say
(`resolver_recalls`).
-/
import ModuleBundler.Proofs.Discovery.Correspondence

namespace ModuleBundler

/-- A question that was put to a resolver, with the files as they were, and its answer. -/
structure Exchange where
  tree : FileTree
  directory : Path
  specifier : String
  importer : Option Path
  answer : Except BuildError Path

namespace Exchange

/-- A question with the answer that a resolver gives. -/
def of (tree : FileTree) (resolver : Resolver) (directory : Path) (specifier : String)
    (importer : Option Path) : Exchange :=
  ⟨tree, directory, specifier, importer,
    (resolver.resolveFrom tree directory specifier importer).1⟩

/-- The question was about a specifier from a directory, in any spelling, and a file was found. -/
def settles (directory : Path) (specifier : String) (exchange : Exchange) : Bool :=
  exchange.specifier == specifier && exchange.directory.same directory && exchange.answer.isOk

end Exchange

namespace Resolver

/-- What is to be answered after some questions: what the first of them that settles the matter was
answered, or else what a new resolver finds among the files of now. -/
def recollect (policy : ExtensionPolicy) (past : List Exchange) (tree : FileTree) (directory : Path)
    (specifier : String) (importer : Option Path) : Except BuildError Path :=
  match past.find? (Exchange.settles directory specifier) with
  | some exchange => exchange.answer
  | none => ((new policy).resolveFrom tree directory specifier importer).1

/-- A resolver remembers exactly what has been settled by some questions. -/
structure Recalls (policy : ExtensionPolicy) (past : List Exchange) (resolver : Resolver) :
    Prop where
  policy : resolver.policy = policy
  memory : ∀ directory specifier, resolver.remembered? directory specifier =
    (past.find? (Exchange.settles directory specifier)).bind fun exchange =>
      exchange.answer.toOption

variable {policy : ExtensionPolicy} {past : List Exchange} {resolver : Resolver}

theorem recalls_new (policy : ExtensionPolicy) : Recalls policy [] (new policy) :=
  ⟨rfl, fun _ _ => rfl⟩

/-- What settles a matter is a path. -/
theorem exists_path_of_find? {directory : Path} {specifier : String} {exchange : Exchange}
    (found : past.find? (Exchange.settles directory specifier) = some exchange) :
    ∃ path, exchange.answer = .ok path := by
  have settles := List.find?_some found
  rw [Exchange.settles, Bool.and_eq_true] at settles
  cases answer : exchange.answer with
  | ok path => exact ⟨path, rfl⟩
  | error error =>
    rw [answer] at settles
    exact absurd settles.2 Bool.false_ne_true

/-- What is remembered has been settled, and what is not has not. -/
theorem Recalls.remembered?_eq_none_iff (recalls : Recalls policy past resolver) (directory : Path)
    (specifier : String) : resolver.remembered? directory specifier = none ↔
      past.find? (Exchange.settles directory specifier) = none := by
  rw [recalls.memory]
  cases found : past.find? (Exchange.settles directory specifier) with
  | none => simp
  | some exchange =>
    obtain ⟨path, answer⟩ := exists_path_of_find? found
    simp [answer, Except.toOption]

/-- The answer of a resolver that remembers what has been settled. -/
theorem Recalls.answer (recalls : Recalls policy past resolver) (tree : FileTree) (directory : Path)
    (specifier : String) (importer : Option Path) :
    (resolver.resolveFrom tree directory specifier importer).1 =
      recollect policy past tree directory specifier importer := by
  rw [answer_eq, recollect, answer_eq, remembered?_new, recalls.memory, recalls.policy]
  cases found : past.find? (Exchange.settles directory specifier) with
  | none => rfl
  | some exchange =>
    obtain ⟨path, answer⟩ := exists_path_of_find? found
    simp [answer, Except.toOption]

section

variable {exchange : Exchange} {directory : Path} {specifier : String}

theorem settles_iff : exchange.settles directory specifier = true ↔
    (exchange.specifier = specifier ∧ exchange.directory.same directory = true) ∧
      exchange.answer.isOk = true := by
  rw [Exchange.settles, Bool.and_eq_true, Bool.and_eq_true, beq_iff_eq]

/-- A question that settles nothing that was open does not matter. -/
theorem find?_append_of_unsettled
    (unsettled : past.find? (Exchange.settles directory specifier) = none →
      ¬ exchange.settles directory specifier = true) :
    (past ++ [exchange]).find? (Exchange.settles directory specifier) =
      past.find? (Exchange.settles directory specifier) := by
  rw [List.find?_append]
  cases found : past.find? (Exchange.settles directory specifier) with
  | some earlier => rfl
  | none => simp [unsettled found]

/-- Where an answer is remembered the matter was settled before, so nothing new is remembered. -/
theorem Recalls.step_known (recalls : Recalls policy past resolver) {path : Path}
    (known : resolver.remembered? exchange.directory exchange.specifier = some path) :
    Recalls policy (past ++ [exchange]) resolver where
  policy := recalls.policy
  memory directory specifier := by
    rw [recalls.memory, find?_append_of_unsettled]
    intro found settles
    obtain ⟨⟨rfl, sameDirectory⟩, -⟩ := settles_iff.mp settles
    have unknown := (recalls.remembered?_eq_none_iff directory exchange.specifier).mpr found
    rw [← remembered?_congr resolver exchange.specifier sameDirectory, known] at unknown
    exact absurd unknown (by simp)

/-- Where no file is found nothing is settled. -/
theorem Recalls.step_failed (recalls : Recalls policy past resolver) {error : BuildError}
    (failed : exchange.answer = .error error) : Recalls policy (past ++ [exchange]) resolver where
  policy := recalls.policy
  memory directory specifier := by
    rw [recalls.memory, find?_append_of_unsettled]
    intro _ settles
    have isOk := (settles_iff.mp settles).2
    rw [failed] at isOk
    exact absurd isOk Bool.false_ne_true

/-- A file that is found settles a matter that was open, and no other. -/
theorem Recalls.step_found (recalls : Recalls policy past resolver) {path : Path}
    (unknown : resolver.remembered? exchange.directory exchange.specifier = none)
    (answered : exchange.answer = .ok path) :
    Recalls policy (past ++ [exchange])
      { resolver with
        found := ⟨exchange.directory, exchange.specifier, path⟩ :: resolver.found } where
  policy := recalls.policy
  memory directory specifier := by
    rw [remembered?_cons]
    dsimp only
    by_cases isAsked : exchange.specifier = specifier ∧ exchange.directory.same directory = true
    · rw [if_pos isAsked, List.find?_append]
      have settles : exchange.settles directory specifier = true :=
        settles_iff.mpr ⟨isAsked, by rw [answered]; rfl⟩
      obtain ⟨rfl, sameDirectory⟩ := isAsked
      rw [remembered?_congr resolver exchange.specifier sameDirectory] at unknown
      rw [(recalls.remembered?_eq_none_iff directory exchange.specifier).mp unknown]
      simp [settles, answered, Except.toOption]
    · rw [if_neg isAsked, recalls.memory, find?_append_of_unsettled]
      exact fun _ settles => isAsked (settles_iff.mp settles).1

end

/-- One question more, and the resolver remembers what has been settled then. -/
theorem Recalls.step (recalls : Recalls policy past resolver) {exchange : Exchange} {next : Resolver}
    (asked : resolver.resolveFrom exchange.tree exchange.directory exchange.specifier
      exchange.importer = (exchange.answer, next)) :
    Recalls policy (past ++ [exchange]) next := by
  rw [resolveFrom] at asked
  cases known : resolver.remembered? exchange.directory exchange.specifier with
  | some path =>
    rw [known] at asked
    obtain ⟨-, rfl⟩ := Prod.mk.inj asked
    exact recalls.step_known known
  | none =>
    rw [known] at asked
    dsimp only at asked
    cases searched : search exchange.tree resolver.policy exchange.directory exchange.specifier
        exchange.importer with
    | error error =>
      rw [searched] at asked
      obtain ⟨failed, rfl⟩ := Prod.mk.inj asked
      exact recalls.step_failed failed.symm
    | ok path =>
      rw [searched] at asked
      obtain ⟨answered, rfl⟩ := Prod.mk.inj asked
      exact recalls.step_found known answered.symm

/-! ## Histories of questions -/

/-- Questions are put to a resolver one after another. -/
inductive Asks : Resolver → List Exchange → Resolver → Prop
  | nil {resolver : Resolver} : Asks resolver [] resolver
  | cons {resolver next last : Resolver} {exchange : Exchange} {later : List Exchange}
      (asked : resolver.resolveFrom exchange.tree exchange.directory exchange.specifier
        exchange.importer = (exchange.answer, next))
      (rest : Asks next later last) : Asks resolver (exchange :: later) last

theorem Asks.append {middle last : Resolver} {first second : List Exchange}
    (h : Asks resolver first middle) (h' : Asks middle second last) :
    Asks resolver (first ++ second) last := by
  induction h with
  | nil => exact h'
  | cons asked rest ih => exact .cons asked (ih h')

/-- One question, with its answer. -/
theorem Asks.one (tree : FileTree) (resolver : Resolver) (directory : Path) (specifier : String)
    (importer : Option Path) :
    Asks resolver [.of tree resolver directory specifier importer]
      (resolver.resolveFrom tree directory specifier importer).2 := by
  have answered := (Prod.eta (resolver.resolveFrom tree directory specifier importer)).symm
  exact .cons answered .nil

/-- Every answer is what is to be answered after the questions before it, and in the end the
resolver remembers what all of them have settled. -/
theorem Asks.recalls {log : List Exchange} {last : Resolver} (asks : Asks resolver log last)
    (recalls : Recalls policy past resolver) :
    Recalls policy (past ++ log) last ∧
      ∀ before exchange later, log = before ++ exchange :: later →
        exchange.answer = recollect policy (past ++ before) exchange.tree exchange.directory
          exchange.specifier exchange.importer := by
  induction asks generalizing past with
  | nil =>
    rw [List.append_nil]
    refine ⟨recalls, fun before exchange later split => ?_⟩
    exact absurd split (by simp)
  | @cons resolver next last first rest asked _ ih =>
    obtain ⟨recallsLast, answers⟩ := ih (recalls.step asked)
    rw [List.append_assoc] at recallsLast
    refine ⟨recallsLast, fun before exchange later split => ?_⟩
    cases before with
    | nil =>
      obtain ⟨rfl, -⟩ := List.cons.inj split
      rw [List.append_nil, ← recalls.answer, asked]
    | cons _ before =>
      obtain ⟨rfl, splitRest⟩ := List.cons.inj split
      rw [answers before exchange later splitRest, List.append_assoc]
      rfl

/-- While the files stay as they are, questions change no answer. -/
theorem Asks.agrees {tree : FileTree} {log : List Exchange} {last : Resolver}
    (asks : Asks resolver log last) (unchanged : ∀ exchange ∈ log, exchange.tree = tree) :
    Agrees tree resolver last := by
  induction asks with
  | nil => exact Agrees.refl tree _
  | @cons resolver next last first rest asked _ ih =>
    have agrees := agrees_resolveFrom tree resolver first.directory first.specifier first.importer
    rw [unchanged first List.mem_cons_self] at asked
    rw [asked] at agrees
    exact agrees.trans (ih fun exchange mem => unchanged exchange (List.mem_cons_of_mem first mem))

/-- A question that fails leaves nothing behind. -/
theorem resolver_of_error {tree : FileTree} {directory : Path} {specifier : String}
    {importer : Option Path} {error : BuildError}
    (failed : (resolver.resolveFrom tree directory specifier importer).1 = .error error) :
    (resolver.resolveFrom tree directory specifier importer).2 = resolver := by
  rw [resolveFrom] at failed ⊢
  cases known : resolver.remembered? directory specifier with
  | some path => rfl
  | none =>
    rw [known] at failed
    dsimp only at failed ⊢
    cases searched : search tree resolver.policy directory specifier importer with
    | error error => rfl
    | ok path =>
      rw [searched] at failed
      exact absurd failed (by simp)

/-- What has been found is found again by any question about it, whoever asks. -/
theorem resolveFrom_again {tree : FileTree} {directory path : Path} {specifier : String}
    {importer : Option Path} {next : Resolver}
    (found : resolver.resolveFrom tree directory specifier importer = (.ok path, next))
    (tree' : FileTree) {other : Path} (same : directory.same other = true)
    (importer' : Option Path) :
    next.resolveFrom tree' other specifier importer' = (.ok path, next) := by
  apply resolveFrom_of_remembered
  rw [resolveFrom] at found
  cases known : resolver.remembered? directory specifier with
  | some known' =>
    rw [known] at found
    obtain ⟨answer, rfl⟩ := Prod.mk.inj found
    rw [← remembered?_congr resolver specifier same, known, Except.ok.inj answer]
  | none =>
    rw [known] at found
    dsimp only at found
    cases searched : search tree resolver.policy directory specifier importer with
    | error error =>
      rw [searched] at found
      exact absurd (Prod.mk.inj found).1 (by simp)
    | ok path' =>
      rw [searched] at found
      obtain ⟨answer, rfl⟩ := Prod.mk.inj found
      rw [remembered?_cons, if_pos ⟨rfl, same⟩, Except.ok.inj answer]

end Resolver

/-! ## The questions of a build -/

namespace Discovery

section

variable (tree : FileTree) (compiler : Compiler)

/-- The question of one import. -/
def linkAsked (importer : Path) (builder : Builder) (specifier : String) : Exchange :=
  .of tree builder.resolver (Resolver.directoryOf importer) specifier (some importer)

/-- The questions of `linkAll`, up to the first import that fails. -/
def linkAllAsked (id : Nat) (importer : Path) : Builder → List String → List Exchange
  | _, [] => []
  | builder, specifier :: specifiers =>
    linkAsked tree importer builder specifier ::
      match link tree compiler id importer builder specifier with
      | (.error _, _) => []
      | (.ok (), next) => linkAllAsked id importer next specifiers

/-- The questions of `expand`. -/
def expandAsked (builder : Builder) (id : Nat) : List Exchange :=
  match builder.graph.get? id with
  | none => []
  | some record => linkAllAsked tree compiler id record.path builder record.specifiers

/-- The questions of `drain`. -/
def drainAsked : (steps : Nat) → Builder → List Exchange
  | 0, _ => []
  | steps + 1, builder =>
    match builder.worklist with
    | [] => []
    | id :: worklist =>
      expandAsked tree compiler { builder with worklist := worklist } id ++
        match expand tree compiler { builder with worklist := worklist } id with
        | (.error _, _) => []
        | (.ok (), next) => drainAsked steps next

/-- The questions of `build`: first the entry is asked for, then the imports of its modules. -/
def buildAsked (resolver : Resolver) (entry : Path) : List Exchange :=
  .of tree resolver tree.workingPath entry.text none ::
    match resolver.resolveEntry tree entry with
    | (.error _, _) => []
    | (.ok path, after) =>
      match discover tree compiler (.start after) path with
      | .error _ => []
      | .ok (_, builder) => drainAsked tree compiler (stepsFor tree after) builder

end

variable (tree : FileTree) (compiler : Compiler)

/-- Looking for the module of a path asks nothing. -/
theorem resolver_identify {builder next : Builder} {path : Path} {id : Nat}
    (found : identify tree compiler builder path = .ok (id, next)) :
    next.resolver = builder.resolver := by
  rw [identify] at found
  split at found
  · obtain ⟨-, rfl⟩ := Prod.mk.inj (Except.ok.inj found)
    rfl
  · rw [discover] at found
    cases text : read tree path with
    | error error =>
      rw [text] at found
      exact absurd found (by simp [bind, Except.bind])
    | ok source =>
      rw [text] at found
      cases result : compiler path source with
      | error error =>
        simp [bind, Except.bind, result] at found
      | ok compiled =>
        simp only [bind, Except.bind, result, pure, Except.pure] at found
        obtain ⟨-, rfl⟩ := Prod.mk.inj (Except.ok.inj found)
        rfl

/-- An import asks one question. -/
theorem resolver_link (id : Nat) (importer : Path) (builder : Builder) (specifier : String) :
    (link tree compiler id importer builder specifier).2.resolver =
      (builder.resolver.resolve tree specifier importer).2 := by
  rw [link]
  cases builder.resolver.resolve tree specifier importer with
  | mk result after =>
    cases result with
    | error error => rfl
    | ok path =>
      dsimp only
      cases identified : identify tree compiler { builder with resolver := after } path with
      | error error => rfl
      | ok made =>
        obtain ⟨target, next⟩ := made
        exact resolver_identify tree compiler identified

theorem asks_linkAll (id : Nat) (importer : Path) (builder : Builder) (specifiers : List String) :
    Resolver.Asks builder.resolver (linkAllAsked tree compiler id importer builder specifiers)
      (linkAll tree compiler id importer builder specifiers).2.resolver := by
  induction specifiers generalizing builder with
  | nil => exact .nil
  | cons specifier specifiers ih =>
    have one : Resolver.Asks builder.resolver [linkAsked tree importer builder specifier]
        (link tree compiler id importer builder specifier).2.resolver := by
      rw [resolver_link]
      exact .one tree builder.resolver _ specifier (some importer)
    rw [linkAllAsked, linkAll]
    cases linked : link tree compiler id importer builder specifier with
    | mk result next =>
      rw [linked] at one
      cases result with
      | error error => exact one
      | ok value => exact one.append (ih next)

theorem asks_expand (builder : Builder) (id : Nat) :
    Resolver.Asks builder.resolver (expandAsked tree compiler builder id)
      (expand tree compiler builder id).2.resolver := by
  rw [expandAsked, expand]
  cases builder.graph.get? id with
  | none => exact .nil
  | some record => exact asks_linkAll tree compiler id record.path builder record.specifiers

theorem asks_drain (steps : Nat) (builder : Builder) :
    Resolver.Asks builder.resolver (drainAsked tree compiler steps builder)
      (drain tree compiler steps builder).2.resolver := by
  induction steps generalizing builder with
  | zero => exact .nil
  | succ steps ih =>
    rw [drainAsked, drain]
    cases builder.worklist with
    | nil => exact .nil
    | cons id worklist =>
      have first := asks_expand tree compiler { builder with worklist := worklist } id
      dsimp only
      cases expanded : expand tree compiler { builder with worklist := worklist } id with
      | mk result next =>
        rw [expanded] at first
        cases result with
        | error error =>
          dsimp only
          rw [List.append_nil]
          exact first
        | ok value => exact first.append (ih next)

/-- The questions of a build are what changes its resolver. -/
theorem asks_build (resolver : Resolver) (entry : Path) :
    Resolver.Asks resolver (buildAsked tree compiler resolver entry)
      (build tree compiler resolver entry).2 := by
  have opens := Resolver.Asks.one tree resolver tree.workingPath entry.text none
  rw [← Resolver.resolveEntry] at opens
  rw [buildAsked, build]
  cases asked : resolver.resolveEntry tree entry with
  | mk result after =>
    rw [asked] at opens
    cases result with
    | error error => exact opens
    | ok path =>
      dsimp only
      cases discovered : discover tree compiler (.start after) path with
      | error error => exact opens
      | ok made =>
        obtain ⟨id, builder⟩ := made
        have kept : builder.resolver = after := by
          have identified : identify tree compiler (.start after) path = .ok (id, builder) :=
            discovered
          exact resolver_identify tree compiler identified
        have rest := asks_drain tree compiler (stepsFor tree after) builder
        rw [kept] at rest
        dsimp only
        cases drained : drain tree compiler (stepsFor tree after) builder with
        | mk result last =>
          rw [drained] at rest
          cases result with
          | error error => exact opens.append rest
          | ok value => exact opens.append rest

theorem mem_linkAllAsked_tree {id : Nat} {importer : Path} {builder : Builder}
    {specifiers : List String} {exchange : Exchange}
    (mem : exchange ∈ linkAllAsked tree compiler id importer builder specifiers) :
    exchange.tree = tree := by
  induction specifiers generalizing builder with
  | nil => exact absurd mem List.not_mem_nil
  | cons specifier specifiers ih =>
    rw [linkAllAsked] at mem
    rcases List.mem_cons.mp mem with rfl | mem
    · rfl
    · split at mem
      · exact absurd mem List.not_mem_nil
      · exact ih mem

theorem mem_drainAsked_tree {steps : Nat} {builder : Builder} {exchange : Exchange}
    (mem : exchange ∈ drainAsked tree compiler steps builder) : exchange.tree = tree := by
  induction steps generalizing builder with
  | zero => exact absurd mem List.not_mem_nil
  | succ steps ih =>
    rw [drainAsked] at mem
    split at mem
    · exact absurd mem List.not_mem_nil
    · rcases List.mem_append.mp mem with mem | mem
      · rw [expandAsked] at mem
        split at mem
        · exact absurd mem List.not_mem_nil
        · exact mem_linkAllAsked_tree tree compiler mem
      · split at mem
        · exact absurd mem List.not_mem_nil
        · exact ih mem

/-- All questions of a build are about the files of the build. -/
theorem mem_buildAsked_tree {resolver : Resolver} {entry : Path} {exchange : Exchange}
    (mem : exchange ∈ buildAsked tree compiler resolver entry) : exchange.tree = tree := by
  rw [buildAsked] at mem
  rcases List.mem_cons.mp mem with rfl | mem
  · rfl
  · split at mem
    · exact absurd mem List.not_mem_nil
    · split at mem
      · exact absurd mem List.not_mem_nil
      · exact mem_drainAsked_tree tree compiler mem

/-- Resolvers that answer every question alike serve builds alike. -/
theorem build_of_agrees {tree : FileTree} {resolver other : Resolver}
    (agrees : Resolver.Agrees tree resolver other) (compiler : Compiler) (entry : Path) :
    (build tree compiler other entry).1 = (build tree compiler resolver entry).1 := by
  have reflexive {α : Type} (result : Except BuildError α) :
      Alike (fun a b => b = a) Eq result result := by
    cases result with
    | ok a => exact .ok rfl
    | error error => exact .error rfl
  have found (result : Except BuildError Path) :
      Alike (fun path path' => True ∧ path' = id path) Eq result result := by
    cases result with
    | ok path => exact .ok ⟨trivial, rfl⟩
    | error error => exact .error rfl
  have c : Corresponds tree tree compiler compiler resolver other id (fun _ => True) Eq := by
    refine ⟨fun _ _ _ _ => rfl, fun _ _ => reflexive _, fun _ _ _ => reflexive _, ?_⟩
    intro path source compiled specifier _ _ _
    have same : (other.resolve tree specifier path).1 = (resolver.resolve tree specifier path).1 :=
      agrees _ _ _
    rw [id, same]
    exact found _
  have same : (other.resolveEntry tree entry).1 = (resolver.resolveEntry tree entry).1 :=
    agrees _ _ _
  have opens : Alike (fun path path' => True ∧ path' = id path) Eq
      (resolver.resolveEntry tree entry).1 (other.resolveEntry tree entry).1 := by
    rw [same]
    exact found _
  have built := build_corresponds c opens
  generalize (build tree compiler resolver entry).1 = first at built ⊢
  generalize (build tree compiler other entry).1 = second at built ⊢
  cases built with
  | ok h => rw [h, ModuleGraph.moved_id]
  | error h => rw [h]

/-! ## Histories of calls -/

/-- What a resolver is called for. -/
inductive Call
  | resolve (specifier : String) (importer : Path)
  | resolveEntry (entry : Path)
  | build (compiler : Compiler) (entry : Path)

/-- What a call comes to. -/
inductive Reply
  | path (found : Except BuildError Path)
  | graph (built : Except BuildError ModuleGraph)

namespace Call

def reply (tree : FileTree) (resolver : Resolver) : Call → Reply
  | resolve specifier importer => .path (resolver.resolve tree specifier importer).1
  | resolveEntry entry => .path (resolver.resolveEntry tree entry).1
  | build compiler entry => .graph (Discovery.build tree compiler resolver entry).1

/-- The resolver when the call is over. -/
def after (tree : FileTree) (resolver : Resolver) : Call → Resolver
  | resolve specifier importer => (resolver.resolve tree specifier importer).2
  | resolveEntry entry => (resolver.resolveEntry tree entry).2
  | build compiler entry => (Discovery.build tree compiler resolver entry).2

/-- The questions that the call puts to the resolver. -/
def asked (tree : FileTree) (resolver : Resolver) : Call → List Exchange
  | resolve specifier importer =>
    [.of tree resolver (Resolver.directoryOf importer) specifier (some importer)]
  | resolveEntry entry => [.of tree resolver tree.workingPath entry.text none]
  | build compiler entry => buildAsked tree compiler resolver entry

theorem asks (tree : FileTree) (resolver : Resolver) (call : Call) :
    Resolver.Asks resolver (call.asked tree resolver) (call.after tree resolver) := by
  cases call with
  | resolve specifier importer => exact .one tree resolver _ specifier (some importer)
  | resolveEntry entry => exact .one tree resolver tree.workingPath entry.text none
  | build compiler entry => exact asks_build tree compiler resolver entry

theorem mem_asked_tree {tree : FileTree} {resolver : Resolver} {call : Call} {exchange : Exchange}
    (mem : exchange ∈ call.asked tree resolver) : exchange.tree = tree := by
  cases call with
  | resolve specifier importer => rw [List.mem_singleton.mp mem]; rfl
  | resolveEntry entry => rw [List.mem_singleton.mp mem]; rfl
  | build compiler entry => exact mem_buildAsked_tree tree compiler mem

/-- Resolvers that answer every question alike are of the same use. -/
theorem reply_of_agrees {tree : FileTree} {resolver other : Resolver}
    (agrees : Resolver.Agrees tree resolver other) (call : Call) :
    call.reply tree other = call.reply tree resolver := by
  cases call with
  | resolve specifier importer => exact congrArg Reply.path (agrees _ _ _)
  | resolveEntry entry => exact congrArg Reply.path (agrees _ _ _)
  | build compiler entry => exact congrArg Reply.graph (build_of_agrees agrees compiler entry)

end Call

/-- Calls one after another, each with the files as they are then. -/
abbrev History := List (FileTree × Call)

namespace History

/-- The resolver when all calls are over. -/
def after (resolver : Resolver) : History → Resolver
  | [] => resolver
  | (tree, call) :: later => after (call.after tree resolver) later

/-- The questions of all calls. -/
def asked (resolver : Resolver) : History → List Exchange
  | [] => []
  | (tree, call) :: later =>
    call.asked tree resolver ++ asked (call.after tree resolver) later

theorem asks (resolver : Resolver) (history : History) :
    Resolver.Asks resolver (asked resolver history) (after resolver history) := by
  induction history generalizing resolver with
  | nil => exact .nil
  | cons item later ih =>
    obtain ⟨tree, call⟩ := item
    exact (call.asks tree resolver).append (ih (call.after tree resolver))

/-- Where no file changes, all questions are about the same files. -/
theorem mem_asked_tree {tree : FileTree} {resolver : Resolver} {history : History}
    (unchanged : ∀ item ∈ history, item.1 = tree) {exchange : Exchange}
    (mem : exchange ∈ asked resolver history) : exchange.tree = tree := by
  induction history generalizing resolver with
  | nil => exact absurd mem List.not_mem_nil
  | cons item later ih =>
    obtain ⟨first, call⟩ := item
    rw [asked] at mem
    rcases List.mem_append.mp mem with mem | mem
    · rw [Call.mem_asked_tree mem]
      exact unchanged (first, call) List.mem_cons_self
    · exact ih (fun item mem => unchanged item (List.mem_cons_of_mem _ mem)) mem

end History

open Resolver in
/-- A resolver after any history of calls, between which any files may have changed.  Every question,
whether it is put by a call or by a build on its way, is answered as the first question before it
that was about the same specifier from the same directory and found a file, or else as by a new
resolver.  Questions that fail leave nothing behind, and it does not matter whether it is an entry
that is asked for or what a module in the working directory names.  While no file changes, every
call comes to what it comes to with a new resolver. -/
theorem resolver_recalls (policy : ExtensionPolicy) (history : History) :
    let resolver := History.after (.new policy) history
    let past := History.asked (.new policy) history
    (∀ before exchange later, past = before ++ exchange :: later →
      exchange.answer = recollect policy before exchange.tree exchange.directory exchange.specifier
        exchange.importer) ∧
    (∀ tree specifier importer, (resolver.resolve tree specifier importer).1 =
      recollect policy past tree (directoryOf importer) specifier (some importer)) ∧
    (∀ tree entry, (resolver.resolveEntry tree entry).1 =
      recollect policy past tree tree.workingPath entry.text none) ∧
    (∀ tree directory specifier importer error,
      (resolver.resolveFrom tree directory specifier importer).1 = .error error →
        (resolver.resolveFrom tree directory specifier importer).2 = resolver) ∧
    (∀ (tree tree' : FileTree) (specifier : String) (importer path : Path) (next : Resolver),
      (directoryOf importer).same tree.workingPath = true →
        (resolver.resolveEntry tree ⟨specifier⟩ = (.ok path, next) →
          next.resolve tree' specifier importer = (.ok path, next)) ∧
        (resolver.resolve tree' specifier importer = (.ok path, next) →
          next.resolveEntry tree ⟨specifier⟩ = (.ok path, next))) ∧
    ∀ tree, (∀ item ∈ history, item.1 = tree) →
      ∀ call : Call, call.reply tree resolver = call.reply tree (.new policy) := by
  intro resolver past
  have asks := History.asks (.new policy) history
  obtain ⟨recalls, answers⟩ := asks.recalls (recalls_new policy)
  rw [List.nil_append] at recalls
  refine ⟨?_, ?_, ?_, ?_, ?_, ?_⟩
  · intro before exchange later split
    have answer := answers before exchange later split
    rwa [List.nil_append] at answer
  · intro tree specifier importer
    exact recalls.answer tree (directoryOf importer) specifier (some importer)
  · intro tree entry
    exact recalls.answer tree tree.workingPath entry.text none
  · intro tree directory specifier importer error failed
    exact resolver_of_error failed
  · intro tree tree' specifier importer path next sameDirectory
    constructor
    · intro found
      rw [Path.same_comm] at sameDirectory
      exact resolveFrom_again found tree' sameDirectory (some importer)
    · intro found
      exact resolveFrom_again found tree sameDirectory none
  · intro tree unchanged call
    exact Call.reply_of_agrees (asks.agrees fun _ => History.mem_asked_tree unchanged) call

/-- A file that is there for a while. -/
def withFile : FileTree :=
  ⟨[(["src"], .directory), (["src", "a.js"], .file "".toUTF8)], ["src"]⟩

def withoutFile : FileTree :=
  ⟨[(["src"], .directory)], ["src"]⟩

/-- What has been found is answered although it is gone, in another spelling of the directory and
for an entry. -/
theorem resolver_recalls_withoutFile :
    let resolver := History.after (.new .standard)
      [(withoutFile, .resolve "./a" ⟨"/src/x.js"⟩), (withFile, .resolve "./a" ⟨"/src/x.js"⟩)]
    (resolver.resolve withoutFile "./a" ⟨"/src//y.js"⟩).1 = .ok ⟨"/src/a.js"⟩ ∧
      (resolver.resolveEntry withoutFile ⟨"./a"⟩).1 = .ok ⟨"/src/a.js"⟩ ∧
      (resolver.resolve withoutFile "./b" ⟨"/src/x.js"⟩).1.toOption = none := by
  obtain ⟨-, imports, entries, -⟩ := resolver_recalls .standard
    [(withoutFile, .resolve "./a" ⟨"/src/x.js"⟩), (withFile, .resolve "./a" ⟨"/src/x.js"⟩)]
  intro resolver
  refine ⟨(imports _ _ _).trans ?_, (entries _ _).trans ?_, (congrArg _ (imports _ _ _)).trans ?_⟩
  · decide +kernel
  · decide +kernel
  · decide +kernel

end Discovery

end ModuleBundler
