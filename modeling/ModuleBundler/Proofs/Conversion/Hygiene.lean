/-
# ModuleBundler.Proofs.Conversion.Hygiene — names of a script and of its conversion.

The names that a conversion declares are its own beside those of the script, and it uses few others
(`hygiene_trees`).  No name is chosen so that it differs from those of the script, though.  Where a
script stays apart from the names of its conversion, nothing is captured and no variable is declared
for both (`Hygiene.uncaptured`), and for the names of the module that is exact
(`Hygiene.apart_iff`).  But a script need not stay apart (`reference_captured`).
-/
import ModuleBundler.Proofs.Conversion.Names

namespace ModuleBundler.Conversion

open Script

/-! ## Names that are apart -/

/-- The names of variables that a script exports. -/
def exportedVariables (program : Program) : List String :=
  program.exportSites.filterMap fun site =>
    match site.shown with
    | .variable name => some name
    | _ => none

/-- The names of a script: those that it imports, exports, uses or binds, in whatever scope. -/
def scriptNames (program : Program) : List String :=
  importedNames program ++ exportedVariables program ++ Node.usedAll program.statements ++
    Node.boundAll program.statements

theorem mem_scriptNames {program : Program} {name : String} : name ∈ scriptNames program ↔
    name ∈ importedNames program ∨ name ∈ exportedVariables program ∨
      name ∈ Node.usedAll program.statements ∨ name ∈ Node.boundAll program.statements := by
  simp only [scriptNames, List.mem_append, or_assoc]

theorem moduleNames_subset_scriptNames (program : Program) :
    moduleNames program ⊆ scriptNames program := by
  intro name mem
  rcases List.mem_append.mp mem with imported | declared
  · exact mem_scriptNames.mpr (.inl imported)
  · exact mem_scriptNames.mpr (.inr (.inr (.inr (Node.mem_bound_of_scope declared))))

theorem mem_exportedVariables {program : Program} {item : ModuleItem} {site : ExportSite}
    {name : String} (mem : item ∈ program.items) (exports : site ∈ item.exportSites)
    (shown : site.shown = .variable name) : name ∈ exportedVariables program := by
  refine List.mem_filterMap.mpr ⟨site, List.mem_flatMap.mpr ⟨item, mem, exports⟩, ?_⟩
  rw [shown]

/-- A script stays apart from its conversion: none of its names is one that the conversion declares
for itself, and it declares none for the module that the conversion relies on. -/
structure Apart (program : Program) : Prop where
  own : ∀ name ∈ ownNames program.items, name ∉ scriptNames program
  outer : ∀ name ∈ outerNames program.items, name ∉ moduleNames program

/-- What a conversion does with names. -/
structure Hygiene (program : Program) : Prop where
  /-- What it declares for itself is marked, -/
  marked : ∀ name ∈ ownNames program.items, "__minipack_".toList <+: name.toList
  /-- and known from whether the function is needed and how many variables are. -/
  numbered : ownNames program.items =
    (if program.items.any passesAll then ["__minipack_exportStar"] else []) ++
      (List.range (program.items.countP needsTemporary)).map temporary
  /-- These names differ from each other, -/
  distinct : (ownNames program.items).Nodup
  /-- and stand beside those that the script declares for the module. -/
  declared : (Node.scope (trees program)).Perm (ownNames program.items ++ moduleNames program)
  /-- It uses no other names than its own, outer ones, its parameters and those of the script. -/
  used : ∀ name ∈ Node.usedAll (trees program), name ∈ ownNames program.items ∨
    name ∈ outerNames program.items ∨ name ∈ parameterNames program.items ∨
      name ∈ scriptNames program
  /-- Nor does it bind others, in whatever scope. -/
  bound : ∀ name ∈ Node.boundAll (trees program), name ∈ ownNames program.items ∨
    name ∈ parameterNames program.items ∨ name ∈ importedNames program ∨
      name ∈ Node.boundAll program.statements
  /-- The statements of the script get no name that the conversion declares. -/
  statements : ∀ name ∈ ownNames program.items,
    name ∈ Node.usedAll (program.statements.flatMap statementTrees) ∨
      name ∈ Node.boundAll (program.statements.flatMap statementTrees) →
    name ∈ scriptNames program

theorem outer_of_mem {items : List ModuleItem} {name : String} (mem : name ∈ outerNames items) :
    name ∈ ["require", "exports", "Object", "Promise"] := by
  rcases List.mem_append.mp mem with always | deferred
  · simp only [List.mem_cons, List.not_mem_nil, or_false] at always ⊢
    tauto
  · split at deferred
    · rw [List.mem_singleton.mp deferred]
      decide
    · exact absurd deferred List.not_mem_nil

/-- No name that is relied on is marked. -/
theorem outer_not_own {items : List ModuleItem} {name : String} (outer : name ∈ outerNames items) :
    name ∉ ownNames items := by
  intro own
  have marked := ownNames_marked own
  have unmarked : ∀ name ∈ ["require", "exports", "Object", "Promise"],
      ¬ "__minipack_".toList <+: name.toList := by
    decide
  exact unmarked name (outer_of_mem outer) marked

theorem outer_not_parameter {items : List ModuleItem} {name : String}
    (outer : name ∈ outerNames items) : name ∉ parameterNames items := by
  intro parameter
  have apart : ∀ name ∈ ["require", "exports", "Object", "Promise"],
      name ∉ ["from", "to", "key"] := by
    decide
  unfold parameterNames at parameter
  split at parameter
  · exact apart name (outer_of_mem outer) parameter
  · exact absurd parameter List.not_mem_nil

theorem UsedOrDeferred.outer_or_used {program : Program} {name : String}
    (h : UsedOrDeferred name (Node.usedAll program.statements) program.items) :
    name ∈ outerNames program.items ∨ name ∈ Node.usedAll program.statements := by
  rcases h with uses | ⟨emitted, deferred⟩
  · exact .inr uses
  · refine .inl ?_
    rw [outerNames, if_pos (List.any_eq_true.mpr deferred)]
    rcases List.mem_pair.mp emitted with rfl | rfl <;> simp

theorem outer_or_used_statements {program : Program} {name : String}
    (mem : name ∈ Node.usedAll (program.statements.flatMap statementTrees)) :
    name ∈ outerNames program.items ∨ name ∈ Node.usedAll program.statements := by
  rcases used_statements mem with rfl | uses
  · exact .inl (outer_mem (by simp))
  · exact uses.outer_or_used

theorem hygiene_trees {program : Program}
    (declares : program.items.any ModuleItem.isDeclaration = true) : Hygiene program where
  marked _ := ownNames_marked
  numbered := ownNames_numbered program.items
  distinct := nodup_ownNames program.items
  declared := scope_trees declares
  used name mem := by
    obtain ⟨tree, listed, uses⟩ := Node.mem_usedAll.mp mem
    rcases List.mem_append.mp listed with begins | statement
    · rcases used_prologueTrees (Node.mem_usedAll.mpr ⟨tree, begins, uses⟩) with
        outer | own | parameter | ⟨item, isItem, site, exports, shown⟩
      · exact .inr (.inl outer)
      · exact .inl own
      · exact .inr (.inr (.inl parameter))
      · have exported := mem_exportedVariables isItem exports shown
        exact .inr (.inr (.inr (mem_scriptNames.mpr (.inr (.inl exported)))))
    · rcases outer_or_used_statements (Node.mem_usedAll.mpr ⟨tree, statement, uses⟩) with
        outer | own
      · exact .inr (.inl outer)
      · exact .inr (.inr (.inr (mem_scriptNames.mpr (.inr (.inr (.inl own))))))
  bound name mem := by
    obtain ⟨tree, listed, binds⟩ := Node.mem_boundAll.mp mem
    rcases List.mem_append.mp listed with begins | statement
    · rcases bound_prologueTrees (Node.mem_boundAll.mpr ⟨tree, begins, binds⟩) with
        declared | parameter
      · rcases List.mem_append.mp ((perm_scope_prologueTrees declares).mem_iff.mp declared) with
          own | imported
        · exact .inl own
        · exact .inr (.inr (.inl imported))
      · exact .inr (.inl parameter)
    · exact .inr (.inr (.inr (bound_statements (Node.mem_boundAll.mpr ⟨tree, statement, binds⟩))))
  statements name own mem := by
    -- the names that the conversion adds to statements are outer ones, and these are not marked
    rcases mem with uses | binds
    · rcases outer_or_used_statements uses with outer | uses
      · exact absurd own (outer_not_own outer)
      · exact mem_scriptNames.mpr (.inr (.inr (.inl uses)))
    · exact mem_scriptNames.mpr (.inr (.inr (.inr (bound_statements binds))))

/-- Names stay apart in a conversion: it declares its own names once, what becomes of the script has
nothing to do with them, what it relies on is declared nowhere in it, and what the script declares
is declared as before. -/
structure Uncaptured (program : Program) : Prop where
  once : ∀ name ∈ ownNames program.items, (Node.scope (trees program)).count name = 1
  untouched : ∀ name ∈ ownNames program.items,
    name ∉ Node.usedAll (program.statements.flatMap statementTrees) ∧
      name ∉ Node.boundAll (program.statements.flatMap statementTrees)
  free : ∀ name ∈ outerNames program.items, name ∉ Node.scope (trees program)
  kept : ∀ name ∈ moduleNames program,
    (Node.scope (trees program)).count name = (moduleNames program).count name

namespace Hygiene

variable {program : Program}

theorem count_own (h : Hygiene program) {name : String} (own : name ∈ ownNames program.items) :
    (Node.scope (trees program)).count name = 1 + (moduleNames program).count name := by
  rw [h.declared.count_eq, List.count_append, List.count_eq_one_of_mem h.distinct own]

theorem count_other (h : Hygiene program) {name : String} (other : name ∉ ownNames program.items) :
    (Node.scope (trees program)).count name = (moduleNames program).count name := by
  rw [h.declared.count_eq, List.count_append, List.count_eq_zero.mpr other, Nat.zero_add]

/-- An outer name is declared if the script declares it. -/
theorem mem_outer (h : Hygiene program) {name : String} (outer : name ∈ outerNames program.items) :
    name ∈ Node.scope (trees program) ↔ name ∈ moduleNames program := by
  rw [h.declared.mem_iff, List.mem_append, or_iff_right (outer_not_own outer)]

/-- Just the scripts that declare no own or outer name make a module without collisions. -/
theorem apart_iff (h : Hygiene program) :
    ((∀ name ∈ ownNames program.items, (Node.scope (trees program)).count name = 1) ∧
      ∀ name ∈ outerNames program.items, name ∉ Node.scope (trees program)) ↔
    ∀ name ∈ ownNames program.items ++ outerNames program.items, name ∉ moduleNames program := by
  simp only [List.forall_mem_append]
  refine and_congr (forall₂_congr fun name own => ?_) (forall₂_congr fun name outer => ?_)
  · rw [h.count_own own, Nat.add_eq_left, List.count_eq_zero]
  · rw [h.mem_outer outer]

theorem uncaptured (h : Hygiene program) (apart : Apart program) : Uncaptured program where
  once name own := by
    have undeclared (mem : name ∈ moduleNames program) : False :=
      apart.own name own (moduleNames_subset_scriptNames program mem)
    rw [h.count_own own, List.count_eq_zero.mpr undeclared]
  untouched name own :=
    ⟨fun uses => apart.own name own (h.statements name own (.inl uses)),
      fun binds => apart.own name own (h.statements name own (.inr binds))⟩
  free name outer := by
    rw [h.mem_outer outer]
    exact apart.outer name outer
  kept name mem :=
    h.count_other fun own => apart.own name own (moduleNames_subset_scriptNames program mem)

/-- Where a script binds an outer name in no scope, nothing in its conversion does. -/
theorem unbound (h : Hygiene program) {name : String} (outer : name ∈ outerNames program.items)
    (unimported : name ∉ importedNames program)
    (unbound : name ∉ Node.boundAll program.statements) :
    name ∉ Node.boundAll (trees program) := by
  intro binds
  rcases h.bound name binds with own | parameter | imported | bound
  · exact outer_not_own outer own
  · exact outer_not_parameter outer parameter
  · exact unimported imported
  · exact unbound bound

end Hygiene

/-- The names of a converted module.  Those that a conversion adds are marked and distinct, and it
relies on few others.  For the module itself they collide with no names of the script just where the
script declares none of them, and nothing is captured where the script stays apart from them.  What
imports at run time become may stand inside of functions, and there the names that it relies on must
not be bound, either. -/
theorem convert_hygiene {isTyped : Bool} {text : List Char} {compiled : CompiledModule}
    (converts : convert isTyped text = .ok compiled) :
    ∃ program, Program.read isTyped text = .ok program ∧
      ((∃ node ∈ program.statements, ∃ item, node.Has item ∧ item.isDeclaration = true) →
        Hygiene program ∧
        (((∀ name ∈ ownNames program.items, (Node.scope (trees program)).count name = 1) ∧
            ∀ name ∈ outerNames program.items, name ∉ Node.scope (trees program)) ↔
          ∀ name ∈ ownNames program.items ++ outerNames program.items,
            name ∉ moduleNames program) ∧
        (Apart program → Uncaptured program) ∧
        (∀ name ∈ outerNames program.items, name ∉ importedNames program →
          name ∉ Node.boundAll program.statements → name ∉ Node.boundAll (trees program)) ∧
        compiled.code.toList = ((prologueOf program.items).text text).toList ++
          '\n' :: splice text (edits text program.hashbang program.items) ∧
        ∀ again, Program.read isTyped compiled.code.toList = .ok again →
          Node.shapes again.statements = trees program →
            Node.scope again.statements = Node.scope (trees program)) := by
  obtain ⟨program, read, -, isCode⟩ := read_of_convert converts
  refine ⟨program, read, fun declares => ?_⟩
  have any := any_isDeclaration_iff.mpr declares
  have hygiene := hygiene_trees any
  refine ⟨hygiene, hygiene.apart_iff, hygiene.uncaptured, fun name => hygiene.unbound,
    isCode.trans (code_of_declares text any), fun again _ meant => ?_⟩
  rw [← meant, Node.scope_shapes]

theorem convert_hygiene_module :
    ∃ compiled program again,
      convert false "import { a, b } from './a';\nimport('./b')".toList = .ok compiled ∧
      Program.read false "import { a, b } from './a';\nimport('./b')".toList = .ok program ∧
      ownNames program.items = ["__minipack_dep0"] ∧
      outerNames program.items = ["require", "exports", "Object", "Promise"] ∧
      Hygiene program ∧ Apart program ∧ Uncaptured program ∧
      (∀ name ∈ outerNames program.items, name ∉ Node.boundAll (trees program)) ∧
      Program.read false compiled.code.toList = .ok again ∧
      Node.scope again.statements = Node.scope (trees program) := by
  have accepted : (convert false
      "import { a, b } from './a';\nimport('./b')".toList).toOption.isSome = true := by
    decide +kernel
  obtain ⟨compiled, converts⟩ := exists_ok_of_isSome accepted
  obtain ⟨program, read, result⟩ := convert_hygiene converts
  have names : (Program.read false "import { a, b } from './a';\nimport('./b')".toList).toOption.map
      (fun program => (ownNames program.items, outerNames program.items, importedNames program,
        scriptNames program)) =
      some (["__minipack_dep0"],
        ["require", "exports", "Object", "Promise"], ["a", "b"], ["a", "b"]) := by
    decide +kernel
  have found : (Program.read false "import { a, b } from './a';\nimport('./b')".toList).toOption.map
      (fun program => (program.items.any ModuleItem.isDeclaration, moduleNames program,
        Node.boundAll program.statements)) = some (true, ["a", "b"], []) := by
    decide +kernel
  have meant : ((Program.read false
      "import { a, b } from './a';\nimport('./b')".toList).toOption.bind fun program =>
        (Program.read false (code "import { a, b } from './a';\nimport('./b')".toList
          program.hashbang program.items)).toOption.map fun again =>
            decide (Node.shapes again.statements = trees program)) = some true := by
    simp only [code, prologue, String.toList_intercalate, List.cons_append, List.map_cons]
    -- the characters of a literal are known as they stand
    repeat rw [String.toList_ofList]
    decide +kernel
  rw [read] at names found meant
  obtain ⟨own, names⟩ := Prod.mk.inj (Option.some.inj names)
  obtain ⟨outer, names⟩ := Prod.mk.inj names
  obtain ⟨imported, script⟩ := Prod.mk.inj names
  obtain ⟨declares, found⟩ := Prod.mk.inj (Option.some.inj found)
  obtain ⟨declared, bound⟩ := Prod.mk.inj found
  obtain ⟨again, readAgain, meant⟩ := Option.map_eq_some_iff.mp meant
  obtain ⟨hygiene, -, uncaptured, unbound, -, reads⟩ := result (any_isDeclaration_iff.mp declares)
  have apart : Apart program := by
    constructor
    · rw [own, script]
      decide
    · rw [outer, declared]
      decide
  have free : ∀ name ∈ outerNames program.items, name ∉ Node.boundAll (trees program) := by
    refine fun name is => unbound name is ?_ (by rw [bound]; exact List.not_mem_nil)
    rw [imported]
    rw [outer] at is
    revert name
    decide
  obtain ⟨own', readOwn, -, isCode⟩ := read_of_convert converts
  obtain rfl : program = own' := Except.ok.inj (read.symm.trans readOwn)
  have readAgain := ok_of_toOption readAgain
  rw [← isCode] at readAgain
  exact ⟨compiled, program, again, converts, read, own, outer, hygiene, apart, uncaptured apart,
    free, readAgain, reads again readAgain (of_decide_eq_true meant)⟩

/-- A script may declare a variable of the name by which its exports are reached, and import one of
the name by which its other modules are loaded. -/
theorem reference_captured :
    (∃ compiled program,
      convert false "export { b } from './a';\nvar __minipack_dep0 = 1".toList =
        .ok compiled ∧
      Program.read false "export { b } from './a';\nvar __minipack_dep0 = 1".toList =
        .ok program ∧
      "__minipack_dep0" ∈ ownNames program.items ∧ "__minipack_dep0" ∈ scriptNames program ∧
      (Node.scope (trees program)).count "__minipack_dep0" = 2 ∧
      (prologueOf program.items).getters = [.getter "b" (.property "__minipack_dep0" "b")] ∧
      compiled.code.toList = ((prologueOf program.items).text
        "export { b } from './a';\nvar __minipack_dep0 = 1".toList).toList ++
          "\n\nvar __minipack_dep0 = 1".toList) ∧
    ∃ compiled program,
      convert false "import require from './a';\nimport './b'".toList = .ok compiled ∧
      Program.read false "import require from './a';\nimport './b'".toList = .ok program ∧
      "require" ∈ outerNames program.items ∧ "require" ∈ moduleNames program ∧
      "require" ∈ Node.scope (trees program) ∧
      (prologueOf program.items).loadings.flatMap (·.statements) =
        [.load (some "__minipack_dep0") ⟨⟨20, 25⟩, "./a"⟩,
          .declare "require" (.default "__minipack_dep0"), .load none ⟨⟨34, 39⟩, "./b"⟩] ∧
      compiled.code.toList = ((prologueOf program.items).text
        "import require from './a';\nimport './b'".toList).toList ++ "\n\n".toList := by
  constructor
  · -- the getter is defined before the variable has its own value, and reads it from then on
    have accepted : (convert false
        "export { b } from './a';\nvar __minipack_dep0 = 1".toList).toOption.isSome =
          true := by
      decide +kernel
    obtain ⟨compiled, converts⟩ := exists_ok_of_isSome accepted
    obtain ⟨program, read, -, isCode⟩ := read_of_convert converts
    have found : (Program.read false
        "export { b } from './a';\nvar __minipack_dep0 = 1".toList).toOption.map
          (fun program => (ownNames program.items, scriptNames program, Node.scope (trees program),
            (prologueOf program.items).getters)) =
        some (["__minipack_dep0"], ["__minipack_dep0"], ["__minipack_dep0", "__minipack_dep0"],
          [.getter "b" (.property "__minipack_dep0" "b")]) := by
      decide +kernel
    have behind : (Program.read false
        "export { b } from './a';\nvar __minipack_dep0 = 1".toList).toOption.map
          (fun program => (program.items.any ModuleItem.isDeclaration,
            splice "export { b } from './a';\nvar __minipack_dep0 = 1".toList
              (edits "export { b } from './a';\nvar __minipack_dep0 = 1".toList
                program.hashbang program.items))) =
        some (true, "\nvar __minipack_dep0 = 1".toList) := by
      decide +kernel
    rw [read] at found behind
    obtain ⟨own, found⟩ := Prod.mk.inj (Option.some.inj found)
    obtain ⟨script, found⟩ := Prod.mk.inj found
    obtain ⟨scope, getters⟩ := Prod.mk.inj found
    obtain ⟨declares, body⟩ := Prod.mk.inj (Option.some.inj behind)
    refine ⟨compiled, program, converts, read, ?_, ?_, ?_, getters, ?_⟩
    · rw [own]
      exact List.mem_singleton_self _
    · rw [script]
      exact List.mem_singleton_self _
    · rw [scope]
      rfl
    · rw [isCode, code_of_declares _ declares, body]
      rfl
  · -- the second module is loaded by what the first one exports
    have accepted : (convert false
        "import require from './a';\nimport './b'".toList).toOption.isSome = true := by
      decide +kernel
    obtain ⟨compiled, converts⟩ := exists_ok_of_isSome accepted
    obtain ⟨program, read, -, isCode⟩ := read_of_convert converts
    have found : (Program.read false "import require from './a';\nimport './b'".toList).toOption.map
        (fun program => (outerNames program.items, moduleNames program, Node.scope (trees program),
          (prologueOf program.items).loadings.flatMap (·.statements))) =
        some (["require", "exports", "Object"], ["require"], ["__minipack_dep0", "require"],
          [.load (some "__minipack_dep0") ⟨⟨20, 25⟩, "./a"⟩,
            .declare "require" (.default "__minipack_dep0"), .load none ⟨⟨34, 39⟩, "./b"⟩]) := by
      decide +kernel
    have behind : (Program.read false
        "import require from './a';\nimport './b'".toList).toOption.map
        (fun program => (program.items.any ModuleItem.isDeclaration,
          splice "import require from './a';\nimport './b'".toList
            (edits "import require from './a';\nimport './b'".toList program.hashbang
              program.items))) = some (true, "\n".toList) := by
      decide +kernel
    rw [read] at found behind
    obtain ⟨outer, found⟩ := Prod.mk.inj (Option.some.inj found)
    obtain ⟨module, found⟩ := Prod.mk.inj found
    obtain ⟨scope, loadings⟩ := Prod.mk.inj found
    obtain ⟨declares, body⟩ := Prod.mk.inj (Option.some.inj behind)
    refine ⟨compiled, program, converts, read, ?_, ?_, ?_, loadings, ?_⟩
    · rw [outer]
      exact List.mem_cons_self
    · rw [module]
      exact List.mem_cons_self
    · rw [scope]
      exact List.mem_cons_of_mem _ List.mem_cons_self
    · rw [isCode, code_of_declares _ declares, body]
      rfl

end ModuleBundler.Conversion
