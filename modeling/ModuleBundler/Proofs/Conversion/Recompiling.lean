/-
# ModuleBundler.Proofs.Conversion.Recompiling — converting a converted script.

The code of a converted script is meant to be a script that needs no conversion.  Where it has
neither declarations nor imports at run time, another conversion leaves it as it is, and where it is
read as what the first conversion means, both name the same modules (`standard_again`).

Whether it is read so is up to the text.  Nothing stands in the place of a declaration that parts
the statements around it, so the second conversion may find a module that the first one has not
found (`standard_again_differs`).
-/
import ModuleBundler.Proofs.Conversion.Statementwise
import ModuleBundler.Proofs.Conversion.Trees

namespace ModuleBundler.Conversion

open Script

/-! ## Scripts that need no conversion -/

/-- Where no item takes a range, nothing is exported. -/
theorem allExports_of_unplaced {items : List ModuleItem}
    (unplaced : ∀ item ∈ items, item.place? = none) : allExports items = [] := by
  refine List.flatMap_eq_nil_iff.mpr fun own mem => ?_
  have place := unplaced own.2 (mem_of_numbered mem).2
  obtain ⟨object, item⟩ := own
  cases item with
  | requireCall source => rfl
  | _ => cases place

/-- A script without declarations, imports at run time and a line that names an interpreter is its
own code. -/
theorem convert_of_unplaced {isTyped : Bool} {text : List Char} {program : Program}
    (read : Program.read isTyped text = .ok program) (faultless : program.fault? isTyped = none)
    (unnamed : hashbangExtent text = 0) (unplaced : ∀ item ∈ program.items, item.place? = none) :
    convert isTyped text = .ok ⟨specifiers program.items, String.ofList text⟩ := by
  have hashbang : program.hashbang = none := by
    rw [Program.hashbang_eq read, if_pos unnamed]
  unfold convert
  rw [read]
  dsimp only
  rw [faultless]
  dsimp only
  rw [convertProgram, allExports_of_unplaced unplaced, code_of_unplaced text hashbang unplaced]
  rfl

theorem standard_of_unplaced {path : Path} {source : String} {program : Program}
    (script : path.extension? ≠ some "json")
    (read : Program.read (Compiler.isTyped path) source.toList = .ok program)
    (faultless : program.fault? (Compiler.isTyped path) = none)
    (unnamed : hashbangExtent source.toList = 0)
    (unplaced : ∀ item ∈ program.items, item.place? = none) :
    Compiler.standard path source = .ok ⟨specifiers program.items, source⟩ := by
  rw [standard_eq_ok_iff script, convert_of_unplaced read faultless unnamed unplaced,
    String.ofList_toList]

/-! ## Another conversion -/

/-- Where a script is read as the tree that a conversion means, its items are as those of the
tree. -/
theorem gists_of_shapes {program again : Program}
    (meant : Node.shapes again.statements = trees program) :
    again.items.map ModuleItem.gist = (Node.itemsOfAll (trees program)).map ModuleItem.gist := by
  rw [← meant, Node.gists_shapes]
  rfl

/-- A converted script, converted again.  The tree that its conversion means holds no declaration
and no import at run time, and names the modules that the script names; its code begins with no
line that names an interpreter.  Code that is accepted is left as it is if it holds no declaration
and no import either, and the modules that it names are the same if it is read as that tree. -/
theorem standard_again {path : Path} {source : String} {compiled : CompiledModule}
    (script : path.extension? ≠ some "json")
    (compiles : Compiler.standard path source = .ok compiled) :
    ∃ program, Program.read (Compiler.isTyped path) source.toList = .ok program ∧
      (∀ item ∈ Node.itemsOfAll (trees program), item.place? = none) ∧
      (∀ specifier, specifier ∈ specifiers (Node.itemsOfAll (trees program)) ↔
        specifier ∈ compiled.specifiers) ∧
      hashbangExtent compiled.code.toList = 0 ∧
      (∀ again, Program.read (Compiler.isTyped path) compiled.code.toList = .ok again →
        again.fault? (Compiler.isTyped path) = none →
          ((∀ item ∈ again.items, item.place? = none) →
            Compiler.standard path compiled.code =
              .ok ⟨specifiers again.items, compiled.code⟩) ∧
          (Node.shapes again.statements = trees program → ∃ names,
            Compiler.standard path compiled.code = .ok ⟨names, compiled.code⟩ ∧
              ∀ specifier, specifier ∈ names ↔ specifier ∈ compiled.specifiers)) ∧
      (program.hashbang = none → (∀ item ∈ program.items, item.place? = none) →
        Compiler.standard path compiled.code = .ok compiled) := by
  obtain ⟨program, read, named, isCode⟩ := read_of_convert ((standard_eq_ok_iff script).mp compiles)
  have unnamed : hashbangExtent compiled.code.toList = 0 := by
    rw [isCode]
    exact hashbangExtent_code read
  refine ⟨program, read, place?_eq_none_of_mem_trees, fun specifier => ?_, unnamed,
    fun again readAgain faultless => ⟨fun unplaced => ?_, fun meant => ?_⟩, fun none unplaced => ?_⟩
  · rw [named]
    exact mem_specifiers_trees_iff
  · exact standard_of_unplaced script readAgain faultless unnamed unplaced
  · have same := gists_of_shapes meant
    have unplaced : ∀ item ∈ again.items, item.place? = none := by
      rw [unplaced_iff, same, ← unplaced_iff]
      exact place?_eq_none_of_mem_trees
    refine ⟨_, standard_of_unplaced script readAgain faultless unnamed unplaced,
      fun specifier => ?_⟩
    rw [mem_specifiers, same, ← mem_specifiers, named]
    exact mem_specifiers_trees_iff
  · have whole : compiled.code = source := by
      rw [code_of_unplaced _ none unplaced] at isCode
      exact String.toList_injective isCode
    rw [whole]
    exact compiles

/-- A module whose code is read as what its conversion means. -/
theorem standard_again_module :
    ∃ compiled program again names,
      Compiler.standard ⟨"m.js"⟩
        "import './a';\nexport default require('./b');\nimport('./c')" = .ok compiled ∧
      Program.read false "import './a';\nexport default require('./b');\nimport('./c')".toList =
        .ok program ∧
      Program.read false compiled.code.toList = .ok again ∧
      Node.shapes again.statements = trees program ∧
      compiled.specifiers = ["./a", "./b", "./c"] ∧
      Compiler.standard ⟨"m.js"⟩ compiled.code = .ok ⟨names, compiled.code⟩ ∧
      ∀ specifier, specifier ∈ names ↔ specifier ∈ compiled.specifiers := by
  have accepted : (Compiler.standard ⟨"m.js"⟩
      "import './a';\nexport default require('./b');\nimport('./c')").toOption.isSome = true := by
    decide +kernel
  have run : ((Program.read false
      "import './a';\nexport default require('./b');\nimport('./c')".toList).toOption.bind
        fun program => (Program.read false
          (code "import './a';\nexport default require('./b');\nimport('./c')".toList
            program.hashbang program.items)).toOption.map fun again =>
              (specifiers program.items, again.fault? false,
                decide (Node.shapes again.statements = trees program))) =
      some (["./a", "./b", "./c"], none, true) := by
    simp only [code, prologue, String.toList_intercalate, List.cons_append, List.map_cons]
    -- the characters of a literal are known as they stand
    repeat rw [String.toList_ofList]
    decide +kernel
  obtain ⟨program, read, run⟩ := Option.bind_eq_some_iff.mp run
  obtain ⟨again, readAgain, run⟩ := Option.map_eq_some_iff.mp run
  obtain ⟨listed, run⟩ := Prod.mk.inj run
  obtain ⟨faultless, meant⟩ := Prod.mk.inj run
  obtain ⟨compiled, compiles⟩ := Option.isSome_iff_exists.mp accepted
  have compiles := ok_of_toOption compiles
  have read := ok_of_toOption read
  obtain ⟨own, readOwn, named, isCode⟩ :=
    read_of_convert ((standard_eq_ok_iff (by decide)).mp compiles)
  obtain rfl : program = own := Except.ok.inj (read.symm.trans readOwn)
  have readAgain := ok_of_toOption readAgain
  rw [← isCode] at readAgain
  obtain ⟨first, readFirst, -, -, -, next, -⟩ :=
    standard_again (by decide) compiles
  obtain rfl : program = first := Except.ok.inj (read.symm.trans readFirst)
  obtain ⟨-, kept⟩ := next again readAgain faultless
  obtain ⟨names, same, agree⟩ := kept (of_decide_eq_true meant)
  exact ⟨compiled, program, again, names, compiles, read, readAgain, of_decide_eq_true meant,
    named.trans listed, same, agree⟩

/-- Code that is accepted may name a module that was not named before, where what stood before and
behind a declaration makes a call, and an import at run time, where it makes a division. -/
theorem standard_again_differs :
    (∃ compiled recompiled,
      Compiler.standard ⟨"m.js"⟩ "require\nimport './a'\n('./x')" = .ok compiled ∧
      Compiler.standard ⟨"m.js"⟩ compiled.code = .ok recompiled ∧
      "./x" ∈ recompiled.specifiers ∧ "./x" ∉ compiled.specifiers) ∧
    ∃ compiled recompiled,
      Compiler.standard ⟨"m.js"⟩ "a\nimport './b'\n/import('x')/g" = .ok compiled ∧
      Compiler.standard ⟨"m.js"⟩ compiled.code = .ok recompiled ∧
      recompiled.code ≠ compiled.code := by
  have script : (⟨"m.js"⟩ : Path).extension? ≠ some "json" := by decide
  have calls : ((convert false "require\nimport './a'\n('./x')".toList).toOption.bind
      fun compiled => (convert false compiled.code.toList).toOption.map fun recompiled =>
        (compiled.specifiers, recompiled.specifiers)) = some (["./a"], ["./a", "./x"]) := by
    decide +kernel
  have divides : ((convert false "a\nimport './b'\n/import('x')/g".toList).toOption.bind
      fun compiled => (convert false compiled.code.toList).toOption.map fun recompiled =>
        decide (recompiled.code = compiled.code)) = some false := by
    decide +kernel
  refine ⟨?_, ?_⟩
  · obtain ⟨compiled, compiles, calls⟩ := Option.bind_eq_some_iff.mp calls
    obtain ⟨recompiled, recompiles, both⟩ := Option.map_eq_some_iff.mp calls
    obtain ⟨own, all⟩ := Prod.mk.inj both
    exact ⟨compiled, recompiled, (standard_eq_ok_iff script).mpr (ok_of_toOption compiles),
      (standard_eq_ok_iff script).mpr (ok_of_toOption recompiles), by simp [all], by simp [own]⟩
  · obtain ⟨compiled, compiles, divides⟩ := Option.bind_eq_some_iff.mp divides
    obtain ⟨recompiled, recompiles, differ⟩ := Option.map_eq_some_iff.mp divides
    exact ⟨compiled, recompiled, (standard_eq_ok_iff script).mpr (ok_of_toOption compiles),
      (standard_eq_ok_iff script).mpr (ok_of_toOption recompiles), of_decide_eq_false differ⟩

end ModuleBundler.Conversion
