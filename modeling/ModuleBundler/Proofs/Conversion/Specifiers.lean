/-
# ModuleBundler.Proofs.Conversion.Specifiers — the specifiers of a converted script.

A converted script lists the modules that its text names, each once, in the order in which the text
names them first, and in a project that has been built each of them leads to a module
(`convert_specifiers`).  The list is that of the text.  The code that comes out of a conversion
may name more: where a declaration was taken out between two statements, nothing parts them any
more, and they may make a call of `require` that the text does not have
(`specifiers_incomplete`).
-/
import ModuleBundler.Compiler
import ModuleBundler.Proofs.Discovery.Mappings
import ModuleBundler.Proofs.Script.Items

namespace ModuleBundler

open Script

namespace Conversion

/-! ## Lists without repetitions -/

theorem distinct_filter (p : String → Bool) (xs : List String) :
    distinct (xs.filter p) = (distinct xs).filter p := by
  induction xs with
  | nil => rfl
  | cons x xs ih =>
    by_cases holds : p x = true
    · rw [List.filter_cons_of_pos holds, distinct, distinct, List.filter_cons_of_pos holds, ih,
        List.filter_comm]
    · rw [List.filter_cons_of_neg holds, distinct, List.filter_cons_of_neg holds, ih,
        List.filter_filter]
      refine List.filter_congr fun y _ => ?_
      by_cases same : y = x
      · subst same
        simp [holds]
      · simp [same]

/-- Repetitions are dropped behind the first occurrence. -/
theorem distinct_eq_eraseDups (xs : List String) : distinct xs = xs.eraseDups := by
  induction length : xs.length using Nat.strong_induction_on generalizing xs with
  | _ n ih =>
    cases xs with
    | nil => rfl
    | cons x xs =>
      have shorter : (xs.filter (· != x)).length < n := by
        rw [← length]
        exact Nat.lt_succ_of_le (List.length_filter_le _ _)
      rw [distinct, List.eraseDups_cons, ← distinct_filter, ih _ shorter _ rfl]
      rfl

/-! ## What a script names -/

theorem specifiers_eq (program : Program) : specifiers program.items =
    ((Node.sourcesOfAll program.statements).map (·.specifier)).eraseDups := by
  rw [specifiers, distinct_eq_eraseDups, Node.sourcesOfAll, List.map_filterMap]
  rfl

/-- A script that is converted has been read, and its code is made from its items. -/
theorem read_of_convert {isTyped : Bool} {text : List Char} {compiled : CompiledModule}
    (converted : convert isTyped text = .ok compiled) :
    ∃ program, Program.read isTyped text = .ok program ∧
      compiled.specifiers = specifiers program.items ∧
      compiled.code.toList = code text program.hashbang program.items := by
  unfold convert at converted
  split at converted
  · cases converted
  · rename_i program read
    split at converted
    · cases converted
    · unfold convertProgram at converted
      split at converted
      · cases converted
      · cases converted
        exact ⟨program, read, rfl, String.toList_ofList⟩

/-- The standard compiler converts every file that is no data. -/
theorem standard_eq_ok_iff {path : Path} {source : String} {compiled : CompiledModule}
    (script : path.extension? ≠ some "json") : Compiler.standard path source = .ok compiled ↔
      convert (Compiler.isTyped path) source.toList = .ok compiled := by
  unfold Compiler.standard
  rw [if_neg (by simpa using script)]
  dsimp only
  rcases convert (Compiler.isTyped path) source.toList with fault | own
  · cases fault <;> simp
  · simp

end Conversion

namespace Discovery

/-- In a project that has been built, every module that a script names has an entry in the mapping
of the script. -/
theorem leads_of_names {tree : FileTree} {policy : ExtensionPolicy} {entry : Path}
    {graph : ModuleGraph}
    (built : (build tree Compiler.standard (.new policy) entry).1 = .ok graph)
    {record : ModuleRecord} (mem : record ∈ graph.modules)
    (script : record.path.extension? ≠ some "json") :
    ∃ text program, read tree record.path = .ok text ∧
      Program.read (Compiler.isTyped record.path) text.toList = .ok program ∧
      ∀ node ∈ program.statements, ∀ source, node.Names source →
        ∃ target ∈ graph.modules, record.resolve? source.specifier = some target.id := by
  obtain ⟨text, compiled, loads, listed, -⟩ := loads_of_build built mem
  have converted := (Conversion.standard_eq_ok_iff script).mp loads.accepted
  obtain ⟨program, isRead, specifiers, -⟩ := Conversion.read_of_convert converted
  refine ⟨text, program, loads.text, isRead, fun node mem' source names => ?_⟩
  have known : source.specifier ∈ record.specifiers := by
    rw [listed, specifiers, Conversion.specifiers_eq, List.mem_eraseDups]
    exact List.mem_map_of_mem (Node.mem_sourcesOfAll.mpr ⟨node, mem', names⟩)
  obtain ⟨target, memTarget, resolved, -⟩ := leads_of_build built mem known
  exact ⟨target, memTarget, resolved⟩

end Discovery

namespace Conversion

/-- The specifiers of a converted script are those by which its text names modules, in the order of
the text and without repetitions.  Where the script is a module of a project that has been built, the
mapping of the module has each of them. -/
theorem convert_specifiers {isTyped : Bool} {text : List Char} {compiled : CompiledModule}
    (converted : convert isTyped text = .ok compiled) :
    ∃ program, Program.read isTyped text = .ok program ∧ ∃ sites : List Source,
      (∀ source, source ∈ sites ↔ ∃ node ∈ program.statements, node.Names source) ∧
      (program.statements.Pairwise (fun node later => node.span.stop ≤ later.span.start) →
        sites.Pairwise fun source later => source.literal.start < later.literal.start) ∧
      compiled.specifiers = (sites.map (·.specifier)).eraseDups ∧
      ∀ tree policy entry graph,
        (Discovery.build tree Compiler.standard (.new policy) entry).1 = .ok graph →
          ∀ record ∈ graph.modules, record.path.extension? ≠ some "json" →
            Compiler.isTyped record.path = isTyped →
              Discovery.read tree record.path = .ok (.ofList text) →
                ∀ source ∈ sites, ∃ target ∈ graph.modules,
                  record.resolve? source.specifier = some target.id := by
  obtain ⟨program, read, listed, -⟩ := read_of_convert converted
  refine ⟨program, read, Node.sourcesOfAll program.statements, fun source => Node.mem_sourcesOfAll,
    fun order => ?_, listed.trans (specifiers_eq program), ?_⟩
  · -- statements that follow one another stand in a row, and so do the literals in them
    obtain ⟨high, row⟩ :=
      Row.of_contained (Program.read_contained read) (fun _ _ => Nat.zero_le _) order
    have apart := List.pairwise_map.mp row.literalsOfAll.apart
    refine apart.imp_of_mem fun {source later} mem _ behind => ?_
    obtain ⟨item, listed, is⟩ := List.mem_filterMap.mp mem
    exact Nat.lt_of_lt_of_le ((Program.proper_of_read read item listed).nonempty is) behind
  · rintro tree policy entry graph built record mem script rfl isText source named
    obtain ⟨own, other, isOwn, isRead, leads⟩ := Discovery.leads_of_names built mem script
    obtain rfl := Except.ok.inj (isText.symm.trans isOwn)
    rw [String.toList_ofList, read] at isRead
    obtain rfl := Except.ok.inj isRead
    obtain ⟨node, listed, names⟩ := Node.mem_sourcesOfAll.mp named
    exact leads node listed source names

theorem ok_of_toOption {ε α : Type} {result : Except ε α} {a : α}
    (h : result.toOption = some a) : result = .ok a := by
  cases result with
  | error error => cases h
  | ok b => exact congrArg Except.ok (Option.some.inj h)

theorem exists_ok_of_isSome {ε α : Type} {result : Except ε α}
    (h : result.toOption.isSome = true) : ∃ a, result = .ok a := by
  obtain ⟨a, is⟩ := Option.isSome_iff_exists.mp h
  exact ⟨a, ok_of_toOption is⟩

/-- A module that names two others, one of them twice. -/
def naming : FileTree :=
  ⟨[(["a.js"], .file "".toUTF8), (["b.js"], .file "".toUTF8),
    (["m.js"], .file "import './a';\nimport('./b');\nrequire('./a')".toUTF8)], []⟩

theorem convert_specifiers_repeated :
    ∃ compiled,
      convert false "import './a';\nimport('./b');\nrequire('./a')".toList = .ok compiled ∧
      compiled.specifiers = ["./a", "./b"] ∧
      ∃ program, Program.read false "import './a';\nimport('./b');\nrequire('./a')".toList =
        .ok program ∧ ∃ sites : List Source,
      (∀ source, source ∈ sites ↔ ∃ node ∈ program.statements, node.Names source) ∧
      (program.statements.Pairwise (fun node later => node.span.stop ≤ later.span.start) →
        sites.Pairwise fun source later => source.literal.start < later.literal.start) ∧
      compiled.specifiers = (sites.map (·.specifier)).eraseDups ∧
      ∃ graph, (Discovery.build naming Compiler.standard (.new .standard) ⟨"m"⟩).1 = .ok graph ∧
        ∃ record ∈ graph.modules, record.id = 0 ∧ ∀ source ∈ sites, ∃ target ∈ graph.modules,
          record.resolve? source.specifier = some target.id := by
  have run : (convert false "import './a';\nimport('./b');\nrequire('./a')".toList).toOption.map
      (·.specifiers) = some ["./a", "./b"] := by
    decide +kernel
  obtain ⟨compiled, converted, listed⟩ := Option.map_eq_some_iff.mp run
  have converted := ok_of_toOption converted
  have checked : (Discovery.build naming Compiler.standard (.new .standard) ⟨"m"⟩).1.toOption.map
      (fun graph => graph.modules.any fun record => decide (record.id = 0 ∧
        record.path.extension? ≠ some "json" ∧ Compiler.isTyped record.path = false ∧
        (Discovery.read naming record.path).toOption =
          some (.ofList "import './a';\nimport('./b');\nrequire('./a')".toList))) = some true := by
    decide +kernel
  obtain ⟨graph, built, checked⟩ := Option.map_eq_some_iff.mp checked
  have built := ok_of_toOption built
  obtain ⟨record, mem, checked⟩ := List.any_eq_true.mp checked
  obtain ⟨first, script, untyped, text⟩ := of_decide_eq_true checked
  obtain ⟨program, read, sites, all, order, distinct, leads⟩ := convert_specifiers converted
  exact ⟨compiled, converted, listed, program, read, sites, all, order, distinct, graph, built,
    record, mem, first, leads _ _ _ _ built record mem script untyped (ok_of_toOption text)⟩

/-- The code of a converted script may name a module that its text does not name: what stood before
and behind a declaration makes a call there. -/
theorem specifiers_incomplete :
    ∃ compiled program, convert false "require\nimport './a'\n('./x')".toList = .ok compiled ∧
      Program.read false compiled.code.toList = .ok program ∧
      "./x" ∈ specifiers program.items ∧ "./x" ∉ compiled.specifiers := by
  have run : ((convert false "require\nimport './a'\n('./x')".toList).toOption.bind fun compiled =>
      (Program.read false compiled.code.toList).toOption.map fun program =>
        (compiled.specifiers, specifiers program.items)) = some (["./a"], ["./a", "./x"]) := by
    decide +kernel
  obtain ⟨compiled, converted, run⟩ := Option.bind_eq_some_iff.mp run
  obtain ⟨program, read, both⟩ := Option.map_eq_some_iff.mp run
  obtain ⟨own, all⟩ := Prod.mk.inj both
  refine ⟨compiled, program, ok_of_toOption converted, ok_of_toOption read, ?_, ?_⟩
  · simp [all]
  · simp [own]

end Conversion

end ModuleBundler
