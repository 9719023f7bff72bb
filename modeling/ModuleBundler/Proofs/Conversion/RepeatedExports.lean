/-
# ModuleBundler.Proofs.Conversion.RepeatedExports — a name is exported once.

A script that exports a name twice is not converted, and what is reported is the first export of a
name that has been exported before (`standard_exports`).  In a script that is converted, every name
is exported by one getter or by one assignment in the place of the export.  Only where statements
overlap, which reading them again may bring about, the assignment may be lost
(`exported_value_lost`).

The mark of a module is a property of `exports`, too, and no name that is reserved for it: a script
that exports this name has it defined twice by its prologue (`convert_defines`, `marker_redefined`).
-/
import ModuleBundler.Proofs.Conversion.Prologue

namespace ModuleBundler

namespace Conversion

open Script

/-! ## The first repetition -/

/-- An export with a name that is not known may stand before others that have neither its name nor a
known one. -/
theorem distinct_cons {seen : List String} {first : Export} {others : List Export}
    (known : first.name ∉ seen) :
    (others.map (·.name)).Nodup ∧ (∀ other ∈ others, other.name ∉ first.name :: seen) ↔
      ((first :: others).map (·.name)).Nodup ∧
        ∀ other ∈ first :: others, other.name ∉ seen := by
  rw [List.map_cons, List.nodup_cons, List.forall_mem_cons]
  constructor
  · rintro ⟨distinct, fresh⟩
    refine ⟨⟨fun listed => ?_, distinct⟩, known, fun other mem is => ?_⟩
    · obtain ⟨other, mem, is⟩ := List.mem_map.mp listed
      exact fresh other mem (is ▸ List.mem_cons_self)
    · exact fresh other mem (List.mem_cons_of_mem _ is)
  · rintro ⟨⟨apart, distinct⟩, -, fresh⟩
    refine ⟨distinct, fun other mem is => ?_⟩
    rcases List.mem_cons.mp is with is | is
    · exact apart (is ▸ List.mem_map_of_mem mem)
    · exact fresh other mem is

/-- An export is the first one whose name is among names that are known or exported before. -/
theorem repeated?_eq_some_iff {seen : List String} {found : List Export} {again : Export} :
    repeated? seen found = some again ↔ ∃ before after, found = before ++ again :: after ∧
      (before.map (·.name)).Nodup ∧ (∀ earlier ∈ before, earlier.name ∉ seen) ∧
      (again.name ∈ seen ∨ again.name ∈ before.map (·.name)) := by
  -- on the list, with the known names left open since every export adds its own to them
  induction found generalizing seen with
  | nil => simp [repeated?]
  | cons first found ih =>
    rw [repeated?]
    by_cases known : first.name ∈ seen
    · -- a known name repeats at once, so nothing can stand before the export that is found
      rw [if_pos (List.contains_iff_mem.mpr known)]
      constructor
      · rintro ⟨⟩
        exact ⟨[], found, rfl, .nil, by simp, .inl known⟩
      · rintro ⟨before, after, is, -, fresh, -⟩
        cases before with
        | nil =>
          cases is
          rfl
        | cons other before =>
          cases is
          exact absurd known (fresh _ List.mem_cons_self)
    · rw [if_neg (by simpa using known), ih]
      constructor
      · rintro ⟨before, after, rfl, distinct, fresh, repeats⟩
        obtain ⟨distinct, fresh⟩ := (distinct_cons known).mp ⟨distinct, fresh⟩
        refine ⟨first :: before, after, rfl, distinct, fresh, ?_⟩
        simpa [or_assoc, or_left_comm] using repeats
      · rintro ⟨before, after, is, distinct, fresh, repeats⟩
        cases before with
        | nil =>
          cases is
          exact absurd repeats (by simpa using known)
        | cons other before =>
          cases is
          obtain ⟨distinct, fresh⟩ := (distinct_cons known).mpr ⟨distinct, fresh⟩
          refine ⟨before, after, rfl, distinct, fresh, ?_⟩
          simpa [or_assoc, or_left_comm] using repeats

theorem repeated?_eq_none_iff {seen : List String} {found : List Export} :
    repeated? seen found = none ↔
      (found.map (·.name)).Nodup ∧ ∀ own ∈ found, own.name ∉ seen := by
  induction found generalizing seen with
  | nil => simp [repeated?]
  | cons first found ih =>
    rw [repeated?]
    by_cases known : first.name ∈ seen
    · simp [known]
    · rw [if_neg (by simpa using known), ih, distinct_cons known]

/-! ## The exports of a script -/

/-- Of some sites, one exports a name that has been exported before, and none before it does. -/
def Repeats (sites : List ExportSite) (site : ExportSite) : Prop :=
  ∃ before after, sites = before ++ site :: after ∧ (before.map (·.name)).Nodup ∧
    site.name ∈ before.map (·.name)

/-- What a script exports is exported at its sites. -/
theorem map_allExports (program : Program) :
    (allExports program.items).map (fun found => (found.name, found.span)) =
      program.exportSites.map fun site => (site.name, site.entry) := by
  rw [allExports, Program.exportSites, ← flatMap_numbered 0, List.map_flatMap, List.map_flatMap]
  refine List.flatMap_congr fun own _ => ?_
  dsimp only
  rw [exports_eq, List.map_map]
  rfl

theorem names_allExports (program : Program) :
    (allExports program.items).map (·.name) = program.exportSites.map (·.name) := by
  have names := congrArg (List.map Prod.fst) (map_allExports program)
  rwa [List.map_map, List.map_map] at names

theorem repeated?_eq_none {program : Program} : repeated? [] (allExports program.items) = none ↔
    (program.exportSites.map (·.name)).Nodup := by
  rw [repeated?_eq_none_iff, names_allExports]
  simp

/-- Lists with the same names and ranges are split alike. -/
theorem exists_split {α β : Type} {name : α → String} {span : α → Span} {name' : β → String}
    {span' : β → Span} {before after : List α} {x : α} {ys : List β}
    (same : (before ++ x :: after).map (fun x => (name x, span x)) =
      ys.map fun y => (name' y, span' y)) :
    ∃ before' y after', ys = before' ++ y :: after' ∧ before'.map name' = before.map name ∧
      name' y = name x ∧ span' y = span x := by
  rw [List.map_append, List.map_cons] at same
  obtain ⟨before', rest, rfl, first, others⟩ := List.map_eq_append_iff.mp same.symm
  obtain ⟨y, after', rfl, own, -⟩ := List.map_eq_cons_iff.mp others
  have names := congrArg (List.map Prod.fst) first
  rw [List.map_map, List.map_map] at names
  exact ⟨before', y, after', rfl, names, Prod.mk.inj own⟩

/-- What is reported is the first site of a name that has been exported before. -/
theorem repeated?_eq_some {program : Program} {name : String} {span : Span} :
    (∃ again, repeated? [] (allExports program.items) = some again ∧
      again.name = name ∧ again.span = span) ↔
    ∃ site, Repeats program.exportSites site ∧ site.name = name ∧ site.entry = span := by
  have pairs := map_allExports program
  constructor
  · rintro ⟨again, is, rfl, rfl⟩
    obtain ⟨before, after, split, distinct, -, repeats⟩ := repeated?_eq_some_iff.mp is
    rw [split] at pairs
    obtain ⟨before', site, after', split', names, name, entry⟩ := exists_split pairs
    refine ⟨site, ⟨before', after', split', names ▸ distinct, ?_⟩, name, entry⟩
    rw [name, names]
    exact repeats.resolve_left (by simp)
  · rintro ⟨site, ⟨before, after, split, distinct, repeats⟩, rfl, rfl⟩
    rw [split] at pairs
    obtain ⟨before', again, after', split', names, name, entry⟩ := exists_split pairs.symm
    refine ⟨again, repeated?_eq_some_iff.mpr ⟨before', after', split', names ▸ distinct, by simp,
      .inr ?_⟩, name, entry⟩
    rw [name, names]
    exact repeats

/-! ## What exports a name -/

/-- An edit begins what takes the place of its range with an assignment of the default export. -/
def Edit.assigns (edit : Edit) : Bool :=
  "exports.default = ".toList.isPrefixOf edit.replacement

/-- The names that the code of a script exports: by the getters of its prologue, and by the
assignments that have been put into its text. -/
def exportedBy (text : List Char) (program : Program) (prologue : Prologue) : List String :=
  prologue.getters.filterMap Statement.defined? ++
    ((applied text program).filter Edit.assigns).map fun _ => "default"

theorem assigns_removal (text : List Char) (span : Span) :
    (Edit.replacing text span "").assigns = false := by
  rw [Edit.assigns, Edit.replacing, String.toList_empty, List.nil_append]
  cases (span.slice text).count '\n' <;> rfl

theorem assigns_assignment (text : List Char) (span : Span) :
    (Edit.replacing text span "exports.default = ").assigns = true :=
  List.isPrefixOf_iff_prefix.mpr (List.prefix_append _ _)

/-- Only a default export that declares no name is assigned. -/
theorem eq_default_of_assigns {text : List Char} {item : ModuleItem} {edit : Edit}
    (is : edit? text item = some edit) (assigns : edit.assigns = true) :
    ∃ span keyword start, item = .exportDefault span keyword start none := by
  have removal (span : Span) (is : Edit.replacing text span "" = edit) : False := by
    rw [← is, assigns_removal] at assigns
    cases assigns
  cases item with
  | exportDefault span keyword start name =>
    cases name with
    | none => exact ⟨span, keyword, start, rfl⟩
    | some name => exact (removal _ (Option.some.inj is)).elim
  | dynamicImport span source =>
    rw [← Option.some.inj is, Edit.assigns, Edit.replacing, String.toList_append,
      String.toList_append] at assigns
    cases assigns
  | requireCall source => cases is
  | _ => exact (removal _ (Option.some.inj is)).elim

theorem eq_default_of_value {item : ModuleItem} {site : ExportSite}
    (mem : site ∈ item.exportSites) (shown : site.shown = .value) :
    ∃ span keyword start, item = .exportDefault span keyword start none := by
  cases item with
  | exportList span entries source =>
    obtain ⟨entry, -, rfl⟩ := List.mem_map.mp mem
    cases source <;> cases shown
  | exportAll span name source =>
    obtain ⟨name, -, rfl⟩ := List.mem_map.mp mem
    cases shown
  | exportDeclaration span start names =>
    obtain ⟨name, -, rfl⟩ := List.mem_map.mp mem
    cases shown
  | exportDefault span keyword start name =>
    rw [List.mem_singleton.mp mem] at shown
    cases name with
    | none => exact ⟨span, keyword, start, rfl⟩
    | some name => cases shown
  | _ => cases mem

/-- A value without a name is exported as `default`. -/
theorem name_of_value {program : Program} {site : ExportSite} (mem : site ∈ program.exportSites)
    (shown : site.shown = .value) : site.name = "default" := by
  obtain ⟨item, -, mem⟩ := List.mem_flatMap.mp mem
  obtain ⟨span, keyword, start, rfl⟩ := eq_default_of_value mem shown
  rw [List.mem_singleton.mp mem]

/-- The assignments for an item are those of its values. -/
theorem assigned_item (text : List Char) (item : ModuleItem) :
    ((edit? text item).toList.filter Edit.assigns).map (fun _ => "default") =
      (item.exportSites.filter (·.shown = .value)).map (·.name) := by
  by_cases unnamed : ∃ span keyword start, item = .exportDefault span keyword start none
  · obtain ⟨span, keyword, start, rfl⟩ := unnamed
    have assigns := assigns_assignment text ⟨span.start, start⟩
    simp [edit?, ModuleItem.exportSites, assigns]
  · have assigned : (edit? text item).toList.filter Edit.assigns = [] := by
      refine List.filter_eq_nil_iff.mpr fun edit mem assigns => ?_
      exact unnamed (eq_default_of_assigns (Option.mem_toList.mp mem) assigns)
    have values : item.exportSites.filter (·.shown = .value) = [] := by
      refine List.filter_eq_nil_iff.mpr fun site mem shown => ?_
      exact unnamed (eq_default_of_value mem (of_decide_eq_true shown))
    rw [assigned, values]
    rfl

/-- The assignments of a script are those of the values that it exports. -/
theorem assigned_edits (text : List Char) (program : Program) :
    ((edits text program.hashbang program.items).filter Edit.assigns).map (fun _ => "default") =
      (program.exportSites.filter (·.shown = .value)).map (·.name) := by
  have first : (program.hashbang.toList.map fun span =>
      Edit.replacing text span "").filter Edit.assigns = [] := by
    refine List.filter_eq_nil_iff.mpr fun edit mem => ?_
    obtain ⟨span, -, rfl⟩ := List.mem_map.mp mem
    rw [assigns_removal]
    exact Bool.false_ne_true
  rw [edits, List.filter_append, first, List.nil_append, List.filterMap_eq_flatMap_toList,
    List.filter_flatMap, List.map_flatMap, Program.exportSites, List.filter_flatMap,
    List.map_flatMap]
  exact List.flatMap_congr fun item _ => assigned_item text item

/-- Getters define the names of their sites. -/
theorem defined_of_gets {loadings : List Loading} {sites : List ExportSite}
    {getters : List Statement} (gets : List.Forall₂ (Statement.Gets loadings) sites getters) :
    getters.filterMap Statement.defined? = sites.map (·.name) := by
  induction gets with
  | nil => rfl
  | cons first _ ih =>
    obtain ⟨value, rfl, -⟩ := first
    exact congrArg (List.cons _) ih

/-- Getters and assignments export the names that a script exports, each as often as the script, if
all assignments are made. -/
theorem exportedBy_perm (text : List Char) (program : Program) :
    ((prologueOf program.items).getters.filterMap Statement.defined? ++
      ((edits text program.hashbang program.items).filter Edit.assigns).map fun _ =>
        "default").Perm (program.exportSites.map (·.name)) := by
  rw [defined_of_gets (getters_lawful program.items), assigned_edits, ← Program.exportSites,
    ← List.map_append]
  -- a getter stands for a site that shows more than a value, an assignment for any other one
  refine List.Perm.map _ ?_
  have parted := List.filter_append_perm (fun site : ExportSite => decide (site.shown ≠ .value))
    program.exportSites
  have same : (fun site : ExportSite => decide (site.shown = .value)) =
      fun site => !decide (site.shown ≠ .value) := by
    funext site
    simp
  rw [same]
  exact parted

/-- No name is exported more often. -/
theorem exportedBy_subperm (text : List Char) (program : Program) :
    (exportedBy text program (prologueOf program.items)).Subperm
      (program.exportSites.map (·.name)) := by
  -- edits are sorted before some of them are made, so their order is not that of the items
  have made : (applied text program).Subperm (edits text program.hashbang program.items) :=
    (madeFrom_sublist _ _).subperm.trans (Edit.sorted_perm _).subperm
  obtain ⟨same, perm, sub⟩ := made.filter Edit.assigns
  refine List.Subperm.trans ?_ (exportedBy_perm text program).subperm
  exact (List.subperm_append_left _).mpr ⟨_, perm.map _, sub.map _⟩

/-! ## Scripts that are converted -/

section

variable {path : Path} {source : String} {program : Program}
  (script : path.extension? ≠ some "json")
  (read : Program.read (Compiler.isTyped path) source.toList = .ok program)
  (faultless : program.fault? (Compiler.isTyped path) = none)

include script read faultless

theorem standard_of_unrepeated (unrepeated : repeated? [] (allExports program.items) = none) :
    Compiler.standard path source = .ok ⟨specifiers program.items,
      String.ofList (code source.toList program.hashbang program.items)⟩ := by
  rw [standard_eq_ok_iff script, convert, read]
  dsimp only
  rw [faultless]
  dsimp only
  rw [convertProgram, unrepeated]

theorem standard_of_repeated {again : Export}
    (repeated : repeated? [] (allExports program.items) = some again) :
    Compiler.standard path source = .error
      (.parse path (Compiler.lineOf source.toList again.span.start)
        (.repeatedExport again.name)) := by
  have fault : convert (Compiler.isTyped path) source.toList =
      .error (.repeatedExport again.name again.span.start) := by
    rw [convert, read]
    dsimp only
    rw [faultless]
    dsimp only
    rw [convertProgram, repeated]
  unfold Compiler.standard
  rw [if_neg (by simpa using script)]
  dsimp only
  rw [fault]

end

theorem isDeclaration_of_exports {item : ModuleItem} {site : ExportSite}
    (mem : site ∈ item.exportSites) : item.isDeclaration = true := by
  cases item with
  | importDeclaration span bindings source => cases mem
  | dynamicImport span source => cases mem
  | requireCall source => cases mem
  | _ => rfl

/-- A script that has been read is converted exactly if it exports no name twice, and otherwise the
first site of a name that has been exported before is reported, with the line where its declaration
begins, or its entry of a list.  The code of a script that is converted exports no name twice, and
every name that the script exports if its statements follow one another. -/
theorem standard_exports {path : Path} {source : String} {program : Program}
    (script : path.extension? ≠ some "json")
    (read : Program.read (Compiler.isTyped path) source.toList = .ok program)
    (faultless : program.fault? (Compiler.isTyped path) = none) :
    ∃ sites, program.Lists Node.ExportsAt ExportSite.Before sites ∧
      (program.InOrder → sites.Pairwise ExportSite.Before) ∧
      ((∃ compiled, Compiler.standard path source = .ok compiled) ↔
        (sites.map (·.name)).Nodup) ∧
      (∀ error, Compiler.standard path source = .error error ↔
        ∃ site, Repeats sites site ∧ error =
          .parse path (Compiler.lineOf source.toList site.entry.start)
            (.repeatedExport site.name)) ∧
      ∀ compiled, Compiler.standard path source = .ok compiled →
        ∃ prologue : Prologue, prologue.Lawful program ∧
          (sites ≠ [] → compiled.code.toList = (prologue.text source.toList).toList ++
            '\n' :: pieces source.toList 0 (applied source.toList program)) ∧
          (exportedBy source.toList program prologue).Nodup ∧
          (program.InOrder →
            (exportedBy source.toList program prologue).Perm (sites.map (·.name))) := by
  have accepted : (∃ compiled, Compiler.standard path source = .ok compiled) ↔
      (program.exportSites.map (·.name)).Nodup := by
    rw [← repeated?_eq_none]
    cases repeated : repeated? [] (allExports program.items) with
    | none => exact iff_of_true ⟨_, standard_of_unrepeated script read faultless repeated⟩ rfl
    | some again =>
      refine iff_of_false ?_ (by simp)
      rintro ⟨compiled, compiles⟩
      rw [standard_of_repeated script read faultless repeated] at compiles
      cases compiles
  refine ⟨program.exportSites, Program.lists_exportSites read, fun order => ?_, accepted,
    fun error => ⟨fun fails => ?_, ?_⟩, fun compiled compiles => ?_⟩
  · exact exportSites_ordered read (List.Subset.refl _)
      (row_of_read read order).placed_places.apart
  · cases repeated : repeated? [] (allExports program.items) with
    | none =>
      rw [standard_of_unrepeated script read faultless repeated] at fails
      cases fails
    | some again =>
      rw [standard_of_repeated script read faultless repeated] at fails
      obtain ⟨site, repeats, name, entry⟩ := repeated?_eq_some.mp ⟨again, repeated, rfl, rfl⟩
      refine ⟨site, repeats, ?_⟩
      rw [name, entry]
      exact (Except.error.inj fails).symm
  · rintro ⟨site, repeats, rfl⟩
    obtain ⟨again, repeated, name, entry⟩ := repeated?_eq_some.mpr ⟨site, repeats, rfl, rfl⟩
    rw [← name, ← entry]
    exact standard_of_repeated script read faultless repeated
  · have distinct := accepted.mp ⟨compiled, compiles⟩
    have same := standard_of_unrepeated script read faultless (repeated?_eq_none.mpr distinct)
    rw [compiles] at same
    refine ⟨prologueOf program.items, lawful_prologueOf read, fun some => ?_, ?_, fun order => ?_⟩
    · obtain ⟨site, mem⟩ := List.exists_mem_of_ne_nil _ some
      obtain ⟨item, listed, mem⟩ := List.mem_flatMap.mp mem
      have declares : program.items.any ModuleItem.isDeclaration = true :=
        List.any_eq_true.mpr ⟨item, listed, isDeclaration_of_exports mem⟩
      have ordered := fun edit mem => (edits_growing read edit mem).ordered
      rw [Except.ok.inj same, String.toList_ofList, code_of_declares _ declares,
        splice_eq_pieces ordered]
      rfl
    · obtain ⟨names, perm, sub⟩ := exportedBy_subperm source.toList program
      exact perm.nodup_iff.mp (distinct.sublist sub)
    · rw [exportedBy, (applied_eq read order).1]
      exact exportedBy_perm source.toList program

/-- An entry of a list repeats the name of a declaration before it. -/
theorem standard_exports_repeated :
    ∃ program sites site,
      Program.read (Compiler.isTyped ⟨"m.ts"⟩) "export var a;\nexport { b as a }".toList =
        .ok program ∧
      program.Lists Node.ExportsAt ExportSite.Before sites ∧ Repeats sites site ∧
      Compiler.standard ⟨"m.ts"⟩ "export var a;\nexport { b as a }" =
        .error (.parse ⟨"m.ts"⟩ 2 (.repeatedExport site.name)) := by
  have script : (⟨"m.ts"⟩ : Path).extension? ≠ some "json" := by decide
  have found : (Program.read (Compiler.isTyped ⟨"m.ts"⟩)
      "export var a;\nexport { b as a }".toList).toOption.map (fun program =>
        (program.fault? (Compiler.isTyped ⟨"m.ts"⟩), program.items)) =
      some (none, [.exportDeclaration ⟨0, 13⟩ 7 [("a", ⟨11, 12⟩)],
        .exportList ⟨14, 31⟩ [⟨⟨23, 29⟩, "b", "a", ⟨28, 29⟩⟩] none]) := by
    decide +kernel
  obtain ⟨program, read, found⟩ := Option.map_eq_some_iff.mp found
  obtain ⟨faultless, items⟩ := Prod.mk.inj found
  have read := ok_of_toOption read
  obtain ⟨sites, lists, -, -, fails, -⟩ := standard_exports script read faultless
  have repeated : repeated? [] (allExports program.items) = some ⟨"a", some "b", ⟨23, 29⟩⟩ := by
    rw [items]
    decide +kernel
  have refused := standard_of_repeated script read faultless repeated
  obtain ⟨site, repeats, is⟩ := (fails _).mp refused
  obtain ⟨-, line, name⟩ := BuildError.parse.inj is
  refine ⟨program, sites, site, read, lists, repeats, ?_⟩
  rw [refused, ← name]
  rfl

/-- Where statements overlap, the assignment of a default value may lie in an import at run time
that is replaced, and is lost then.  The first statement here is read again once the export says
that the script is a module, as one that goes on to the end of the text. -/
theorem exported_value_lost :
    ∃ source : String, ∃ compiled program, ∃ prologue : Prologue,
      source = "await /\"/, import('./a', \"; export default 1; \") //\"" ∧
      Program.read false source.toList = .ok program ∧ program.fault? false = none ∧
      (∃ node ∈ program.statements, ∃ site, node.ExportsAt site ∧ site.name = "default") ∧
      Compiler.standard ⟨"m.js"⟩ source = .ok compiled ∧ prologue.Lawful program ∧
      compiled.code = prologue.text source.toList ++ "\n" ++
        "await /\"/, Promise.resolve().then(function () \x7b return require('./a'); \x7d) //\"" ∧
      exportedBy source.toList program prologue = [] := by
  have script : (⟨"m.js"⟩ : Path).extension? ≠ some "json" := by decide
  have found : (Program.read (Compiler.isTyped ⟨"m.js"⟩)
      "await /\"/, import('./a', \"; export default 1; \") //\"".toList).toOption.map
        (fun program => (program.fault? (Compiler.isTyped ⟨"m.js"⟩), program.hashbang,
          program.items)) =
      some (none, none, [.dynamicImport ⟨11, 48⟩ ⟨⟨18, 23⟩, "./a"⟩,
        .exportDefault ⟨28, 45⟩ ⟨35, 42⟩ 43 none]) := by
    decide +kernel
  obtain ⟨program, read, found⟩ := Option.map_eq_some_iff.mp found
  obtain ⟨faultless, found⟩ := Prod.mk.inj found
  obtain ⟨hashbang, items⟩ := Prod.mk.inj found
  have read := ok_of_toOption read
  have unrepeated : repeated? [] (allExports program.items) = none := by
    rw [items]
    decide +kernel
  have body : splice "await /\"/, import('./a', \"; export default 1; \") //\"".toList
      (edits "await /\"/, import('./a', \"; export default 1; \") //\"".toList program.hashbang
        program.items) =
      String.toList
        "await /\"/, Promise.resolve().then(function () \x7b return require('./a'); \x7d) //\"" := by
    rw [hashbang, items]
    decide +kernel
  have declares : program.items.any ModuleItem.isDeclaration = true := by
    rw [items]
    rfl
  have site : (⟨"default", ⟨35, 42⟩, ⟨28, 45⟩, ⟨28, 45⟩, .value⟩ : ExportSite) ∈
      program.exportSites := by
    rw [Program.exportSites, items]
    decide +kernel
  obtain ⟨node, listed, exports⟩ := (Program.lists_exportSites read).mem_iff.mp site
  refine ⟨_, _, program, prologueOf program.items, rfl, read, faultless,
    ⟨node, listed, _, exports, rfl⟩, standard_of_unrepeated script read faultless unrepeated,
    lawful_prologueOf read, ?_, ?_⟩
  · rw [← String.toList_inj, String.toList_ofList, code_of_declares _ declares, body]
    simp
  · rw [exportedBy, applied, hashbang, items]
    decide +kernel

/-! ## The mark of a module -/

/-- The statements that load a module define no property of `exports`. -/
theorem defined?_of_loadingOf {object : String} {site : LoadSite} {statement : Statement}
    (mem : statement ∈ (loadingOf object site).statements) : statement.defined? = none := by
  unfold loadingOf at mem
  split at mem
  · rw [List.mem_singleton.mp mem]
    rfl
  · rw [List.mem_singleton.mp mem]
    rfl
  · rw [List.mem_singleton.mp mem]
    rfl
  · rcases List.mem_cons.mp mem with rfl | mem
    · rfl
    · obtain ⟨binding, -, rfl⟩ := List.mem_map.mp mem
      obtain ⟨value, is⟩ := bindingOf_eq object binding
      rw [is]
      rfl

/-- A prologue defines the mark of a module, and the names of its getters. -/
theorem defined_prologueOf (program : Program) : (prologueOf program.items).defined =
    "__esModule" :: (program.exportSites.filter (·.shown ≠ .value)).map (·.name) := by
  have getters := defined_of_gets (getters_lawful program.items)
  have functions : (prologueOf program.items).functions.filterMap Statement.defined? = [] := by
    unfold prologueOf
    dsimp only
    split <;> rfl
  have loadings : ((prologueOf program.items).loadings.flatMap (·.statements)).filterMap
      Statement.defined? = [] := by
    refine List.filterMap_eq_nil_iff.mpr fun statement mem => ?_
    obtain ⟨loading, listed, mem⟩ := List.mem_flatMap.mp mem
    obtain ⟨own, -, is⟩ := List.mem_filterMap.mp listed
    obtain ⟨site, -, rfl⟩ := Option.map_eq_some_iff.mp is
    exact defined?_of_loadingOf mem
  rw [Prologue.defined, Prologue.statements, List.filterMap_append, List.filterMap_append,
    functions, loadings, List.append_nil, List.append_nil]
  exact congrArg (List.cons _) getters

/-- A script that is converted exports no name twice. -/
theorem distinct_of_convert {isTyped : Bool} {text : List Char} {compiled : CompiledModule}
    {program : Program} (converts : convert isTyped text = .ok compiled)
    (read : Program.read isTyped text = .ok program) :
    (program.exportSites.map (·.name)).Nodup := by
  unfold convert at converts
  rw [read] at converts
  dsimp only at converts
  split at converts
  · cases converts
  · unfold convertProgram at converts
    split at converts
    · cases converts
    · rename_i unrepeated
      exact repeated?_eq_none.mp unrepeated

/-- The prologue of a module defines the mark of a module and the names that the script exports
otherwise than by an assignment.  These are different from each other, and they are different from
the mark exactly if the script does not export its name. -/
theorem convert_defines {isTyped : Bool} {text : List Char} {compiled : CompiledModule}
    (converts : convert isTyped text = .ok compiled) :
    ∃ program, Program.read isTyped text = .ok program ∧
      ((∃ node ∈ program.statements, ∃ item, node.Has item ∧ item.isDeclaration = true) →
        ∃ prologue : Prologue, prologue.Lawful program ∧
          compiled.code.toList = (prologue.text text).toList ++
            '\n' :: splice text (edits text program.hashbang program.items) ∧
          ∃ names, prologue.defined = "__esModule" :: names ∧ names.Nodup ∧
            (prologue.defined.Nodup ↔ ∀ node ∈ program.statements, ∀ site,
              node.ExportsAt site → site.name ≠ "__esModule")) := by
  obtain ⟨program, read, -, isCode⟩ := read_of_convert converts
  refine ⟨program, read, fun declares => ?_⟩
  have lists := Program.lists_exportSites read
  have distinct : ((program.exportSites.filter (·.shown ≠ .value)).map (·.name)).Nodup :=
    (distinct_of_convert converts read).sublist (List.filter_sublist.map _)
  refine ⟨prologueOf program.items, lawful_prologueOf read,
    isCode.trans (code_of_declares text (any_isDeclaration_iff.mpr declares)), _,
    defined_prologueOf program, distinct, ?_⟩
  rw [defined_prologueOf, List.nodup_cons, and_iff_left distinct]
  constructor
  · intro fresh node mem site exports named
    have listed := lists.mem_iff.mpr ⟨node, mem, exports⟩
    -- a value without a getter is exported as `default`, which is not the mark
    have shown : site.shown ≠ .value := by
      intro value
      rw [name_of_value listed value] at named
      exact absurd named (by decide)
    exact fresh (List.mem_map.mpr ⟨site, List.mem_filter.mpr ⟨listed, decide_eq_true shown⟩, named⟩)
  · intro fresh mem
    obtain ⟨site, listed, named⟩ := List.mem_map.mp mem
    obtain ⟨node, mem, exports⟩ := lists.mem_iff.mp (List.mem_filter.mp listed).1
    exact fresh node mem site exports named

theorem convert_defines_distinct :
    ∃ compiled program, ∃ prologue : Prologue,
      convert false "export \x7b a as 'x y', b \x7d".toList = .ok compiled ∧
      Program.read false "export \x7b a as 'x y', b \x7d".toList = .ok program ∧
      prologue.Lawful program ∧ prologue.defined.Nodup := by
  have run : (convert false "export \x7b a as 'x y', b \x7d".toList).toOption.isSome = true := by
    decide +kernel
  obtain ⟨compiled, converts⟩ := exists_ok_of_isSome run
  obtain ⟨program, read, defines⟩ := convert_defines converts
  have found : (Program.read false "export \x7b a as 'x y', b \x7d".toList).toOption.map
      (fun program =>
        (program.items.any ModuleItem.isDeclaration, program.exportSites.map (·.name))) =
      some (true, ["x y", "b"]) := by
    decide +kernel
  rw [read] at found
  obtain ⟨declares, names⟩ := Prod.mk.inj (Option.some.inj found)
  obtain ⟨prologue, lawful, -, -, -, -, distinct⟩ := defines (any_isDeclaration_iff.mp declares)
  refine ⟨compiled, program, prologue, converts, read, lawful, distinct.mpr ?_⟩
  intro node mem site exports named
  have listed := List.mem_map_of_mem (f := (·.name))
    ((Program.lists_exportSites read).mem_iff.mpr ⟨node, mem, exports⟩)
  rw [names, named] at listed
  revert listed
  decide

/-- The name of the mark of a module may be exported, and is defined twice then. -/
theorem marker_redefined :
    ∃ compiled program, ∃ prologue : Prologue,
      convert false "export const __esModule = 1".toList = .ok compiled ∧
      Program.read false "export const __esModule = 1".toList = .ok program ∧
      prologue.Lawful program ∧
      compiled.code = prologue.text "export const __esModule = 1".toList ++ "\n" ++
        "const __esModule = 1" ∧
      prologue.defined = ["__esModule", "__esModule"] := by
  have run : (convert false "export const __esModule = 1".toList).toOption.isSome = true := by
    decide +kernel
  obtain ⟨compiled, converts⟩ := exists_ok_of_isSome run
  obtain ⟨program, read, -, isCode⟩ := read_of_convert converts
  have found : (Program.read false "export const __esModule = 1".toList).toOption.map
      (fun program => (program.hashbang, program.items)) =
      some (none, [.exportDeclaration ⟨0, 27⟩ 7 [("__esModule", ⟨13, 23⟩)]]) := by
    decide +kernel
  rw [read] at found
  obtain ⟨hashbang, items⟩ := Prod.mk.inj (Option.some.inj found)
  have body : splice "export const __esModule = 1".toList
      (edits "export const __esModule = 1".toList program.hashbang program.items) =
      "const __esModule = 1".toList := by
    rw [hashbang, items]
    decide +kernel
  have declares : program.items.any ModuleItem.isDeclaration = true := by
    rw [items]
    rfl
  refine ⟨compiled, program, prologueOf program.items, converts, read, lawful_prologueOf read,
    ?_, ?_⟩
  · rw [← String.toList_inj, isCode, code_of_declares _ declares, body]
    simp
  · rw [items]
    decide +kernel

end Conversion

end ModuleBundler
