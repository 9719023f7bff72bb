/-
# ModuleBundler.Proofs.Command.Effects — what a command leaves behind.

A command that cannot bundle its project says why and does nothing else (`Refused`).  Otherwise the
bundle is printed or written, the manifest is written if that is asked for, and all that differs
afterwards are the files of these texts and the directories above them (`Delivered`).  The two files
are written one after the other: where both paths lead to one file, the manifest is what it holds.
-/
import ModuleBundler.Command.Run
import ModuleBundler.Proofs.Bundling.Policy
import ModuleBundler.Proofs.FileTree.Writing

namespace ModuleBundler

open FileTree (Writes)
open Settings (Environment)

namespace Bundling

variable {tree after : FileTree} {path : Path} {text : String}

theorem writes_of_writeText (h : writeText tree path text = (.ok (), after)) :
    Writes [(path, text)] tree after ∧ ∃ place, after.Holds path text place := by
  have above := tree.writes_makeParents path
  rw [writeText] at h
  split at h
  · exact absurd (congrArg Prod.fst h) nofun
  · rename_i between made
    rw [made] at above
    split at h
    · exact absurd (congrArg Prod.fst h) nofun
    · rename_i written
      obtain rfl := congrArg Prod.snd h
      obtain ⟨writes, holds⟩ := FileTree.writes_of_write? written
      exact ⟨above.trans writes, holds⟩

/-- A text that cannot be written leaves the files as they were. -/
theorem writes_of_writeText_error {error : ProjectError}
    (h : writeText tree path text = (.error error, after)) :
    Writes [] tree after ∧ ∃ path, error = .directory path ∨ error = .write path := by
  have above := tree.writes_makeParents path
  rw [writeText] at h
  split at h
  · rename_i between failed
    rw [failed] at above
    obtain ⟨⟨rfl⟩, rfl⟩ := Prod.mk.inj h
    exact ⟨above, _, Or.inl rfl⟩
  · rename_i between made
    rw [made] at above
    split at h
    · obtain ⟨⟨rfl⟩, rfl⟩ := Prod.mk.inj h
      exact ⟨above, _, Or.inr rfl⟩
    · exact absurd (congrArg Prod.fst h) nofun

theorem bundleTo_of_error {settings : Settings} {compiler : Compiler} {entry : Path}
    {error : BuildError} (output : Option Path)
    (h : (bundle tree settings compiler entry).1 = .error error) :
    (bundleTo tree settings compiler entry output).result = .error (.build error) ∧
      (bundleTo tree settings compiler entry output).tree = tree := by
  unfold bundleTo
  generalize bundle tree settings compiler entry = made at h ⊢
  obtain ⟨result, log⟩ := made
  obtain rfl : result = .error error := h
  exact ⟨rfl, rfl⟩

/-- A bundle stands in its file if one is named, and no other file differs. -/
structure Emitted (tree : FileTree) (output : Option Path) (bundle : Bundle) (after : FileTree) :
    Prop where
  writes : Writes (output.toList.map fun path => (path, bundle.code)) tree after
  holds : ∀ path, output = some path → ∃ place, after.Holds path bundle.code place

/-- A bundle that is made is also written, or no file differs. -/
theorem bundleTo_of_ok {settings : Settings} {compiler : Compiler} {entry : Path}
    {made : Bundle} (output : Option Path)
    (h : (bundle tree settings compiler entry).1 = .ok made) :
    let outcome := bundleTo tree settings compiler entry output
    (outcome.result = .ok made ∧ Emitted tree output made outcome.tree) ∨
    ∃ error, outcome.result = .error error ∧ Writes [] tree outcome.tree ∧ output.isSome ∧
      ∃ path, error = .directory path ∨ error = .write path := by
  unfold bundleTo
  generalize bundle tree settings compiler entry = run at h ⊢
  obtain ⟨result, log⟩ := run
  obtain rfl : result = .ok made := h
  cases output with
  | none => exact Or.inl ⟨rfl, .refl _ tree, nofun⟩
  | some path =>
    dsimp only
    split
    · rename_i error between failed
      obtain ⟨writes, atPath⟩ := writes_of_writeText_error failed
      exact Or.inr ⟨error, rfl, writes, rfl, atPath⟩
    · rename_i between written
      obtain ⟨writes, holds⟩ := writes_of_writeText written
      refine Or.inl ⟨rfl, writes, ?_⟩
      rintro _ ⟨rfl⟩
      exact holds

theorem writeManifest_cases (tree : FileTree) (graph : ModuleGraph) (path : Path) :
    let outcome := writeManifest tree graph path
    (outcome.result = .ok () ∧ Writes [(path, graph.manifest)] tree outcome.tree ∧
      ∃ place, outcome.tree.Holds path graph.manifest place) ∨
    ∃ error, outcome.result = .error error ∧ Writes [] tree outcome.tree ∧
      ∃ path, error = .directory path ∨ error = .write path := by
  unfold writeManifest
  split
  · rename_i error after failed
    exact Or.inr ⟨error, rfl, writes_of_writeText_error failed⟩
  · rename_i after written
    exact Or.inl ⟨rfl, writes_of_writeText written⟩

end Bundling

namespace Command

open Bundling (Emitted)

/-- The texts that a command is asked to write, and where to. -/
def Options.texts (options : Options) (bundle : Bundle) : List (Path × String) :=
  (options.output.toList.map fun path => (path, bundle.code)) ++
    options.emitGraph.toList.map fun path => (path, bundle.graph.manifest)

/-- A command fails and does nothing else. -/
structure Refused (tree : FileTree) (error : ProjectError) (outcome : Outcome) : Prop where
  exitCode : outcome.exitCode = 1
  error : outcome.error = some error
  output : outcome.output = ""
  tree : outcome.tree = tree

/-- A command has its bundle, and prints or writes it. -/
structure Delivered (tree : FileTree) (options : Options) (bundle : Bundle) (outcome : Outcome) :
    Prop where
  exitCode : outcome.exitCode = if outcome.error.isSome then 1 else 0
  /-- all that can fail now is to write -/
  error : ∀ error, outcome.error = some error →
    ∃ path, error = .directory path ∨ error = .write path
  output : outcome.output = if options.output.isSome then "" else bundle.code
  writes : Writes (options.texts bundle) tree outcome.tree
  /-- the bundle could not be written, or it stands in its file unless the manifest does -/
  emitted : ∀ path, options.output = some path →
    outcome.exitCode = 1 ∧ Writes [] tree outcome.tree ∨
      ∃ place, outcome.tree.Holds path bundle.code place ∨
        ∃ other, options.emitGraph = some other ∧ outcome.tree.place? path = some place ∧
          outcome.tree.Holds other bundle.graph.manifest place
  /-- the manifest could not be written, or it stands in its file -/
  listed : ∀ path, options.emitGraph = some path → outcome.exitCode = 0 →
    ∃ place, outcome.tree.Holds path bundle.graph.manifest place

variable {tree : FileTree} {environment : Environment} {entry : Path} {options : Options}
  {settings : Settings}

theorem refused_of_load (entry : Path) {error : SettingsError}
    (h : Settings.load tree environment options.config = .error error) :
    Refused tree (.settings error) (bundle tree environment entry options) := by
  rw [bundle, h]
  exact ⟨rfl, rfl, rfl, rfl⟩

theorem refused_of_bundle {error : BuildError}
    (loaded : Settings.load tree environment options.config = .ok settings)
    (h : (Bundling.bundle tree (options.apply settings) Compiler.standard entry).1 = .error error) :
    Refused tree (.build error) (bundle tree environment entry options) := by
  have failed := Bundling.bundleTo_of_error options.output h
  rw [bundle, loaded]
  dsimp only
  generalize Bundling.bundleTo tree (options.apply settings) Compiler.standard entry
    options.output = run at failed ⊢
  rw [failed.1]
  exact ⟨rfl, rfl, rfl, failed.2⟩

section Delivery

variable {made : Bundle} {log : List LogRecord} {between after : FileTree} {error : ProjectError}
  {path : Path}

theorem output_subset_texts (options : Options) (made : Bundle) :
    (options.output.toList.map fun path => (path, made.code)) ⊆ options.texts made :=
  List.subset_append_left _ _

/-- The bundle is all that is asked for. -/
theorem delivered_alone (emitted : Emitted tree options.output made after)
    (noManifest : options.emitGraph = none) :
    Delivered tree options made
      ⟨0, if options.output.isSome then "" else made.code, none, log, after⟩ where
  exitCode := rfl
  error := nofun
  output := rfl
  writes := emitted.writes.mono (output_subset_texts options made)
  emitted path isOutput := by
    obtain ⟨place, holds⟩ := emitted.holds path isOutput
    exact Or.inr ⟨place, Or.inl holds⟩
  listed path isPath := absurd (noManifest.symm.trans isPath) nofun

/-- The manifest is written after the bundle, perhaps over it. -/
theorem delivered_listed (emitted : Emitted tree options.output made between)
    (isManifest : options.emitGraph = some path)
    (writes : Writes [(path, made.graph.manifest)] between after)
    (holds : ∃ place, after.Holds path made.graph.manifest place) :
    Delivered tree options made
      ⟨0, if options.output.isSome then "" else made.code, none, log, after⟩ where
  exitCode := rfl
  error := nofun
  output := rfl
  writes := by
    rw [Options.texts, isManifest]
    exact emitted.writes.trans writes
  emitted other isOutput := by
    obtain ⟨place, before⟩ := emitted.holds other isOutput
    refine Or.inr ⟨place, ?_⟩
    -- the place of the bundle is settled, but it may be the one of the manifest
    rcases writes.holds before with kept | ⟨_, _, mem, overwritten⟩
    · exact Or.inl kept
    · obtain ⟨rfl, rfl⟩ := Prod.mk.inj (List.mem_singleton.mp mem)
      exact Or.inr ⟨_, isManifest, writes.grows.place? before.arrives, overwritten⟩
  listed other isPath _ := by
    obtain rfl := Option.some.inj (isManifest.symm.trans isPath)
    exact holds

/-- The manifest cannot be written, and the bundle stays. -/
theorem delivered_unlisted (emitted : Emitted tree options.output made between)
    (writes : Writes [] between after)
    (atPath : ∃ path, error = .directory path ∨ error = .write path) :
    Delivered tree options made
      ⟨1, if options.output.isSome then "" else made.code, some error, log, after⟩ where
  exitCode := rfl
  error := by
    rintro _ ⟨rfl⟩
    exact atPath
  output := rfl
  writes := by
    have both := emitted.writes.trans writes
    rw [List.append_nil] at both
    exact both.mono (output_subset_texts options made)
  emitted other isOutput := by
    obtain ⟨place, before⟩ := emitted.holds other isOutput
    refine Or.inr ⟨place, Or.inl ?_⟩
    rcases writes.holds before with kept | ⟨_, _, mem, -⟩
    · exact kept
    · exact absurd mem List.not_mem_nil
  listed := nofun

/-- The bundle cannot be written, and the manifest is not tried. -/
theorem delivered_unwritten (toFile : options.output.isSome) (writes : Writes [] tree after)
    (atPath : ∃ path, error = .directory path ∨ error = .write path) :
    Delivered tree options made ⟨1, "", some error, log, after⟩ where
  exitCode := rfl
  error := by
    rintro _ ⟨rfl⟩
    exact atPath
  output := (if_pos toFile).symm
  writes := writes.mono (List.nil_subset _)
  emitted _ _ := Or.inl ⟨rfl, writes⟩
  listed := nofun

theorem delivered_of_bundle
    (loaded : Settings.load tree environment options.config = .ok settings)
    (h : (Bundling.bundle tree (options.apply settings) Compiler.standard entry).1 = .ok made) :
    Delivered tree options made (bundle tree environment entry options) := by
  have written := Bundling.bundleTo_of_ok options.output h
  rw [bundle, loaded]
  dsimp only at written ⊢
  generalize Bundling.bundleTo tree (options.apply settings) Compiler.standard entry
    options.output = run at written ⊢
  rcases written with ⟨succeeded, emitted⟩ | ⟨error, failed, writes, toFile, atPath⟩
  · rw [succeeded]
    dsimp only
    cases isManifest : options.emitGraph with
    | none => exact delivered_alone emitted isManifest
    | some path =>
      have listed := Bundling.writeManifest_cases run.tree made.graph path
      dsimp only at listed ⊢
      generalize Bundling.writeManifest run.tree made.graph path = wrote at listed ⊢
      rcases listed with ⟨succeeded, writes, holds⟩ | ⟨error, failed, writes, atPath⟩
      · rw [succeeded]
        exact delivered_listed emitted isManifest writes holds
      · rw [failed]
        exact delivered_unlisted emitted writes atPath
  · rw [failed]
    exact delivered_unwritten toFile writes atPath

end Delivery

theorem run_eq_bundle {arguments : List String} (asked : read arguments = .run entry options) :
    run tree environment arguments = bundle tree environment entry options := by
  rw [run, asked]

/-- A run that fails before its bundle is there leaves no trace; any other one differs from the
files before it by its texts only, and hands out exactly the bundle. -/
theorem run_refused_or_delivered {arguments : List String}
    (asked : read arguments = .run entry options) :
    (∃ error, Settings.load tree environment options.config = .error error ∧
      Refused tree (.settings error) (run tree environment arguments)) ∨
    ∃ settings, Settings.load tree environment options.config = .ok settings ∧
      ((∃ error,
          (Bundling.bundle tree (options.apply settings) Compiler.standard entry).1 = .error error ∧
          Refused tree (.build error) (run tree environment arguments)) ∨
        ∃ made,
          (Bundling.bundle tree (options.apply settings) Compiler.standard entry).1 = .ok made ∧
          Delivered tree options made (run tree environment arguments)) := by
  rw [run_eq_bundle asked]
  cases loaded : Settings.load tree environment options.config with
  | error error =>
    left
    exact ⟨error, rfl, refused_of_load entry loaded⟩
  | ok settings =>
    right
    refine ⟨settings, rfl, ?_⟩
    cases bundled : (Bundling.bundle tree (options.apply settings) Compiler.standard entry).1 with
    | error error =>
      left
      exact ⟨error, rfl, refused_of_bundle loaded bundled⟩
    | ok made =>
      right
      exact ⟨made, rfl, delivered_of_bundle loaded bundled⟩

/-- A module, and a link to where its bundle is to stand. -/
def linked : FileTree :=
  ⟨[(["p"], .directory), (["p", "a.js"], .file "".toUTF8), (["p", "dist"], .directory),
    (["p", "out.js"], .link "dist/bundle.js")], ["p"]⟩

/-- The arguments that name an entry and both files. -/
def naming (entry output manifest : String) : List String :=
  ["-e", entry, "-o", output, "--emit-graph", manifest]

/-- What these arguments ask for. -/
def Options.naming (entry output manifest : String) : Options :=
  { Options.none with
    entry := some ⟨entry⟩, output := some ⟨output⟩, emitGraph := some ⟨manifest⟩ }

theorem read_linked : read (naming "a.js" "out.js" "x/graph.json") =
    .run ⟨"a.js"⟩ (.naming "a.js" "out.js" "x/graph.json") := by
  rfl

/-- How runs there end, and that one of them tells its files apart. -/
theorem runs_linked :
    (run linked [] (naming "a.js" "out.js" "x/graph.json")).exitCode = 0 ∧
      (run linked [] (naming "a.js" "out.js" "x/graph.json")).tree.place? ⟨"out.js"⟩ ≠
        (run linked [] (naming "a.js" "out.js" "x/graph.json")).tree.place? ⟨"x/graph.json"⟩ ∧
      (run linked [] (naming "b.js" "x/out.js" "x/graph.json")).error =
        some (.build (.resolution "b.js" none (.noSuchFile [⟨"/p/b.js"⟩]))) ∧
      (run linked [] (naming "a.js" "out.js" "out.js")).exitCode = 0 := by
  decide +kernel

/-- An entry that is missing makes no directory; one that is there is bundled through the link. -/
theorem run_refused_or_delivered_linked :
    Refused linked (.build (.resolution "b.js" none (.noSuchFile [⟨"/p/b.js"⟩])))
        (run linked [] (naming "b.js" "x/out.js" "x/graph.json")) ∧
      (run linked [] (naming "a.js" "out.js" "x/graph.json")).exitCode = 0 ∧
      ∃ made, Delivered linked (.naming "a.js" "out.js" "x/graph.json") made
        (run linked [] (naming "a.js" "out.js" "x/graph.json")) := by
  obtain ⟨succeeded, -, failed, -⟩ := runs_linked
  have asked : read (naming "b.js" "x/out.js" "x/graph.json") =
      .run ⟨"b.js"⟩ (.naming "b.js" "x/out.js" "x/graph.json") := by
    rfl
  refine ⟨?_, succeeded, ?_⟩
  · rcases run_refused_or_delivered asked with ⟨_, -, refused⟩ |
      ⟨_, -, ⟨_, -, refused⟩ | ⟨_, -, delivered⟩⟩
    · exact absurd (failed.symm.trans refused.error) nofun
    · -- the run and the lemma tell the same error
      obtain rfl := ProjectError.build.inj (Option.some.inj (failed.symm.trans refused.error))
      exact refused
    · obtain ⟨_, isDirectory | isWrite⟩ := delivered.error _ failed
      · exact absurd isDirectory ProjectError.noConfusion
      · exact absurd isWrite ProjectError.noConfusion
  · rcases run_refused_or_delivered read_linked with ⟨_, -, refused⟩ |
      ⟨_, -, ⟨_, -, refused⟩ | ⟨made, -, delivered⟩⟩
    · exact absurd (refused.exitCode.symm.trans succeeded) Nat.one_ne_zero
    · exact absurd (refused.exitCode.symm.trans succeeded) Nat.one_ne_zero
    · exact ⟨made, delivered⟩

/-- A run that succeeds leaves the manifest in its file, and the bundle in its own one unless both
paths lead to one file. -/
theorem run_leaves_texts {arguments : List String} {output manifest : Path}
    (asked : read arguments = .run entry options) (isOutput : options.output = some output)
    (isManifest : options.emitGraph = some manifest)
    (succeeded : (run tree environment arguments).exitCode = 0) :
    ∃ settings made, Settings.load tree environment options.config = .ok settings ∧
      (Bundling.bundle tree (options.apply settings) Compiler.standard entry).1 = .ok made ∧
      (run tree environment arguments).tree.find? manifest =
        some (.file made.graph.manifest.toUTF8) ∧
      ((run tree environment arguments).tree.place? output ≠
          (run tree environment arguments).tree.place? manifest →
        (run tree environment arguments).tree.find? output = some (.file made.code.toUTF8)) := by
  rw [run_eq_bundle asked] at succeeded ⊢
  cases loaded : Settings.load tree environment options.config with
  | error error =>
    have failed := (refused_of_load entry loaded).exitCode
    exact absurd (failed.symm.trans succeeded) Nat.one_ne_zero
  | ok settings =>
    cases bundled : (Bundling.bundle tree (options.apply settings) Compiler.standard entry).1 with
    | error error =>
      have failed := (refused_of_bundle loaded bundled).exitCode
      exact absurd (failed.symm.trans succeeded) Nat.one_ne_zero
    | ok made =>
      have delivered := delivered_of_bundle loaded bundled
      obtain ⟨_, listed⟩ := delivered.listed manifest isManifest succeeded
      refine ⟨settings, made, rfl, bundled, listed.find?, fun apart => ?_⟩
      rcases delivered.emitted output isOutput with ⟨failed, -⟩ |
        ⟨place, holds | ⟨other, isOther, arrives, holds⟩⟩
      · exact absurd (failed.symm.trans succeeded) Nat.one_ne_zero
      · exact holds.find?
      · obtain rfl := Option.some.inj (isManifest.symm.trans isOther)
        exact absurd (arrives.trans holds.arrives.symm) apart

theorem run_leaves_texts_linked :
    (run linked [] (naming "a.js" "out.js" "x/graph.json")).exitCode = 0 ∧
      ∃ made : Bundle,
        (run linked [] (naming "a.js" "out.js" "x/graph.json")).tree.find? ⟨"x/graph.json"⟩ =
          some (.file made.graph.manifest.toUTF8) ∧
        (run linked [] (naming "a.js" "out.js" "x/graph.json")).tree.find? ⟨"out.js"⟩ =
          some (.file made.code.toUTF8) := by
  obtain ⟨succeeded, apart, -, -⟩ := runs_linked
  obtain ⟨_, made, -, -, manifest, bundle⟩ := run_leaves_texts read_linked rfl rfl succeeded
  exact ⟨succeeded, made, manifest, bundle apart⟩

/-- Where both paths lead to one file, a run succeeds though its bundle is lost. -/
theorem bundle_overwritten :
    read (naming "a.js" "out.js" "out.js") = .run ⟨"a.js"⟩ (.naming "a.js" "out.js" "out.js") ∧
    (run linked [] (naming "a.js" "out.js" "out.js")).exitCode = 0 ∧
    ∃ settings, Settings.load linked [] none = .ok settings ∧
      ∃ made,
        (Bundling.bundle linked ((Options.naming "a.js" "out.js" "out.js").apply settings)
          Compiler.standard ⟨"a.js"⟩).1 = .ok made ∧
        (run linked [] (naming "a.js" "out.js" "out.js")).tree.find? ⟨"out.js"⟩ ≠
          some (.file made.code.toUTF8) := by
  have asked : read (naming "a.js" "out.js" "out.js") =
      .run ⟨"a.js"⟩ (.naming "a.js" "out.js" "out.js") := by
    rfl
  obtain ⟨-, -, -, succeeded⟩ := runs_linked
  have checked : (Settings.load linked [] none).toOption.any (fun settings =>
      (Bundling.bundle linked ((Options.naming "a.js" "out.js" "out.js").apply settings)
        Compiler.standard ⟨"a.js"⟩).1.toOption.any fun made =>
          made.graph.manifest != made.code) = true := by
    decide +kernel
  obtain ⟨settings, loaded, checked⟩ := exists_ok_of_any checked
  obtain ⟨made, bundled, differs⟩ := exists_ok_of_any checked
  refine ⟨asked, succeeded, settings, loaded, made, bundled, fun kept => ?_⟩
  rw [run_eq_bundle asked] at succeeded kept
  -- the file holds the manifest, which is another text
  obtain ⟨_, listed⟩ := (delivered_of_bundle loaded bundled).listed ⟨"out.js"⟩ rfl succeeded
  have same := FileEntry.file.inj (Option.some.inj (listed.find?.symm.trans kept))
  exact bne_iff_ne.mp differs (String.toByteArray_inj.mp same)

end Command

end ModuleBundler
