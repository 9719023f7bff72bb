/-
# ModuleBundler.Proofs.Settings.Loading — what loading settings comes to.

Loading lays the files that are consulted and the variables over the standard settings (`load_eq`).
So it fails exactly if one of these layers cannot be used, with the error of the first such one, and
otherwise each setting is what the last layer says that sets it, options included (`load_layered`).
-/
import Mathlib.Control.Monad.Basic
import ModuleBundler.Proofs.Settings.Layers

namespace ModuleBundler

/-- What options set: a flag sets its setting in one way only. -/
def Command.Options.overlay (options : Options) : Settings.Overlay :=
  { extensions :=
      if options.extensions.isEmpty then .none
      else some (options.extensions.map Settings.normalizeExtension)
    indexFiles := if options.indexFiles then some true else .none
    moduleCache := if options.noModuleCache then some false else .none
    moduleComments := if options.noModuleComments then some false else .none
    rejectCycles := if options.rejectCycles then some true else .none }

namespace Settings

open Command (Options)

/-! ## Options -/

/-- A flag that turns a setting on. -/
theorem getD_on (flag current : Bool) :
    (if flag then some true else none).getD current = (current || flag) := by
  cases flag <;> simp

/-- A flag that turns a setting off. -/
theorem getD_off (flag current : Bool) :
    (if flag then some false else none).getD current = (current && !flag) := by
  cases flag <;> simp

theorem apply_eq_over (options : Options) (settings : Settings) :
    options.apply settings = options.overlay.over settings := by
  have extensions : (options.apply settings).extensions =
      options.overlay.extensions.getD settings.extensions := by
    unfold Options.overlay Options.apply
    cases options.extensions <;> rfl
  rw [Overlay.over, ← extensions]
  dsimp only [Options.overlay, Options.apply]
  rw [getD_on, getD_off, getD_off, getD_on]

theorem completes_overlay (options : Options) : options.overlay.Completes := by
  intro extensions set
  simp only [Options.overlay] at set
  split at set
  · exact absurd set nofun
  · rename_i nonempty
    obtain rfl := Option.some.inj set
    exact completing_map id fun none => nonempty (List.isEmpty_iff.mpr none)

/-! ## Loading -/

/-- A file is consulted if it is there. -/
def presentLayers (tree : FileTree) (path : Option Path) : List Layer :=
  (path.toList.filter tree.isFile).map (fileLayer tree)

/-- The file that is named, or else the one of the project. -/
def projectLayers (tree : FileTree) (named : Option Path) : List Layer :=
  match named with
  | some path => [fileLayer tree path]
  | none => presentLayers tree (some fileName)

/-- The layers that are consulted, between the standard settings and the options. -/
def layers (tree : FileTree) (environment : Environment) (named : Option Path) : List Layer :=
  presentLayers tree (userFile? environment) ++
    (projectLayers tree named ++ variableLayers environment)

/-- The settings that a change comes to, if it succeeds. -/
def settled (change : Change) : Except SettingsError Settings :=
  change.1.map fun _ => change.2

variable {tree : FileTree} {environment : Environment} {options : Options} {settings : Settings}

theorem mergeIfPresent_alike (tree : FileTree) (settings : Settings) (path : Option Path) :
    Alike (mergeIfPresent tree settings path) (layAll settings (presentLayers tree path)) := by
  unfold mergeIfPresent presentLayers
  cases path with
  | none => exact .refl _
  | some path =>
    dsimp only
    by_cases present : tree.isFile path = true
    · rw [if_pos present, Option.toList_some, List.filter_cons_of_pos present]
      exact mergeFile_alike tree settings path
    · rw [if_neg present, Option.toList_some, List.filter_cons_of_neg present]
      exact .refl _

theorem Alike.settled_eq {change expected : Change} (h : Alike change expected) :
    settled change = settled expected := by
  rcases isResult : expected.1 with error | ⟨⟩
  · unfold settled
    rw [h.result, isResult]
    rfl
  · rw [h.eq_of_ok isResult]

/-- Settings are settled layer by layer. -/
theorem settled_bind {change : Change} {next : Settings → Change} {first second : List Layer}
    (begins : Alike change (layAll settings first))
    (follows : ∀ settings, Alike (next settings) (layAll settings second)) :
    (settled change >>= fun settings => settled (next settings)) =
      settled (layAll settings (first ++ second)) := by
  rw [begins.settled_eq, layAll_append]
  rcases layAll settings first with ⟨error | ⟨⟩, between⟩
  · rw [foldl_lay_error]
    rfl
  · exact (follows between).settled_eq

/-- To load settings is to lay the layers that are consulted. -/
theorem load_eq (tree : FileTree) (environment : Environment) (named : Option Path) :
    load tree environment named = settled (layAll standard (layers tree environment named)) := by
  have project (settings : Settings) :
      Alike (match named with
          | some path => mergeFile tree settings path
          | none => mergeIfPresent tree settings (some fileName))
        (layAll settings (projectLayers tree named)) := by
    cases named with
    | none => exact mergeIfPresent_alike tree settings (some fileName)
    | some path => exact mergeFile_alike tree settings path
  have behind (settings : Settings) :=
    settled_bind (project settings) (applyEnvironment_alike environment)
  have all := settled_bind (mergeIfPresent_alike tree standard (userFile? environment))
    fun settings => .refl (layAll settings (projectLayers tree named ++ variableLayers environment))
  rw [layers, ← all]
  unfold load
  dsimp only
  simp only [← behind]
  rfl

theorem settled_eq_error_iff {change : Change} {error : SettingsError} :
    settled change = .error error ↔ change.1 = .error error := by
  obtain ⟨fault | ⟨⟩, settings⟩ := change <;> simp [settled, Except.map]

theorem settled_eq_ok_iff {change : Change} :
    settled change = .ok settings ↔ change = (.ok (), settings) := by
  obtain ⟨fault | ⟨⟩, settings⟩ := change <;> simp [settled, Except.map]

theorem load_eq_error_iff {named : Option Path} {error : SettingsError} :
    load tree environment named = .error error ↔
      ∃ (before : List Overlay) (after : List Layer),
        layers tree environment named = before.map .ok ++ .error error :: after := by
  rw [load_eq, settled_eq_error_iff]
  constructor
  · intro failed
    obtain ⟨before, after, isFault, -⟩ := layAll_of_error failed
    exact ⟨before, after, isFault⟩
  · rintro ⟨before, after, isFault⟩
    rw [isFault, layAll_fault]

theorem exists_overlays_of_load {named : Option Path}
    (h : load tree environment named = .ok settings) :
    ∃ overlays : List Overlay, layers tree environment named = overlays.map .ok ∧
      settings = standard.overlaid overlays := by
  rw [load_eq, settled_eq_ok_iff] at h
  obtain ⟨overlays, usable, laid⟩ := layAll_of_ok (congrArg Prod.fst h)
  exact ⟨overlays, usable, (congrArg Prod.snd h).symm.trans laid⟩

theorem completes_standard : standard.overlay.Completes := by
  rintro _ ⟨rfl⟩
  exact ⟨by decide, by decide⟩

theorem completes_of_mem_presentLayers {path : Option Path} {overlay : Overlay}
    (h : .ok overlay ∈ presentLayers tree path) : overlay.Completes := by
  obtain ⟨path, -, isOk⟩ := List.mem_map.mp h
  exact completes_of_fileLayer isOk

/-- No layer that is consulted leaves extensions that cannot complete names. -/
theorem completes_of_mem_layers {named : Option Path} {overlay : Overlay}
    (h : .ok overlay ∈ layers tree environment named) : overlay.Completes := by
  rcases List.mem_append.mp h with isUser | behind
  · exact completes_of_mem_presentLayers isUser
  · rcases List.mem_append.mp behind with isProject | isVariable
    · cases named with
      | none => exact completes_of_mem_presentLayers isProject
      | some path => exact completes_of_fileLayer (List.mem_singleton.mp isProject).symm
    · exact completes_of_mem_variableLayers isVariable

/-- Loading fails exactly if a layer that is consulted cannot be used, with the error of the first
such layer.  Otherwise each setting that a command works with is what the last layer says that sets
it: the standard settings, the file of the user, the file that is named or else that of the project,
the variables, the options. -/
theorem load_layered (tree : FileTree) (environment : Environment) (options : Options) :
    (∀ error, load tree environment options.config = .error error ↔
      ∃ (before : List Overlay) (after : List Layer),
        layers tree environment options.config = before.map .ok ++ .error error :: after) ∧
    ∀ settings, load tree environment options.config = .ok settings →
      ∃ overlays : List Overlay, layers tree environment options.config = overlays.map .ok ∧
        Layered (standard.overlay :: overlays ++ [options.overlay]) (options.apply settings) ∧
        Completing (options.apply settings).extensions := by
  refine ⟨fun error => load_eq_error_iff, fun settings loaded => ?_⟩
  obtain ⟨overlays, usable, rfl⟩ := exists_overlays_of_load loaded
  have laid : Layered (standard.overlay :: overlays ++ [options.overlay])
      (options.apply (standard.overlaid overlays)) := by
    rw [apply_eq_over]
    exact ((layered_overlay standard).overlaid overlays).over options.overlay
  refine ⟨overlays, usable, laid, laid.completing fun overlay mem => ?_⟩
  rcases List.mem_append.mp mem with inside | isOptions
  · rcases List.mem_cons.mp inside with rfl | isLaid
    · exact completes_standard
    · have isLayer : .ok overlay ∈ layers tree environment options.config := by
        rw [usable]
        exact List.mem_map_of_mem isLaid
      exact completes_of_mem_layers isLayer
  · rw [List.mem_singleton.mp isOptions]
    exact completes_overlay options

/-- A user's settings, those of a project, which leave no extension, and others beside them. -/
def configured : FileTree :=
  ⟨[(["h"], .directory), (["h", ".config"], .directory), (["h", ".config", "minipack"], .directory),
    (["h", ".config", "minipack", "minipack.toml"],
      .file "extensions = ['ts']\nreject-cycles = true\n".toUTF8),
    (["p"], .directory), (["p", "minipack.toml"], .file "extensions = []\n".toUTF8),
    (["p", "own.toml"], .file "index-files = true\nextensions = ['mjs', '.js']\n".toUTF8)], ["p"]⟩

/-- The user is at home and wants no comments. -/
def uncommented : Environment :=
  [("HOME", "/h"), ("MINIPACK_MODULE_COMMENTS", " Off ")]

/-- Options that name a file and turn one setting off. -/
def own : Options :=
  { Options.none with config := some ⟨"own.toml"⟩, noModuleCache := true }

/-- With a file that is named each layer sets something that shows: the file of the user refuses
circles, the one that is named sets the extensions and index files, the variable turns comments off,
and the option the cache.  Without it the file of the project is consulted, which cannot be used. -/
theorem load_layered_configured :
    load configured uncommented own.config = .ok ⟨[".mjs", ".js"], true, true, false, true⟩ ∧
      (∃ overlays : List Overlay, layers configured uncommented own.config = overlays.map .ok ∧
        Layered (standard.overlay :: overlays ++ [own.overlay])
          ⟨[".mjs", ".js"], true, false, false, true⟩ ∧
        Completing [".mjs", ".js"]) ∧
      load configured uncommented Options.none.config = .error (.noExtensions fileName) ∧
      ∃ (before : List Overlay) (after : List Layer),
        layers configured uncommented Options.none.config =
          before.map .ok ++ .error (.noExtensions fileName) :: after := by
  have loaded : load configured uncommented own.config =
      .ok ⟨[".mjs", ".js"], true, true, false, true⟩ := by
    decide +kernel
  have failed : load configured uncommented Options.none.config =
      .error (.noExtensions fileName) := by
    decide +kernel
  obtain ⟨overlays, usable, laid, completing⟩ :=
    (load_layered configured uncommented own).2 _ loaded
  have fault := ((load_layered configured uncommented Options.none).1 _).mp failed
  exact ⟨loaded, ⟨overlays, usable, laid, completing⟩, failed, fault⟩

end Settings

end ModuleBundler
