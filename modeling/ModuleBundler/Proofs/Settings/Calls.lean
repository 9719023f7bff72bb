/-
# ModuleBundler.Proofs.Settings.Calls — what calls leave behind that fail.

Files and variables are laid over settings in place.  A call that fails keeps what it has laid
before its fault: of a file nothing, of the variables those before the first that cannot be used.
Only the extensions are left open, and only where the fault is that none is left (`Alike.of_error`).
So after any calls there are extensions, unless the last call that tells of any has failed for want
of them (`calls_keep`).
-/
import Mathlib.Control.Monad.Basic
import ModuleBundler.Proofs.Settings.Layers

namespace ModuleBundler.Settings

/-- A call that lays something over settings. -/
inductive Call
  | file (tree : FileTree) (path : Path)
  | environment (values : Environment)

namespace Call

/-- What settings come to by a call. -/
def change (settings : Settings) : Call → Change
  | file tree path => mergeFile tree settings path
  | environment values => applyEnvironment values settings

/-- What a call lays over settings. -/
def layers : Call → List Layer
  | file tree path => [fileLayer tree path]
  | environment values => variableLayers values

/-- A call fails because no extension is left. -/
def Lacks (settings : Settings) (call : Call) : Prop :=
  ∃ error, (call.change settings).1 = .error error ∧ LacksExtensions error

/-- A call that tells of no extensions. -/
def IsSilent (call : Call) : Prop :=
  ∀ overlay, .ok overlay ∈ call.layers → overlay.extensions = none

end Call

/-- Settings after calls, whether these succeed or fail. -/
def afterCalls (settings : Settings) (calls : List Call) : Settings :=
  calls.foldl (fun settings call => (call.change settings).2) settings

variable {settings : Settings} {layers : List Layer} {change : Change} {error : SettingsError}

/-! ## One call -/

theorem Call.change_alike (call : Call) (settings : Settings) :
    Alike (call.change settings) (layAll settings call.layers) := by
  cases call with
  | file tree path => exact mergeFile_alike tree settings path
  | environment values => exact applyEnvironment_alike values settings

/-- A change that fails keeps what has been laid before its fault. -/
theorem Alike.of_error (h : Alike change (layAll settings layers))
    (failed : change.1 = .error error) :
    ∃ (before : List Overlay) (later : List Layer),
      layers = before.map .ok ++ .error error :: later ∧
        change.2 = { settings.overlaid before with extensions := change.2.extensions } ∧
        (¬ LacksExtensions error → change.2 = settings.overlaid before) := by
  obtain ⟨before, later, isFault, laid⟩ := layAll_of_error (h.result.symm.trans failed)
  refine ⟨before, later, isFault, ?_, fun other => ?_⟩
  · rw [← laid]
    exact h.others
  · rw [← laid]
    refine h.settings fun fault isError => ?_
    obtain rfl := Except.error.inj (failed.symm.trans isError)
    exact other

/-- Before the fault of a single layer stands nothing. -/
theorem eq_nil_of_singleton {layer : Layer} {before : List Overlay} {later : List Layer}
    (h : [layer] = before.map .ok ++ .error error :: later) : before = [] := by
  cases before with
  | nil => rfl
  | cons overlay before =>
    have noMore := (List.cons.inj h).2
    exact absurd noMore.symm (by simp)

/-- Layers that tell of no extensions leave them. -/
theorem extensions_foldl_lay (silent : ∀ overlay, .ok overlay ∈ layers → overlay.extensions = none)
    (change : Change) : (layers.foldl lay change).2.extensions = change.2.extensions := by
  induction layers generalizing change with
  | nil => rfl
  | cons layer layers ih =>
    have rest := ih (fun overlay mem => silent overlay (List.mem_cons_of_mem layer mem))
      (lay change layer)
    refine rest.trans ?_
    obtain ⟨_ | ⟨⟩, settings⟩ := change
    · rfl
    · cases layer with
      | error error => rfl
      | ok overlay =>
        have unset := silent overlay List.mem_cons_self
        show overlay.extensions.getD settings.extensions = settings.extensions
        rw [unset, Option.getD_none]

/-- Layers of which only the first may tell of extensions leave some, unless there were none and it
tells of none either. -/
theorem silent_of_layAll {first : Layer}
    (completes : ∀ overlay, first = .ok overlay → overlay.Completes)
    (silent : ∀ overlay, .ok overlay ∈ layers → overlay.extensions = none)
    (emptied : (layAll settings (first :: layers)).2.extensions = []) :
    settings.extensions = [] ∧
      ∀ overlay, .ok overlay ∈ first :: layers → overlay.extensions = none := by
  have kept := extensions_foldl_lay silent (lay (.ok (), settings) first)
  have laid : (lay (.ok (), settings) first).2.extensions = [] := kept.symm.trans emptied
  cases first with
  | error error =>
    refine ⟨laid, fun overlay mem => ?_⟩
    rcases List.mem_cons.mp mem with isFirst | isOther
    · exact absurd isFirst nofun
    · exact silent overlay isOther
  | ok overlay =>
    replace laid : overlay.extensions.getD settings.extensions = [] := laid
    cases told : overlay.extensions with
    | some extensions =>
      rw [told, Option.getD_some] at laid
      exact absurd laid (completes overlay rfl extensions told).ne_nil
    | none =>
      rw [told, Option.getD_none] at laid
      refine ⟨laid, fun other mem => ?_⟩
      rcases List.mem_cons.mp mem with isFirst | isOther
      · rw [Except.ok.inj isFirst]
        exact told
      · exact silent other isOther

/-- Where a call leaves no extension, it has failed for want of them, or there was none before and
it tells of none. -/
theorem Call.lacks_or_silent {call : Call} (emptied : (call.change settings).2.extensions = []) :
    call.Lacks settings ∨ settings.extensions = [] ∧ call.IsSilent := by
  by_cases lacks : call.Lacks settings
  · exact Or.inl lacks
  · right
    have laid := (call.change_alike settings).settings fun error failed isLack =>
      lacks ⟨error, failed, isLack⟩
    rw [laid] at emptied
    cases call with
    | file tree path =>
      exact silent_of_layAll (fun overlay isOk => completes_of_fileLayer isOk) nofun emptied
    | environment values =>
      exact silent_of_layAll (fun overlay isOk => completes_of_extensionsLayer isOk)
        (fun overlay mem => extensions_of_mem_flagLayers mem) emptied

/-! ## Any calls -/

/-- If no extension is left after calls, there was none before them and they tell of none, or the
last of them that tells of any has failed for want of them. -/
theorem silent_or_lacks {calls : List Call}
    (emptied : (afterCalls settings calls).extensions = []) :
    (settings.extensions = [] ∧ ∀ call ∈ calls, call.IsSilent) ∨
      ∃ before call later, calls = before ++ call :: later ∧
        call.Lacks (afterCalls settings before) ∧ ∀ next ∈ later, next.IsSilent := by
  induction calls generalizing settings with
  | nil => exact Or.inl ⟨emptied, nofun⟩
  | cons call calls ih =>
    rcases ih emptied with ⟨left, silent⟩ | ⟨before, other, later, rfl, lacks, silent⟩
    · rcases Call.lacks_or_silent left with lacks | ⟨unset, isSilent⟩
      · exact Or.inr ⟨[], call, calls, rfl, lacks, silent⟩
      · exact Or.inl ⟨unset, List.forall_mem_cons.mpr ⟨isSilent, silent⟩⟩
    · exact Or.inr ⟨call :: before, other, later, rfl, lacks, silent⟩

/-- A file that cannot be merged changes nothing, and of variables that cannot be applied those
before the first fault are laid and nothing else; where the fault is that no extension is left, this
is said of all settings but the extensions.  After any calls on the standard settings there are
extensions, unless a call has failed for want of them and none since has told of any. -/
theorem calls_keep :
    (∀ (tree : FileTree) (path : Path) (settings after : Settings) (error : SettingsError),
      mergeFile tree settings path = (.error error, after) →
        after = { settings with extensions := after.extensions } ∧
          (¬ LacksExtensions error → after = settings)) ∧
    (∀ (environment : Environment) (settings after : Settings) (error : SettingsError),
      applyEnvironment environment settings = (.error error, after) →
        ∃ (before : List Overlay) (later : List Layer),
          variableLayers environment = before.map .ok ++ .error error :: later ∧
            after = { settings.overlaid before with extensions := after.extensions } ∧
            (¬ LacksExtensions error → after = settings.overlaid before)) ∧
    ∀ calls : List Call, (afterCalls standard calls).extensions = [] →
      ∃ before call later, calls = before ++ call :: later ∧
        call.Lacks (afterCalls standard before) ∧ ∀ next ∈ later, next.IsSilent := by
  refine ⟨fun tree path settings after error failed => ?_,
    fun environment settings after error failed => ?_, fun calls emptied => ?_⟩
  · have alike := mergeFile_alike tree settings path
    rw [failed] at alike
    obtain ⟨before, later, isFault, others, same⟩ := alike.of_error rfl
    -- a file is one layer, so nothing has been laid before its fault
    obtain rfl := eq_nil_of_singleton isFault
    exact ⟨others, same⟩
  · have alike := applyEnvironment_alike environment settings
    rw [failed] at alike
    exact alike.of_error rfl
  · rcases silent_or_lacks emptied with ⟨unset, -⟩ | lacks
    · exact absurd unset (by decide)
    · exact lacks

/-- A file that leaves no extension, and one with an unknown key. -/
def faulty : FileTree :=
  ⟨[(["p"], .directory),
    (["p", "merge.toml"], .file "extensions = []\nindex-files = true\n".toUTF8),
    (["p", "unknown.toml"], .file "index-files = true\nminify = true\n".toUTF8)], ["p"]⟩

/-- Variables of which the second one cannot be used. -/
def halfUsable : Environment :=
  [("MINIPACK_INDEX_FILES", "1"), ("MINIPACK_MODULE_CACHE", "maybe"),
    ("MINIPACK_REJECT_CYCLES", "1")]

/-- Calls of which the second one takes the extensions away, and the third fails otherwise. -/
def failing : List Call :=
  [.environment [("MINIPACK_EXTENSIONS", "ts")], .file faulty ⟨"merge.toml"⟩,
    .environment halfUsable]

/-- A file with an unknown key changes nothing, the first of the variables is laid, and the calls
that leave no extension have one that fails for want of them. -/
theorem calls_keep_faulty :
    (mergeFile faulty standard ⟨"unknown.toml"⟩).1 = .error (.malformed ⟨"unknown.toml"⟩) ∧
      (mergeFile faulty standard ⟨"unknown.toml"⟩).2 = standard ∧
      (applyEnvironment halfUsable standard).1 =
        .error (.invalidFlag "maybe" "MINIPACK_MODULE_CACHE") ∧
      (∃ (before : List Overlay) (later : List Layer),
        variableLayers halfUsable = before.map .ok ++
            .error (.invalidFlag "maybe" "MINIPACK_MODULE_CACHE") :: later ∧
          (applyEnvironment halfUsable standard).2 = standard.overlaid before) ∧
      (afterCalls standard failing).extensions = [] ∧
      ∃ before call later, failing = before ++ call :: later ∧
        call.Lacks (afterCalls standard before) ∧ ∀ next ∈ later, next.IsSilent := by
  have malformed : (mergeFile faulty standard ⟨"unknown.toml"⟩).1 =
      .error (.malformed ⟨"unknown.toml"⟩) := by
    decide +kernel
  have invalid : (applyEnvironment halfUsable standard).1 =
      .error (.invalidFlag "maybe" "MINIPACK_MODULE_CACHE") := by
    decide +kernel
  have emptied : (afterCalls standard failing).extensions = [] := by
    decide +kernel
  obtain ⟨files, environments, calls⟩ := calls_keep
  have unchanged := (files faulty ⟨"unknown.toml"⟩ standard _ _ (Prod.ext malformed rfl)).2 nofun
  obtain ⟨before, later, isFault, -, laid⟩ :=
    environments halfUsable standard _ _ (Prod.ext invalid rfl)
  exact ⟨malformed, unchanged, invalid, ⟨before, later, isFault, laid nofun⟩, emptied,
    calls failing emptied⟩

/-- Calls that fail may leave other settings than before them, even without any extension. -/
theorem calls_not_atomic :
    (mergeFile faulty standard ⟨"merge.toml"⟩).1 = .error (.noExtensions ⟨"merge.toml"⟩) ∧
      (mergeFile faulty standard ⟨"merge.toml"⟩).2 ≠ standard ∧
      (mergeFile faulty standard ⟨"merge.toml"⟩).2.extensions = [] ∧
      (applyEnvironment halfUsable standard).1 =
        .error (.invalidFlag "maybe" "MINIPACK_MODULE_CACHE") ∧
      (applyEnvironment halfUsable standard).2 ≠ standard := by
  decide +kernel

end ModuleBundler.Settings
