/-
# ModuleBundler.Proofs.Settings.Layers — settings are laid in layers.

The standard settings, files, variables and options are layers.  What a layer sets, or why it cannot
be used, is told by the layer alone (`fileLayer`, `variableLayers`).  Laying layers over one another
ends at the first that cannot be used (`layAll_fault`), and if all of them can, each setting is what
the last layer says that sets it (`Layered.overlaid`).  To merge a file and to apply the variables
is to lay layers (`mergeFile_alike`, `applyEnvironment_alike`); only where a layer leaves no
extension, they take the extensions away before they fail.

A variable is what the first entry of its name says (`valueOf?_eq_some_iff`): a truth value by one
of its words (`variableFlag_eq_ok_some_iff`), extensions between commas
(`listedExtensions_intercalate`).  It counts as set only if its value is a text, so the values of an
environment are texts.
-/
import ModuleBundler.Command.Arguments

namespace ModuleBundler.Settings

/-! ## Layers and what they come to -/

/-- A layer of settings: what it sets, or why it cannot be used. -/
abbrev Layer := Except SettingsError Overlay

/-- Settings with an overlay laid over them. -/
def Overlay.over (overlay : Overlay) (settings : Settings) : Settings :=
  { extensions := overlay.extensions.getD settings.extensions
    indexFiles := overlay.indexFiles.getD settings.indexFiles
    moduleCache := overlay.moduleCache.getD settings.moduleCache
    moduleComments := overlay.moduleComments.getD settings.moduleComments
    rejectCycles := overlay.rejectCycles.getD settings.rejectCycles }

/-- The overlay that sets everything as it is. -/
def overlay (settings : Settings) : Overlay :=
  { extensions := some settings.extensions
    indexFiles := some settings.indexFiles
    moduleCache := some settings.moduleCache
    moduleComments := some settings.moduleComments
    rejectCycles := some settings.rejectCycles }

/-- Settings with overlays laid over them, the first one first. -/
def overlaid (settings : Settings) (overlays : List Overlay) : Settings :=
  overlays.foldl (fun settings overlay => overlay.over settings) settings

/-- Lays a layer over what settings have come to, unless something has failed before. -/
def lay (change : Change) (layer : Layer) : Change :=
  match change with
  | (.error error, settings) => (.error error, settings)
  | (.ok (), settings) =>
    match layer with
    | .error error => (.error error, settings)
    | .ok overlay => (.ok (), overlay.over settings)

/-- Lays layers over settings, one after another up to the first that cannot be used. -/
def layAll (settings : Settings) (layers : List Layer) : Change :=
  layers.foldl lay (.ok (), settings)

variable {settings : Settings} {overlays : List Overlay} {layers : List Layer}
  {error : SettingsError}

theorem foldl_lay_error (error : SettingsError) (settings : Settings) (layers : List Layer) :
    layers.foldl lay (.error error, settings) = (.error error, settings) := by
  induction layers with
  | nil => rfl
  | cons layer layers ih => exact ih

theorem layAll_append (settings : Settings) (first second : List Layer) :
    layAll settings (first ++ second) = second.foldl lay (layAll settings first) :=
  List.foldl_append

theorem layAll_ok (settings : Settings) (overlays : List Overlay) :
    layAll settings (overlays.map .ok) = (.ok (), settings.overlaid overlays) := by
  induction overlays generalizing settings with
  | nil => rfl
  | cons overlay overlays ih => exact ih (overlay.over settings)

/-- What stands behind a layer that cannot be used is not laid. -/
theorem layAll_fault (settings : Settings) (before : List Overlay) (error : SettingsError)
    (after : List Layer) :
    layAll settings (before.map .ok ++ .error error :: after) =
      (.error error, settings.overlaid before) := by
  rw [layAll_append, layAll_ok]
  exact foldl_lay_error error _ after

/-- All layers can be used, or one of them is the first that cannot. -/
theorem usable_or_fault (layers : List Layer) :
    (∃ overlays : List Overlay, layers = overlays.map .ok) ∨
      ∃ (before : List Overlay) (error : SettingsError) (after : List Layer),
        layers = before.map .ok ++ .error error :: after := by
  induction layers with
  | nil => exact Or.inl ⟨[], rfl⟩
  | cons layer layers ih =>
    cases layer with
    | error error => exact Or.inr ⟨[], error, layers, rfl⟩
    | ok overlay =>
      rcases ih with ⟨overlays, rfl⟩ | ⟨before, error, after, rfl⟩
      · exact Or.inl ⟨overlay :: overlays, rfl⟩
      · exact Or.inr ⟨overlay :: before, error, after, rfl⟩

/-- A run that succeeds lays all layers. -/
theorem layAll_of_ok (h : (layAll settings layers).1 = .ok ()) :
    ∃ overlays : List Overlay, layers = overlays.map .ok ∧
      (layAll settings layers).2 = settings.overlaid overlays := by
  rcases usable_or_fault layers with ⟨overlays, rfl⟩ | ⟨before, error, after, rfl⟩
  · rw [layAll_ok]
    exact ⟨overlays, rfl, rfl⟩
  · rw [layAll_fault] at h
    exact absurd h nofun

/-- A run that fails lays the layers before the one that cannot be used. -/
theorem layAll_of_error (h : (layAll settings layers).1 = .error error) :
    ∃ (before : List Overlay) (after : List Layer),
      layers = before.map .ok ++ .error error :: after ∧
        (layAll settings layers).2 = settings.overlaid before := by
  rcases usable_or_fault layers with ⟨overlays, rfl⟩ | ⟨before, fault, after, rfl⟩
  · rw [layAll_ok] at h
    exact absurd h nofun
  · rw [layAll_fault] at h ⊢
    obtain rfl := Except.error.inj h
    exact ⟨before, after, rfl, rfl⟩

/-! ## The last layer that sets something -/

/-- The last overlay that sets something sets it to a value. -/
def SetLast {α : Type} (overlays : List Overlay) (field : Overlay → Option α) (value : α) : Prop :=
  ∃ before overlay after, overlays = before ++ overlay :: after ∧ field overlay = some value ∧
    ∀ later ∈ after, field later = none

/-- Each setting is what the last overlay says that sets it. -/
structure Layered (overlays : List Overlay) (settings : Settings) : Prop where
  extensions : SetLast overlays (·.extensions) settings.extensions
  indexFiles : SetLast overlays (·.indexFiles) settings.indexFiles
  moduleCache : SetLast overlays (·.moduleCache) settings.moduleCache
  moduleComments : SetLast overlays (·.moduleComments) settings.moduleComments
  rejectCycles : SetLast overlays (·.rejectCycles) settings.rejectCycles

theorem setLast_singleton {α : Type} {field : Overlay → Option α} {value : α} {overlay : Overlay}
    (h : field overlay = some value) : SetLast [overlay] field value :=
  ⟨[], overlay, [], rfl, h, nofun⟩

/-- One more overlay sets something anew, or leaves it. -/
theorem SetLast.concat {α : Type} {field : Overlay → Option α} {value : α}
    (h : SetLast overlays field value) (next : Overlay) :
    SetLast (overlays ++ [next]) field ((field next).getD value) := by
  cases set : field next with
  | some new => exact ⟨overlays, next, [], rfl, set, nofun⟩
  | none =>
    obtain ⟨before, overlay, after, rfl, isValue, unset⟩ := h
    refine ⟨before, overlay, after ++ [next], by simp, isValue, fun later mem => ?_⟩
    rcases List.mem_append.mp mem with inside | last
    · exact unset later inside
    · rw [List.mem_singleton.mp last]
      exact set

theorem layered_overlay (settings : Settings) : Layered [settings.overlay] settings where
  extensions := setLast_singleton rfl
  indexFiles := setLast_singleton rfl
  moduleCache := setLast_singleton rfl
  moduleComments := setLast_singleton rfl
  rejectCycles := setLast_singleton rfl

theorem Layered.over (h : Layered overlays settings) (next : Overlay) :
    Layered (overlays ++ [next]) (next.over settings) where
  extensions := h.extensions.concat next
  indexFiles := h.indexFiles.concat next
  moduleCache := h.moduleCache.concat next
  moduleComments := h.moduleComments.concat next
  rejectCycles := h.rejectCycles.concat next

theorem Layered.overlaid (h : Layered overlays settings) (more : List Overlay) :
    Layered (overlays ++ more) (settings.overlaid more) := by
  induction more generalizing overlays settings with
  | nil =>
    rw [List.append_nil]
    exact h
  | cons next more ih =>
    have laid := ih (h.over next)
    rw [List.append_assoc] at laid
    exact laid

/-! ## Extensions -/

/-- Extensions that can complete names: there is one, and all begin with a point. -/
structure Completing (extensions : List String) : Prop where
  ne_nil : extensions ≠ []
  pointed : ∀ ext ∈ extensions, ext.toList.head? = some '.'

/-- An overlay that sets no other extensions than those that can complete names. -/
def Overlay.Completes (overlay : Overlay) : Prop :=
  ∀ extensions, overlay.extensions = some extensions → Completing extensions

theorem head?_normalizeExtension (ext : String) :
    (normalizeExtension ext).toList.head? = some '.' := by
  unfold normalizeExtension
  split
  · rename_i pointed
    exact beq_iff_eq.mp pointed
  · simp

theorem completing_map {α : Type} {names : List α} (text : α → String) (h : names ≠ []) :
    Completing (names.map fun name => normalizeExtension (text name)) where
  ne_nil := by simpa using h
  pointed := by
    intro ext mem
    obtain ⟨name, -, rfl⟩ := List.mem_map.mp mem
    exact head?_normalizeExtension (text name)

/-- If no layer sets other extensions, those that are set last can complete names. -/
theorem Layered.completing (h : Layered overlays settings)
    (all : ∀ overlay ∈ overlays, overlay.Completes) : Completing settings.extensions := by
  obtain ⟨before, overlay, after, rfl, set, -⟩ := h.extensions
  have mem : overlay ∈ before ++ overlay :: after := by simp
  exact all overlay mem settings.extensions set

/-! ## Reading variables -/

section Reading

variable {environment : Environment} {name value : String}

/-- The first entry of a name holds the value of the variable. -/
theorem valueOf?_eq_some_iff :
    valueOf? environment name = some value ↔
      ∃ before after, environment = before ++ (name, value) :: after ∧
        ∀ entry ∈ before, entry.1 ≠ name := by
  unfold valueOf?
  rw [Option.map_eq_some_iff]
  constructor
  · rintro ⟨⟨found, _⟩, isFirst, rfl⟩
    obtain ⟨named, before, after, rfl, others⟩ := List.find?_eq_some_iff_append.mp isFirst
    obtain rfl : found = name := beq_iff_eq.mp named
    exact ⟨before, after, rfl, fun entry mem => by simpa using others entry mem⟩
  · rintro ⟨before, after, rfl, others⟩
    refine ⟨(name, value), List.find?_eq_some_iff_append.mpr ⟨beq_self_eq_true name, ?_⟩, rfl⟩
    exact ⟨before, after, rfl, fun entry mem => by simpa using others entry mem⟩

/-- Trimming takes away blanks, and none is left at either end. -/
theorem exists_trimmedChars (text : List Char) :
    ∃ before after, text = before ++ Text.trimmedChars text ++ after ∧
      (∀ c ∈ before ++ after, Text.isBlank c = true) ∧
      (∀ c ∈ (Text.trimmedChars text).head?, Text.isBlank c = false) ∧
      ∀ c ∈ (Text.trimmedChars text).getLast?, Text.isBlank c = false := by
  let rest := text.dropWhile Text.isBlank
  let after := (rest.reverse.takeWhile Text.isBlank).reverse
  have isText : text.takeWhile Text.isBlank ++ rest = text := List.takeWhile_append_dropWhile
  have isRest : Text.trimmedChars text ++ after = rest := by
    rw [Text.trimmedChars, Text.trimmedEnd, ← List.reverse_append, List.takeWhile_append_dropWhile,
      List.reverse_reverse]
  refine ⟨text.takeWhile Text.isBlank, after, ?_, ?_, ?_, ?_⟩
  · rw [List.append_assoc, isRest, isText]
  · intro c mem
    rcases List.mem_append.mp mem with isBefore | isAfter
    · exact List.all_eq_true.mp List.all_takeWhile c isBefore
    · exact List.all_eq_true.mp List.all_takeWhile c (List.mem_reverse.mp isAfter)
  · intro c isFirst
    have first : rest.head? = some c := by
      rw [← isRest, List.head?_append, isFirst, Option.some_or]
    have solid := List.head?_dropWhile_not Text.isBlank text
    rw [first] at solid
    exact solid
  · intro c isLast
    have solid := List.head?_dropWhile_not Text.isBlank rest.reverse
    rw [Text.trimmedChars, Text.trimmedEnd, List.getLast?_reverse] at isLast
    rw [isLast] at solid
    exact solid

theorem commaPieces_eq_splitOn (text : List Char) : commaPieces text = text.splitOn ',' := by
  induction text with
  | nil => rfl
  | cons c rest ih =>
    rw [commaPieces, List.splitOn, List.splitOnP_cons_eq_if_modifyHead, ← List.splitOn, ih]
    by_cases comma : c = ','
    · simp [comma]
    · cases pieces : rest.splitOn ',' with
      | nil => exact absurd pieces (List.splitOn_ne_nil ',' rest)
      | cons first others => simp [comma]

/-- Names between commas are listed in their order, without the blanks around them and with the
points that they lack, except those that are blank. -/
theorem listedExtensions_intercalate {names : List String} (nonempty : names ≠ [])
    (plain : ∀ name ∈ names, ',' ∉ name.toList) :
    listedExtensions (",".intercalate names) =
      ((names.map Text.trimmed).filter (· ≠ "")).map normalizeExtension := by
  have pieces : commaPieces (",".intercalate names).toList = names.map String.toList := by
    rw [commaPieces_eq_splitOn, String.toList_intercalate]
    refine List.splitOn_intercalate ',' ?_ (by simpa using nonempty)
    intro piece mem
    obtain ⟨name, isName, rfl⟩ := List.mem_map.mp mem
    exact plain name isName
  have kept (name : String) :
      (!(Text.trimmedChars name.toList).isEmpty) = decide (Text.trimmed name ≠ "") := by
    rw [Text.trimmed]
    cases Text.trimmedChars name.toList <;> simp [← String.toList_inj]
  unfold listedExtensions
  dsimp only
  rw [pieces, List.map_map, List.filter_map, List.map_map, List.filter_map, List.map_map]
  simp only [Function.comp_def, kept]
  rfl

/-- The words for a truth value. -/
def flagWords : Bool → List String
  | true => ["1", "true", "yes", "on"]
  | false => ["0", "false", "no", "off"]

theorem flag?_eq_some_iff {text : String} {flag : Bool} :
    flag? text = some flag ↔ text ∈ flagWords flag := by
  have apart : ∀ word ∈ flagWords true, word ∉ flagWords false := by decide
  change (if (flagWords true).contains text then some true
    else if (flagWords false).contains text then some false else none) = some flag ↔ _
  simp only [List.contains_iff_mem]
  by_cases yes : text ∈ flagWords true
  · cases flag <;> simp [yes, apart text yes]
  · cases flag <;> simp [yes]

theorem flag?_eq_none_iff {text : String} :
    flag? text = none ↔ ∀ flag, text ∉ flagWords flag := by
  simp [Option.eq_none_iff_forall_ne_some, flag?_eq_some_iff]

/-- A variable says that something holds, or that it does not, by one of the words for that. -/
theorem variableFlag_eq_ok_some_iff {flag : Bool} :
    variableFlag environment name = .ok (some flag) ↔
      ∃ value, valueOf? environment name = some value ∧ flagText value ∈ flagWords flag := by
  unfold variableFlag
  cases valueOf? environment name with
  | none => simp
  | some value =>
    simp only [Option.some.injEq, exists_eq_left', ← flag?_eq_some_iff]
    cases flag? (flagText value) <;> simp

/-- A variable that is set to anything but one of these words cannot be used. -/
theorem variableFlag_eq_error_iff {error : SettingsError} :
    variableFlag environment name = .error error ↔
      ∃ value, valueOf? environment name = some value ∧
        (∀ flag, flagText value ∉ flagWords flag) ∧ error = .invalidFlag (flagText value) name := by
  unfold variableFlag
  cases valueOf? environment name with
  | none => simp
  | some value =>
    simp only [Option.some.injEq, exists_eq_left', ← flag?_eq_none_iff]
    cases flag? (flagText value) <;> simp [eq_comm]

end Reading

/-! ## Files and variables -/

/-- What a file sets, with its extensions as they are used. -/
def fileLayer (tree : FileTree) (path : Path) : Layer :=
  match fileText? tree path with
  | none => .error (.unreadable path)
  | some text =>
    match Overlay.read? text with
    | none => .error (.malformed path)
    | some overlay =>
      if overlay.extensions = some [] then .error (.noExtensions path)
      else .ok { overlay with extensions := overlay.extensions.map (·.map normalizeExtension) }

/-- What the variable of the extensions sets. -/
def extensionsLayer (environment : Environment) : Layer :=
  match valueOf? environment "MINIPACK_EXTENSIONS" with
  | none => .ok .empty
  | some value =>
    if listedExtensions value = [] then .error (.noExtensionsIn "MINIPACK_EXTENSIONS")
    else .ok { Overlay.empty with extensions := some (listedExtensions value) }

/-- What the variable of a truth value sets. -/
def flagLayer (environment : Environment) (name : String) (overlay : Option Bool → Overlay) :
    Layer :=
  (variableFlag environment name).map overlay

/-- What the variables of truth values set. -/
def flagLayers (environment : Environment) : List Layer :=
  [ flagLayer environment "MINIPACK_INDEX_FILES"
      fun value => { Overlay.empty with indexFiles := value },
    flagLayer environment "MINIPACK_MODULE_CACHE"
      fun value => { Overlay.empty with moduleCache := value },
    flagLayer environment "MINIPACK_MODULE_COMMENTS"
      fun value => { Overlay.empty with moduleComments := value },
    flagLayer environment "MINIPACK_REJECT_CYCLES"
      fun value => { Overlay.empty with rejectCycles := value } ]

/-- What the variables set, each of them one setting. -/
def variableLayers (environment : Environment) : List Layer :=
  extensionsLayer environment :: flagLayers environment

variable {tree : FileTree} {path : Path} {environment : Environment} {overlay : Overlay}

theorem completes_of_fileLayer (h : fileLayer tree path = .ok overlay) : overlay.Completes := by
  unfold fileLayer at h
  split at h
  · exact absurd h nofun
  · split at h
    · exact absurd h nofun
    · rename_i given _
      split at h
      · exact absurd h nofun
      · rename_i nonempty
        obtain rfl := Except.ok.inj h
        intro extensions set
        obtain ⟨listed, isListed, rfl⟩ := Option.map_eq_some_iff.mp set
        refine completing_map id fun none => nonempty ?_
        rw [isListed, none]

theorem completing_listedExtensions {value : String} (h : listedExtensions value ≠ []) :
    Completing (listedExtensions value) := by
  refine completing_map String.ofList fun none => h ?_
  rw [listedExtensions, none]
  rfl

theorem completes_of_extensionsLayer (h : extensionsLayer environment = .ok overlay) :
    overlay.Completes := by
  unfold extensionsLayer at h
  split at h
  · obtain rfl := Except.ok.inj h
    exact nofun
  · split at h
    · exact absurd h nofun
    · rename_i nonempty
      obtain rfl := Except.ok.inj h
      rintro _ ⟨rfl⟩
      exact completing_listedExtensions nonempty

theorem extensions_of_flagLayer {name : String} {field : Option Bool → Overlay}
    (unset : ∀ value, (field value).extensions = none)
    (h : flagLayer environment name field = .ok overlay) : overlay.extensions = none := by
  unfold flagLayer at h
  cases flag : variableFlag environment name with
  | error error =>
    rw [flag] at h
    exact absurd h nofun
  | ok value =>
    rw [flag] at h
    obtain rfl := Except.ok.inj h
    exact unset value

theorem extensions_of_mem_flagLayers (h : .ok overlay ∈ flagLayers environment) :
    overlay.extensions = none := by
  simp only [flagLayers, List.mem_cons, List.not_mem_nil, or_false] at h
  rcases h with isFlag | isFlag | isFlag | isFlag
  all_goals exact extensions_of_flagLayer (fun _ => rfl) isFlag.symm

theorem completes_of_mem_variableLayers (h : .ok overlay ∈ variableLayers environment) :
    overlay.Completes := by
  rcases List.mem_cons.mp h with isFirst | isFlag
  · exact completes_of_extensionsLayer isFirst.symm
  · intro extensions set
    rw [extensions_of_mem_flagLayers isFlag] at set
    exact absurd set nofun

/-! ## Changes as runs of layers -/

/-- The errors of a layer that leaves no extension. -/
inductive LacksExtensions : SettingsError → Prop
  | file (path : Path) : LacksExtensions (.noExtensions path)
  | environment (name : String) : LacksExtensions (.noExtensionsIn name)

/-- A change comes to what is expected of it.  Only if it fails because no extension is left, the
extensions may be others. -/
structure Alike (change expected : Change) : Prop where
  result : change.1 = expected.1
  others : change.2 = { expected.2 with extensions := change.2.extensions }
  settings : (∀ error, change.1 = .error error → ¬ LacksExtensions error) →
    change.2 = expected.2

theorem Alike.refl (change : Change) : Alike change change where
  result := rfl
  others := rfl
  settings _ := rfl

variable {change expected : Change}

theorem Alike.eq_of_ok (h : Alike change expected) (succeeded : expected.1 = .ok ()) :
    change = expected := by
  refine Prod.ext h.result (h.settings fun error failed => ?_)
  rw [h.result, succeeded] at failed
  exact absurd failed nofun

/-- Alike changes stay alike under more layers. -/
theorem Alike.foldl_lay (h : Alike change expected) (layers : List Layer) :
    Alike (layers.foldl lay change) (layers.foldl lay expected) := by
  rcases isResult : expected.1 with error | ⟨⟩
  · have isChange : change = (.error error, change.2) := Prod.ext (h.result.trans isResult) rfl
    have isExpected : expected = (.error error, expected.2) := Prod.ext isResult rfl
    rw [isChange, isExpected, foldl_lay_error, foldl_lay_error, ← isChange, ← isExpected]
    exact h
  · rw [h.eq_of_ok isResult]
    exact .refl _

/-- To merge a file is to lay what it sets. -/
theorem mergeFile_alike (tree : FileTree) (settings : Settings) (path : Path) :
    Alike (mergeFile tree settings path) (layAll settings [fileLayer tree path]) := by
  unfold mergeFile fileLayer
  cases fileText? tree path with
  | none => exact .refl _
  | some text =>
    dsimp only
    cases Overlay.read? text with
    | none => exact .refl _
    | some overlay =>
      obtain ⟨extensions, indexFiles, moduleCache, moduleComments, rejectCycles⟩ := overlay
      match extensions with
      | none => exact .refl _
      | some (_ :: _) => exact .refl _
      | some [] =>
        exact ⟨rfl, rfl, fun other => absurd (.file path) (other _ rfl)⟩

theorem applyExtensions_alike (environment : Environment) (settings : Settings) :
    Alike (applyExtensions environment settings)
      (layAll settings [extensionsLayer environment]) := by
  unfold applyExtensions extensionsLayer
  cases valueOf? environment "MINIPACK_EXTENSIONS" with
  | none => exact .refl _
  | some value =>
    dsimp only
    cases listedExtensions value with
    | nil => exact ⟨rfl, rfl, fun other => absurd (.environment _) (other _ rfl)⟩
    | cons first others => exact .refl _

/-- A variable sets what it says, unless something has failed before. -/
theorem applyFlag_eq_lay {name : String} {set : Settings → Bool → Settings}
    {field : Option Bool → Overlay} {laid : Change}
    (unset : ∀ settings, (field none).over settings = settings)
    (sets : ∀ settings value, (field (some value)).over settings = set settings value)
    (before : change = laid) :
    applyFlag environment name set change = lay laid (flagLayer environment name field) := by
  obtain ⟨error | ⟨⟩, settings⟩ := change
  · rw [← before]
    rfl
  · rw [← before]
    unfold applyFlag flagLayer
    dsimp only
    cases variableFlag environment name with
    | error error => rfl
    | ok value =>
      cases value with
      | none => exact (congrArg (Prod.mk _) (unset settings)).symm
      | some value => exact (congrArg (Prod.mk _) (sets settings value)).symm

theorem applyEnvironment_eq (environment : Environment) (settings : Settings) :
    applyEnvironment environment settings =
      (flagLayers environment).foldl lay (applyExtensions environment settings) := by
  unfold applyEnvironment flagLayers
  dsimp only [List.foldl_cons, List.foldl_nil]
  -- the last variable stands outermost
  refine applyFlag_eq_lay (fun _ => rfl) (fun _ _ => rfl) ?_
  refine applyFlag_eq_lay (fun _ => rfl) (fun _ _ => rfl) ?_
  refine applyFlag_eq_lay (fun _ => rfl) (fun _ _ => rfl) ?_
  exact applyFlag_eq_lay (fun _ => rfl) (fun _ _ => rfl) rfl

/-- To apply the variables is to lay what they set, one after another. -/
theorem applyEnvironment_alike (environment : Environment) (settings : Settings) :
    Alike (applyEnvironment environment settings)
      (layAll settings (variableLayers environment)) := by
  rw [applyEnvironment_eq]
  exact (applyExtensions_alike environment settings).foldl_lay (flagLayers environment)

end ModuleBundler.Settings
