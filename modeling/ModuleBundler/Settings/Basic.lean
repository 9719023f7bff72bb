/-
# ModuleBundler.Settings.Basic — what a project can set.

Settings are layered: files, environment variables and options each set some of them and leave the
others.  An overlay is what one file sets.  Extensions begin with a point however they are given,
and at least one has to be left, since otherwise no name without an extension could be completed.
-/
import ModuleBundler.FileTree
import ModuleBundler.Registry
import ModuleBundler.Resolver
import ModuleBundler.Settings.Document
import ModuleBundler.Text.Blank

namespace ModuleBundler

/-- What a project can set. -/
structure Settings where
  extensions : List String
  indexFiles : Bool
  moduleCache : Bool
  moduleComments : Bool
  /-- refuse modules that import each other -/
  rejectCycles : Bool
  deriving DecidableEq, Repr

/-- Why settings cannot be loaded. -/
inductive SettingsError
  | unreadable (path : Path)
  | malformed (path : Path)
  /-- a file leaves no extension -/
  | noExtensions (path : Path)
  /-- a variable leaves no extension -/
  | noExtensionsIn (name : String)
  | invalidFlag (value name : String)
  deriving DecidableEq, Repr

/-- The wording of an error. -/
def SettingsError.message : SettingsError → String
  | unreadable path => "Failed to read config file " ++ path.text
  | malformed path => "Failed to parse config file " ++ path.text
  | noExtensions path =>
    "Invalid config file " ++ path.text ++ ": `extensions` must list at least one extension"
  | noExtensionsIn name => name ++ " must list at least one extension"
  | invalidFlag value name => "Invalid boolean value '" ++ value ++ "' for " ++ name

namespace Settings

/-- What holds where nothing is set. -/
def standard : Settings :=
  { extensions := [".js"], indexFiles := false, moduleCache := true, moduleComments := true
    rejectCycles := false }

/-- How specifiers are completed. -/
def extensionPolicy (settings : Settings) : ExtensionPolicy :=
  ⟨settings.extensions, settings.indexFiles⟩

/-- How modules are linked. -/
def runtimeOptions (settings : Settings) : RuntimeOptions :=
  ⟨settings.moduleCache, settings.moduleComments⟩

/-- An extension with the point that it begins with. -/
def normalizeExtension (ext : String) : String :=
  if ext.toList.head? == some '.' then ext else "." ++ ext

/-- What comes of setting something: an error, if there is one, and the settings then. -/
abbrev Change := Except SettingsError Unit × Settings

/-! ## Files -/

/-- What a file sets. -/
structure Overlay where
  extensions : Option (List String)
  indexFiles : Option Bool
  moduleCache : Option Bool
  moduleComments : Option Bool
  rejectCycles : Option Bool
  deriving DecidableEq, Repr

/-- An overlay that sets nothing. -/
def Overlay.empty : Overlay :=
  ⟨none, none, none, none, none⟩

/-- Adds a line of a file; `none` where the key is unknown or set already, or the value does not
fit it. -/
def Overlay.add? (overlay : Overlay) : String × Value → Option Overlay
  | ("extensions", .texts values) =>
    if overlay.extensions.isSome then none else some { overlay with extensions := some values }
  | ("index-files", .flag value) =>
    if overlay.indexFiles.isSome then none else some { overlay with indexFiles := some value }
  | ("module-cache", .flag value) =>
    if overlay.moduleCache.isSome then none else some { overlay with moduleCache := some value }
  | ("module-comments", .flag value) =>
    if overlay.moduleComments.isSome then none
    else some { overlay with moduleComments := some value }
  | ("reject-cycles", .flag value) =>
    if overlay.rejectCycles.isSome then none else some { overlay with rejectCycles := some value }
  | _ => none

/-- What the text of a file sets. -/
def Overlay.read? (text : String) : Option Overlay := do
  let lines ← Document.read? text
  lines.foldlM Overlay.add? .empty

/-- Lays what a file sets over settings.  An empty list of extensions is an error, but it is set
nevertheless, and what comes after it is not. -/
def apply (settings : Settings) (path : Path) (overlay : Overlay) : Change :=
  let settings :=
    { settings with
      extensions := (overlay.extensions.map (·.map normalizeExtension)).getD settings.extensions }
  if overlay.extensions.isSome && settings.extensions.isEmpty then
    (.error (.noExtensions path), settings)
  else
    (.ok (),
      { settings with
        indexFiles := overlay.indexFiles.getD settings.indexFiles
        moduleCache := overlay.moduleCache.getD settings.moduleCache
        moduleComments := overlay.moduleComments.getD settings.moduleComments
        rejectCycles := overlay.rejectCycles.getD settings.rejectCycles })

/-- The text of a file, if there is one and it is well formed. -/
def fileText? (tree : FileTree) (path : Path) : Option String :=
  match tree.find? path with
  | some (.file content) => String.fromUTF8? content
  | _ => none

/-- Lays a file over settings. -/
def mergeFile (tree : FileTree) (settings : Settings) (path : Path) : Change :=
  match fileText? tree path with
  | none => (.error (.unreadable path), settings)
  | some text =>
    match Overlay.read? text with
    | none => (.error (.malformed path), settings)
    | some overlay => settings.apply path overlay

/-! ## Environment variables -/

/-- The variables that are set. -/
abbrev Environment := List (String × String)

/-- The value of a variable. -/
def valueOf? (environment : Environment) (name : String) : Option String :=
  (environment.find? fun entry => entry.1 == name).map (·.2)

/-- Pieces of a text between commas. -/
def commaPieces : List Char → List (List Char)
  | [] => [[]]
  | c :: rest =>
    if c = ',' then [] :: commaPieces rest
    else
      match commaPieces rest with
      | [] => [[c]]
      | first :: others => (c :: first) :: others

/-- The extensions in a list between commas; blanks around them and empty ones do not count. -/
def listedExtensions (value : String) : List String :=
  let names := (commaPieces value.toList).map Text.trimmedChars
  (names.filter fun name => !name.isEmpty).map fun name => normalizeExtension (String.ofList name)

/-- A value as it is compared: without blanks around it and in lower case. -/
def flagText (value : String) : String :=
  String.ofList ((Text.trimmedChars value.toList).map Char.toLower)

/-- The truth value that a text stands for. -/
def flag? (text : String) : Option Bool :=
  if ["1", "true", "yes", "on"].contains text then some true
  else if ["0", "false", "no", "off"].contains text then some false
  else none

/-- The truth value of a variable, if it is set. -/
def variableFlag (environment : Environment) (name : String) :
    Except SettingsError (Option Bool) :=
  match valueOf? environment name with
  | none => .ok none
  | some value =>
    match flag? (flagText value) with
    | some flag => .ok (some flag)
    | none => .error (.invalidFlag (flagText value) name)

/-- Sets what a variable says, if it is set. -/
def applyFlag (environment : Environment) (name : String) (set : Settings → Bool → Settings)
    (change : Change) : Change :=
  match change with
  | (.error error, settings) => (.error error, settings)
  | (.ok (), settings) =>
    match variableFlag environment name with
    | .error error => (.error error, settings)
    | .ok none => (.ok (), settings)
    | .ok (some value) => (.ok (), set settings value)

/-- Sets the extensions that a variable lists, if it is set. -/
def applyExtensions (environment : Environment) (settings : Settings) : Change :=
  match valueOf? environment "MINIPACK_EXTENSIONS" with
  | none => (.ok (), settings)
  | some value =>
    let settings := { settings with extensions := listedExtensions value }
    if settings.extensions.isEmpty then
      (.error (.noExtensionsIn "MINIPACK_EXTENSIONS"), settings)
    else (.ok (), settings)

/-- Lays the variables over settings, one after another up to the first error. -/
def applyEnvironment (environment : Environment) (settings : Settings) : Change :=
  let change := applyExtensions environment settings
  let change := applyFlag environment "MINIPACK_INDEX_FILES"
    (fun settings value => { settings with indexFiles := value }) change
  let change := applyFlag environment "MINIPACK_MODULE_CACHE"
    (fun settings value => { settings with moduleCache := value }) change
  let change := applyFlag environment "MINIPACK_MODULE_COMMENTS"
    (fun settings value => { settings with moduleComments := value }) change
  applyFlag environment "MINIPACK_REJECT_CYCLES"
    (fun settings value => { settings with rejectCycles := value }) change

/-! ## Loading -/

/-- The name of a settings file in its directory. -/
def fileName : Path :=
  ⟨"minipack.toml"⟩

/-- Where the user keeps settings files: in the directory that a variable names by an absolute
path, or else in the home directory. -/
def userDirectory? (environment : Environment) : Option Path :=
  let named := (valueOf? environment "XDG_CONFIG_HOME").map Path.mk
  match named.filter Path.isAbsolute with
  | some directory => some directory
  | none =>
    match valueOf? environment "HOME" with
    | none => none
    | some home => if home.isEmpty then none else some (Path.join ⟨home⟩ ⟨".config"⟩)

/-- The settings file of the user. -/
def userFile? (environment : Environment) : Option Path :=
  (userDirectory? environment).map fun directory =>
    (directory.join ⟨"minipack"⟩).join fileName

/-- Lays a file over settings if it is there. -/
def mergeIfPresent (tree : FileTree) (settings : Settings) (path : Option Path) : Change :=
  match path with
  | none => (.ok (), settings)
  | some path => if tree.isFile path then mergeFile tree settings path else (.ok (), settings)

/-- Loads the settings of a project: those of the user, then those of a file that is named or, where
none is, of the project, then the variables. -/
def load (tree : FileTree) (environment : Environment) (named : Option Path) :
    Except SettingsError Settings := do
  let step (change : Change) : Except SettingsError Settings := change.1.map fun _ => change.2
  let settings ← step (mergeIfPresent tree standard (userFile? environment))
  let settings ← step (match named with
    | some path => mergeFile tree settings path
    | none => mergeIfPresent tree settings (some fileName))
  step (applyEnvironment environment settings)

end Settings

end ModuleBundler
