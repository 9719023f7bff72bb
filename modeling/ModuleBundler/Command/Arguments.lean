/-
# ModuleBundler.Command.Arguments — what the arguments of a command ask for.

Options have a long name behind two dashes and some a short one behind one dash.  A value stands
behind an equals sign or in the next argument; behind a short name it may follow directly, and
short names without values may share a dash.  An option stands at most once, but for those that are
counted or listed.
-/
import ModuleBundler.Settings.Basic

namespace ModuleBundler.Command

/-- What a command is to do. -/
structure Options where
  entry : Option Path
  output : Option Path
  config : Option Path
  emitGraph : Option Path
  noModuleCache : Bool
  noModuleComments : Bool
  rejectCycles : Bool
  indexFiles : Bool
  extensions : List String
  verbosity : Nat
  deriving DecidableEq, Repr

/-- The options of a command without arguments. -/
def Options.none : Options :=
  { entry := .none, output := .none, config := .none, emitGraph := .none
    noModuleCache := false, noModuleComments := false, rejectCycles := false, indexFiles := false
    extensions := [], verbosity := 0 }

/-- What the arguments ask for. -/
inductive Request
  | run (entry : Path) (options : Options)
  | help
  | version
  /-- the arguments make no sense -/
  | misuse
  deriving DecidableEq, Repr

/-- The options that take a value. -/
inductive ValueOption
  | entry
  | output
  | config
  | emitGraph
  | extension
  deriving DecidableEq, Repr

/-- The options without a value. -/
inductive FlagOption
  | noModuleCache
  | noModuleComments
  | rejectCycles
  | indexFiles
  | verbose
  | help
  | version
  deriving DecidableEq, Repr

/-- An option by its name. -/
inductive OptionName
  | value (option : ValueOption)
  | flag (option : FlagOption)
  deriving DecidableEq, Repr

/-- The option of a long name. -/
def longName? (name : String) : Option OptionName :=
  match name with
  | "entry" => some (.value .entry)
  | "output" => some (.value .output)
  | "config" => some (.value .config)
  | "emit-graph" => some (.value .emitGraph)
  | "extension" => some (.value .extension)
  | "no-module-cache" => some (.flag .noModuleCache)
  | "no-module-comments" => some (.flag .noModuleComments)
  | "reject-cycles" => some (.flag .rejectCycles)
  | "index-files" => some (.flag .indexFiles)
  | "verbose" => some (.flag .verbose)
  | "help" => some (.flag .help)
  | "version" => some (.flag .version)
  | _ => .none

/-- The option of a short name. -/
def shortName? (name : Char) : Option OptionName :=
  if name = 'e' then some (.value .entry)
  else if name = 'o' then some (.value .output)
  else if name = 'c' then some (.value .config)
  else if name = 'v' then some (.flag .verbose)
  else if name = 'h' then some (.flag .help)
  else if name = 'V' then some (.flag .version)
  else .none

/-- What comes of an option: the command goes on with other options, or it is settled. -/
inductive Progress
  | options (options : Options)
  | settled (request : Request)
  deriving DecidableEq, Repr

/-- Sets a path that is not set yet and not empty. -/
def setPath (current : Option Path) (value : String) (set : Path → Options) : Progress :=
  if current.isSome || value.isEmpty then .settled .misuse else .options (set ⟨value⟩)

/-- Takes the value of an option. -/
def setValue (options : Options) (option : ValueOption) (value : String) : Progress :=
  match option with
  | .entry => setPath options.entry value fun path => { options with entry := some path }
  | .output => setPath options.output value fun path => { options with output := some path }
  | .config => setPath options.config value fun path => { options with config := some path }
  | .emitGraph => setPath options.emitGraph value fun path => { options with emitGraph := some path }
  | .extension => .options { options with extensions := options.extensions ++ [value] }

/-- Sets a flag that is not set yet. -/
def setOnce (current : Bool) (options : Options) : Progress :=
  if current then .settled .misuse else .options options

/-- Takes an option without a value. -/
def setFlag (options : Options) : FlagOption → Progress
  | .noModuleCache => setOnce options.noModuleCache { options with noModuleCache := true }
  | .noModuleComments => setOnce options.noModuleComments { options with noModuleComments := true }
  | .rejectCycles => setOnce options.rejectCycles { options with rejectCycles := true }
  | .indexFiles => setOnce options.indexFiles { options with indexFiles := true }
  | .verbose => .options { options with verbosity := options.verbosity + 1 }
  | .help => .settled .help
  | .version => .settled .version

/-- Whether an argument can be the value of the option before it: one that begins with a dash looks
like an option. -/
def isValue (argument : String) : Bool :=
  argument.toList.head? != some '-' || argument == "-"

/-- What the short names behind one dash come to: progress, or an option whose value is to be the
next argument. -/
def shortNames (options : Options) : List Char → Progress × Option ValueOption
  | [] => (.options options, .none)
  | name :: rest =>
    match shortName? name with
    | .none => (.settled .misuse, .none)
    | some (.flag flag) =>
      match setFlag options flag with
      | .settled request => (.settled request, .none)
      | .options options => shortNames options rest
    | some (.value option) =>
      if rest.isEmpty then (.options options, some option)
      else
        let value := if rest.head? = some '=' then rest.drop 1 else rest
        (setValue options option (String.ofList value), .none)

/-- What a long name and a value behind it come to. -/
def longName (options : Options) (text : List Char) : Progress × Option ValueOption :=
  let name := text.takeWhile (· != '=')
  let value := if name.length < text.length then some (text.drop (name.length + 1)) else .none
  match longName? (String.ofList name), value with
  | .none, _ => (.settled .misuse, .none)
  | some (.flag _), some _ => (.settled .misuse, .none)
  | some (.flag flag), .none => (setFlag options flag, .none)
  | some (.value option), some value => (setValue options option (String.ofList value), .none)
  | some (.value option), .none => (.options options, some option)

/-- What one argument comes to; there are no arguments without a dash. -/
def argument (options : Options) (text : String) : Progress × Option ValueOption :=
  match text.toList with
  | '-' :: '-' :: name => longName options name
  | '-' :: name :: names => shortNames options (name :: names)
  | _ => (.settled .misuse, .none)

/-- What the arguments ask for, behind those that have been read; `pending` is an option whose
value comes next. -/
def readFrom (options : Options) (pending : Option ValueOption) : List String → Request
  | [] =>
    match pending, options.entry with
    | some _, _ => .misuse
    | .none, .none => .misuse
    | .none, some entry => .run entry options
  | text :: rest =>
    match pending with
    | some option =>
      if isValue text then
        match setValue options option text with
        | .settled request => request
        | .options options => readFrom options .none rest
      else .misuse
    | .none =>
      if text == "--" then
        match rest, options.entry with
        | [], some entry => .run entry options
        | _, _ => .misuse
      else
        match argument options text with
        | (.settled request, _) => request
        | (.options options, pending) => readFrom options pending rest

/-- What the arguments ask for. -/
def read (arguments : List String) : Request :=
  readFrom .none .none arguments

/-- Lays options over settings. -/
def Options.apply (options : Options) (settings : Settings) : Settings :=
  { extensions := if options.extensions.isEmpty then settings.extensions
      else options.extensions.map Settings.normalizeExtension
    indexFiles := settings.indexFiles || options.indexFiles
    moduleCache := settings.moduleCache && !options.noModuleCache
    moduleComments := settings.moduleComments && !options.noModuleComments
    rejectCycles := settings.rejectCycles || options.rejectCycles }

end ModuleBundler.Command
