/-
# ModuleBundler.Command.Run — what a command does.

A command reads its arguments and the settings, bundles the project and writes what it was asked
for.  Its outcome is a value: the exit code, what it prints, its messages and the files afterwards.
-/
import ModuleBundler.Bundling
import ModuleBundler.Command.Arguments

namespace ModuleBundler.Command

open Settings (Environment)

/-- What comes of a command. -/
structure Outcome where
  exitCode : Nat
  output : String
  error : Option ProjectError
  log : List LogRecord
  tree : FileTree

/-- The name and version of the program. -/
def versionText : String :=
  "minipack 0.1.0\n"

/-- The text that explains the arguments. -/
def helpText : String :=
  "\n".intercalate
    [ "Bundle JavaScript modules into a single script",
      "",
      "Usage: minipack [OPTIONS] --entry <ENTRY>",
      "",
      "Options:",
      "  -e, --entry <ENTRY>       Entry module",
      "  -o, --output <OUTPUT>     Output bundle path; the bundle is written to stdout when omitted",
      "  -c, --config <CONFIG>     Config file to use instead of ./minipack.toml",
      "      --emit-graph <FILE>   Also write the module graph as JSON to this path",
      "      --no-module-cache     Re-run module factories on every require instead of caching " ++
        "exports",
      "      --no-module-comments  Omit the path comment above each module factory",
      "      --reject-cycles       Fail the build on any circular import",
      "      --index-files         Resolve directory imports to `<dir>/index<ext>`",
      "      --extension <EXT>     Extension to try for extensionless specifiers (repeatable, in " ++
        "order)",
      "  -v, --verbose...          Increase verbosity (-v info, -vv debug, -vvv trace)",
      "  -h, --help                Print help",
      "  -V, --version             Print version",
      "" ]

/-- The rank of the least important messages that are shown: warnings, and more for every time that
more is asked for. -/
def verbosityRank (verbosity : Nat) : Nat :=
  min (verbosity + 2) 5

/-- The rank that a word stands for. -/
def rank? (word : String) : Option Nat :=
  match word with
  | "off" => some 0
  | "error" => some 1
  | "warn" => some 2
  | "info" => some 3
  | "debug" => some 4
  | "trace" => some 5
  | _ => none

/-- The rank of the least important messages that are shown; a variable goes before the options. -/
def shownRank (environment : Environment) (verbosity : Nat) : Nat :=
  let named := (Settings.valueOf? environment "RUST_LOG").bind fun value =>
    rank? (Settings.flagText value)
  named.getD (verbosityRank verbosity)

/-- The messages that are shown. -/
def shown (environment : Environment) (options : Options) (log : List LogRecord) :
    List LogRecord :=
  log.filter fun record => record.level.rank ≤ shownRank environment options.verbosity

/-- Bundles a project as options say. -/
def bundle (tree : FileTree) (environment : Environment) (entry : Path) (options : Options) :
    Outcome :=
  match Settings.load tree environment options.config with
  | .error error => ⟨1, "", some (.settings error), [], tree⟩
  | .ok settings =>
    let run := Bundling.bundleTo tree (options.apply settings) Compiler.standard entry options.output
    match run.result with
    | .error error => ⟨1, "", some error, shown environment options run.log, run.tree⟩
    | .ok bundle =>
      let output := if options.output.isSome then "" else bundle.code
      match options.emitGraph with
      | none => ⟨0, output, none, shown environment options run.log, run.tree⟩
      | some path =>
        let wrote := Bundling.writeManifest run.tree bundle.graph path
        let log := shown environment options (run.log ++ wrote.log)
        match wrote.result with
        | .error error => ⟨1, output, some error, log, wrote.tree⟩
        | .ok () => ⟨0, output, none, log, wrote.tree⟩

/-- Runs a command. -/
def run (tree : FileTree) (environment : Environment) (arguments : List String) : Outcome :=
  match read arguments with
  | .misuse => ⟨2, "", none, [], tree⟩
  | .help => ⟨0, helpText, none, [], tree⟩
  | .version => ⟨0, versionText, none, [], tree⟩
  | .run entry options => bundle tree environment entry options

/-- An error as it is printed at the end of a command, with what has caused it. -/
def errorText : ProjectError → String
  | .build (.io path fault) =>
    "Error: " ++ (BuildError.io path fault).message ++ ": " ++ fault.message
  | error => "Error: " ++ error.message

end ModuleBundler.Command
