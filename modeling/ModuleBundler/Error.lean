/-
# ModuleBundler.Error — why no bundle can be built.

Every error says what is wrong in terms of the project: which specifier, which file, which line,
which modules.  The wording of all of them is in `BuildError.message`.
-/
import ModuleBundler.Path
import ModuleBundler.Script.Token

namespace ModuleBundler

/-- Why a specifier names no file. -/
inductive ResolutionFault
  /-- none of the candidates is a file -/
  | noSuchFile (tried : List Path)
  /-- the candidate that is a file has no path without links that is short enough -/
  | noCanonicalPath (candidate : Path)
  | other (reason : String)
  deriving DecidableEq, Repr

/-- Why a module cannot be compiled. -/
inductive ParseFault
  | script (fault : Script.SyntaxFault)
  | repeatedExport (name : String)
  | other (reason : String)
  deriving DecidableEq, Repr

/-- What is wrong with a graph. -/
inductive GraphFault
  /-- a module stands at another position than its identity says -/
  | misplaced (id position : Nat)
  | unresolved (specifier : String) (path : Path)
  /-- a specifier leads to an identity that no module has -/
  | unknownTarget (specifier : String) (path : Path) (target : Nat)
  /-- an identity waits for its specifiers to be resolved, but no module has it -/
  | unregistered (id : Nat)
  | other (reason : String)
  deriving DecidableEq, Repr

/-- Why a file cannot be read. -/
inductive ReadFault
  | invalidText
  | other (reason : String)
  deriving DecidableEq, Repr

/-- Why no bundle can be built. -/
inductive BuildError
  | resolution (specifier : String) (importer : Option Path) (fault : ResolutionFault)
  | parse (path : Path) (line : Nat) (fault : ParseFault)
  /-- modules that import each other in a circle -/
  | cycle (chain : List Path)
  | invalidGraph (fault : GraphFault)
  | io (path : Path) (fault : ReadFault)
  deriving DecidableEq, Repr

/-- The wording of a failed resolution. -/
def ResolutionFault.message : ResolutionFault → String
  | noSuchFile tried => "no such file (tried " ++ ", ".intercalate (tried.map (·.text)) ++ ")"
  | noCanonicalPath candidate =>
    "cannot canonicalize " ++ candidate.text ++ ": File name too long (os error 36)"
  | other reason => reason

/-- The wording of a failed compilation, without the place. -/
def ParseFault.message : ParseFault → String
  | script fault => fault.message
  | repeatedExport name => "duplicate export '" ++ name ++ "'"
  | other reason => reason

/-- The wording of an inconsistency. -/
def GraphFault.message : GraphFault → String
  | misplaced id position =>
    "module " ++ toString id ++ " is stored at position " ++ toString position ++
      "; identities must be dense"
  | unresolved specifier path =>
    "specifier '" ++ specifier ++ "' in " ++ path.text ++ " has no resolved identity"
  | unknownTarget specifier path target =>
    "specifier '" ++ specifier ++ "' in " ++ path.text ++ " points at unknown module " ++
      toString target
  | unregistered id => "module " ++ toString id ++ " was queued but never registered"
  | other reason => reason

/-- The wording of a failed reading, without the path. -/
def ReadFault.message : ReadFault → String
  | invalidText => "stream did not contain valid UTF-8"
  | other reason => reason

/-- Paths as a chain. -/
def chainText (chain : List Path) : String :=
  " -> ".intercalate (chain.map (·.text))

/-- The wording of an error. -/
def BuildError.message : BuildError → String
  | resolution specifier importer fault =>
    let importedFrom := match importer with
      | some path => " imported from " ++ path.text
      | none => ""
    "cannot resolve '" ++ specifier ++ "'" ++ importedFrom ++ ": " ++ fault.message
  | parse path line fault =>
    "failed to parse " ++ path.text ++ ":" ++ toString line ++ ": " ++ fault.message
  | cycle chain => "circular dependency detected: " ++ chainText chain
  | invalidGraph fault => "inconsistent module graph: " ++ fault.message
  | io path fault => "failed to read " ++ path.text ++ ": " ++ fault.message

end ModuleBundler
