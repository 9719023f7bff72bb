/-
# ModuleBundler.Registry — the text of a bundle.

A bundle is a function that links modules, applied to a registry: for every identity the factory of
the module and where its specifiers lead.  The linking function either runs a factory once and keeps
its exports, or runs it again for every call.
-/
import ModuleBundler.Graph.Basic

namespace ModuleBundler

/-- How modules are linked when the bundle runs, and whether their files are named. -/
structure RuntimeOptions where
  /-- run each factory at most once -/
  moduleCache : Bool
  /-- name the file of each module in a comment -/
  moduleComments : Bool
  deriving DecidableEq, Repr

namespace Registry

/-- The part of a linking function that looks a module up and names its imports. -/
def linkLines : List String :=
  [ "    var fn = modules[id][0];",
    "    var mapping = modules[id][1];",
    "",
    "    function localRequire(name) \x7b",
    "      if (!Object.prototype.hasOwnProperty.call(mapping, name)) \x7b",
    "        throw new Error(\"Cannot find module '\" + name + \"'\");",
    "      \x7d",
    "      return require(mapping[name]);",
    "    \x7d",
    "",
    "    var module = \x7b exports: \x7b\x7d \x7d;" ]

/-- The part of a linking function that runs a factory. -/
def runLines : List String :=
  [ "",
    "    fn(localRequire, module, module.exports);",
    "",
    "    return module.exports;",
    "  \x7d",
    "",
    "  require(0);",
    "\x7d)" ]

/-- The linking function that runs a factory for every call. -/
def reinvokingRuntime : String :=
  "\n".intercalate
    (["(function (modules) \x7b", "  function require(id) \x7b"] ++ linkLines ++ runLines)

/-- The linking function that keeps a module before its factory runs, so that a module that is
required again meanwhile shows what it has exported so far. -/
def cachingRuntime : String :=
  "\n".intercalate
    ([ "(function (modules) \x7b",
       "  var cache = \x7b\x7d;",
       "",
       "  function require(id) \x7b",
       "    if (Object.prototype.hasOwnProperty.call(cache, id)) \x7b",
       "      return cache[id].exports;",
       "    \x7d",
       "" ] ++
      linkLines ++ ["    cache[id] = module;"] ++ runLines)

/-- The linking function for some options. -/
def runtime (options : RuntimeOptions) : String :=
  if options.moduleCache then cachingRuntime else reinvokingRuntime

/-- A text in which nothing closes a comment. -/
def commentSafe : List Char → List Char
  | [] => []
  | '*' :: '/' :: rest => '*' :: '\\' :: '/' :: commentSafe rest
  | c :: rest => c :: commentSafe rest

/-- The comment that names the file of a module, relative to the directory of the first module
where it lies there. -/
def comment (base : Option Path) (record : ModuleRecord) : String :=
  let shown := (base.bind record.path.relativeTo?).getD record.path
  "/* " ++ String.ofList (commentSafe shown.text.toList) ++ " */\n"

/-- Where the specifiers of a module lead, as an object. -/
def mapping (record : ModuleRecord) : String :=
  let fields := record.mapping.map fun entry => Text.quoted entry.1 ++ ": " ++ toString entry.2
  "\x7b" ++ ", ".intercalate fields ++ "\x7d"

/-- The identity of a module with its factory and mapping. -/
def factory (record : ModuleRecord) : String :=
  toString record.id ++ ": [function (require, module, exports) \x7b\n" ++ record.code ++ "\n\x7d, " ++
    mapping record ++ "]"

/-- A module in the registry. -/
def entry (options : RuntimeOptions) (base : Option Path) (record : ModuleRecord) : String :=
  if options.moduleComments then comment base record ++ factory record else factory record

/-- All modules of a graph. -/
def text (options : RuntimeOptions) (graph : ModuleGraph) : String :=
  let base := graph.entryModule?.bind fun record => record.path.parent?
  "\x7b\n" ++ ",\n".intercalate (graph.modules.map (entry options base)) ++ "\n\x7d"

end Registry

/-- The bundle of a graph. -/
def ModuleGraph.bundle (graph : ModuleGraph) (options : RuntimeOptions) : String :=
  Registry.runtime options ++ "(" ++ Registry.text options graph ++ ");\n"

end ModuleBundler
