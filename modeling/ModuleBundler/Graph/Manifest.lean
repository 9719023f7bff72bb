/-
# ModuleBundler.Graph.Manifest — a graph as a data file.

The manifest lists all modules with everything but their code.
-/
import ModuleBundler.Graph.Basic
import ModuleBundler.Text.Json

namespace ModuleBundler

open Text (Json)

/-- What the manifest says of a module. -/
def ModuleRecord.toJson (record : ModuleRecord) : Json :=
  .object
    [ ("id", .number record.id),
      ("path", .text record.path.text),
      ("specifiers", .list (record.specifiers.map .text)),
      ("mapping", .object (record.mapping.map fun entry => (entry.1, .number entry.2))),
      ("content_hash", .text record.contentHash) ]

/-- The manifest of a graph. -/
def ModuleGraph.manifest (graph : ModuleGraph) : String :=
  (Json.object [("modules", .list (graph.modules.map ModuleRecord.toJson))]).pretty

end ModuleBundler
