/-
# ModuleBundler.Proofs.Graph.ManifestReading — what is written of a graph can be read back.

The manifest of a graph and the mapping of a module in a bundle are written by different functions,
one over several lines and one in a row, but both are texts in JSON.  A reader that knows the names
of the fields gets from the manifest all that it says of each module, and from a mapping all of its
entries in their order (`manifest_decodes`).  So the manifests of two graphs are the same text only
if the graphs agree in all of this.
-/
import ModuleBundler.Graph.Manifest
import ModuleBundler.Registry
import ModuleBundler.Proofs.Text.JsonReading

namespace ModuleBundler

open Text

/-! ## Parts of a value -/

namespace Text.Datum

/-- The value of a field of an object. -/
def field? (name : String) : Datum → Option Datum
  | .object fields => fields.lookup name
  | _ => none

/-- A string. -/
def text? : Datum → Option String
  | .text value => some value
  | _ => none

/-- A number that is written with digits alone. -/
def natural? : Datum → Option Nat
  | .number ⟨false, n, [], 0⟩ => some n
  | _ => none

/-- The items of a list, each of them read. -/
def list? {α : Type} (item : Datum → Option α) : Datum → Option (List α)
  | .list items => items.mapM item
  | _ => none

/-- The fields of an object in their order, the value of each of them read. -/
def fields? {α : Type} (value : Datum → Option α) : Datum → Option (List (String × α))
  | .object fields => fields.mapM fun field => (value field.2).map (field.1, ·)
  | _ => none

end Text.Datum

/-! ## Modules in a manifest -/

/-- What a manifest says of a module. -/
structure ManifestEntry where
  id : Nat
  path : String
  specifiers : List String
  mapping : List (String × Nat)
  contentHash : String
  deriving DecidableEq, Repr

namespace ManifestEntry

/-- Reads what is said of a module. -/
def ofDatum? (datum : Datum) : Option ManifestEntry := do
  let id ← (← datum.field? "id").natural?
  let path ← (← datum.field? "path").text?
  let specifiers ← (← datum.field? "specifiers").list? Datum.text?
  let mapping ← (← datum.field? "mapping").fields? Datum.natural?
  let contentHash ← (← datum.field? "content_hash").text?
  return ⟨id, path, specifiers, mapping, contentHash⟩

/-- Reads a manifest. -/
def readAll? (manifest : String) : Option (List ManifestEntry) := do
  let datum ← JsonReader.read? manifest
  (← datum.field? "modules").list? ofDatum?

end ManifestEntry

/-- What the manifest is to say of a module. -/
def ModuleRecord.manifestEntry (record : ModuleRecord) : ManifestEntry :=
  ⟨record.id, record.path.text, record.specifiers, record.mapping, record.contentHash⟩

/-! ## Reading -/

/-- Where each element of a list is read, the list is. -/
theorem mapM_map_some {α β γ : Type} (make : α → β) (read : β → Option γ) (part : α → γ)
    (reads : ∀ a, read (make a) = some (part a)) (items : List α) :
    (items.map make).mapM read = some (items.map part) := by
  induction items with
  | nil => rfl
  | cons item items ih => simp [reads, ih]

theorem fields?_naturals (mapping : List (String × Nat)) :
    (Datum.object (mapping.map fun entry => (entry.1, .number (.ofNat entry.2)))).fields?
      Datum.natural? = some mapping := by
  have reads (entry : String × Nat) :
      (Datum.natural? (.number (.ofNat entry.2))).map (entry.1, ·) = some entry := rfl
  have read := mapM_map_some
    (fun entry : String × Nat => (entry.1, Datum.number (.ofNat entry.2)))
    (fun field => (Datum.natural? field.2).map (field.1, ·)) (fun entry => entry) reads mapping
  rw [List.map_id'] at read
  exact read

/-- What the manifest says of a module is read. -/
theorem ofDatum?_toJson (record : ModuleRecord) :
    ManifestEntry.ofDatum? record.toJson.datum = some record.manifestEntry := by
  have identity : Datum.natural? (.number (.ofNat record.id)) = some record.id := rfl
  have specifiers : (Datum.list (record.specifiers.map .text)).list? Datum.text? =
      some record.specifiers := by
    have read := mapM_map_some Datum.text Datum.text? id
      (fun _ => rfl) record.specifiers
    rwa [List.map_id] at read
  have mapping := fields?_naturals record.mapping
  have datum : record.toJson.datum = .object
      [ ("id", .number (.ofNat record.id)),
        ("path", .text record.path.text),
        ("specifiers", .list (record.specifiers.map .text)),
        ("mapping", .object (record.mapping.map fun entry => (entry.1, .number (.ofNat entry.2)))),
        ("content_hash", .text record.contentHash) ] := by
    simp [ModuleRecord.toJson, Json.datum]
  rw [datum]
  simp [ManifestEntry.ofDatum?, Datum.field?, List.lookup_cons, identity, specifiers, mapping,
    Datum.text?, ModuleRecord.manifestEntry]

/-- The manifest of a graph says of every module what it is to say. -/
theorem readAll?_manifest (graph : ModuleGraph) :
    ManifestEntry.readAll? graph.manifest =
      some (graph.modules.map ModuleRecord.manifestEntry) := by
  have modules := mapM_map_some (fun record : ModuleRecord => record.toJson.datum)
    ManifestEntry.ofDatum? ModuleRecord.manifestEntry ofDatum?_toJson graph.modules
  rw [ManifestEntry.readAll?, ModuleGraph.manifest, Json.read?_pretty]
  simp [Json.datum, Datum.field?, Datum.list?, modules, Function.comp_def]

/-- A mapping in a row is read like one over several lines. -/
theorem read?_mapping (record : ModuleRecord) :
    JsonReader.read? (Registry.mapping record) =
      some (.object (record.mapping.map fun entry => (entry.1, .number (.ofNat entry.2)))) := by
  let parts := record.mapping.map fun entry =>
    (quotedChars entry.1 ++ ':' :: ' ' :: Nat.toDigits 10 entry.2, entry.1,
      Datum.number (.ofNat entry.2))
  have written : (Registry.mapping record).toList =
      '\x7b' :: ([] ++ ((',' :: [' ']).intercalate (parts.map (·.1)) ++ ([] ++ ['\x7d']))) := by
    simp [Registry.mapping, parts, String.toList_intercalate, quoted, Function.comp_def]
  obtain ⟨depth, deep⟩ : ∃ depth, (Registry.mapping record).length = depth + 2 := by
    rw [← String.length_toList, written]
    simp
  apply JsonReader.read?_of_reads
  rw [deep, written]
  have reads : ∀ part ∈ parts,
      JsonReader.Reads (JsonReader.field? (JsonReader.value? (depth + 1))) part.1 part.2 := by
    intro part isPart
    obtain ⟨entry, -, rfl⟩ := List.mem_map.mp isPart
    exact JsonReader.reads_field (JsonReader.reads_number depth entry.2) entry.1
  have object := JsonReader.reads_object JsonReader.blank_nil JsonReader.blank_space
    JsonReader.blank_nil (JsonReader.apart_cons (by decide)) reads
  simpa [parts, Function.comp_def] using object

/-- The manifest of a graph is JSON and says of every module, in order, what it is to say; the
mapping of a module in a bundle is JSON too and has the entries of the mapping in order.  So two
graphs have the same manifest exactly if it is to say the same of their modules. -/
theorem ModuleGraph.manifest_decodes (graph : ModuleGraph) :
    ManifestEntry.readAll? graph.manifest = some (graph.modules.map ModuleRecord.manifestEntry) ∧
    (∀ record, (JsonReader.read? (Registry.mapping record)).bind
      (Datum.fields? Datum.natural?) = some record.mapping) ∧
    ∀ other : ModuleGraph, graph.manifest = other.manifest ↔
      graph.modules.map ModuleRecord.manifestEntry =
        other.modules.map ModuleRecord.manifestEntry := by
  refine ⟨readAll?_manifest graph, ?_, ?_⟩
  · intro record
    rw [read?_mapping]
    exact fields?_naturals record.mapping
  · intro other
    constructor
    · intro same
      have read := readAll?_manifest other
      rw [← same, readAll?_manifest graph] at read
      exact Option.some_inj.mp read
    · intro same
      -- what is written of a module does not depend on its code
      let written (entry : ManifestEntry) : Json :=
        ModuleRecord.toJson
          ⟨entry.id, ⟨entry.path⟩, entry.specifiers, "", entry.mapping, entry.contentHash⟩
      have factors : ModuleRecord.toJson = written ∘ ModuleRecord.manifestEntry := rfl
      rw [manifest, manifest, factors, ← List.map_map, ← List.map_map, same]

end ModuleBundler
