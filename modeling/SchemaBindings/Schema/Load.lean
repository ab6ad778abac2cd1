import SchemaBindings.Schema.Merge
import SchemaBindings.Schema.Validation
import SchemaBindings.Sdl.Grammar

namespace SchemaBindings

open Sdl

structure LoadedSchema where
  schema : Schema
  markers : MarkerTable
  deriving Repr, Inhabited

namespace Load

def readFile (file : Nat) (source : SourceFile) :
    Except LoadError (List Placed × List Marker) :=
  match Document.parse? source.chars with
  | none => .error .cutEscape
  | some parsed =>
    if parsed.diagnostics.isEmpty then
      match scanMarkers file source with
      | .ok markers => .ok (parsed.document.definitions.map fun d => (file, d), markers)
      | .error dangling =>
        match dangling with
        | first :: _ => .error (.danglingMarker first.kind (first.span.inFile file))
        | [] => .ok (parsed.document.definitions.map fun d => (file, d), [])
    else .error (.syntaxErrors file (parsed.diagnostics.map (·.inFile file)))

def readFiles (file : Nat) : Sources → Except LoadError (List Placed × List Marker)
  | [] => .ok ([], [])
  | source :: sources => do
    let (definitions, markers) ← readFile file source
    let (otherDefinitions, otherMarkers) ← readFiles (file + 1) sources
    return (definitions ++ otherDefinitions, markers ++ otherMarkers)

def merge (sources : Sources) (definitions : List Placed) : Except LoadError Schema := do
  let types ← Merge.types definitions
  let scan := Merge.roots types (Merge.schemaParts definitions)
  let issues := scan.issues ++ validate types
  if issues.isEmpty then
    return ⟨sources, types, scan.roots, Merge.directives definitions⟩
  else throw (.invalid issues)

/-- The places at which markers may stand: the starts of types, fields and values. -/
def markable (t : SchemaType) : List (Nat × Nat) :=
  (t.file, t.definition.start) ::
    (t.fields.map fun (file, f) => (file, f.start)) ++
    (t.inputFields.map fun (file, f) => (file, f.start)) ++
    (t.values.map fun (file, v) => (file, v.start))

/-- The lines that a markable declaration opens. -/
def markableLines (s : Schema) : List (Nat × Nat) :=
  (s.types.flatMap markable).filterMap fun (file, offset) =>
    let source := s.sources.file file
    if source.opensLine offset then some (file, source.lineOf offset) else none

/-- The first marker whose line no markable declaration opens. -/
def detached? (s : Schema) (markers : List Marker) : Option Marker :=
  if markers.isEmpty then none
  else
    let lines := markableLines s
    markers.find? fun m => !lines.contains (m.file, m.targetLine)

end Load

/-- Files are read in order, and the first that cannot be read ends the loading. Then the
definitions are merged and checked, and every marker must have found a declaration. -/
def Schema.load (sources : Sources) : Except LoadError LoadedSchema := do
  let (definitions, markers) ← Load.readFiles 0 sources
  let schema ← Load.merge sources definitions
  match Load.detached? schema markers with
  | some m => throw (.detachedMarker m.kind (m.span.inFile m.file))
  | none => return ⟨schema, ⟨markers⟩⟩

end SchemaBindings
