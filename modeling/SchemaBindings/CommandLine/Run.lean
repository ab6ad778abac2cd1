import SchemaBindings.CommandLine.Arguments
import SchemaBindings.Model.Build

namespace SchemaBindings.CommandLine

structure Disk (m : Type → Type) where
  read? : String → m (Option String)
  /-- Writes a file of a name and a text into a folder; the answer is whether that was possible. -/
  write : String → String → String → m Bool

/-- What a run leaves behind, its files apart. -/
structure Report where
  exit : Nat
  output : List String
  errors : List String
  deriving Repr, DecidableEq

namespace Report

def invalid (message : String) : Report :=
  ⟨1, [], [message]⟩

def done (output : List String) : Report :=
  ⟨0, output, []⟩

end Report

def padded (width : Nat) (s : String) : String :=
  .ofList (s.toList ++ List.replicate (width - s.length) ' ')

def joinPath (folder name : String) : String :=
  if folder.toList.getLast? = some '/' then folder ++ name else folder ++ "/" ++ name

/-- Why there is no model to go on with. -/
inductive Stop where
  | invalid (message : String)
  /-- A file ends inside an escape. -/
  | cutEscape
  deriving Repr, DecidableEq

def Stop.report? : Stop → Option Report
  | invalid message => some (.invalid message)
  | cutEscape => none

variable {m : Type → Type} [Monad m] (disk : Disk m)

/-- The tables of a file; without a file there are none. -/
def loadTables : Option String → m (Except Stop Tables)
  | none => return .ok .empty
  | some path => do
    match ← disk.read? path with
    | none => return .error (.invalid s!"failed to read `{path}`")
    | some text =>
      match Tables.parse? text.toList with
      | none => return .error (.invalid (Tables.invalidMessage path))
      | some tables => return .ok tables

def readSources : List String → m (Except Stop (List SourceFile))
  | [] => return .ok []
  | path :: paths => do
    match ← disk.read? path with
    | none => return .error (.invalid s!"failed to read `{path}`")
    | some text => return (← readSources paths).map (.ofText path text :: ·)

def modelOf (sources : Sources) (tables : Tables) : Except Stop Model :=
  match Schema.load sources with
  | .error .cutEscape => .error .cutEscape
  | .error e => .error (.invalid (e.message sources))
  | .ok loaded =>
    match Model.build loaded tables with
    | .error e => .error (.invalid (e.message sources))
    | .ok m => .ok m

def load (files : List String) (tables : Option String) : m (Except Stop (Tables × Model)) := do
  match ← loadTables disk tables with
  | .error stop => return .error stop
  | .ok tables =>
    match ← readSources disk files with
    | .error stop => return .error stop
    | .ok sources => return (modelOf sources tables).map fun m => (tables, m)

/-- The message about bindings that could not be written. -/
def failure (l : Language) : BindingError → String
  | .unsupported construct obstacle => construct.unsupportedMessage l obstacle
  | .template kind => s!"{l.text} template `{kind.text}` failed"

def writeBindings (out : String) (l : Language) :
    Except BindingError BindingFile → m (Except String String)
  | .error e => return .error (failure l e)
  | .ok file => do
    let path := joinPath out file.name
    if ← disk.write out file.name file.contents then
      return .ok s!"Generated {padded 10 l.text} {path} ({file.summary.display})"
    else return .error s!"failed to write `{path}`"

def generationReport (quiet : Bool) (results : List (Except String String)) : Report :=
  let lines := results.filterMap fun | .ok line => some line | .error _ => none
  let errors := results.filterMap fun | .ok _ => none | .error message => some message
  ⟨if errors.isEmpty then 0 else 2, if quiet then [] else lines, errors⟩

def generate (quiet : Bool) (out : String) (languages : List Language) (options : BindingOptions)
    (tables : Tables) (schema : Model) : m Report := do
  let results ← languages.mapM fun l =>
    writeBindings disk out l (bindings options schema tables l)
  return generationReport quiet results

def checkLines (files : Nat) (schema : Model) : List String :=
  let future := schema.futureTypes
  s!"Success: {files} file(s) checked ({(Summary.ofModel schema).display})" ::
    if future.isEmpty then [] else ["Future: " ++ ", ".intercalate future]

/-- Carries out a request, and reports on it. A schema that cannot even be read into tokens breaks
the run off, without a report. -/
def run (r : Request) : m (Option Report) := do
  match r.command with
  | .listLanguages =>
    return some (.done (Language.all.map fun l => padded 12 l.text ++ " " ++ l.fileName))
  | .printVersion =>
    let signed := Model.Metadata.signed []
    return some (.done [signed.generator ++ " " ++ signed.version])
  | .check files tables =>
    match ← load disk files tables with
    | .error stop => return stop.report?
    | .ok (_, schema) =>
      return some (.done (if r.quiet then [] else checkLines files.length schema))
  | .printModel files tables includeFuture =>
    match ← load disk files tables with
    | .error stop => return stop.report?
    | .ok (_, schema) =>
      return some (.done [(if includeFuture then schema else schema.stable).toJson.pretty])
  | .generate files tables out languages options =>
    match ← load disk files tables with
    | .error stop => return stop.report?
    | .ok (tables, schema) =>
      return some (← generate disk r.quiet out languages options tables schema)

end SchemaBindings.CommandLine
