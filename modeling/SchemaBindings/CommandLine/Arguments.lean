import SchemaBindings.Target.Bindings

namespace SchemaBindings.CommandLine

inductive Command where
  | generate (files : List String) (tables : Option String) (out : String)
      (languages : List Language) (options : BindingOptions)
  | check (files : List String) (tables : Option String)
  | printModel (files : List String) (tables : Option String) (includeFuture : Bool)
  | listLanguages
  | printVersion
  deriving Repr, DecidableEq

structure Request where
  command : Command
  quiet : Bool
  deriving Repr, DecidableEq

inductive Refusal where
  | information
  | misuse
  deriving Repr, DecidableEq

inductive Setting where
  | verbose
  | quiet
  | help
  | version
  | excludeFuture
  | noHeader
  | out
  | languages
  | tables
  | package
  deriving Repr, DecidableEq

namespace Setting

def longName : Setting → String
  | verbose => "verbose"
  | quiet => "quiet"
  | help => "help"
  | version => "version"
  | excludeFuture => "exclude-future"
  | noHeader => "no-header"
  | out => "out"
  | languages => "lang"
  | tables => "tables"
  | package => "package"

def letter? : Setting → Option Char
  | verbose => some 'v'
  | quiet => some 'q'
  | help => some 'h'
  | version => some 'V'
  | out => some 'o'
  | languages => some 'l'
  | tables => some 't'
  | _ => none

def takesValue : Setting → Bool
  | out | languages | tables | package => true
  | _ => false

end Setting

inductive Verb where
  | generate
  | check
  | ir
  | languages
  | version
  deriving Repr, DecidableEq

namespace Verb

def all : List Verb :=
  [.generate, .check, .ir, .languages, .version]

def text : Verb → String
  | generate => "generate"
  | check => "check"
  | ir => "ir"
  | languages => "languages"
  | version => "version"

def ofText? (s : String) : Option Verb :=
  all.find? (·.text == s)

def settings : Verb → List Setting
  | generate =>
    [.verbose, .quiet, .help, .out, .languages, .tables, .excludeFuture, .noHeader, .package]
  | check => [.verbose, .quiet, .help, .tables]
  | ir => [.verbose, .quiet, .help, .tables, .excludeFuture]
  | languages | version => [.verbose, .quiet, .help]

def takesFiles : Verb → Bool
  | generate | check | ir => true
  | languages | version => false

end Verb

def firstSettings : List Setting :=
  [.verbose, .quiet, .help, .version]

structure Given where
  flags : List Setting
  out : Option String
  tables : Option String
  package : Option String
  languages : List Language
  files : List String
  deriving Repr, DecidableEq

namespace Given

def empty : Given :=
  ⟨[], none, none, none, [], []⟩

def addFlag (g : Given) (s : Setting) : Except Refusal Given :=
  if s = .help ∨ s = .version then .error .information
  else if s ∈ g.flags then .error .misuse
  else .ok { g with flags := s :: g.flags }

def setOnce (old : Option String) (value : String) (set : Option String → Given) :
    Except Refusal Given :=
  if old.isSome then .error .misuse else .ok (set (some value))

/-- Adds the value of an option. Paths are not empty; languages are separated by commas. -/
def addValue (g : Given) (s : Setting) (value : String) : Except Refusal Given :=
  match s with
  | .out =>
    if value = "" then .error .misuse else setOnce g.out value fun v => { g with out := v }
  | .tables =>
    if value = "" then .error .misuse else setOnce g.tables value fun v => { g with tables := v }
  | .package => setOnce g.package value fun v => { g with package := v }
  | .languages =>
    let names := (Text.splitAt (· == ',') value.toList).map String.ofList
    match names.mapM Language.ofText? with
    | some languages => .ok { g with languages := g.languages ++ languages }
    | none => .error .misuse
  | _ => .error .misuse

def addFile (g : Given) (file : String) : Except Refusal Given :=
  if file = "" then .error .misuse else .ok { g with files := g.files ++ [file] }

/-- Adds the options of a cluster of letters. An option that takes a value takes what is left of the
cluster, after an equals sign if there is one; without anything left it waits for a value. -/
def addLetters (allowed : List Setting) (g : Given) :
    List Char → Except Refusal (Given × Option Setting)
  | [] => .ok (g, none)
  | c :: cs =>
    match allowed.find? fun s => s.letter? == some c with
    | none => .error .misuse
    | some s =>
      if s.takesValue then
        match cs with
        | [] => .ok (g, some s)
        | '=' :: value => (g.addValue s (.ofList value)).map fun g => (g, none)
        | value => (g.addValue s (.ofList value)).map fun g => (g, none)
      else (g.addFlag s).bind fun g => addLetters allowed g cs

def addLong (allowed : List Setting) (g : Given) (cs : List Char) :
    Except Refusal (Given × Option Setting) :=
  let name := cs.takeWhile (· != '=')
  match allowed.find? fun s => s.longName.toList == name, cs.dropWhile (· != '=') with
  | none, _ => .error .misuse
  | some s, [] =>
    if s.takesValue then .ok (g, some s) else (g.addFlag s).map fun g => (g, none)
  | some s, _ :: value =>
    if s.takesValue then (g.addValue s (.ofList value)).map fun g => (g, none)
    else .error .misuse

def isOption (argument : String) : Bool :=
  match argument.toList with
  | '-' :: _ :: _ => true
  | _ => false

def addOption (allowed : List Setting) (g : Given) (argument : String) :
    Except Refusal (Given × Option Setting) :=
  match argument.toList with
  | '-' :: '-' :: cs => addLong allowed g cs
  | _ :: cs => addLetters allowed g cs
  | [] => .ok (g, none)

/-- Whether the settings of one part of the arguments exclude each other. -/
def isContradictory (g : Given) : Bool :=
  g.flags.contains .verbose && g.flags.contains .quiet

def addAll (verb : Verb) (g : Given) : List String → Except Refusal Given
  | [] => .ok g
  | argument :: rest =>
    if argument = "--" then
      if verb.takesFiles then rest.foldlM addFile g
      else if rest.isEmpty then .ok g
      else .error .misuse
    else if isOption argument then
      match addOption verb.settings g argument, rest with
      | .error e, _ => .error e
      | .ok (g, none), rest => addAll verb g rest
      | .ok (_, some _), [] => .error .misuse
      | .ok (g, some s), value :: rest =>
        if isOption value then .error .misuse
        else (g.addValue s value).bind fun g => addAll verb g rest
    else if verb.takesFiles then (g.addFile argument).bind fun g => addAll verb g rest
    else .error .misuse

def command (verb : Verb) (g : Given) : Except Refusal Command :=
  if g.isContradictory then .error .misuse
  else
    let includeFuture := !g.flags.contains .excludeFuture
    match verb with
    | .languages => .ok .listLanguages
    | .version => .ok .printVersion
    | .check => if g.files.isEmpty then .error .misuse else .ok (.check g.files g.tables)
    | .ir =>
      if g.files.isEmpty then .error .misuse
      else .ok (.printModel g.files g.tables includeFuture)
    | .generate =>
      match g.out with
      | none => .error .misuse
      | some out =>
        if g.files.isEmpty then .error .misuse
        else
          let languages := if g.languages.isEmpty then Language.all else g.languages.eraseDups
          .ok (.generate g.files g.tables out languages
            ⟨⟨!g.flags.contains .noHeader, g.package⟩, includeFuture⟩)

end Given

/-- The answer to the word `help`, which may be followed by the word of a command. -/
def helpRefusal : List String → Refusal
  | [] => .information
  | [word] =>
    if word = "help" ∨ (Verb.ofText? word).isSome then .information else .misuse
  | _ => .misuse

def requestAfter? (g : Given) : List String → Except Refusal Request
  | [] => .error .misuse
  | argument :: rest =>
    if argument = "--" then .error .misuse
    else if Given.isOption argument then
      (Given.addOption firstSettings g argument).bind fun read => requestAfter? read.1 rest
    else if argument = "help" then .error (helpRefusal rest)
    else
      match Verb.ofText? argument with
      | none => .error .misuse
      | some verb => do
        let given ← Given.empty.addAll verb rest
        let command ← given.command verb
        if g.isContradictory then throw .misuse
        return ⟨command, g.flags.contains .quiet || given.flags.contains .quiet⟩

def request? (arguments : List String) : Except Refusal Request :=
  requestAfter? .empty arguments

end SchemaBindings.CommandLine
