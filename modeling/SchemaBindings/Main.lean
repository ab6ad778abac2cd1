import SchemaBindings.CommandLine.Run

namespace SchemaBindings.CommandLine

def Disk.ofSystem : Disk IO where
  read? path :=
    try
      return some (← IO.FS.readFile path)
    catch _ =>
      return none
  write folder name text :=
    try
      IO.FS.createDirAll folder
      IO.FS.writeFile (joinPath folder name) text
      return true
    catch _ =>
      return false

def usage : String :=
  "usage: gqlbind [-v | -q] generate FILES -o DIR [-l LANGS] [-t TABLES] [--exclude-future]\n" ++
    "                              [--no-header] [--package NAME]\n" ++
    "       gqlbind [-v | -q] check FILES [-t TABLES]\n" ++
    "       gqlbind [-v | -q] ir FILES [-t TABLES] [--exclude-future]\n" ++
    "       gqlbind [-v | -q] languages\n" ++
    "       gqlbind [-v | -q] version"

end SchemaBindings.CommandLine

open SchemaBindings CommandLine

/-- A run without a report ends with 101, as one that panics does. -/
def main (arguments : List String) : IO UInt32 := do
  match request? arguments with
  | .error .information =>
    IO.println usage
    return 0
  | .error .misuse =>
    IO.eprintln usage
    return 2
  | .ok request =>
    match ← run Disk.ofSystem request with
    | none =>
      IO.eprintln (LoadError.cutEscape.message [])
      return 101
    | some report =>
      report.output.forM IO.println
      report.errors.forM IO.eprintln
      return report.exit.toUInt32
